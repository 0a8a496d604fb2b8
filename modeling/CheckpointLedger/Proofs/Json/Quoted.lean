import CheckpointLedger.Json.Parser
import CheckpointLedger.Json.Quoted
import CheckpointLedger.Proofs.Text.Numeral

/-!
The inside of a written string. Each character is read back from its own escape, and the
lexer passes over all of them without leaving the string.
-/

namespace CheckpointLedger.Quoted

/-- The three ways to write a character. -/
inductive Written (char : Char) : List Char → Prop where
  | short (mark : Char) (known : shortEscape? mark = some char) : Written char ['\\', mark]
  | unit (control : char.toNat < 32) :
      Written char ('\\' :: 'u' :: Numeral.hexadecimal 4 char.toNat)
  | plain (quote : char ≠ '"') (backslash : char ≠ '\\') (above : ¬ char < ' ') :
      Written char [char]

theorem escapeChar_written (char : Char) : Written char (escapeChar char) := by
  simp only [escapeChar]
  split
  iterate 7 exact .short _ rfl
  split
  · exact .unit ‹_›
  · exact .plain ‹_› ‹_› ‹_›

theorem pieces_short (mark char : Char) (rest : List Char) (known : shortEscape? mark = some char) :
    pieces ('\\' :: mark :: rest) = (pieces rest).map (.char char :: ·) := by
  have notUnit : mark ≠ 'u' := by
    rintro rfl
    cases known
  rw [pieces.eq_3 _ _ (by simp [notUnit])]
  simp only [known]
  cases pieces rest <;> rfl

theorem pieces_unit (value : Nat) (small : value < 32) (rest : List Char) :
    pieces ('\\' :: 'u' :: Numeral.hexadecimal 4 value ++ rest) =
      (pieces rest).map (.unit value :: ·) := by
  have whole : Numeral.readHexadecimal? (Numeral.hexadecimal 4 value) = some value := by
    rw [Numeral.readHexadecimal?_hexadecimal, Nat.mod_eq_of_lt (by omega)]
  simp only [Numeral.hexadecimal, List.nil_append, List.cons_append] at whole ⊢
  simp only [pieces, whole]
  cases pieces rest <;> rfl

theorem pieces_plain (char : Char) (rest : List Char) (plain : char ≠ '\\') :
    pieces (char :: rest) = (pieces rest).map (.char char :: ·) := by
  rw [pieces.eq_4 _ _ (by simp [plain]) (by simp [plain])]
  cases pieces rest <;> rfl

theorem chars_unit (value : Nat) (small : value < 32) (rest : List Piece) :
    chars (.unit value :: rest) = (chars rest).map (Char.ofNat value :: ·) := by
  have high : isHigh value = false := by simp [isHigh]; omega
  have low : isLow value = false := by simp [isLow]; omega
  rw [chars.eq_def]
  simp only [high, low]
  cases chars rest <;> rfl

theorem chars_char (char : Char) (rest : List Piece) :
    chars (.char char :: rest) = (chars rest).map (char :: ·) := by
  rw [chars.eq_2]
  cases chars rest <;> rfl

/-- A character is read back in front of what follows. -/
theorem chars_escapeChar (char : Char) (rest : List Char) :
    (pieces (escapeChar char ++ rest)).bind chars =
      ((pieces rest).bind chars).map (char :: ·) := by
  have written := escapeChar_written char
  generalize escapeChar char = form at written
  cases written with
  | short mark known =>
      have first : pieces (['\\', mark] ++ rest) = _ := pieces_short mark char rest known
      rw [first]
      cases pieces rest with
      | none => rfl
      | some later => exact chars_char char later
  | unit control =>
      rw [pieces_unit char.toNat control rest]
      cases pieces rest with
      | none => rfl
      | some later =>
          refine (chars_unit char.toNat control later).trans ?_
          rw [Char.ofNat_toNat]
          rfl
  | plain quote backslash above =>
      have first : pieces ([char] ++ rest) = _ := pieces_plain char rest backslash
      rw [first]
      cases pieces rest with
      | none => rfl
      | some later => exact chars_char char later

/-- An escaped text is read back. -/
theorem unescape?_escape (text : String) : unescape? (escape text) = some text := by
  have each : ∀ letters : List Char,
      (pieces (letters.flatMap escapeChar)).bind chars = some letters := by
    intro letters
    induction letters with
    | nil => rfl
    | cons letter rest ih => rw [List.flatMap_cons, chars_escapeChar, ih, Option.map_some]
  rw [unescape?, escape, each, Option.map_some, String.ofList_toList]

end CheckpointLedger.Quoted

namespace CheckpointLedger.Lexer

/-- Characters that stand inside a string and do not end it. -/
def Inside (written : List Char) : Prop :=
  ∀ reversed rest, scan (.text reversed) (written ++ rest) =
    scan (.text (written.reverse ++ reversed)) rest

theorem inside_nil : Inside [] := fun _ _ => rfl

theorem inside_append (first second : List Char) (before : Inside first) (after : Inside second) :
    Inside (first ++ second) := by
  intro reversed rest
  rw [List.append_assoc, before, after, List.reverse_append, List.append_assoc]

theorem inside_plain (char : Char) (quote : char ≠ '"') (backslash : char ≠ '\\')
    (above : ¬ char < ' ') : Inside [char] := by
  intro reversed rest
  simp [scan, step, quote, backslash, above]

theorem inside_short (mark char : Char) (known : Quoted.shortEscape? mark = some char) :
    Inside ['\\', mark] := by
  have short : isShortEscape mark = true := by
    simp only [Quoted.shortEscape?] at known
    split at known <;> first | rfl | cases known
  intro reversed rest
  simp [scan, step, short]

theorem isHexDigit_hexDigit (value : Nat) : isHexDigit (Numeral.hexDigit value) = true := by
  have each : ∀ digit : Fin 16, isHexDigit digit.val.digitChar = true := by decide
  exact each ⟨value % 16, Nat.mod_lt _ (by decide)⟩

theorem inside_unit (value : Nat) : Inside ('\\' :: 'u' :: Numeral.hexadecimal 4 value) := by
  intro reversed rest
  have mark : isShortEscape 'u' = false := rfl
  simp [scan, step, mark, Numeral.hexadecimal, isHexDigit_hexDigit]

theorem inside_escape (text : String) : Inside (Quoted.escape text) := by
  have each : ∀ char, Inside (Quoted.escapeChar char) := by
    intro char
    have written := Quoted.escapeChar_written char
    generalize Quoted.escapeChar char = form at written
    cases written with
    | short mark known => exact inside_short mark char known
    | unit control => exact inside_unit char.toNat
    | plain quote backslash above => exact inside_plain char quote backslash above
  rw [Quoted.escape]
  induction text.toList with
  | nil => exact inside_nil
  | cons char rest ih => exact inside_append _ _ (each char) ih

theorem inside_digit (digit : Char) (isDigit : digit.isDigit = true) : Inside [digit] := by
  refine inside_plain digit ?_ ?_ ?_
  · rintro rfl
    cases isDigit
  · rintro rfl
    cases isDigit
  · exact Char.not_lt.mpr (Char.le_trans (by decide) (Numeral.digit_bounds digit isDigit).1)

theorem inside_digits (digits : List Char) (each : ∀ digit ∈ digits, digit.isDigit = true) :
    Inside digits := by
  induction digits with
  | nil => exact inside_nil
  | cons digit rest ih =>
      have first := inside_digit digit (each digit List.mem_cons_self)
      exact inside_append [digit] rest first (ih fun other member =>
        each other (List.mem_cons_of_mem _ member))

end CheckpointLedger.Lexer
