import CheckpointLedger.Proofs.Text.Utf8
import Mathlib.Tactic.SplitIfs

/-!
What the lenient reading shows of bytes. It is in step again at every ASCII byte, and replaces
something exactly in what is not UTF-8. Bytes are shown like no others exactly if no replacement
character is shown.
-/

namespace CheckpointLedger.Utf8

/-! Bytes that no character in progress takes. -/

/-- A character in progress waits for bytes beyond ASCII only. -/
def Waits (state : Option Partial) : Prop := ∀ begun, state = some begun → 0x80 ≤ begun.least

theorem waits_none : Waits none := fun _ none => nomatch none

theorem start_waits (byte : Nat) : Waits (start byte).2 := by
  intro begun begins
  simp only [start] at begins
  grind

theorem step_waits (state : Option Partial) (byte : Nat) : Waits (step state byte).2 := by
  cases state with
  | none => exact start_waits byte
  | some begun =>
      simp only [step]
      split_ifs
      · exact waits_none
      · intro next continues
        have same := Option.some.inj continues
        subst same
        exact Nat.le_refl _
      · exact start_waits byte

theorem scanFrom_cons (state : Option Partial) (byte : UInt8) (rest : List UInt8) :
    scanFrom state (byte :: rest) =
      (step state byte.toNat).1 ++ scanFrom (step state byte.toNat).2 rest := by
  cases state <;> rfl

/-- An ASCII byte ends what was in progress, and is read as if it came first. -/
theorem scanFrom_ascii (state : Option Partial) (waits : Waits state) (front back : List UInt8)
    (byte : UInt8) (ascii : byte.toNat < 0x80) :
    scanFrom state (front ++ byte :: back) =
      scanFrom state front ++ scanFrom none (byte :: back) := by
  induction front generalizing state with
  | nil =>
      cases state with
      | none => rfl
      | some begun =>
          have least := waits begun rfl
          have outside : ¬ (begun.least ≤ byte.toNat ∧ byte.toNat ≤ begun.greatest) := by omega
          simp [scanFrom, step, outside]
  | cons first rest ih =>
      have later := ih (step state first.toNat).2 (step_waits state first.toNat)
      rw [List.cons_append, scanFrom_cons, later, scanFrom_cons state, List.append_assoc]

theorem scan_ascii (front back : List UInt8) (byte : UInt8) (ascii : byte.toNat < 0x80) :
    scan (front ++ byte :: back) =
      scan front ++ some (Char.ofNat byte.toNat) :: scan back := by
  have first : scanFrom none (byte :: back) =
      some (Char.ofNat byte.toNat) :: scanFrom none back := by
    simp [scanFrom, step, start, ascii]
  rw [scan, scanFrom_ascii none waits_none front back byte ascii, first]
  rfl

/-! Bytes that are read as characters are the bytes of these. -/

section Characters

variable {first second third fourth : UInt8}

theorem exists_char (code : Nat) (valid : code.isValidChar) :
    ∃ char : Char, char.val.toNat = code :=
  ⟨Char.ofNatAux code valid, rfl⟩

theorem encodeChar_one (ascii : first.toNat < 0x80) :
    String.utf8EncodeChar (Char.ofNat first.toNat) = [first] := by
  have valid : first.toNat.isValidChar := .inl (by omega)
  have value : (Char.ofNat first.toNat).val.toNat = first.toNat := by
    rw [Char.ofNat, dif_pos valid]
    rfl
  rw [String.utf8EncodeChar, value, if_pos (by omega), UInt8.ofNat_toNat]

/-- A byte is told by its number. -/
theorem ofNat_eq (byte : UInt8) (value : Nat) (same : value = byte.toNat) :
    UInt8.ofNat value = byte := by
  rw [same, UInt8.ofNat_toNat]

theorem encodeChar_two (lead : 0xC2 ≤ first.toNat ∧ first.toNat < 0xE0)
    (tail : 0x80 ≤ second.toNat ∧ second.toNat ≤ 0xBF) :
    ∃ char, String.utf8EncodeChar char = [first, second] := by
  obtain ⟨char, value⟩ := exists_char ((first.toNat - 0xC0) * 64 + (second.toNat - 0x80))
    (.inl (by omega))
  refine ⟨char, ?_⟩
  have high := ofNat_eq first (char.val.toNat / 64 % 32 + 192) (by omega)
  have low := ofNat_eq second (char.val.toNat % 64 + 128) (by omega)
  rw [String.utf8EncodeChar, if_neg (by omega), if_pos (by omega), high, low]

theorem encodeChar_three (lead : 0xE0 ≤ first.toNat ∧ first.toNat < 0xF0)
    (next : (if first.toNat = 0xE0 then 0xA0 else 0x80) ≤ second.toNat ∧
      second.toNat ≤ if first.toNat = 0xED then 0x9F else 0xBF)
    (tail : 0x80 ≤ third.toNat ∧ third.toNat ≤ 0xBF) :
    ∃ char, String.utf8EncodeChar char = [first, second, third] := by
  have bounds : 0x80 ≤ second.toNat ∧ second.toNat ≤ 0xBF ∧
      (first.toNat = 0xE0 → 0xA0 ≤ second.toNat) ∧ (first.toNat = 0xED → second.toNat ≤ 0x9F) := by
    split_ifs at next <;> omega
  obtain ⟨char, value⟩ := exists_char
    (((first.toNat - 0xE0) * 64 + (second.toNat - 0x80)) * 64 + (third.toNat - 0x80))
    (by simp only [Nat.isValidChar]; omega)
  refine ⟨char, ?_⟩
  have high := ofNat_eq first (char.val.toNat / 4096 % 16 + 224) (by omega)
  have middle := ofNat_eq second (char.val.toNat / 64 % 64 + 128) (by omega)
  have low := ofNat_eq third (char.val.toNat % 64 + 128) (by omega)
  rw [String.utf8EncodeChar, if_neg (by omega), if_neg (by omega), if_pos (by omega), high,
    middle, low]

theorem encodeChar_four (lead : 0xF0 ≤ first.toNat ∧ first.toNat < 0xF5)
    (next : (if first.toNat = 0xF0 then 0x90 else 0x80) ≤ second.toNat ∧
      second.toNat ≤ if first.toNat = 0xF4 then 0x8F else 0xBF)
    (tail : 0x80 ≤ third.toNat ∧ third.toNat ≤ 0xBF)
    (last : 0x80 ≤ fourth.toNat ∧ fourth.toNat ≤ 0xBF) :
    ∃ char, String.utf8EncodeChar char = [first, second, third, fourth] := by
  have bounds : 0x80 ≤ second.toNat ∧ second.toNat ≤ 0xBF ∧
      (first.toNat = 0xF0 → 0x90 ≤ second.toNat) ∧ (first.toNat = 0xF4 → second.toNat ≤ 0x8F) := by
    split_ifs at next <;> omega
  obtain ⟨char, value⟩ := exists_char
    ((((first.toNat - 0xF0) * 64 + (second.toNat - 0x80)) * 64 + (third.toNat - 0x80)) * 64 +
      (fourth.toNat - 0x80)) (.inr (by omega))
  refine ⟨char, ?_⟩
  have high := ofNat_eq first (char.val.toNat / 262144 % 8 + 240) (by omega)
  have second' := ofNat_eq second (char.val.toNat / 4096 % 64 + 128) (by omega)
  have third' := ofNat_eq third (char.val.toNat / 64 % 64 + 128) (by omega)
  have low := ofNat_eq fourth (char.val.toNat % 64 + 128) (by omega)
  rw [String.utf8EncodeChar, if_neg (by omega), if_neg (by omega), if_neg (by omega), high,
    second', third', low]

end Characters

/-- A character in progress is continued, or it is replaced and its last byte read again. -/
theorem continued_or_replaced {begun : Partial} {bytes : List UInt8} {read : List (Option Char)}
    (progress : read = scanFrom (some begun) bytes) :
    (∃ byte rest, bytes = byte :: rest ∧ begun.least ≤ byte.toNat ∧ byte.toNat ≤ begun.greatest) ∨
      read = none :: scan bytes := by
  cases bytes with
  | nil => exact .inr progress
  | cons byte rest =>
      by_cases within : begun.least ≤ byte.toNat ∧ byte.toNat ≤ begun.greatest
      · exact .inl ⟨byte, rest, rfl, within⟩
      · exact .inr (by simp [progress, scan, scanFrom, step, within])

/-- At the front of bytes stands a character, or something that is replaced. -/
theorem scan_front (byte : UInt8) (rest : List UInt8) :
    (∃ char back, byte :: rest = String.utf8EncodeChar char ++ back) ∨
      ∃ front back, rest = front ++ back ∧ scan (byte :: rest) = none :: scan back := by
  by_cases ascii : byte.toNat < 0x80
  · exact .inl ⟨_, rest, by rw [encodeChar_one ascii]; rfl⟩
  by_cases two : 0xC2 ≤ byte.toNat ∧ byte.toNat < 0xE0
  · have lead := scan_lead byte rest _ (start_two _ two)
    obtain ⟨second, back, rfl, tail⟩ | replaced := continued_or_replaced lead
    · obtain ⟨char, written⟩ := encodeChar_two two tail
      exact .inl ⟨char, back, by rw [written]; rfl⟩
    · exact .inr ⟨[], rest, rfl, replaced⟩
  by_cases three : 0xE0 ≤ byte.toNat ∧ byte.toNat < 0xF0
  · have lead := scan_lead byte rest _ (start_three _ three)
    obtain ⟨second, back, rfl, next⟩ | replaced := continued_or_replaced lead
    · rw [scan_continue _ 0 _ _ _ _ next] at lead
      obtain ⟨third, back, rfl, tail⟩ | replaced := continued_or_replaced lead
      · obtain ⟨char, written⟩ := encodeChar_three three next tail
        exact .inl ⟨char, back, by rw [written]; rfl⟩
      · exact .inr ⟨[second], back, rfl, replaced⟩
    · exact .inr ⟨[], rest, rfl, replaced⟩
  by_cases four : 0xF0 ≤ byte.toNat ∧ byte.toNat < 0xF5
  · have lead := scan_lead byte rest _ (start_four _ four)
    obtain ⟨second, back, rfl, next⟩ | replaced := continued_or_replaced lead
    · rw [scan_continue _ 1 _ _ _ _ next] at lead
      obtain ⟨third, back, rfl, tail⟩ | replaced := continued_or_replaced lead
      · rw [scan_continue _ 0 _ _ _ _ tail] at lead
        obtain ⟨fourth, back, rfl, last⟩ | replaced := continued_or_replaced lead
        · obtain ⟨char, written⟩ := encodeChar_four four next tail last
          exact .inl ⟨char, back, by rw [written]; rfl⟩
        · exact .inr ⟨[second, third], back, rfl, replaced⟩
      · exact .inr ⟨[second], back, rfl, replaced⟩
    · exact .inr ⟨[], rest, rfl, replaced⟩
  · -- No character begins with a byte that is left.
    have stray : start byte.toNat = ([none], none) := by
      simp only [start]
      grind
    exact .inr ⟨[], rest, rfl, by simp [scan, scanFrom, step, stray]⟩

/-- What holds of a row of bytes if it holds behind each character and each replacement, holds
of all rows of bytes. -/
theorem scan_induction {holds : List UInt8 → Prop} (empty : holds [])
    (character : ∀ char back, holds back → holds (String.utf8EncodeChar char ++ back))
    (replacement : ∀ byte front back, scan (byte :: (front ++ back)) = none :: scan back →
      holds back → holds (byte :: (front ++ back)))
    (bytes : List UInt8) : holds bytes := by
  induction whole : bytes.length using Nat.strongRecOn generalizing bytes with
  | ind size ih =>
      cases bytes with
      | nil => exact empty
      | cons byte rest =>
          obtain ⟨char, back, split⟩ | ⟨front, back, rfl, replaced⟩ := scan_front byte rest
          · have lengths := congrArg List.length split
            have least : 0 < (String.utf8EncodeChar char).length := by simp [Char.utf8Size_pos]
            rw [List.length_append, whole] at lengths
            rw [split]
            exact character char back (ih _ (by omega) back rfl)
          · rw [List.length_cons, List.length_append] at whole
            exact replacement byte front back replaced (ih _ (by omega) back rfl)

theorem scan_char (char : Char) (back : List UInt8) :
    scan (String.utf8EncodeChar char ++ back) = some char :: scan back :=
  scan_encodeChar char back

theorem chars_of_clean (bytes : List UInt8) (clean : none ∉ scan bytes) :
    ∃ chars : List Char, bytes = chars.flatMap String.utf8EncodeChar := by
  induction bytes using scan_induction with
  | empty => exact ⟨[], rfl⟩
  | character char back ih =>
      rw [scan_char, List.mem_cons, not_or] at clean
      obtain ⟨chars, rfl⟩ := ih clean.2
      exact ⟨char :: chars, rfl⟩
  | replacement byte front back replaced _ =>
      rw [replaced] at clean
      exact absurd List.mem_cons_self clean

/-- Bytes are UTF-8 exactly if nothing of them is replaced. -/
theorem decode?_isSome_iff (bytes : List UInt8) :
    (decode? bytes).isSome = true ↔ none ∉ scan bytes := by
  constructor
  · intro textual
    obtain ⟨text, decoded⟩ := Option.isSome_iff_exists.mp textual
    rw [← encode_of_decode? bytes text decoded, scan_encode]
    simp
  · intro clean
    obtain ⟨chars, whole⟩ := chars_of_clean bytes clean
    rw [whole, ← encode_ofList, decode?_encode]
    rfl

/-- An ASCII character is read only where its byte stands. -/
theorem byte_of_scan (bytes : List UInt8) (byte : UInt8) (ascii : byte.toNat < 0x80)
    (read : some (Char.ofNat byte.toNat) ∈ scan bytes) : byte ∈ bytes := by
  induction bytes using scan_induction with
  | empty => cases read
  | character char back ih =>
      rw [scan_char, List.mem_cons, Option.some.injEq] at read
      rcases read with rfl | later
      · rw [encodeChar_one ascii]
        exact List.mem_cons_self
      · exact List.mem_append_right _ (ih later)
  | replacement first front back replaced ih =>
      rw [replaced, List.mem_cons] at read
      have later := ih (read.resolve_left (by simp))
      exact List.mem_cons_of_mem _ (List.mem_append_right _ later)

/-! What is shown of bytes that are not UTF-8. -/

/-- Text in front of other bytes is read as itself. -/
theorem scan_chars (chars : List Char) (rest : List UInt8) :
    scan (chars.flatMap String.utf8EncodeChar ++ rest) = chars.map some ++ scan rest := by
  induction chars with
  | nil => rfl
  | cons char others ih =>
      rw [List.flatMap_cons, List.append_assoc, scan_char, ih]
      rfl

theorem toList_display (bytes : List UInt8) :
    (display bytes).toList = (scan bytes).map (·.getD '\uFFFD') := by
  rw [display, String.toList_ofList]

theorem replacement_shown {bytes : List UInt8} (replaced : none ∈ scan bytes) :
    '\uFFFD' ∈ (display bytes).toList := by
  rw [toList_display]
  exact List.mem_map.mpr ⟨none, replaced, rfl⟩

/-- What is shown without a replacement character is shown of one row of bytes only. -/
theorem eq_of_display {bytes other : List UInt8} (shown : '\uFFFD' ∉ (display bytes).toList)
    (same : display other = display bytes) : other = bytes := by
  have first : none ∉ scan bytes := fun replaced => shown (replacement_shown replaced)
  have second : none ∉ scan other := by
    intro replaced
    rw [← same] at shown
    exact shown (replacement_shown replaced)
  exact display_injective other bytes ((decode?_isSome_iff other).mpr second)
    ((decode?_isSome_iff bytes).mpr first) same

/-- A replacement character that is shown may be one of the text or stand for something else,
so that other bytes are shown alike. -/
theorem exists_twin {bytes : List UInt8} (shown : '\uFFFD' ∈ (display bytes).toList) :
    ∃ twin, twin ≠ bytes ∧ display twin = display bytes := by
  by_cases replaced : none ∈ scan bytes
  · refine ⟨encode (display bytes), ?_, display_encode _⟩
    intro same
    rw [← same, scan_encode] at replaced
    simp at replaced
  · obtain ⟨chars, rfl⟩ := chars_of_clean bytes replaced
    have text : display (chars.flatMap String.utf8EncodeChar) = String.ofList chars := by
      rw [← encode_ofList, display_encode]
    rw [text, String.toList_ofList] at shown
    obtain ⟨front, back, rfl⟩ := List.append_of_mem shown
    have stray (rest : List UInt8) : scan (0xFF :: rest) = none :: scan rest := by
      simp [scan, scanFrom, step, start]
    have read : scan (front.flatMap String.utf8EncodeChar ++
        0xFF :: back.flatMap String.utf8EncodeChar) =
          front.map some ++ none :: back.map some := by
      have last := scan_chars back []
      rw [List.append_nil] at last
      rw [scan_chars, stray, last]
      simp [scan, scanFrom]
    refine ⟨front.flatMap String.utf8EncodeChar ++ 0xFF :: back.flatMap String.utf8EncodeChar,
      ?_, ?_⟩
    · intro same
      rw [← same, read] at replaced
      simp at replaced
    · rw [text, display, read]
      simp [Function.comp_def]

end CheckpointLedger.Utf8
