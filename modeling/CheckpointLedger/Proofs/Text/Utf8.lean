import CheckpointLedger.Text.Utf8

/-!
The scan of bytes against the encoding of text. Each character's bytes are read
back as that character and leave the scan where it was, so text is shown as
itself, and different texts have different bytes.
-/

namespace CheckpointLedger.Utf8

theorem scan_lead (byte : UInt8) (rest : List UInt8) (begun : Partial)
    (lead : start byte.toNat = ([], some begun)) :
    scanFrom none (byte :: rest) = scanFrom (some begun) rest := by
  simp [scanFrom, step, lead]

theorem scan_continue (bits missing least greatest : Nat) (byte : UInt8) (rest : List UInt8)
    (bounds : least ≤ byte.toNat ∧ byte.toNat ≤ greatest) :
    scanFrom (some ⟨bits, missing + 2, least, greatest⟩) (byte :: rest) =
      scanFrom (some ⟨bits * 64 + (byte.toNat - 0x80), missing + 1, 0x80, 0xBF⟩) rest := by
  simp [scanFrom, step, bounds]

theorem scan_finish (bits least greatest : Nat) (byte : UInt8) (rest : List UInt8)
    (bounds : least ≤ byte.toNat ∧ byte.toNat ≤ greatest) :
    scanFrom (some ⟨bits, 1, least, greatest⟩) (byte :: rest) =
      some (Char.ofNat (bits * 64 + (byte.toNat - 0x80))) :: scanFrom none rest := by
  simp [scanFrom, step, bounds]

/-! Bytes that begin a character of two, three or four bytes. -/

theorem start_two (byte : Nat) (bounds : 0xC2 ≤ byte ∧ byte < 0xE0) :
    start byte = ([], some ⟨byte - 0xC0, 1, 0x80, 0xBF⟩) := by
  have ascii : ¬ byte < 0x80 := by omega
  have stray : ¬ byte < 0xC2 := by omega
  simp [start, ascii, stray, bounds.2]

/-- The second byte shuts out overlong forms below and surrogates above. -/
theorem start_three (byte : Nat) (bounds : 0xE0 ≤ byte ∧ byte < 0xF0) :
    start byte = ([], some ⟨byte - 0xE0, 2, if byte = 0xE0 then 0xA0 else 0x80,
      if byte = 0xED then 0x9F else 0xBF⟩) := by
  have ascii : ¬ byte < 0x80 := by omega
  have stray : ¬ byte < 0xC2 := by omega
  have two : ¬ byte < 0xE0 := by omega
  by_cases low : byte = 0xE0
  · simp [start, low]
  · by_cases high : byte = 0xED
    · simp [start, high]
    · simp [start, ascii, stray, two, low, high, bounds.2]

theorem start_four (byte : Nat) (bounds : 0xF0 ≤ byte ∧ byte < 0xF5) :
    start byte = ([], some ⟨byte - 0xF0, 3, if byte = 0xF0 then 0x90 else 0x80,
      if byte = 0xF4 then 0x8F else 0xBF⟩) := by
  have ascii : ¬ byte < 0x80 := by omega
  have stray : ¬ byte < 0xC2 := by omega
  have two : ¬ byte < 0xE0 := by omega
  have three : byte ≠ 0xE0 ∧ byte ≠ 0xED ∧ ¬ byte < 0xF0 := by omega
  by_cases low : byte = 0xF0
  · simp [start, low]
  · by_cases high : byte = 0xF4
    · simp [start, high]
    · have middle : byte < 0xF4 := by omega
      simp [start, ascii, stray, two, three, low, middle, high]

theorem scalar_bounds (char : Char) :
    char.toNat < 0xD800 ∨ (0xDFFF < char.toNat ∧ char.toNat < 0x110000) :=
  char.valid

theorem toNat_byte (value : Nat) (bound : value < 256) : (UInt8.ofNat value).toNat = value := by
  simp [UInt8.toNat_ofNat', Nat.mod_eq_of_lt bound]

/-! The three longer encodings, one after the other. -/

theorem scan_two (code : Nat) (rest : List UInt8) (bounds : 0x80 ≤ code ∧ code < 0x800) :
    scanFrom none (UInt8.ofNat (code / 64 % 0x20 + 0xc0) :: UInt8.ofNat (code % 0x40 + 0x80) ::
      rest) = some (Char.ofNat code) :: scanFrom none rest := by
  have lead := toNat_byte (code / 64 % 0x20 + 0xc0) (by omega)
  have last := toNat_byte (code % 0x40 + 0x80) (by omega)
  have begun := start_two (code / 64 % 0x20 + 0xc0) (by omega)
  have whole : (code / 64 % 0x20 + 0xc0 - 0xC0) * 64 + (code % 0x40 + 0x80 - 0x80) = code := by
    omega
  rw [scan_lead _ _ _ (by rw [lead, begun]), scan_finish _ _ _ _ _ (by omega), last, whole]

theorem scan_three (code : Nat) (rest : List UInt8) (bounds : 0x800 ≤ code ∧ code < 0x10000)
    (valid : code < 0xD800 ∨ 0xDFFF < code) :
    scanFrom none (UInt8.ofNat (code / 4096 % 0x10 + 0xe0) ::
      UInt8.ofNat (code / 64 % 0x40 + 0x80) :: UInt8.ofNat (code % 0x40 + 0x80) :: rest) =
        some (Char.ofNat code) :: scanFrom none rest := by
  have lead := toNat_byte (code / 4096 % 0x10 + 0xe0) (by omega)
  have second := toNat_byte (code / 64 % 0x40 + 0x80) (by omega)
  have last := toNat_byte (code % 0x40 + 0x80) (by omega)
  have begun := start_three (code / 4096 % 0x10 + 0xe0) (by omega)
  have whole : ((code / 4096 % 0x10 + 0xe0 - 0xE0) * 64 + (code / 64 % 0x40 + 0x80 - 0x80)) * 64 +
      (code % 0x40 + 0x80 - 0x80) = code := by omega
  have bounded : (if code / 4096 % 0x10 + 0xe0 = 0xE0 then 0xA0 else 0x80) ≤
        code / 64 % 0x40 + 0x80 ∧
      code / 64 % 0x40 + 0x80 ≤ (if code / 4096 % 0x10 + 0xe0 = 0xED then 0x9F else 0xBF) := by
    split <;> split <;> omega
  rw [scan_lead _ _ _ (by rw [lead, begun]), scan_continue _ 0 _ _ _ _ (by rwa [second]),
    scan_finish _ _ _ _ _ (by omega), second, last, whole]

theorem scan_four (code : Nat) (rest : List UInt8) (bounds : 0x10000 ≤ code ∧ code < 0x110000) :
    scanFrom none (UInt8.ofNat (code / 262144 % 0x08 + 0xf0) ::
      UInt8.ofNat (code / 4096 % 0x40 + 0x80) :: UInt8.ofNat (code / 64 % 0x40 + 0x80) ::
      UInt8.ofNat (code % 0x40 + 0x80) :: rest) =
        some (Char.ofNat code) :: scanFrom none rest := by
  have lead := toNat_byte (code / 262144 % 0x08 + 0xf0) (by omega)
  have second := toNat_byte (code / 4096 % 0x40 + 0x80) (by omega)
  have third := toNat_byte (code / 64 % 0x40 + 0x80) (by omega)
  have last := toNat_byte (code % 0x40 + 0x80) (by omega)
  have begun := start_four (code / 262144 % 0x08 + 0xf0) (by omega)
  have whole : (((code / 262144 % 0x08 + 0xf0 - 0xF0) * 64 +
      (code / 4096 % 0x40 + 0x80 - 0x80)) * 64 + (code / 64 % 0x40 + 0x80 - 0x80)) * 64 +
      (code % 0x40 + 0x80 - 0x80) = code := by omega
  have bounded : (if code / 262144 % 0x08 + 0xf0 = 0xF0 then 0x90 else 0x80) ≤
        code / 4096 % 0x40 + 0x80 ∧
      code / 4096 % 0x40 + 0x80 ≤
        (if code / 262144 % 0x08 + 0xf0 = 0xF4 then 0x8F else 0xBF) := by
    split <;> split <;> omega
  rw [scan_lead _ _ _ (by rw [lead, begun]), scan_continue _ 1 _ _ _ _ (by rwa [second]),
    scan_continue _ 0 _ _ _ _ (by omega), scan_finish _ _ _ _ _ (by omega), second, third, last,
    whole]

/-- A character's bytes are read as the character, whatever follows. -/
theorem scan_encodeChar (char : Char) (rest : List UInt8) :
    scanFrom none (String.utf8EncodeChar char ++ rest) = some char :: scanFrom none rest := by
  have valid := scalar_bounds char
  have self : Char.ofNat char.toNat = char := Char.ofNat_toNat char
  have value : char.val.toNat = char.toNat := rfl
  simp only [String.utf8EncodeChar, value]
  generalize char.toNat = code at valid self
  subst self
  by_cases one : code ≤ 0x7f
  · have ascii : code < 0x80 := by omega
    simp [one, scanFrom, step, start, toNat_byte code (by omega), ascii]
  · by_cases two : code ≤ 0x7ff
    · rw [if_neg one, if_pos two]
      exact scan_two code rest (by omega)
    · by_cases three : code ≤ 0xffff
      · rw [if_neg one, if_neg two, if_pos three]
        exact scan_three code rest (by omega) (by omega)
      · rw [if_neg one, if_neg two, if_neg three]
        exact scan_four code rest (by omega)

theorem encode_ofList (chars : List Char) :
    encode (String.ofList chars) = chars.flatMap String.utf8EncodeChar := by
  simp [encode, List.utf8Encode]

theorem scan_encode (text : String) : scan (encode text) = text.toList.map some := by
  have each : ∀ chars : List Char,
      scanFrom none (chars.flatMap String.utf8EncodeChar) = chars.map some := by
    intro chars
    induction chars with
    | nil => rfl
    | cons char rest ih => rw [List.flatMap_cons, scan_encodeChar, ih, List.map_cons]
  rw [scan, ← String.ofList_toList (s := text), encode_ofList, each, String.toList_ofList]

/-- Text is shown as itself. -/
theorem display_encode (text : String) : display (encode text) = text := by
  rw [display, scan_encode, List.map_map]
  simp [Function.comp_def]

theorem display_of_decode? (bytes : List UInt8) (text : String)
    (decoded : decode? bytes = some text) : display bytes = text := by
  rw [← encode_of_decode? bytes text decoded, display_encode]

/-- What is shown alike is the same, for bytes that are text. -/
theorem display_injective (first second : List UInt8) (firstText : (decode? first).isSome = true)
    (secondText : (decode? second).isSome = true) (same : display first = display second) :
    first = second := by
  obtain ⟨text, decoded⟩ := Option.isSome_iff_exists.mp firstText
  obtain ⟨other, decoded'⟩ := Option.isSome_iff_exists.mp secondText
  rw [display_of_decode? first text decoded, display_of_decode? second other decoded'] at same
  subst other
  rw [← encode_of_decode? first text decoded, ← encode_of_decode? second text decoded']

end CheckpointLedger.Utf8
