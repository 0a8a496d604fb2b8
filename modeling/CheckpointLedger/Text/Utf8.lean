/-!
UTF-8 byte sequences. `scan` reads any bytes as scalar values, with `none` for
each maximal stretch that begins no scalar value. The strict reading admits no
`none`; the lenient one shows U+FFFD in its place.
-/

namespace CheckpointLedger.Utf8

/-- What has been read of a scalar value: its leading bits, the bytes still to
come, and the bounds on the next of them. -/
structure Partial where
  bits : Nat
  missing : Nat
  least : Nat
  greatest : Nat
  deriving DecidableEq

/-- A byte where no scalar value has begun. The bounds on the second byte shut
out overlong forms, surrogates and values above U+10FFFF. -/
def start (byte : Nat) : List (Option Char) × Option Partial :=
  if byte < 0x80 then ([some (Char.ofNat byte)], none)
  else if byte < 0xC2 then ([none], none)
  else if byte < 0xE0 then ([], some ⟨byte - 0xC0, 1, 0x80, 0xBF⟩)
  else if byte = 0xE0 then ([], some ⟨0, 2, 0xA0, 0xBF⟩)
  else if byte = 0xED then ([], some ⟨0xD, 2, 0x80, 0x9F⟩)
  else if byte < 0xF0 then ([], some ⟨byte - 0xE0, 2, 0x80, 0xBF⟩)
  else if byte = 0xF0 then ([], some ⟨0, 3, 0x90, 0xBF⟩)
  else if byte < 0xF4 then ([], some ⟨byte - 0xF0, 3, 0x80, 0xBF⟩)
  else if byte = 0xF4 then ([], some ⟨4, 3, 0x80, 0x8F⟩)
  else ([none], none)

def step (state : Option Partial) (byte : Nat) : List (Option Char) × Option Partial :=
  match state with
  | none => start byte
  | some begun =>
      if begun.least ≤ byte ∧ byte ≤ begun.greatest then
        let bits := begun.bits * 64 + (byte - 0x80)
        if begun.missing ≤ 1 then ([some (Char.ofNat bits)], none)
        else ([], some ⟨bits, begun.missing - 1, 0x80, 0xBF⟩)
      else
        -- the byte may begin a scalar value of its own
        let next := start byte
        (none :: next.1, next.2)

def scanFrom : Option Partial → List UInt8 → List (Option Char)
  | none, [] => []
  | some _, [] => [none]
  | state, byte :: rest =>
      let next := step state byte.toNat
      next.1 ++ scanFrom next.2 rest

def scan (bytes : List UInt8) : List (Option Char) := scanFrom none bytes

/-- The text for a reader, with U+FFFD for what is not UTF-8. -/
def display (bytes : List UInt8) : String :=
  String.ofList ((scan bytes).map (·.getD '\uFFFD'))

/-- The text whose UTF-8 form is exactly these bytes. -/
def decode? (bytes : List UInt8) : Option String :=
  String.fromUTF8? ⟨bytes.toArray⟩

def encode (text : String) : List UInt8 := text.toByteArray.data.toList

theorem decode?_encode (text : String) : decode? (encode text) = some text := by
  have valid : text.toByteArray.IsValidUTF8 := text.isValidUTF8
  simp [decode?, encode, String.fromUTF8?, String.fromUTF8, valid]

theorem encode_of_decode? (bytes : List UInt8) (text : String)
    (decoded : decode? bytes = some text) : encode text = bytes := by
  simp only [decode?, String.fromUTF8?] at decoded
  split at decoded
  · cases decoded
    simp [encode, String.fromUTF8]
  · cases decoded

end CheckpointLedger.Utf8
