/-!
Numerals in decimal and in hexadecimal, as lists of characters.
-/

namespace CheckpointLedger.Numeral

/-- The decimal digits, without leading zeros. -/
def decimal (value : Nat) : List Char := Nat.toDigits 10 value

def digitValue? (digit : Char) : Option Nat :=
  if '0' ≤ digit ∧ digit ≤ '9' then some (digit.toNat - '0'.toNat) else none

def readDigits (value : Nat) : List Char → Option Nat
  | [] => some value
  | digit :: rest => do readDigits (value * 10 + (← digitValue? digit)) rest

/-- Reads the one decimal form of a number: digits alone, and a leading zero
only in `0` itself. -/
def readDecimal? : List Char → Option Nat
  | [] => none
  | ['0'] => some 0
  | '0' :: _ => none
  | digits => readDigits 0 digits

def hexDigit (value : Nat) : Char := Nat.digitChar (value % 16)

/-- The lowest `width` hexadecimal digits, most significant first, padded with
zeros. -/
def hexadecimal : Nat → Nat → List Char
  | 0, _ => []
  | width + 1, value => hexadecimal width (value / 16) ++ [hexDigit value]

def hexValue? (digit : Char) : Option Nat :=
  if '0' ≤ digit ∧ digit ≤ '9' then some (digit.toNat - '0'.toNat)
  else if 'a' ≤ digit ∧ digit ≤ 'f' then some (digit.toNat - 'a'.toNat + 10)
  else if 'A' ≤ digit ∧ digit ≤ 'F' then some (digit.toNat - 'A'.toNat + 10)
  else none

/-- The number that hexadecimal digits of either case write. -/
def readHexadecimal? (digits : List Char) : Option Nat :=
  digits.foldl (fun value digit => do return (← value) * 16 + (← hexValue? digit)) (some 0)

end CheckpointLedger.Numeral
