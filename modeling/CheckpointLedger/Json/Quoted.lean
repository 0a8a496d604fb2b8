import CheckpointLedger.Text.Numeral

/-!
The inside of JSON strings. Quotes, backslashes and control characters are
written with escapes, all others as they are. Any character may be read from an
escape; one beyond 16 bits takes a pair of surrogates, and a surrogate alone is
no character.
-/

namespace CheckpointLedger.Quoted

def escapeChar (char : Char) : List Char :=
  match char with
  | '"' => ['\\', '"']
  | '\\' => ['\\', '\\']
  | '\x08' => ['\\', 'b']
  | '\t' => ['\\', 't']
  | '\n' => ['\\', 'n']
  | '\x0c' => ['\\', 'f']
  | '\r' => ['\\', 'r']
  | _ => if char < ' ' then '\\' :: 'u' :: Numeral.hexadecimal 4 char.toNat else [char]

def escape (text : String) : List Char := text.toList.flatMap escapeChar

/-- A character, or a 16-bit unit from an escape. -/
inductive Piece where
  | char (value : Char)
  | unit (value : Nat)
  deriving DecidableEq

def shortEscape? : Char → Option Char
  | '"' => some '"'
  | '\\' => some '\\'
  | '/' => some '/'
  | 'b' => some '\x08'
  | 'f' => some '\x0c'
  | 'n' => some '\n'
  | 'r' => some '\r'
  | 't' => some '\t'
  | _ => none

def pieces : List Char → Option (List Piece)
  | [] => some []
  | '\\' :: 'u' :: a :: b :: c :: d :: rest => do
      let value ← Numeral.readHexadecimal? [a, b, c, d]
      return .unit value :: (← pieces rest)
  | '\\' :: mark :: rest => do
      let value ← shortEscape? mark
      return .char value :: (← pieces rest)
  | char :: rest => do return .char char :: (← pieces rest)

def isHigh (unit : Nat) : Bool := 0xD800 ≤ unit && unit < 0xDC00

def isLow (unit : Nat) : Bool := 0xDC00 ≤ unit && unit < 0xE000

def combine (high low : Nat) : Char :=
  Char.ofNat (0x10000 + (high - 0xD800) * 0x400 + (low - 0xDC00))

def chars : List Piece → Option (List Char)
  | [] => some []
  | .char value :: rest => do return value :: (← chars rest)
  | .unit high :: rest =>
      if isHigh high then match rest with
        | .unit low :: later =>
            if isLow low then do return combine high low :: (← chars later) else none
        | _ => none
      else if isLow high then none
      else do return Char.ofNat high :: (← chars rest)

def unescape? (written : List Char) : Option String :=
  ((pieces written).bind chars).map String.ofList

end CheckpointLedger.Quoted
