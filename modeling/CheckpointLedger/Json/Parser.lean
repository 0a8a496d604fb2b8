import CheckpointLedger.Json.Basic

/-!
Reading JSON in two passes. Characters become tokens one character at a time; a
character that ends a number or no token at all is looked at again as the
beginning of another. Tokens become one tree: the arrays and objects that are
still open stand on a stack, innermost first, each with the members it has so far
in reverse.
-/

namespace CheckpointLedger

namespace Lexer

/-- How far a number has come: digits must follow a sign, a point and an
exponent mark. -/
inductive NumberPart where
  | sign
  | zero
  | whole
  | point
  | fraction
  | mark
  | markSign
  | exponent
  deriving DecidableEq

inductive State where
  | between
  | word (missing : List Char) (value : Scalar)
  | number (reversed : List Char) (part : NumberPart)
  | text (reversed : List Char)
  | escape (reversed : List Char)
  | unicode (reversed : List Char) (missing : Nat)
  | stuck
  deriving DecidableEq

def NumberPart.complete : NumberPart → Bool
  | .zero | .whole | .fraction | .exponent => true
  | _ => false

def NumberPart.next? (part : NumberPart) (char : Char) : Option NumberPart :=
  match part with
  | .sign => if char = '0' then some .zero else if char.isDigit then some .whole else none
  | .zero => if char = '.' then some .point
      else if char = 'e' ∨ char = 'E' then some .mark else none
  | .whole => if char.isDigit then some .whole else if char = '.' then some .point
      else if char = 'e' ∨ char = 'E' then some .mark else none
  | .point => if char.isDigit then some .fraction else none
  | .fraction => if char.isDigit then some .fraction
      else if char = 'e' ∨ char = 'E' then some .mark else none
  | .mark => if char = '+' ∨ char = '-' then some .markSign
      else if char.isDigit then some .exponent else none
  | .markSign => if char.isDigit then some .exponent else none
  | .exponent => if char.isDigit then some .exponent else none

def isBlank (char : Char) : Bool :=
  char = ' ' || char = '\n' || char = '\t' || char = '\r'

def isHexDigit (char : Char) : Bool :=
  char.isDigit || ('a' ≤ char && char ≤ 'f') || ('A' ≤ char && char ≤ 'F')

def isShortEscape (char : Char) : Bool :=
  ['"', '\\', '/', 'b', 'f', 'n', 'r', 't'].contains char

def begin (char : Char) : List Token × State :=
  if isBlank char then ([], .between)
  else if char.isDigit then
    ([], .number [char] (if char = '0' then .zero else .whole))
  else match char with
    | '[' => ([.openArray], .between)
    | ']' => ([.closeArray], .between)
    | '{' => ([.openObject], .between)
    | '}' => ([.closeObject], .between)
    | ',' => ([.comma], .between)
    | ':' => ([.colon], .between)
    | '"' => ([], .text [])
    | '-' => ([], .number ['-'] .sign)
    | 'n' => ([], .word ['u', 'l', 'l'] .null)
    | 't' => ([], .word ['r', 'u', 'e'] (.bool true))
    | 'f' => ([], .word ['a', 'l', 's', 'e'] (.bool false))
    | _ => ([.junk], .stuck)

def step (state : State) (char : Char) : List Token × State :=
  match state with
  | .between => begin char
  | .word (next :: missing) value =>
      if char ≠ next then ([.junk], .stuck)
      else if missing = [] then ([.scalar value], .between)
      else ([], .word missing value)
  | .word [] _ => ([.junk], .stuck)
  | .number reversed part => match part.next? char with
    | some next => ([], .number (char :: reversed) next)
    | none =>
        if part.complete then
          let after := begin char
          (.scalar (.number reversed.reverse) :: after.1, after.2)
        else ([.junk], .stuck)
  | .text reversed =>
      if char = '"' then ([.scalar (.string reversed.reverse)], .between)
      else if char = '\\' then ([], .escape (char :: reversed))
      else if char < ' ' then ([.junk], .stuck)
      else ([], .text (char :: reversed))
  | .escape reversed =>
      if isShortEscape char then ([], .text (char :: reversed))
      else if char = 'u' then ([], .unicode (char :: reversed) 3)
      else ([.junk], .stuck)
  | .unicode reversed missing =>
      if isHexDigit char then match missing with
        | 0 => ([], .text (char :: reversed))
        | missing + 1 => ([], .unicode (char :: reversed) missing)
      else ([.junk], .stuck)
  | .stuck => ([], .stuck)

def finish : State → List Token
  | .between | .stuck => []
  | .number reversed part =>
      if part.complete then [.scalar (.number reversed.reverse)] else [.junk]
  | _ => [.junk]

def scan : State → List Char → List Token
  | state, [] => finish state
  | state, char :: rest =>
      let next := step state char
      next.1 ++ scan next.2 rest

def tokens (text : List Char) : List Token := scan .between text

end Lexer

namespace Parser

abbrev Members := List (List Char × Json)

inductive Frame where
  | array (items : List Json)
  | object (members : Members) (key : List Char)

inductive State where
  | value (stack : List Frame)
  | firstItem (stack : List Frame)
  | afterItem (items : List Json) (stack : List Frame)
  | firstKey (stack : List Frame)
  | nextKey (members : Members) (stack : List Frame)
  | colon (members : Members) (key : List Char) (stack : List Frame)
  | afterMember (members : Members) (stack : List Frame)
  | finished (json : Json)

/-- Gives a complete value to the innermost open array or object. -/
def deliver (json : Json) : List Frame → State
  | [] => .finished json
  | .array items :: stack => .afterItem (json :: items) stack
  | .object members key :: stack => .afterMember ((key, json) :: members) stack

def beginValue (stack : List Frame) : Token → Option State
  | .scalar value => some (deliver (.scalar value) stack)
  | .openArray => some (.firstItem stack)
  | .openObject => some (.firstKey stack)
  | _ => none

def step : State → Token → Option State
  | .value stack, token => beginValue stack token
  | .firstItem stack, .closeArray => some (deliver (.array []) stack)
  | .firstItem stack, token => beginValue (.array [] :: stack) token
  | .afterItem items stack, .comma => some (.value (.array items :: stack))
  | .afterItem items stack, .closeArray => some (deliver (.array items.reverse) stack)
  | .firstKey stack, .closeObject => some (deliver (.object []) stack)
  | .firstKey stack, .scalar (.string key) => some (.colon [] key stack)
  | .nextKey members stack, .scalar (.string key) => some (.colon members key stack)
  | .colon members key stack, .colon => some (.value (.object members key :: stack))
  | .afterMember members stack, .comma => some (.nextKey members stack)
  | .afterMember members stack, .closeObject => some (deliver (.object members.reverse) stack)
  | _, _ => none

/-- The value at the front of the tokens, and the tokens after it. -/
def read : State → List Token → Option (Json × List Token)
  | .finished json, tokens => some (json, tokens)
  | _, [] => none
  | state, token :: rest => match step state token with
    | none => none
    | some next => read next rest

def parse? (tokens : List Token) : Option (Json × List Token) := read (.value []) tokens

end Parser

end CheckpointLedger
