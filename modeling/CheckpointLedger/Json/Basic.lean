/-!
JSON texts as trees and as tokens. Numbers and strings are kept as they are
written, strings without their quotes and with their escapes: what they mean is
decided where they are used, and what is not used need not mean anything. A tree
is written compactly: no blanks, members in the order they have.
-/

namespace CheckpointLedger

inductive Scalar where
  | null
  | bool (value : Bool)
  | number (written : List Char)
  | string (written : List Char)
  deriving DecidableEq

inductive Json where
  | scalar (value : Scalar)
  | array (items : List Json)
  | object (members : List (List Char × Json))

inductive Token where
  | scalar (value : Scalar)
  | openArray
  | closeArray
  | openObject
  | closeObject
  | comma
  | colon
  /-- Characters that begin no token. Nothing is read after them. -/
  | junk
  deriving DecidableEq

def Scalar.render : Scalar → List Char
  | .null => ['n', 'u', 'l', 'l']
  | .bool true => ['t', 'r', 'u', 'e']
  | .bool false => ['f', 'a', 'l', 's', 'e']
  | .number written => written
  | .string written => '"' :: written ++ ['"']

mutual

def Json.render : Json → List Char
  | .scalar value => value.render
  | .array [] => ['[', ']']
  | .array (first :: rest) => '[' :: first.render ++ Json.renderItems rest
  | .object [] => ['{', '}']
  | .object ((key, first) :: rest) =>
      '{' :: '"' :: key ++ '"' :: ':' :: first.render ++ Json.renderMembers rest

/-- The items after the first, and the closing bracket. -/
def Json.renderItems : List Json → List Char
  | [] => [']']
  | item :: rest => ',' :: item.render ++ Json.renderItems rest

def Json.renderMembers : List (List Char × Json) → List Char
  | [] => ['}']
  | (key, value) :: rest =>
      ',' :: '"' :: key ++ '"' :: ':' :: value.render ++ Json.renderMembers rest

end

def Json.text (json : Json) : String := String.ofList json.render

end CheckpointLedger
