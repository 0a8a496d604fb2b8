import CheckpointLedger.Basic
import CheckpointLedger.Json.Parser
import CheckpointLedger.Json.Quoted
import CheckpointLedger.SortedMap
import CheckpointLedger.Storage.Path

/-!
Building blocks for writing values as JSON and reading them back. A record is
written as an object with all its fields in order. It is read from an object in
any order, where members that are no fields are passed over, or from the array
of its fields.
-/

namespace CheckpointLedger

variable {α β : Type}

inductive JsonFault where
  | malformed
  | rejected (violation : Violation)
  deriving DecidableEq

/-- There is no written form for a value with a path that is not text. -/
structure Schema (α : Type) where
  write : α → Option Json
  read : Json → Except JsonFault α

namespace Schema

def required (value : Option α) : Except JsonFault α :=
  match value with
  | some value => .ok value
  | none => .error .malformed

def number (value : Nat) : Json := .scalar (.number (Numeral.decimal value))

def string (text : String) : Json := .scalar (.string (Quoted.escape text))

/-- Numbers below the bound, as plain digits. -/
def natural (bound : Nat) : Schema Nat where
  write value := some (number value)
  read
    | .scalar (.number written) => do
        let value ← required (Numeral.readDecimal? written)
        if value < bound then return value else throw .malformed
    | _ => .error .malformed

def imap (schema : Schema α) (wrap : α → β) (unwrap : β → α) : Schema β where
  write value := schema.write (unwrap value)
  read json := do return wrap (← schema.read json)

def byte : Schema UInt8 := (natural UInt8.size).imap UInt8.ofNat UInt8.toNat

def word32 : Schema UInt32 := (natural UInt32.size).imap UInt32.ofNat UInt32.toNat

def word64 : Schema UInt64 := (natural UInt64.size).imap UInt64.ofNat UInt64.toNat

def text : Schema String where
  write value := some (string value)
  read
    | .scalar (.string written) => required (Quoted.unescape? written)
    | _ => .error .malformed

def path : Schema Path where
  write value := value.text?.map string
  read json := do return Path.ofText (← text.read json)

def list (schema : Schema α) : Schema (List α) where
  write values := (values.mapM schema.write).map Json.array
  read
    | .array items => items.mapM schema.read
    | _ => .error .malformed

/-- Nothing is written as `null`. -/
def option (schema : Schema α) : Schema (Option α) where
  write
    | none => some (.scalar .null)
    | some value => schema.write value
  read
    | .scalar .null => .ok none
    | json => do return some (← schema.read json)

/-- Keys of an object: how one is written between the quotes, and read. -/
structure Key (α : Type) where
  write : α → List Char
  read : List Char → Except JsonFault α

def textKey : Key String where
  write := Quoted.escape
  read written := required (Quoted.unescape? written)

/-- A number as a key has the same digits as elsewhere, and no escapes. -/
def word64Key : Key UInt64 where
  write value := Numeral.decimal value.toNat
  read written := do return (← word64.read (.scalar (.number written)))

def writeMembers (key : Key α) (schema : Schema β) (entries : List (α × β)) :
    Option (List (List Char × Json)) :=
  entries.mapM fun (name, value) => do return (key.write name, ← schema.write value)

def readMembers (key : Key α) (schema : Schema β) (members : List (List Char × Json)) :
    Except JsonFault (List (α × β)) :=
  members.mapM fun (name, value) => do return (← key.read name, ← schema.read value)

/-- Of two members with one key the later counts. -/
def sortedMap [Ord α] [Std.TransOrd α] [Std.LawfulEqOrd α] (key : Key α) (schema : Schema β) :
    Schema (SortedMap α β) where
  write map := (writeMembers key schema map.entries).map Json.object
  read
    | .object members => do return SortedMap.ofList (← readMembers key schema members)
    | _ => .error .malformed

/-! Records. -/

def member (name : String) (value : Json) : List Char × Json := (Quoted.escape name, value)

/-- An object of the fields, unless one of them has no written form. -/
def record (fields : List (String × Option Json)) : Option Json := do
  let members ← fields.mapM fun (name, value) => do return member name (← value)
  return .object members

/-- The members by their names as text. A name that is no text has no place in a
record, even where it would be passed over. -/
def named (members : List (List Char × Json)) : Except JsonFault (List (String × Json)) :=
  members.mapM fun (written, value) => do return (← required (Quoted.unescape? written), value)

/-- The value of a field, if it is there. No field may be there twice. -/
def field (members : List (String × Json)) (name : String) : Except JsonFault (Option Json) :=
  match members.filter (·.1 = name) with
  | [] => .ok none
  | [(_, value)] => .ok (some value)
  | _ => .error .malformed

/-- The values of the named fields, in this order. An array gives the first
fields only, and at least as many as are demanded. -/
def fields (names : List String) (demanded : Nat) : Json → Except JsonFault (List (Option Json))
  | .object members => do
      let members ← named members
      names.mapM (field members)
  | .array items =>
      if demanded ≤ items.length ∧ items.length ≤ names.length then
        .ok (items.map some ++ List.replicate (names.length - items.length) none)
      else .error .malformed
  | .scalar _ => .error .malformed

/-- The fields of a record of which none may be missing. -/
def allFields (names : List String) (json : Json) : Except JsonFault (List Json) := do
  (← fields names names.length json).mapM required

/-! Variants: the variant's name, and what it carries. -/

def variant (name : String) (value : Option Json) : Option Json := do
  return .object [member name (← value)]

def readVariant : Json → Except JsonFault (String × Json)
  | .object [(written, value)] => do return (← required (Quoted.unescape? written), value)
  | _ => .error .malformed

/-- A variant that carries nothing is written as its name alone. -/
def readPlainVariant : Json → Except JsonFault String
  | .scalar (.string written) => required (Quoted.unescape? written)
  | json => do match ← readVariant json with
    | (name, .scalar .null) => return name
    | _ => throw .malformed

/-! Whole texts. -/

def encode (schema : Schema α) (value : α) : Option String := (schema.write value).map Json.text

/-- The value that the text holds. Only blanks may follow it. -/
def decode (schema : Schema α) (written : String) : Except JsonFault α :=
  match Parser.parse? (Lexer.tokens written.toList) with
  | none => .error .malformed
  | some (json, after) => do
      let value ← schema.read json
      if after = [] then return value else throw .malformed

end Schema

end CheckpointLedger
