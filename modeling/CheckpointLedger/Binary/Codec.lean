import CheckpointLedger.Basic
import CheckpointLedger.SortedMap
import CheckpointLedger.Storage.Path

/-!
Building blocks of the binary form. Numbers are little-endian words of fixed
width. Lists and texts come after a 64-bit count; a choice comes after a tag.
A reader takes what it needs from the front of the bytes and leaves the rest.
-/

namespace CheckpointLedger

variable {α β : Type}

abbrev Bytes := List UInt8

inductive EncodeFault where
  | pathNotUtf8
  /-- A list with more members than a 64-bit count can tell. -/
  | tooLong
  deriving DecidableEq

def EncodeFault.message : EncodeFault → String
  | .pathNotUtf8 => "path contains invalid UTF-8 characters"
  | .tooLong => "length does not fit in 64 bits"

inductive DecodeFault where
  | endOfInput
  | notUtf8
  | optionTag (tag : UInt8)
  | unknownVariant (tag : UInt32) (known : Nat)
  | rejected (violation : Violation)
  deriving DecidableEq

def DecodeFault.message : DecodeFault → String
  | .endOfInput => "unexpected end of input"
  | .notUtf8 => "text is not UTF-8"
  | .optionTag tag => s!"{tag}"
  | .unknownVariant tag known =>
      s!"invalid value: integer `{tag}`, expected variant index 0 <= i < {known}"
  | .rejected violation => violation.message

structure Codec (α : Type) where
  encode : α → Except EncodeFault Bytes
  decode : Bytes → Except DecodeFault (α × Bytes)

namespace Codec

def littleEndian : Nat → Nat → Bytes
  | 0, _ => []
  | width + 1, value => UInt8.ofNat value :: littleEndian width (value / 256)

def readLittleEndian : Nat → Bytes → Except DecodeFault (Nat × Bytes)
  | 0, bytes => .ok (0, bytes)
  | _ + 1, [] => .error .endOfInput
  | width + 1, byte :: rest => match readLittleEndian width rest with
    | .ok (high, left) => .ok (high * 256 + byte.toNat, left)
    | .error fault => .error fault

/-- Numbers below `256 ^ width`, in that many bytes. -/
def word (width : Nat) : Codec Nat where
  encode value := .ok (littleEndian width value)
  decode := readLittleEndian width

def decodeAs (codec : Codec α) (wrap : α → β) (bytes : Bytes) :
    Except DecodeFault (β × Bytes) :=
  match codec.decode bytes with
  | .ok (value, rest) => .ok (wrap value, rest)
  | .error fault => .error fault

def imap (codec : Codec α) (wrap : α → β) (unwrap : β → α) : Codec β where
  encode value := codec.encode (unwrap value)
  decode := codec.decodeAs wrap

/-- Values that are checked once they have been read. -/
def checked (codec : Codec α) (check : α → Except Violation β) (unwrap : β → α) : Codec β where
  encode value := codec.encode (unwrap value)
  decode bytes := match codec.decode bytes with
    | .error fault => .error fault
    | .ok (value, rest) => match check value with
      | .ok accepted => .ok (accepted, rest)
      | .error violation => .error (.rejected violation)

def pair (first : Codec α) (second : Codec β) : Codec (α × β) where
  encode value := match first.encode value.1 with
    | .error fault => .error fault
    | .ok front => match second.encode value.2 with
      | .error fault => .error fault
      | .ok back => .ok (front ++ back)
  decode bytes := match first.decode bytes with
    | .error fault => .error fault
    | .ok (a, middle) => match second.decode middle with
      | .error fault => .error fault
      | .ok (b, rest) => .ok ((a, b), rest)

def byte : Codec UInt8 := (word 1).imap UInt8.ofNat UInt8.toNat

def word32 : Codec UInt32 := (word 4).imap UInt32.ofNat UInt32.toNat

def word64 : Codec UInt64 := (word 8).imap UInt64.ofNat UInt64.toNat

def encodeEach (codec : Codec α) : List α → Except EncodeFault Bytes
  | [] => .ok []
  | value :: rest => match codec.encode value with
    | .error fault => .error fault
    | .ok front => match encodeEach codec rest with
      | .error fault => .error fault
      | .ok back => .ok (front ++ back)

/-- Reads as many values as the count says. A count that the bytes cannot satisfy
is found out when they end. -/
def decodeEach (codec : Codec α) : Nat → Bytes → Except DecodeFault (List α × Bytes)
  | 0, bytes => .ok ([], bytes)
  | count + 1, bytes => match codec.decode bytes with
    | .error fault => .error fault
    | .ok (value, middle) => match decodeEach codec count middle with
      | .error fault => .error fault
      | .ok (values, rest) => .ok (value :: values, rest)

def counted (length : Nat) (body : Bytes) : Except EncodeFault Bytes :=
  if length < UInt64.size then .ok (littleEndian 8 length ++ body) else .error .tooLong

def list (codec : Codec α) : Codec (List α) where
  encode values := match encodeEach codec values with
    | .error fault => .error fault
    | .ok body => counted values.length body
  decode bytes := match readLittleEndian 8 bytes with
    | .error fault => .error fault
    | .ok (count, rest) => decodeEach codec count rest

/-- A count beyond the bytes at hand is refused before the text is looked at. -/
def text : Codec String where
  encode value := counted (Utf8.encode value).length (Utf8.encode value)
  decode bytes := match readLittleEndian 8 bytes with
    | .error fault => .error fault
    | .ok (count, rest) =>
        if rest.length < count then .error .endOfInput
        else match Utf8.decode? (rest.take count) with
          | some value => .ok (value, rest.drop count)
          | none => .error .notUtf8

def path : Codec Path where
  encode value := match value.text? with
    | some name => text.encode name
    | none => .error .pathNotUtf8
  decode := text.decodeAs Path.ofText

def option (codec : Codec α) : Codec (Option α) where
  encode
    | none => .ok [0]
    | some value => match codec.encode value with
      | .ok body => .ok (1 :: body)
      | .error fault => .error fault
  decode
    | [] => .error .endOfInput
    | tag :: rest =>
        if tag = 0 then .ok (none, rest)
        else if tag = 1 then match codec.decode rest with
          | .ok (value, left) => .ok (some value, left)
          | .error fault => .error fault
        else .error (.optionTag tag)

/-- Entries in key order; on reading, of two entries with one key the later
counts. -/
def sortedMap [Ord α] [Std.TransOrd α] [Std.LawfulEqOrd α] (key : Codec α) (value : Codec β) :
    Codec (SortedMap α β) :=
  (list (pair key value)).imap SortedMap.ofList SortedMap.entries

/-- The body of one variant after its tag. -/
def tagged (tag : Nat) (body : Except EncodeFault Bytes) : Except EncodeFault Bytes :=
  match body with
  | .ok bytes => .ok (littleEndian 4 tag ++ bytes)
  | .error fault => .error fault

/-- Reads a tag and goes on with the reader that stands at its number. -/
def choose (readers : List (Bytes → Except DecodeFault (α × Bytes))) (bytes : Bytes) :
    Except DecodeFault (α × Bytes) :=
  match word32.decode bytes with
  | .error fault => .error fault
  | .ok (tag, rest) => match readers[tag.toNat]? with
    | some reader => reader rest
    | none => .error (.unknownVariant tag readers.length)

end Codec

end CheckpointLedger
