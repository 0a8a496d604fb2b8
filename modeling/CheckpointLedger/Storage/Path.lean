import CheckpointLedger.Text.Utf8

/-!
File paths as byte sequences. A path is taken apart at its slashes. Two paths
are equivalent when they have the same components: repeated and final slashes
and inner `.` segments make no difference, while a leading `.` and every `..`
do.
-/

namespace CheckpointLedger

abbrev Name := List UInt8

structure Path where
  bytes : List UInt8
  deriving DecidableEq

namespace Path

def ofText (text : String) : Path := ⟨Utf8.encode text⟩

/-- The path as text, if its bytes are UTF-8. -/
def text? (path : Path) : Option String := Utf8.decode? path.bytes

def display (path : Path) : String := Utf8.display path.bytes

def slash : UInt8 := 0x2F

def here : Name := [0x2E]

def parent : Name := [0x2E, 0x2E]

/-- The stretches between slashes, empty ones included. -/
def splitSlash : List UInt8 → List Name
  | [] => [[]]
  | byte :: rest =>
      if byte = slash then [] :: splitSlash rest
      else match splitSlash rest with
        | [] => [[byte]]
        | first :: others => (byte :: first) :: others

def segments (path : Path) : List Name := splitSlash path.bytes

/-- The last segment but for final slashes, behind the segments before it. -/
def split? (path : Path) : Option (List Name × Name) :=
  match path.segments.reverse.dropWhile (·.isEmpty) with
  | [] => none
  | final :: before => some (before.reverse, final)

def isAbsolute (path : Path) : Bool := path.bytes.head? == some slash

def endsInSlash (path : Path) : Bool := path.bytes.getLast? == some slash

inductive Component where
  | root
  | here
  | parent
  | name (name : Name)
  deriving DecidableEq

def component? (segment : Name) : Option Component :=
  if segment = [] ∨ segment = here then none
  else if segment = parent then some .parent
  else some (.name segment)

def components (path : Path) : List Component :=
  let inner := path.segments.filterMap component?
  if path.isAbsolute then .root :: inner
  else if path.segments.head? = some here then .here :: inner
  else inner

def equivalent (a b : Path) : Bool := a.components == b.components

end Path

end CheckpointLedger
