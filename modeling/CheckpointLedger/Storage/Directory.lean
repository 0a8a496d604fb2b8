import CheckpointLedger.Storage.Path

/-!
A directory tree with a working directory, and the removal of single files from it. A path is
followed from the root if it is absolute, else from the working directory; `..` leads one
directory up, and at the root nowhere. Removing a file that is not there succeeds.

Trees consist of directories and regular files. There are no symbolic links, and a regular file
that is there can always be removed: there are no permissions, and storage itself does not fail.
-/

namespace CheckpointLedger

inductive NodeKind where
  | file
  | directory
  deriving DecidableEq

/-- The files and directories below the root, each with the names that lead to it from there,
and the names that lead to the working directory. -/
structure Directory where
  nodes : List (List Name × NodeKind)
  current : List Name
  deriving DecidableEq

inductive UnlinkFault where
  | isDirectory
  | notDirectory
  | nameTooLong
  | nulByte
  deriving DecidableEq

def UnlinkFault.message : UnlinkFault → String
  | .isDirectory => "Is a directory (os error 21)"
  | .notDirectory => "Not a directory (os error 20)"
  | .nameTooLong => "File name too long (os error 36)"
  | .nulByte => "file name contained an unexpected NUL byte"

namespace Directory

def longestName : Nat := 255

def longestPath : Nat := 4095

def kind? (directory : Directory) (names : List Name) : Option NodeKind :=
  (directory.nodes.find? fun node => node.1 = names).map Prod.snd

/-- Where the path starts. -/
def start (directory : Directory) (path : Path) : List Name :=
  if path.isAbsolute then [] else directory.current

/-- The segment leads to a place without naming anything there. -/
def IsMove (segment : Name) : Prop :=
  segment = [] ∨ segment = Path.here ∨ segment = Path.parent

instance (segment : Name) : Decidable (IsMove segment) := inferInstanceAs (Decidable (_ ∨ _))

/-- Where one segment leads from a place. -/
def step (place : List Name) (segment : Name) : List Name :=
  if segment = [] ∨ segment = Path.here then place
  else if segment = Path.parent then place.dropLast
  else place ++ [segment]

/-- The node that the place holds under the name. -/
def entry (directory : Directory) (place : List Name) (name : Name) :
    Except UnlinkFault (Option NodeKind) :=
  if longestName < name.length then .error .nameTooLong
  else .ok (directory.kind? (place ++ [name]))

/-- One segment on the way to a file. The way ends where a directory is
missing. -/
def enter (directory : Directory) (place : List Name) (segment : Name) :
    Except UnlinkFault (Option (List Name)) :=
  if IsMove segment then .ok (some (step place segment))
  else match directory.entry place segment with
    | .error fault => .error fault
    | .ok none => .ok none
    | .ok (some .directory) => .ok (some (step place segment))
    | .ok (some .file) => .error .notDirectory

def walk (directory : Directory) : List Name → List Name → Except UnlinkFault (Option (List Name))
  | place, [] => .ok (some place)
  | place, segment :: rest => match directory.enter place segment with
    | .error fault => .error fault
    | .ok none => .ok none
    | .ok (some next) => walk directory next rest

/-- The file that the path names, if there is one. -/
def findFile (directory : Directory) (path : Path) : Except UnlinkFault (Option (List Name)) :=
  if path.bytes.contains 0 then .error .nulByte
  else if path.bytes = [] then .ok none
  else if longestPath < path.bytes.length then .error .nameTooLong
  else match path.split? with
    | none => .error .isDirectory
    | some (way, final) => match directory.walk (directory.start path) way with
      | .error fault => .error fault
      | .ok none => .ok none
      | .ok (some place) =>
          if IsMove final then .error .isDirectory
          else match directory.entry place final with
            | .error fault => .error fault
            | .ok none => .ok none
            | .ok (some .directory) => .error .isDirectory
            | .ok (some .file) =>
                if path.endsInSlash then .error .notDirectory
                else .ok (some (step place final))

/-- The tree with only those nodes whose names are kept. -/
def retain (directory : Directory) (keep : List Name → Bool) : Directory :=
  { directory with nodes := directory.nodes.filter fun node => keep node.1 }

def erase (directory : Directory) (names : List Name) : Directory :=
  directory.retain fun other => decide (other ≠ names)

def unlink (directory : Directory) (path : Path) : Except UnlinkFault Directory :=
  match directory.findFile path with
  | .error fault => .error fault
  | .ok none => .ok directory
  | .ok (some names) => .ok (directory.erase names)

def addNode (directory : Directory) (names : List Name) (kind : NodeKind) : Directory :=
  if names = [] ∨ (directory.kind? names).isSome then directory
  else { directory with nodes := directory.nodes ++ [(names, kind)] }

/-- Adds the directories that are missing on a way, and says where it leads. -/
def makeWay (directory : Directory) : List Name → List Name → Directory × List Name
  | place, [] => (directory, place)
  | place, segment :: rest =>
      makeWay (directory.addNode (step place segment) .directory) (step place segment) rest

/-- A tree of the working directory and those above it. -/
def fresh (current : List Name) : Directory := (makeWay ⟨[], current⟩ [] current).1

/-- An empty working directory right below the root. -/
def empty : Directory := fresh [Utf8.encode "work"]

instance : EmptyCollection Directory := ⟨empty⟩

/-- Creates what the path names, with the directories on the way that are missing: a directory
if the path ends in a slash, else a file. -/
def create (directory : Directory) (path : Path) : Directory :=
  match path.split? with
  | none => directory
  | some (way, final) =>
      let (made, place) := directory.makeWay (directory.start path) way
      made.addNode (step place final) (if path.endsInSlash then .directory else .file)

def nodeText (names : List Name) (kind : NodeKind) : String :=
  let joined := List.intercalate [Path.slash] names
  Utf8.display (match kind with
    | .file => joined
    | .directory => joined ++ [Path.slash])

/-- What is below the working directory, each by its path from there, in ascending order;
directories end in a slash. -/
def listing (directory : Directory) : List String :=
  let below := directory.nodes.filterMap fun (names, kind) =>
    if directory.current <+: names ∧ names ≠ directory.current then
      some (nodeText (names.drop directory.current.length) kind)
    else none
  below.mergeSort fun a b => decide (a ≤ b)

end Directory

end CheckpointLedger
