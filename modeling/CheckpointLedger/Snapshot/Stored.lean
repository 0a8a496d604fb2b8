import CheckpointLedger.Storage.Directory

/-!
What every piece of checkpointed state offers: its logical size, the bytes
written for it by its own checkpoint, a comparison by content, and the removal
of its files. A collection has the sum of the sizes, and discards its members
in order. A size is a number of bytes in 64 bits, or absent when the exact number
does not fit: a sum never wraps.

The bytes of a state are in blobs, which do not change. A blob is kept inline
with the checkpoint, in a file of the checkpoint storage, or is a placeholder for
one that an earlier checkpoint uploaded.
-/

namespace CheckpointLedger

variable {α : Type}

abbrev Size := Option UInt64

namespace Size

def ofNat (bytes : Nat) : Size :=
  if bytes < UInt64.size then some (UInt64.ofNat bytes) else none

def add : Size → Size → Size
  | some a, some b => ofNat (a.toNat + b.toNat)
  | _, _ => none

/-- A running sum. -/
def total (sizes : List Size) : Size := sizes.foldl add (some 0)

/-- What is reported in place of a size that does not fit. -/
def overflowMessage : String := "attempt to add with overflow"

end Size

/-- A file that could not be removed, and why. -/
structure DiscardFailure where
  path : Path
  fault : UnlinkFault
  deriving DecidableEq

def DiscardFailure.message (failure : DiscardFailure) : String :=
  s!"failed to discard state file {failure.path.display}: {failure.fault.message}"

/-- A removal of files that stops at the first failure and keeps what was
removed before. -/
abbrev Discard := EStateM DiscardFailure Directory Unit

class Stored (α : Type) where
  stateSize : α → Size
  writtenSize : α → Size
  equivalent : α → α → Bool
  discard : α → Discard

export Stored (stateSize writtenSize equivalent discard)

instance [Stored α] : Stored (List α) where
  stateSize objects := Size.total (objects.map stateSize)
  writtenSize objects := Size.total (objects.map writtenSize)
  equivalent as bs := as.isEqv bs equivalent
  discard objects := objects.forM discard

structure InlineBlob where
  name : String
  data : List UInt8
  deriving DecidableEq

structure FileBlob where
  path : Path
  size : UInt64
  deriving DecidableEq

structure Placeholder where
  physicalId : String
  size : UInt64
  deriving DecidableEq

inductive Blob where
  | inline (blob : InlineBlob)
  | file (blob : FileBlob)
  | placeholder (blob : Placeholder)
  deriving DecidableEq

def InlineBlob.stateSize (blob : InlineBlob) : Size := Size.ofNat blob.data.length

namespace Blob

/-- The identity of the stored object. A placeholder has that of the object it
stands for. -/
def physicalId : Blob → String
  | .inline blob => blob.name
  | .file blob => blob.path.display
  | .placeholder blob => blob.physicalId

def isPlaceholder : Blob → Bool
  | .placeholder _ => true
  | _ => false

/-- The bytes that the blob accounts for. -/
def stateSize : Blob → Size
  | .inline blob => blob.stateSize
  | .file blob => some blob.size
  | .placeholder blob => some blob.size

/-- The bytes written for the checkpoint itself: nothing for a placeholder. -/
def writtenSize : Blob → Size
  | .placeholder _ => some 0
  | blob => blob.stateSize

def equivalent : Blob → Blob → Bool
  | .inline a, .inline b => a = b
  | .file a, .file b => a.path.equivalent b.path && a.size == b.size
  | .placeholder a, .placeholder b => a = b
  | _, _ => false

/-- Only a file leaves something to remove. -/
def discard : Blob → Discard
  | .file blob => fun directory => match directory.unlink blob.path with
    | .ok smaller => .ok () smaller
    | .error fault => .error ⟨blob.path, fault⟩ directory
  | _ => pure ()

end Blob

instance : Stored Blob where
  stateSize := Blob.stateSize
  writtenSize := Blob.writtenSize
  equivalent := Blob.equivalent
  discard := Blob.discard

end CheckpointLedger
