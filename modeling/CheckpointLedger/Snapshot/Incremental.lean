import CheckpointLedger.Basic
import CheckpointLedger.Snapshot.Stored

/-!
Incremental snapshots of a keyed backend. Their bulk lies in slots, whose blobs
may be shared with other checkpoints; the manifest and the private blobs belong
to the snapshot alone. A snapshot discards the blobs in its slots itself until
it has been handed to a registry.
-/

namespace CheckpointLedger

abbrev CheckpointId := UInt64

/-- A shared fragment: the key it is registered under, its name in the
backend's working directory, and the blob that holds it. -/
structure Slot where
  key : String
  localPath : String
  blob : Blob
  deriving DecidableEq

def Slot.ofBlob (localPath : String) (blob : Blob) : Slot :=
  ⟨blob.physicalId, localPath, blob⟩

def Slot.equivalent (a b : Slot) : Bool :=
  a.key == b.key && a.localPath == b.localPath && a.blob.equivalent b.blob

structure Incremental where
  checkpoint : CheckpointId
  range : KeyGroups
  slots : List Slot
  privateBlobs : List Blob
  manifest : Blob
  /-- The bytes written when the snapshot was taken. Registration may put larger
  blobs into the slots, and these do not count as written. -/
  recordedSize : UInt64
  registered : Bool
  deriving DecidableEq

namespace Incremental

/-- The snapshot as it was just taken, unless the bytes written for it exceed
the range of sizes. -/
def take? (checkpoint : CheckpointId) (range : KeyGroups) (slots : List Slot)
    (privateBlobs : List Blob) (manifest : Blob) : Option Incremental := do
  let recordedSize ← Size.add
    (Size.add manifest.writtenSize (Size.total (privateBlobs.map Blob.writtenSize)))
    (Size.total (slots.map (·.blob.writtenSize)))
  return { checkpoint, range, slots, privateBlobs, manifest, recordedSize, registered := false }

def stateSize (snapshot : Incremental) : Size :=
  Size.add
    (Size.add snapshot.manifest.stateSize (Size.total (snapshot.privateBlobs.map Blob.stateSize)))
    (Size.total (snapshot.slots.map (·.blob.stateSize)))

/-- The recorded size, as far as the snapshot's blobs account for it: a size
read from storage may be any number. -/
def writtenSize (snapshot : Incremental) : Size :=
  snapshot.stateSize.map (min snapshot.recordedSize ·)

def equivalent (a b : Incremental) : Bool :=
  a.checkpoint == b.checkpoint && a.range == b.range && a.slots.isEqv b.slots Slot.equivalent &&
    Stored.equivalent a.privateBlobs b.privateBlobs && a.manifest.equivalent b.manifest &&
    a.recordedSize == b.recordedSize

/-- Shared blobs are discarded here only before any registration: afterwards
they belong to the registry. -/
def discard (snapshot : Incremental) : Discard := do
  snapshot.manifest.discard
  snapshot.privateBlobs.forM Blob.discard
  unless snapshot.registered do
    snapshot.slots.forM fun slot =>
      if slot.blob.isPlaceholder then pure () else slot.blob.discard

end Incremental

instance : Stored Incremental where
  stateSize := Incremental.stateSize
  writtenSize := Incremental.writtenSize
  equivalent := Incremental.equivalent
  discard := Incremental.discard

end CheckpointLedger
