import CheckpointLedger.Snapshot.Incremental
import CheckpointLedger.Snapshot.Report
import CheckpointLedger.SortedMap

/-!
The registry of shared state. Under each key it keeps one canonical blob and the
checkpoints that depend on it; a blob whose last checkpoint is released leaves
the registry and is handed out for disposal.

What an operation reports and hands out is part of its result, in order: the
registry itself touches no storage.
-/

namespace CheckpointLedger

abbrev CheckpointSet := SortedMap CheckpointId Unit

structure Fragment where
  canonical : Blob
  checkpoints : CheckpointSet
  deriving DecidableEq

/-- A poisoned registry answers nothing any more: a caller failed while holding
its lock. -/
inductive RegistryStatus where
  | accepting
  | closed
  | poisoned
  deriving DecidableEq

structure Registry where
  fragments : SortedMap String Fragment
  status : RegistryStatus
  deriving DecidableEq

inductive Effect where
  | report (event : Event)
  | dispose (blob : Blob)
  deriving DecidableEq

/-- A registration that was accepted, with the blob to use from now on. -/
structure Reference where
  registry : Registry
  canonical : Blob
  effects : List Effect

/-- A release, with the keys that left the registry and their blobs. -/
structure Release where
  registry : Registry
  released : List (String × Blob)

namespace Registry

def empty : Registry := ⟨∅, .accepting⟩

/-- A registration breaks off while it holds the lock, before it has recorded
anything. Like every registration it gets that far in an open registry only. -/
def poison (registry : Registry) : Except Violation Registry :=
  match registry.status with
  | .poisoned => .error .lockPoisoned
  | .closed => .error .registryClosed
  | .accepting => .ok { registry with status := .poisoned }

/-- An upload of content that the registry already holds as another object is
disposed of. -/
def duplicate (blob canonical : Blob) : List Effect :=
  if blob.isPlaceholder ∨ blob.physicalId = canonical.physicalId then []
  else [.report (.duplicate blob.physicalId canonical.physicalId), .dispose blob]

/-- Records that the checkpoint depends on the key. A key that is not known adopts
the blob; a known one keeps its own. -/
def reference (registry : Registry) (key : String) (blob : Blob) (checkpoint : CheckpointId) :
    Except Violation Reference :=
  match registry.status with
  | .poisoned => .error .lockPoisoned
  | .closed => .error .registryClosed
  | .accepting => match registry.fragments.find? key with
    | some fragment =>
        let checkpoints := fragment.checkpoints.insert checkpoint ()
        .ok {
          registry := { registry with
            fragments := registry.fragments.insert key { fragment with checkpoints } }
          canonical := fragment.canonical
          effects := .report (.referenced key checkpoint checkpoints.size) ::
            duplicate blob fragment.canonical }
    | none =>
        if blob.isPlaceholder then .error (.unknownSharedState key)
        else .ok {
          registry := { registry with
            fragments := registry.fragments.insert key
              ⟨blob, SortedMap.empty.insert checkpoint ()⟩ }
          canonical := blob
          effects := [.report (.registered key checkpoint)] }

/-- The fragment without the checkpoints that the release covers. -/
def uncover (covered : CheckpointId → Bool) (fragment : Fragment) : Fragment :=
  { fragment with
    checkpoints := fragment.checkpoints.filterMap fun checkpoint _ =>
      if covered checkpoint then none else some () }

/-- Drops the references of all covered checkpoints. -/
def releaseCovered (registry : Registry) (covered : CheckpointId → Bool) : Release where
  registry := { registry with
    fragments := registry.fragments.filterMap fun _ fragment =>
      let left := uncover covered fragment
      if left.checkpoints.isEmpty then none else some left }
  released := registry.fragments.entries.filterMap fun (key, fragment) =>
    if (uncover covered fragment).checkpoints.isEmpty then some (key, fragment.canonical)
    else none

/-- Answers from an intact registry. -/
def answer {α : Type} (registry : Registry) (value : α) : Except Violation α :=
  if registry.status = .poisoned then .error .lockPoisoned else .ok value

/-- Drops the references of a checkpoint that was subsumed or aborted. -/
def releaseCheckpoint (registry : Registry) (checkpoint : CheckpointId) :
    Except Violation Release :=
  registry.answer (registry.releaseCovered (· == checkpoint))

/-- Drops the references of all checkpoints older than the lowest one kept. -/
def releaseBelow (registry : Registry) (lowestKept : CheckpointId) : Except Violation Release :=
  registry.answer (registry.releaseCovered (· < lowestKept))

def checkpointsOf (registry : Registry) (key : String) : Except Violation (List CheckpointId) :=
  registry.answer (((registry.fragments.find? key).map (·.checkpoints.keys)).getD [])

def referenceCount (registry : Registry) (key : String) : Except Violation Nat :=
  registry.answer (((registry.fragments.find? key).map (·.checkpoints.size)).getD 0)

def canonical? (registry : Registry) (key : String) : Except Violation (Option Blob) :=
  registry.answer ((registry.fragments.find? key).map (·.canonical))

def contains (registry : Registry) (key : String) : Except Violation Bool :=
  registry.answer (registry.fragments.contains key)

def size (registry : Registry) : Except Violation Nat :=
  registry.answer registry.fragments.size

def isEmpty (registry : Registry) : Except Violation Bool :=
  registry.answer registry.fragments.isEmpty

def isOpen (registry : Registry) : Except Violation Bool :=
  registry.answer (registry.status = .accepting)

/-- Accepts no more registrations. Releases go on as before. -/
def close (registry : Registry) : Except Violation (Registry × List Effect) :=
  registry.answer (match registry.status with
    | .accepting => ({ registry with status := .closed },
        [.report (.registryClosed registry.fragments.size)])
    | _ => (registry, []))

def debugText (registry : Registry) : String :=
  let fields := match registry.status with
    | .poisoned => "entries: \"<poisoned>\""
    | .accepting => s!"entries: {registry.fragments.size}, open: true"
    | .closed => s!"entries: {registry.fragments.size}, open: false"
  "SharedStateRegistry \x7b " ++ fields ++ " \x7d"

end Registry

/-- The keys are reported first and the blobs handed out after. -/
def Release.effects (release : Release) : List Effect :=
  release.released.map (fun entry => .report (.unreferenced entry.1)) ++
    release.released.map (fun entry => .dispose entry.2)

end CheckpointLedger
