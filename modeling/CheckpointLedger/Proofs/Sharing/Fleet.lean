import CheckpointLedger.Proofs.Registry.Run
import CheckpointLedger.Proofs.Sharing.SlotRun
import CheckpointLedger.Proofs.Storage.Discards

/-!
Incremental snapshots, the registry that they share blobs through, and the storage
that both of them delete from. A move of the coordinator goes to one snapshot or to
the registry; whatever the registry hands out is disposed of before the next move.
`perform_step` says all that one move can do.
-/

namespace CheckpointLedger

namespace Incremental

/-- The blobs that are never shared. -/
def ownBlobs (snapshot : Incremental) : List Blob := snapshot.manifest :: snapshot.privateBlobs

def slotBlobs (snapshot : Incremental) : List Blob := snapshot.slots.map (·.blob)

/-- The blobs that a discard goes through, in order. -/
def discarded (snapshot : Incremental) : List Blob :=
  snapshot.ownBlobs ++ if snapshot.registered then [] else snapshot.slotBlobs

/-- The snapshot was just taken, with every blob under its own identity. -/
def Fresh (snapshot : Incremental) : Prop :=
  ∃ (checkpoint : CheckpointId) (range : KeyGroups) (fragments : List (String × Blob))
    (privateBlobs : List Blob) (manifest : Blob),
    take? checkpoint range (fragments.map fun fragment => Slot.ofBlob fragment.1 fragment.2)
      privateBlobs manifest = some snapshot

theorem fresh_slots (snapshot : Incremental) (fresh : snapshot.Fresh) :
    snapshot.registered = false ∧ ∀ slot ∈ snapshot.slots, slot.Keyed := by
  obtain ⟨checkpoint, range, fragments, privateBlobs, manifest, taken⟩ := fresh
  simp only [take?, Option.bind_eq_bind, Option.pure_def, Option.bind_eq_some_iff] at taken
  obtain ⟨recordedSize, _, made⟩ := taken
  cases made
  constructor
  · rfl
  · intro slot member
    obtain ⟨fragment, _, same⟩ := List.mem_map.mp member
    cases same
    rfl

/-- Skipping placeholders makes no difference: they have nothing to discard. -/
theorem discard_slot (slot : Slot) :
    (if slot.blob.isPlaceholder then pure () else slot.blob.discard) = slot.blob.discard := by
  cases slot.blob <;> rfl

theorem discard_eq (snapshot : Incremental) :
    snapshot.discard = snapshot.discarded.forM Blob.discard := by
  simp only [discard, discarded, ownBlobs, slotBlobs, discard_slot]
  cases snapshot.registered <;> simp [List.forM_eq_forM]

end Incremental

structure Fleet where
  store : Store
  registry : Registry
  disposal : Disposal

inductive Move where
  | register (id : SnapshotId) (checkpoint : CheckpointId)
  | releaseCheckpoint (checkpoint : CheckpointId)
  | releaseBelow (lowestKept : CheckpointId)
  | close
  | discard (id : SnapshotId)
  deriving DecidableEq

def Move.isRelease : Move → Bool
  | .releaseCheckpoint _ | .releaseBelow _ => true
  | _ => false

inductive Failure where
  | refused (violation : Violation)
  | storage (failure : DiscardFailure)

namespace Fleet

/-- Some checkpoint depends on the key. -/
def Needs (fleet : Fleet) (key : String) : Prop := ∃ holder, fleet.registry.Refers key holder

/-- The ledger that a registration has left, with its effects carried out. -/
def record (fleet : Fleet) (ledger : Ledger) : Fleet :=
  ⟨ledger.store, ledger.registry, fleet.disposal.settle ledger.effects⟩

def ask (fleet : Fleet) (call : Call) : Fleet × Option Failure :=
  let next := fleet.registry.perform call
  let asked := { fleet with
    registry := next.1
    disposal := fleet.disposal.settle next.2.effects }
  match next.2.answer with
  | .ok _ => (asked, none)
  | .error violation => (asked, some (.refused violation))

def perform (fleet : Fleet) : Move → Fleet × Option Failure
  | .register id checkpoint => match id.register checkpoint ⟨fleet.store, fleet.registry, []⟩ with
      | .ok _ ledger => (fleet.record ledger, none)
      | .error violation ledger => (fleet.record ledger, some (.refused violation))
  | .releaseCheckpoint checkpoint => fleet.ask (.releaseCheckpoint checkpoint)
  | .releaseBelow lowestKept => fleet.ask (.releaseBelow lowestKept)
  | .close => fleet.ask .close
  | .discard id => match (fleet.store.snapshot id).discard fleet.disposal.directory with
      | .ok _ directory => ({ fleet with disposal := { fleet.disposal with directory } }, none)
      | .error failure directory =>
          ({ fleet with disposal := { fleet.disposal with directory } }, some (.storage failure))

def after (fleet : Fleet) (moves : List Move) : Fleet :=
  moves.foldl (fun fleet move => (fleet.perform move).1) fleet

@[simp] theorem after_nil (fleet : Fleet) : fleet.after [] = fleet := rfl

@[simp] theorem after_cons (fleet : Fleet) (move : Move) (rest : List Move) :
    fleet.after (move :: rest) = (fleet.perform move).1.after rest := rfl

/-! The outcome of each kind of move. -/

def registered (fleet : Fleet) (id : SnapshotId) (checkpoint : CheckpointId) : Fleet :=
  let snapshot := fleet.store.snapshot id
  let run := registerSlots checkpoint snapshot.slots fleet.registry
  { store := fleet.store.update id { snapshot with slots := run.slots, registered := true }
    registry := run.registry
    disposal := fleet.disposal.settle run.effects }

def released (fleet : Fleet) (covered : CheckpointId → Bool) : Fleet :=
  let release := fleet.registry.releaseCovered covered
  { fleet with
    registry := release.registry
    disposal := fleet.disposal.settle release.effects }

def discarded (fleet : Fleet) (id : SnapshotId) : Fleet :=
  { fleet with
    disposal := { fleet.disposal with
      directory := attempted ((fleet.store.snapshot id).discarded.forM Blob.discard)
        fleet.disposal.directory } }

@[simp] theorem registered_same (fleet : Fleet) (id : SnapshotId) (checkpoint : CheckpointId) :
    (fleet.registered id checkpoint).store.snapshot id =
      { fleet.store.snapshot id with
        slots := (registerSlots checkpoint (fleet.store.snapshot id).slots fleet.registry).slots
        registered := true } := by
  simp [registered, Store.update]

theorem registered_other (fleet : Fleet) (id other : SnapshotId) (checkpoint : CheckpointId)
    (apart : other ≠ id) :
    (fleet.registered id checkpoint).store.snapshot other = fleet.store.snapshot other := by
  simp [registered, Store.update, apart]

/-- No snapshot loses its mark. -/
theorem registered_marks (fleet : Fleet) (id other : SnapshotId) (checkpoint : CheckpointId)
    (marked : (fleet.store.snapshot other).registered = true) :
    ((fleet.registered id checkpoint).store.snapshot other).registered = true := by
  by_cases same : other = id
  · subst same
    simp
  · rw [registered_other fleet id other checkpoint same]
    exact marked

/-! The files that a move takes away, if they are disposed of at once. -/

section Immediate

variable (fleet : Fleet) (immediate : fleet.disposal.disposer = .immediate)
include immediate

theorem registered_immediate (id : SnapshotId) (checkpoint : CheckpointId) :
    (fleet.registered id checkpoint).disposal.disposer = .immediate :=
  (settle_immediate fleet.disposal immediate _).1

theorem hasFile_released (covered : CheckpointId → Bool)
    (named : ∀ key blob, (key, blob) ∈ (fleet.registry.releaseCovered covered).released →
      blob.Named)
    (path : Path) (isName : path.IsName) :
    (fleet.released covered).disposal.directory.HasFile path ↔
      fleet.disposal.directory.HasFile path ∧
        ∀ key blob, (key, blob) ∈ (fleet.registry.releaseCovered covered).released →
          ¬ blob.IsFileAt path := by
  have handed : ∀ blob ∈ disposals (fleet.registry.releaseCovered covered).effects,
      blob.Named := by
    simpa only [Registry.disposals_release, List.forall_mem_map, Prod.forall] using named
  rw [released, hasFile_settle _ immediate _ handed path isName, Registry.disposals_release]
  simp only [List.forall_mem_map, Prod.forall]

end Immediate

/-! Every move has one of these outcomes. -/

theorem perform_register (fleet : Fleet) (id : SnapshotId) (checkpoint : CheckpointId) :
    fleet.perform (.register id checkpoint) =
      (fleet.registered id checkpoint,
        (registerSlots checkpoint (fleet.store.snapshot id).slots
          fleet.registry).refusal?.map .refused) := by
  simp only [perform, SnapshotId.register]
  cases refusal : (registerSlots checkpoint (fleet.store.snapshot id).slots
    fleet.registry).refusal? with
  | none => rfl
  | some violation => rfl

theorem perform_discard (fleet : Fleet) (id : SnapshotId) :
    (fleet.perform (.discard id)).1 = fleet.discarded id := by
  simp only [perform, discarded, attempted, Incremental.discard_eq]
  cases (fleet.store.snapshot id).discarded.forM Blob.discard fleet.disposal.directory <;> rfl

/-- A discard that meets no failure takes away exactly the files it goes through. -/
theorem hasFile_discarded (fleet : Fleet) (id : SnapshotId)
    (done : (fleet.perform (.discard id)).2 = none)
    (named : ∀ blob ∈ (fleet.store.snapshot id).discarded, blob.Named) (path : Path)
    (isName : path.IsName) :
    (fleet.discarded id).disposal.directory.HasFile path ↔
      fleet.disposal.directory.HasFile path ∧
        ∀ blob ∈ (fleet.store.snapshot id).discarded, ¬ blob.IsFileAt path := by
  simp only [perform, Incremental.discard_eq] at done
  cases outcome : (fleet.store.snapshot id).discarded.forM Blob.discard
      fleet.disposal.directory with
  | ok _ left =>
      simp only [discarded, attempted, outcome]
      exact hasFile_forM_ok _ named path isName _ left outcome
  | error _ left =>
      rw [outcome] at done
      cases done

theorem perform_release (fleet : Fleet) (intact : fleet.registry.status ≠ .poisoned)
    (checkpoint : CheckpointId) :
    fleet.perform (.releaseCheckpoint checkpoint) = (fleet.released (· == checkpoint), none) := by
  simp [perform, ask, Registry.perform, Registry.attempt, Registry.releaseCheckpoint,
    Registry.answer, intact, Except.map, released]

/-- All that a move can do while no caller has broken the registry. -/
inductive Step (fleet : Fleet) : Move → Fleet → Prop where
  | registered {id : SnapshotId} {checkpoint : CheckpointId} :
      Step fleet (.register id checkpoint) (fleet.registered id checkpoint)
  | released {move : Move} {covered : CheckpointId → Bool} (release : move.isRelease = true) :
      Step fleet move (fleet.released covered)
  | closed {events : List Event} :
      Step fleet .close { fleet with
        registry := ⟨fleet.registry.fragments, .closed⟩
        disposal := fleet.disposal.settle (events.map .report) }
  | discarded {id : SnapshotId} : Step fleet (.discard id) (fleet.discarded id)

theorem perform_step (fleet : Fleet) (intact : fleet.registry.status ≠ .poisoned) (move : Move) :
    fleet.Step move (fleet.perform move).1 := by
  cases move with
  | register id checkpoint =>
      rw [perform_register]
      exact .registered
  | releaseCheckpoint checkpoint =>
      rw [perform_release fleet intact]
      exact .released rfl
  | releaseBelow lowestKept =>
      have outcome : (fleet.perform (.releaseBelow lowestKept)).1 =
          fleet.released (· < lowestKept) := by
        simp [perform, ask, Registry.perform, Registry.attempt, Registry.releaseBelow,
          Registry.answer, intact, Except.map, released]
      rw [outcome]
      exact .released rfl
  | close =>
      -- Of the things that a call can do to a registry, only closing remains.
      have step := Registry.perform_step fleet.registry intact .close
      generalize performed : fleet.registry.perform .close = next at step
      cases step with
      | released release => cases release
      | @closed events =>
          simp only [perform, ask, performed]
          exact .closed
  | discard id =>
      rw [perform_discard]
      exact .discarded

end Fleet

end CheckpointLedger
