import CheckpointLedger.Registry.Basic
import CheckpointLedger.Sharing.Store

/-!
Registration of composite state: every slot of every incremental snapshot in it
is registered in order and takes over the registry's blob. Registration stops at
the first slot that is refused; what was registered before stays.
-/

namespace CheckpointLedger

/-- The slots after an attempt to register them all, and the refusal if there was
one. -/
structure SlotRun where
  slots : List Slot
  registry : Registry
  effects : List Effect
  refusal? : Option Violation

def registerSlots (checkpoint : CheckpointId) : List Slot → Registry → SlotRun
  | [], registry => ⟨[], registry, [], none⟩
  | slot :: rest, registry =>
      match registry.reference slot.key slot.blob checkpoint with
      | .error violation => ⟨slot :: rest, registry, [], some violation⟩
      | .ok made =>
          let tail := registerSlots checkpoint rest made.registry
          { tail with
            slots := { slot with blob := made.canonical } :: tail.slots
            effects := made.effects ++ tail.effects }

/-- The snapshots and the registry they are registered with, and what
registration has brought about so far. -/
structure Ledger where
  store : Store
  registry : Registry
  effects : List Effect

abbrev Registering := EStateM Violation Ledger Unit

/-- A snapshot counts as registered from the first attempt on: after a refusal
the registry may already own some of its blobs. -/
def SnapshotId.register (checkpoint : CheckpointId) (id : SnapshotId) : Registering :=
  fun ledger =>
    let snapshot := ledger.store.snapshot id
    let run := registerSlots checkpoint snapshot.slots ledger.registry
    let next : Ledger := {
      store := ledger.store.update id { snapshot with slots := run.slots, registered := true }
      registry := run.registry
      effects := ledger.effects ++ run.effects }
    match run.refusal? with
    | none => .ok () next
    | some violation => .error violation next

/-- Full snapshots share nothing. -/
def KeyedState.register (checkpoint : CheckpointId) : KeyedRef → Registering
  | .full _ => pure ()
  | .incremental id => id.register checkpoint

def registerKeyed (checkpoint : CheckpointId) (states : List KeyedRef) : Registering :=
  states.forM (KeyedState.register checkpoint)

/-- Only keyed state can refer to fragments of earlier checkpoints. -/
def SubtaskState.register (checkpoint : CheckpointId) (state : SubtaskCategories) :
    Registering := do
  registerKeyed checkpoint state.managedKeyed.content
  registerKeyed checkpoint state.rawKeyed.content

/-- The coordinator's state is never shared. -/
def OperatorCheckpoint.register (checkpoint : CheckpointId)
    (state : OperatorCheckpoint SubtaskRef) : Registering :=
  state.subtasks.values.forM fun subtask => subtask.content.register checkpoint

inductive Composite where
  | keyed (state : KeyedRef)
  | keyedCollection (states : KeyedCollection)
  | subtask (state : SubtaskRef)
  | operator (state : OperatorCheckpoint SubtaskRef)

def Composite.register (checkpoint : CheckpointId) : Composite → Registering
  | .keyed state => state.register checkpoint
  | .keyedCollection states => registerKeyed checkpoint states.content
  | .subtask state => state.content.register checkpoint
  | .operator state => state.register checkpoint

def registerAll (checkpoint : CheckpointId) (composites : List Composite) : Registering :=
  composites.forM (Composite.register checkpoint)

end CheckpointLedger
