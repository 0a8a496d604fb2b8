import CheckpointLedger.Proofs.Sharing.Traversal
import CheckpointLedger.Proofs.Snapshot.Leaves
import CheckpointLedger.Sharing.Kind

/-!
Copies of an operator's checkpoint, as restores make them. Whatever its kind, a copy refers
to the very collections of keyed state that it was copied from: it goes through the same
snapshots, shows the same keyed state, and comes down to the same blobs of its own.
-/

namespace CheckpointLedger

/-- The ways in which a restore copies an operator's checkpoint. -/
inductive Copying where
  | clone
  | rename (operator : OperatorId)
  | withoutInFlight

def Store.copyOperator (how : Copying) (state : OperatorCheckpoint SubtaskRef) (store : Store) :
    OperatorCheckpoint SubtaskRef × Store :=
  match how with
  | .clone => copyState .operator state store
  | .rename operator => (state.rename operator, store)
  | .withoutInFlight => operatorWithoutInFlight state store

/-! What copies have in common. -/

def SubtaskState.keyed {ω κ χ : Type} (state : SubtaskState ω κ χ) : κ × κ :=
  (state.managedKeyed, state.rawKeyed)

/-- The keyed collections by subtask index. -/
def OperatorCheckpoint.keyed (state : OperatorCheckpoint SubtaskRef) :
    SortedMap UInt64 (KeyedCollection × KeyedCollection) :=
  state.subtasks.map fun subtask => subtask.content.keyed

/-- A copy has the very collections of keyed state that it was copied from. -/
theorem copyOperator_keyed (how : Copying) (state : OperatorCheckpoint SubtaskRef)
    (store : Store) : (store.copyOperator how state).1.keyed = state.keyed := by
  cases how with
  | clone => rfl
  | rename operator => rfl
  | withoutInFlight =>
      exact SortedMap.mapThread_map Store.withoutInFlight _ _ (fun _ _ => rfl) state.subtasks store

/-- Copying makes no snapshot and changes none. -/
theorem copyOperator_store (how : Copying) (state : OperatorCheckpoint SubtaskRef)
    (store : Store) :
    (store.copyOperator how state).2.snapshot = store.snapshot ∧
      store.next ≤ (store.copyOperator how state).2.next := by
  cases how with
  | clone => exact ⟨rfl, Nat.le_refl _⟩
  | rename operator => exact ⟨rfl, Nat.le_refl _⟩
  | withoutInFlight =>
      apply SortedMap.thread_keeps Store.withoutInFlight
        (fun later => later.snapshot = store.snapshot ∧ store.next ≤ later.next)
      · intro subtask later kept
        exact ⟨kept.1, Nat.le_trans kept.2 (by simp [Store.withoutInFlight, Store.share]; omega)⟩
      · exact ⟨rfl, Nat.le_refl _⟩

section Keyed

variable {first second : OperatorCheckpoint SubtaskRef} (same : first.keyed = second.keyed)
include same

/-- Shared collections bring in the same snapshots. -/
theorem snapshots_of_keyed : first.snapshots = second.snapshots := by
  have flat : ∀ state : OperatorCheckpoint SubtaskRef, state.snapshots =
      state.keyed.values.flatMap fun keyed =>
        keyedSnapshots keyed.1.content ++ keyedSnapshots keyed.2.content := by
    intro state
    rw [OperatorCheckpoint.keyed, SortedMap.values_map, List.flatMap_map]
    rfl
  rw [flat, flat, same]

/-- Shared collections show the same state, by subtask index. -/
theorem read_of_keyed (store : Store) :
    (store.readOperator first).subtasks.map SubtaskState.keyed =
      (store.readOperator second).subtasks.map SubtaskState.keyed := by
  have shown : ∀ state : OperatorCheckpoint SubtaskRef,
      (store.readOperator state).subtasks.map SubtaskState.keyed =
        state.keyed.map fun keyed =>
          (keyed.1.content.map store.readKeyed, keyed.2.content.map store.readKeyed) := by
    intro state
    rw [OperatorCheckpoint.keyed, SortedMap.map_map]
    exact SortedMap.map_map _ _ state.subtasks
  rw [shown, shown, same]

end Keyed

/-! Only the snapshots in some state decide which of its blobs are chosen. -/

section Agree

variable (store : Store) (own other : Incremental → List Blob)

def Store.Agree (ids : List SnapshotId) : Prop :=
  ∀ id ∈ ids, own (store.snapshot id) = other (store.snapshot id)

theorem agree_flatMap {α : Type} {parts : List α} {snapshots : α → List SnapshotId} (part : α)
    (member : part ∈ parts) (agree : store.Agree own other (parts.flatMap snapshots)) :
    store.Agree own other (snapshots part) := fun id here =>
  agree id (List.mem_flatMap.mpr ⟨part, member, here⟩)

theorem keyed_blobs_congr (state : KeyedRef) (agree : store.Agree own other state.snapshots) :
    (store.readKeyed state).blobs own = (store.readKeyed state).blobs other := by
  cases state with
  | full snapshot => rfl
  | incremental id => exact agree id (List.mem_singleton_self id)

theorem keyed_list_blobs_congr (states : List KeyedRef)
    (agree : store.Agree own other (keyedSnapshots states)) :
    (states.map store.readKeyed).flatMap (KeyedState.blobs own) =
      (states.map store.readKeyed).flatMap (KeyedState.blobs other) := by
  rw [List.flatMap_map, List.flatMap_map]
  exact List.flatMap_congr fun state member =>
    keyed_blobs_congr store own other state (agree_flatMap store own other state member agree)

theorem subtask_blobs_congr (state : SubtaskCategories)
    (agree : store.Agree own other state.snapshots) :
    (store.readSubtask state).blobs own = (store.readSubtask state).blobs other := by
  have managed := keyed_list_blobs_congr store own other state.managedKeyed.content
    fun id member => agree id (List.mem_append_left _ member)
  have raw := keyed_list_blobs_congr store own other state.rawKeyed.content
    fun id member => agree id (List.mem_append_right _ member)
  simp only [SubtaskState.blobs, Store.readSubtask, managed, raw]

theorem operator_blobs_congr (state : OperatorCheckpoint SubtaskRef)
    (agree : store.Agree own other state.snapshots) :
    (store.readOperator state).blobs own = (store.readOperator state).blobs other := by
  have values : (store.readOperator state).subtasks.values =
      state.subtasks.values.map fun subtask => store.readSubtask subtask.content :=
    SortedMap.values_map _ state.subtasks
  rw [OperatorCheckpoint.blobs, OperatorCheckpoint.blobs, values, List.flatMap_map,
    List.flatMap_map]
  exact List.flatMap_congr fun subtask member => subtask_blobs_congr store own other subtask.content
    (agree_flatMap store own other subtask member agree)

end Agree

end CheckpointLedger
