import CheckpointLedger.Proofs.Sharing.Fleet
import CheckpointLedger.Proofs.Sharing.Traversal
import CheckpointLedger.Snapshot.Kind

/-!
State of any depth comes down to blobs. Discarding it is discarding its blobs one after
the other: the delegates of all handles that have one, and of each incremental snapshot
the blobs that it discards itself.
-/

namespace CheckpointLedger

/-! The blobs in the order of discarding, where `own` chooses those of an incremental
snapshot. -/

section Blobs

variable (own : Incremental → List Blob)

def KeyedState.blobs : KeyedState Incremental → List Blob
  | .full snapshot => [snapshot.delegate]
  | .incremental snapshot => own snapshot

def SubtaskState.blobs (state : PlainSubtask) : List Blob :=
  state.managedOperator.map PartitionedState.delegate ++
    state.rawOperator.map PartitionedState.delegate ++
    state.managedKeyed.flatMap (KeyedState.blobs own) ++
    state.rawKeyed.flatMap (KeyedState.blobs own) ++
    state.inputChannel.map ChannelState.delegate ++
    state.resultSubpartition.map ChannelState.delegate

def OperatorCheckpoint.blobs (state : OperatorCheckpoint PlainSubtask) : List Blob :=
  state.subtasks.values.flatMap (SubtaskState.blobs own)

end Blobs

theorem discard_single (blob : Blob) : blob.discard = [blob].forM Blob.discard :=
  (bind_pure_unit (x := blob.discard)).symm

theorem discard_delegates {α : Type} [Stored α] (delegate : α → Blob)
    (each : ∀ state : α, discard state = (delegate state).discard) (states : List α) :
    discard states = (states.map delegate).forM Blob.discard := by
  rw [List.forM_eq_forM, List.forM_map]
  exact congrArg states.forM (funext each)

theorem discard_keyed (state : KeyedState Incremental) :
    discard state = (state.blobs Incremental.discarded).forM Blob.discard := by
  cases state with
  | full snapshot => exact discard_single snapshot.delegate
  | incremental snapshot => exact Incremental.discard_eq snapshot

theorem discard_keyed_list (states : List (KeyedState Incremental)) :
    discard states =
      (states.flatMap (KeyedState.blobs Incremental.discarded)).forM Blob.discard := by
  rw [forM_flatMap]
  exact congrArg states.forM (funext discard_keyed)

theorem discard_subtask (state : PlainSubtask) :
    discard state = (state.blobs Incremental.discarded).forM Blob.discard := by
  have operators := discard_delegates PartitionedState.delegate fun _ => rfl
  have channels := discard_delegates ChannelState.delegate fun _ => rfl
  have categories : discard state = (do
      discard state.managedOperator
      discard state.rawOperator
      discard state.managedKeyed
      discard state.rawKeyed
      discard state.inputChannel
      discard state.resultSubpartition) := rfl
  rw [categories, operators, operators, discard_keyed_list, discard_keyed_list, channels, channels,
    SubtaskState.blobs]
  simp only [List.forM_eq_forM, List.forM_append, bind_assoc]

theorem discard_operator (state : OperatorCheckpoint PlainSubtask) :
    discard state = (state.blobs Incremental.discarded).forM Blob.discard := by
  rw [OperatorCheckpoint.blobs, forM_flatMap]
  exact congrArg state.subtasks.values.forM (funext discard_subtask)

/-- The blobs that a discard of state of any kind goes through, in order. -/
def StateKind.blobs : (kind : StateKind) → kind.Content → List Blob
  | .blob, stored => [stored]
  | .keyed, state => state.blobs Incremental.discarded
  | .partitioned, state => [state.delegate]
  | .channel, state => [state.delegate]
  | .keyedCollection, states => states.flatMap (KeyedState.blobs Incremental.discarded)
  | .partitionedCollection, states => states.map PartitionedState.delegate
  | .channelCollection, states => states.map ChannelState.delegate
  | .subtask, state => SubtaskState.blobs Incremental.discarded state
  | .operator, state => OperatorCheckpoint.blobs Incremental.discarded state

theorem discard_kind (kind : StateKind) (state : kind.Content) :
    discard state = (kind.blobs state).forM Blob.discard := by
  cases kind with
  | blob => exact discard_single state
  | keyed => exact discard_keyed state
  | partitioned => exact discard_single state.delegate
  | channel => exact discard_single state.delegate
  | keyedCollection => exact discard_keyed_list state
  | partitionedCollection => exact discard_delegates PartitionedState.delegate (fun _ => rfl) state
  | channelCollection => exact discard_delegates ChannelState.delegate (fun _ => rfl) state
  | subtask => exact discard_subtask state
  | operator => exact discard_operator state

end CheckpointLedger
