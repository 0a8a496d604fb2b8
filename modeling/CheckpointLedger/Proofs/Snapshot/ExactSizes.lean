import CheckpointLedger.Proofs.Snapshot.Leaves
import CheckpointLedger.Proofs.Snapshot.OperatorRecord
import CheckpointLedger.Proofs.Snapshot.Sizes

/-!
The size of state as the number of bytes in all its blobs. Every kind of state adds up the
sizes of its parts in its own way; all these sums are the one over the blobs, which is exact
or does not fit.
-/

namespace CheckpointLedger

/-- The number of bytes that the blob accounts for. -/
def Blob.bytes : Blob → Nat
  | .inline blob => blob.data.length
  | .file blob => blob.size.toNat
  | .placeholder blob => blob.size.toNat

/-- The bytes of the blobs that are stored, and not only referred to. -/
def realBytes (blobs : List Blob) : Nat :=
  ((blobs.filter fun blob => !blob.isPlaceholder).map Blob.bytes).sum

/-- The blobs of a snapshot that consists of these parts. -/
def snapshotBlobs (slots : List Slot) (privateBlobs : List Blob) (manifest : Blob) : List Blob :=
  manifest :: privateBlobs ++ slots.map Slot.blob

def Incremental.leaves (snapshot : Incremental) : List Blob :=
  snapshotBlobs snapshot.slots snapshot.privateBlobs snapshot.manifest

/-- Those of all subtasks, and the one that the coordinator's state is kept in. -/
def OperatorCheckpoint.leaves (state : OperatorCheckpoint PlainSubtask) : List Blob :=
  state.coordinatorBlob.toList.map Blob.inline ++ state.blobs Incremental.leaves

/-- All blobs that state of any kind is stored in. -/
def StateKind.leaves : (kind : StateKind) → kind.Content → List Blob
  | .blob, stored => [stored]
  | .keyed, state => state.blobs Incremental.leaves
  | .partitioned, state => [state.delegate]
  | .channel, state => [state.delegate]
  | .keyedCollection, states => states.flatMap (KeyedState.blobs Incremental.leaves)
  | .partitionedCollection, states => states.map PartitionedState.delegate
  | .channelCollection, states => states.map ChannelState.delegate
  | .subtask, state => SubtaskState.blobs Incremental.leaves state
  | .operator, state => OperatorCheckpoint.leaves state

open Size

/-! Blobs. -/

theorem blob_exact (blob : Blob) : stateSize blob = ofNat blob.bytes := by
  cases blob with
  | «inline» stored => rfl
  | file stored => exact (ofNat_toNat stored.size).symm
  | placeholder stored => exact (ofNat_toNat stored.size).symm

theorem blobs_exact (blobs : List Blob) : stateSize blobs = ofNat (blobs.map Blob.bytes).sum := by
  rw [← total_ofNat]
  exact congrArg total (List.map_congr_left fun blob _ => blob_exact blob)

/-- A placeholder adds nothing to what was written. -/
theorem blobs_written (blobs : List Blob) :
    total (blobs.map Blob.writtenSize) = ofNat (realBytes blobs) := by
  induction blobs with
  | nil => rfl
  | cons blob rest ih =>
      rw [List.map_cons, total_cons, ih]
      cases blob with
      | «inline» stored => exact add_ofNat _ _
      | file stored =>
          have written : Blob.writtenSize (.file stored) = ofNat stored.size.toNat :=
            (ofNat_toNat stored.size).symm
          rw [written]
          exact add_ofNat _ _
      | placeholder stored =>
          rw [Size.add_comm]
          exact Size.add_zero _

/-! Sums of sums. -/

theorem total_flatMap {α β : Type} (size : β → Size) (parts : α → List β) (objects : List α) :
    total ((objects.flatMap parts).map size) =
      total (objects.map fun object => total ((parts object).map size)) := by
  induction objects with
  | nil => rfl
  | cons object rest ih =>
      rw [List.flatMap_cons, List.map_append, total_append, ih, List.map_cons, total_cons]

theorem total_parts (size : Blob → Size) (slots : List Slot) (privateBlobs : List Blob)
    (manifest : Blob) :
    add (add (size manifest) (total (privateBlobs.map size)))
        (total (slots.map fun slot => size slot.blob)) =
      total ((snapshotBlobs slots privateBlobs manifest).map size) := by
  rw [snapshotBlobs, List.map_append, List.map_cons, total_append, total_cons, List.map_map]
  rfl

theorem list_sums {α : Type} [Stored α] {blobs : α → List Blob}
    (each : ∀ object, stateSize object = stateSize (blobs object)) (objects : List α) :
    stateSize objects = stateSize (objects.flatMap blobs) := by
  have sizes : objects.map stateSize = objects.map fun object => stateSize (blobs object) :=
    List.map_congr_left fun object _ => each object
  exact (congrArg total sizes).trans (total_flatMap Blob.stateSize blobs objects).symm

theorem delegates_sum {α : Type} [Stored α] (delegate : α → Blob)
    (each : ∀ object, stateSize object = stateSize (delegate object)) (objects : List α) :
    stateSize objects = stateSize (objects.map delegate) := by
  have sizes : objects.map stateSize = (objects.map delegate).map stateSize := by
    rw [List.map_map]
    exact List.map_congr_left fun object _ => each object
  exact congrArg total sizes

/-! Every kind of state has the size of its blobs. -/

theorem single_sum (blob : Blob) : stateSize blob = stateSize [blob] :=
  ((total_cons _ _).trans (Size.add_zero _)).symm

theorem keyed_sum (state : KeyedState Incremental) :
    stateSize state = stateSize (state.blobs Incremental.leaves) := by
  cases state with
  | full snapshot => exact single_sum snapshot.delegate
  | incremental snapshot =>
      exact total_parts Blob.stateSize snapshot.slots snapshot.privateBlobs snapshot.manifest

theorem subtask_sum (state : PlainSubtask) :
    stateSize state = stateSize (state.blobs Incremental.leaves) := by
  have operators := delegates_sum PartitionedState.delegate fun _ => rfl
  have channels := delegates_sum ChannelState.delegate fun _ => rfl
  have keyed := list_sums keyed_sum
  have append : ∀ blobs more : List Blob,
      stateSize (blobs ++ more) = add (stateSize blobs) (stateSize more) := by
    intro blobs more
    exact (congrArg total List.map_append).trans (total_append _ _)
  rw [subtask_stateSize, operators, operators, keyed, keyed, channels, channels,
    SubtaskState.blobs]
  simp only [append, total_cons, total_nil, Size.add_zero, Size.add_assoc]

theorem operator_sum (state : OperatorCheckpoint PlainSubtask) :
    stateSize state = stateSize state.leaves := by
  have coordinator : state.coordinatorSize =
      stateSize (state.coordinatorBlob.toList.map Blob.inline) := by
    rw [OperatorCheckpoint.coordinatorSize]
    cases state.coordinatorBlob with
    | none => rfl
    | some blob => exact single_sum (.inline blob)
  have whole : stateSize state = add state.coordinatorSize (stateSize state.counted) := rfl
  rw [whole, coordinator, OperatorCheckpoint.counted_eq, list_sums subtask_sum,
    OperatorCheckpoint.leaves]
  exact (total_append _ _).symm.trans (congrArg total List.map_append.symm)

theorem kind_sum (kind : StateKind) (value : kind.Content) :
    stateSize value = stateSize (kind.leaves value) := by
  cases kind with
  | blob => exact single_sum value
  | keyed => exact keyed_sum value
  | partitioned => exact single_sum value.delegate
  | channel => exact single_sum value.delegate
  | keyedCollection => exact list_sums keyed_sum value
  | partitionedCollection => exact delegates_sum PartitionedState.delegate (fun _ => rfl) value
  | channelCollection => exact delegates_sum ChannelState.delegate (fun _ => rfl) value
  | subtask => exact subtask_sum value
  | operator => exact operator_sum value

/-- What a snapshot records when it is taken, if it can be taken. -/
theorem take_recorded (checkpoint : CheckpointId) (range : KeyGroups) (slots : List Slot)
    (privateBlobs : List Blob) (manifest : Blob) :
    (Incremental.take? checkpoint range slots privateBlobs manifest).map
        Incremental.recordedSize =
      ofNat (realBytes (snapshotBlobs slots privateBlobs manifest)) := by
  rw [← blobs_written, ← total_parts]
  simp only [Incremental.take?]
  cases add _ _ <;> rfl

/-- The size of state of any kind, however it came about, is the exact number of bytes in all
its blobs: those of all categories of all subtasks and of the coordinator, in whatever groups
they are added up. It is absent exactly if that number is not one of 64 bits. Likewise, a
snapshot cannot be taken exactly if the bytes that were written for it are too many, and
otherwise it records their number. -/
theorem size_is_sum_of_leaves :
    (∀ (kind : StateKind) (value : kind.Content),
      let bytes := ((kind.leaves value).map Blob.bytes).sum
      (∀ size, stateSize value = some size ↔ size.toNat = bytes) ∧
      (stateSize value = none ↔ 2 ^ 64 ≤ bytes)) ∧
    (∀ (checkpoint : CheckpointId) (range : KeyGroups) (slots : List Slot)
        (privateBlobs : List Blob) (manifest : Blob),
      let bytes := realBytes (snapshotBlobs slots privateBlobs manifest)
      let taken := Incremental.take? checkpoint range slots privateBlobs manifest
      (∀ size, taken.map Incremental.recordedSize = some size ↔ size.toNat = bytes) ∧
      (taken = none ↔ 2 ^ 64 ≤ bytes)) := by
  constructor
  · intro kind value bytes
    rw [kind_sum, blobs_exact]
    exact ⟨fun size => ofNat_eq_some bytes size, ofNat_eq_none bytes⟩
  · intro checkpoint range slots privateBlobs manifest bytes taken
    have recorded := take_recorded checkpoint range slots privateBlobs manifest
    constructor
    · intro size
      rw [recorded]
      exact ofNat_eq_some bytes size
    · rw [← Option.map_eq_none_iff (f := Incremental.recordedSize), recorded]
      exact ofNat_eq_none bytes

/-- Either file fits, and the two do not. -/
example :
    let half : Blob := .file ⟨⟨[0x78]⟩, 0x8000000000000000⟩
    stateSize half = some 0x8000000000000000 ∧ stateSize [half, half] = none := by
  decide

end CheckpointLedger
