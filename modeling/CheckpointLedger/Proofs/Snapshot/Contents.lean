import CheckpointLedger.Snapshot.Kind

/-!
What a stored form has to carry of a value. The paths of its files are the only parts that
may have no text, and an incremental snapshot is stored without its registration.
-/

namespace CheckpointLedger

variable {α β : Type}

/-- The paths that occur in a value, and the lengths of its texts and collections. -/
class Contents (α : Type) where
  paths : α → List Path
  lengths : α → List Nat

export Contents (paths lengths)

/-- A value with the contents of its fields. -/
abbrev Contents.of [Contents α] (fields : β → α) : Contents β where
  paths value := paths (fields value)
  lengths value := lengths (fields value)

instance : Contents Nat := ⟨fun _ => [], fun _ => []⟩

instance : Contents UInt8 := .of UInt8.toNat

instance : Contents UInt32 := .of UInt32.toNat

instance : Contents UInt64 := .of UInt64.toNat

instance : Contents String := ⟨fun _ => [], fun text => [(Utf8.encode text).length]⟩

instance : Contents Path := ⟨fun path => [path], fun path => [path.bytes.length]⟩

instance [Contents α] [Contents β] : Contents (α × β) where
  paths value := paths value.1 ++ paths value.2
  lengths value := lengths value.1 ++ lengths value.2

instance [Contents α] : Contents (List α) where
  paths values := values.flatMap paths
  lengths values := values.length :: values.flatMap lengths

instance [Contents α] : Contents (Option α) where
  paths value := value.elim [] paths
  lengths value := value.elim [] lengths

instance [Contents α] [Contents β] [Ord α] : Contents (SortedMap α β) := .of SortedMap.entries

instance [Contents α] : Contents (SetOnce α) := .of SetOnce.value?

instance : Contents OperatorId := .of OperatorId.toNat

instance : Contents KeyGroups := .of fun range => (range.first, range.last)

instance : Contents DisposalMode := ⟨fun _ => [], fun _ => []⟩

instance : Contents RegistryConfig := .of fun config => (config.disposal, config.queueCapacity)

instance : Contents InlineBlob := .of fun blob => (blob.name, blob.data)

instance : Contents FileBlob := .of fun blob => (blob.path, blob.size)

instance : Contents Placeholder := .of fun blob => (blob.physicalId, blob.size)

instance : Contents Blob where
  paths
    | .inline blob => paths blob
    | .file blob => paths blob
    | .placeholder blob => paths blob
  lengths
    | .inline blob => lengths blob
    | .file blob => lengths blob
    | .placeholder blob => lengths blob

instance : Contents FullSnapshot :=
  .of fun snapshot => (snapshot.range, snapshot.offsets, snapshot.delegate)

instance : Contents Slot := .of fun slot => (slot.key, slot.localPath, slot.blob)

instance : Contents Incremental :=
  .of fun snapshot => (snapshot.checkpoint, snapshot.range, snapshot.slots,
    snapshot.privateBlobs, snapshot.manifest, snapshot.recordedSize)

instance : Contents (KeyedState Incremental) where
  paths
    | .full snapshot => paths snapshot
    | .incremental snapshot => paths snapshot
  lengths
    | .full snapshot => lengths snapshot
    | .incremental snapshot => lengths snapshot

instance : Contents PartitionedState := .of fun state => (state.partitions, state.delegate)

instance : Contents ChannelState := .of fun state => (state.channel, state.offsets, state.delegate)

instance : Contents PlainSubtask :=
  .of fun state => (state.managedOperator, state.rawOperator, state.managedKeyed, state.rawKeyed,
    state.inputChannel, state.resultSubpartition)

instance : Contents (OperatorRecord PlainSubtask) :=
  .of fun record => (record.operator, record.parallelism, record.maxParallelism, record.subtasks,
    record.coordinator)

instance : Contents (OperatorCheckpoint PlainSubtask) := .of OperatorCheckpoint.toOperatorRecord

instance : (kind : StateKind) → Contents kind.Content
  | .blob => inferInstanceAs (Contents Blob)
  | .keyed => inferInstanceAs (Contents (KeyedState Incremental))
  | .partitioned => inferInstanceAs (Contents PartitionedState)
  | .channel => inferInstanceAs (Contents ChannelState)
  | .keyedCollection => inferInstanceAs (Contents (List (KeyedState Incremental)))
  | .partitionedCollection => inferInstanceAs (Contents (List PartitionedState))
  | .channelCollection => inferInstanceAs (Contents (List ChannelState))
  | .subtask => inferInstanceAs (Contents PlainSubtask)
  | .operator => inferInstanceAs (Contents (OperatorCheckpoint PlainSubtask))

instance : (kind : DatumKind) → Contents kind.Content
  | .cell => inferInstanceAs (Contents (SetOnce (Option UInt64)))
  | .registryConfig => inferInstanceAs (Contents RegistryConfig)
  | .operatorId => inferInstanceAs (Contents OperatorId)
  | .keyGroups => inferInstanceAs (Contents KeyGroups)

instance : (kind : Kind) → Contents kind.Content
  | .state kind => inferInstanceAs (Contents kind.Content)
  | .datum kind => inferInstanceAs (Contents kind.Content)

/-- All paths of the value are UTF-8. -/
def Textual [Contents α] (value : α) : Prop := ∀ path ∈ paths value, path.text?.isSome

/-- All lengths in the value are 64-bit numbers, as they are in memory. -/
def Fits [Contents α] (value : α) : Prop := ∀ length ∈ lengths value, length < UInt64.size

instance [Contents α] (value : α) : Decidable (Textual value) :=
  inferInstanceAs (Decidable (∀ path ∈ paths value, path.text?.isSome))

instance [Contents α] (value : α) : Decidable (Fits value) :=
  inferInstanceAs (Decidable (∀ length ∈ lengths value, length < UInt64.size))

theorem textual_of_none [Contents α] (value : α) (none : paths value = []) : Textual value := by
  simp [Textual, none]

theorem fits_of_none [Contents α] (value : α) (none : lengths value = []) : Fits value := by
  simp [Fits, none]

theorem textual_pair [Contents α] [Contents β] (value : α × β) :
    Textual value ↔ Textual value.1 ∧ Textual value.2 :=
  List.forall_mem_append

theorem fits_pair [Contents α] [Contents β] (value : α × β) :
    Fits value ↔ Fits value.1 ∧ Fits value.2 :=
  List.forall_mem_append

theorem textual_list [Contents α] (values : List α) :
    Textual values ↔ ∀ value ∈ values, Textual value := by
  simp only [Textual, paths, List.mem_flatMap]
  exact ⟨fun all value member path within => all path ⟨value, member, within⟩,
    fun all path ⟨value, member, within⟩ => all value member path within⟩

theorem fits_list [Contents α] (values : List α) :
    Fits values ↔ values.length < UInt64.size ∧ ∀ value ∈ values, Fits value := by
  simp only [Fits, lengths, List.forall_mem_cons, List.mem_flatMap]
  refine and_congr_right fun _ => ⟨fun all value member length within =>
    all length ⟨value, member, within⟩, fun all length ⟨value, member, within⟩ =>
    all value member length within⟩

theorem not_textual_iff [Contents α] (value : α) :
    ¬ Textual value ↔ ∃ path ∈ paths value, path.text? = none := by
  simp [Textual]

/-! The state with no snapshot registered. -/

def Incremental.unregistered (snapshot : Incremental) : Incremental :=
  { snapshot with registered := false }

def KeyedState.unregistered : KeyedState Incremental → KeyedState Incremental
  | .full snapshot => .full snapshot
  | .incremental snapshot => .incremental snapshot.unregistered

def SubtaskState.unregistered (state : PlainSubtask) : PlainSubtask :=
  { state with
    managedKeyed := state.managedKeyed.map KeyedState.unregistered
    rawKeyed := state.rawKeyed.map KeyedState.unregistered }

def OperatorCheckpoint.unregistered (state : OperatorCheckpoint PlainSubtask) :
    OperatorCheckpoint PlainSubtask :=
  state.mapSubtasks SubtaskState.unregistered

def StateKind.unregistered : (kind : StateKind) → kind.Content → kind.Content
  | .blob => id
  | .keyed => KeyedState.unregistered
  | .partitioned => id
  | .channel => id
  | .keyedCollection => List.map KeyedState.unregistered
  | .partitionedCollection => id
  | .channelCollection => id
  | .subtask => SubtaskState.unregistered
  | .operator => OperatorCheckpoint.unregistered

def Kind.unregistered : (kind : Kind) → kind.Content → kind.Content
  | .state kind => kind.unregistered
  | .datum _ => id

end CheckpointLedger
