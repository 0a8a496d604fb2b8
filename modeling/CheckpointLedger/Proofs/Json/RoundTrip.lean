import CheckpointLedger.Json.Kind
import CheckpointLedger.Proofs.Json.Records
import CheckpointLedger.Proofs.Snapshot.OperatorRecord

/-!
The JSON form of every kind of value gives the value back, up to the registration of its
incremental snapshots and up to a cell that was set to nothing: this one is unset again, so
that it can be set.
-/

namespace CheckpointLedger

/-- The cell as it is when nothing had been put into it. -/
def SetOnce.reopened {α : Type} (cell : SetOnce (Option α)) : SetOnce (Option α) :=
  ⟨cell.value?.join.map some⟩

def SetOnce.Settable {α : Type} (cell : SetOnce α) : Prop :=
  ∀ value, cell.set value = .ok ⟨some value⟩

theorem SetOnce.settable_reopened {α : Type} (cell : SetOnce (Option α))
    (nothing : cell.value? = some none) : cell.reopened.Settable := by
  intro value
  simp [reopened, set, nothing]

def OperatorCheckpoint.reopened {β : Type} (state : OperatorCheckpoint β) : OperatorCheckpoint β :=
  { state with coordinator := state.coordinator.reopened }

def OperatorCheckpoint.Settable {β : Type} (state : OperatorCheckpoint β) : Prop :=
  ∀ blob, state.setCoordinator blob = .ok { state with coordinator := ⟨some blob⟩ }

theorem OperatorCheckpoint.settable_iff {β : Type} (state : OperatorCheckpoint β) :
    state.Settable ↔ state.coordinator.Settable := by
  unfold OperatorCheckpoint.Settable SetOnce.Settable setCoordinator
  refine forall_congr' fun blob => ?_
  cases state.coordinator.set blob <;> simp

namespace Schema

/-! Plain data. A record is given by its columns. What is left to show each time is that its
paths are those of its fields and that the reader puts the fields together again. -/

theorem operatorId_faithful : Faithful operatorId id :=
  natural_faithful OperatorId.count _ _ (fun operator => operator.value.isLt) fun operator => by
    simp [OperatorId.ofNat, OperatorId.toNat]

theorem keyGroups_faithful : Faithful keyGroups id := by
  refine object_faithful
    [.of "start" word32_faithful KeyGroups.first,
      .of "end" word32_faithful KeyGroups.last]
    (by decide) (fun _ => rfl) (fun range => ?_) fun range json values all each => ?_
  · show Textual (range.first, range.last) ↔ _
    simp [textual_pair, Column.of]
  · obtain _ | ⟨first, _ | ⟨last, ⟨⟩⟩⟩ := each
    simp only [Column.of, List.map_cons, List.map_nil] at all first last
    simp [keyGroups, all, first, last]

theorem setOnce_faithful {α : Type} [Contents α] {schema : Schema α} (faithful : Faithful schema id)
    (notNull : ∀ value, schema.write value ≠ some (.scalar .null)) :
    Faithful (setOnce (option schema)) SetOnce.reopened where
  written cell := by
    rcases cell with ⟨_ | _ | value⟩
    · exact iff_of_true rfl (textual_of_none _ rfl)
    · exact iff_of_true rfl (textual_of_none _ rfl)
    · exact faithful.written value
  legible := by
    intro cell json written
    rcases cell with ⟨_ | _ | value⟩
    · cases written
      exact .null
    · cases written
      exact .null
    · exact faithful.legible value json written
  restores := by
    intro cell json written
    rcases cell with ⟨_ | _ | value⟩
    · cases written
      rfl
    · cases written
      rfl
    · have inner : schema.write value = some json := written
      have apart : json ≠ .scalar .null := fun same => notNull value (same ▸ inner)
      simp [setOnce, imap, option_read_of_ne, apart, faithful.restores value json inner,
        SetOnce.reopened]

theorem cell_faithful : Faithful cell SetOnce.reopened :=
  setOnce_faithful word64_faithful fun _ => by simp [word64, imap, natural, number]

theorem disposalMode_faithful : Faithful disposalMode id where
  written mode := by
    cases mode <;> exact iff_of_true rfl (textual_of_none _ rfl)
  legible := by
    intro mode json written
    cases mode <;> (cases written; exact legible_string _)
  restores := by
    intro mode json written
    cases mode <;> (cases written; simp [disposalMode, readPlainVariant_string])

theorem registryConfig_faithful : Faithful registryConfig id := by
  refine record_faithful
    [.of "disposal" disposalMode_faithful RegistryConfig.disposal,
      .of "disposal_queue_capacity" word64_faithful RegistryConfig.queueCapacity]
    (by decide) (fun _ => rfl) (fun config => ?_) fun config json values found each => ?_
  · show Textual (config.disposal, config.queueCapacity) ↔ _
    simp [textual_pair, Column.of]
  · obtain _ | ⟨disposal, _ | ⟨capacity, ⟨⟩⟩⟩ := each
    have all := found 0
    simp only [Column.of, List.map_cons, List.map_nil] at all disposal capacity
    simp [registryConfig, all, readOr, disposal, capacity]

/-! Blobs. -/

theorem inlineBlob_faithful : Faithful inlineBlob id := by
  refine object_faithful
    [.of "handle_name" text_faithful InlineBlob.name,
      .of "data" (plain_list_faithful byte_faithful) InlineBlob.data]
    (by decide) (fun _ => rfl) (fun blob => ?_) fun blob json values all each => ?_
  · show Textual (blob.name, blob.data) ↔ _
    simp [textual_pair, Column.of]
  · obtain _ | ⟨name, _ | ⟨data, ⟨⟩⟩⟩ := each
    simp only [Column.of, List.map_cons, List.map_nil] at all name data
    simp [inlineBlob, all, name, data]

theorem fileBlob_faithful : Faithful fileBlob id := by
  refine object_faithful
    [.of "path" path_faithful FileBlob.path,
      .of "size" word64_faithful FileBlob.size]
    (by decide) (fun _ => rfl) (fun blob => ?_) fun blob json values all each => ?_
  · show Textual (blob.path, blob.size) ↔ _
    simp [textual_pair, Column.of]
  · obtain _ | ⟨location, _ | ⟨size, ⟨⟩⟩⟩ := each
    simp only [Column.of, List.map_cons, List.map_nil] at all location size
    simp [fileBlob, all, location, size]

theorem placeholder_faithful : Faithful placeholder id := by
  refine object_faithful
    [.of "physical_id" text_faithful Placeholder.physicalId,
      .of "size" word64_faithful Placeholder.size]
    (by decide) (fun _ => rfl) (fun blob => ?_) fun blob json values all each => ?_
  · show Textual (blob.physicalId, blob.size) ↔ _
    simp [textual_pair, Column.of]
  · obtain _ | ⟨physicalId, _ | ⟨size, ⟨⟩⟩⟩ := each
    simp only [Column.of, List.map_cons, List.map_nil] at all physicalId size
    simp [placeholder, all, physicalId, size]

theorem blob_faithful : Faithful blob id where
  written value := by
    cases value with
    | «inline» value => exact variant_isSome (inlineBlob_faithful.written value)
    | file value => exact variant_isSome (fileBlob_faithful.written value)
    | placeholder value => exact variant_isSome (placeholder_faithful.written value)
  legible := by
    intro value json written
    cases value with
    | «inline» value => exact variant_legible (inlineBlob_faithful.legible value) written
    | file value => exact variant_legible (fileBlob_faithful.legible value) written
    | placeholder value => exact variant_legible (placeholder_faithful.legible value) written
  restores := by
    intro value json written
    cases value with
    | «inline» value =>
        obtain ⟨carried, there, rfl⟩ := variant_some written
        simp [blob, readVariant_member, inlineBlob_faithful.restores value carried there]
    | file value =>
        obtain ⟨carried, there, rfl⟩ := variant_some written
        simp [blob, readVariant_member, fileBlob_faithful.restores value carried there]
    | placeholder value =>
        obtain ⟨carried, there, rfl⟩ := variant_some written
        simp [blob, readVariant_member, placeholder_faithful.restores value carried there]

theorem offsets_faithful : Faithful offsets id := plain_list_faithful word64_faithful

/-! The handles of state. -/

theorem fullSnapshot_faithful : Faithful fullSnapshot id := by
  refine object_faithful
    [.of "key_group_range" keyGroups_faithful FullSnapshot.range,
      .of "offsets" offsets_faithful FullSnapshot.offsets,
      .of "delegate" blob_faithful FullSnapshot.delegate]
    (by decide) (fun _ => rfl) (fun snapshot => ?_) fun snapshot json values all each => ?_
  · show Textual (snapshot.range, snapshot.offsets, snapshot.delegate) ↔ _
    simp [textual_pair, Column.of]
  · obtain _ | ⟨range, _ | ⟨starts, _ | ⟨delegate, ⟨⟩⟩⟩⟩ := each
    simp only [Column.of, List.map_cons, List.map_nil] at all range starts delegate
    simp [fullSnapshot, all, range, starts, delegate]

theorem slot_faithful : Faithful slot id := by
  refine object_faithful
    [.of "key" text_faithful Slot.key,
      .of "local_path" text_faithful Slot.localPath,
      .of "handle" blob_faithful Slot.blob]
    (by decide) (fun _ => rfl) (fun fragment => ?_) fun fragment json values all each => ?_
  · show Textual (fragment.key, fragment.localPath, fragment.blob) ↔ _
    simp [textual_pair, Column.of]
  · obtain _ | ⟨key, _ | ⟨localPath, _ | ⟨handle, ⟨⟩⟩⟩⟩ := each
    simp only [Column.of, List.map_cons, List.map_nil] at all key localPath handle
    simp [slot, all, key, localPath, handle]

theorem incremental_faithful : Faithful incremental Incremental.unregistered := by
  refine object_faithful
    [.of "checkpoint_id" word64_faithful Incremental.checkpoint,
      .of "key_group_range" keyGroups_faithful Incremental.range,
      .of "shared_state" (plain_list_faithful slot_faithful) Incremental.slots,
      .of "private_state" (plain_list_faithful blob_faithful) Incremental.privateBlobs,
      .of "metadata" blob_faithful Incremental.manifest,
      .of "checkpointed_size" word64_faithful Incremental.recordedSize]
    (by decide) (fun _ => rfl) (fun snapshot => ?_) fun snapshot json values all each => ?_
  · show Textual (snapshot.checkpoint, snapshot.range, snapshot.slots, snapshot.privateBlobs,
      snapshot.manifest, snapshot.recordedSize) ↔ _
    simp [textual_pair, Column.of]
  · obtain _ | ⟨checkpoint, _ | ⟨range, _ | ⟨slots, _ | ⟨privateBlobs, _ |
      ⟨manifest, _ | ⟨recordedSize, ⟨⟩⟩⟩⟩⟩⟩⟩ := each
    simp only [Column.of, List.map_cons, List.map_nil] at all checkpoint range slots
    simp only [Column.of] at privateBlobs manifest recordedSize
    simp [incremental, all, checkpoint, range, slots, privateBlobs, manifest, recordedSize,
      Incremental.unregistered]

theorem keyedState_faithful : Faithful keyedState KeyedState.unregistered where
  written state := by
    cases state with
    | full snapshot => exact variant_isSome (fullSnapshot_faithful.written snapshot)
    | incremental snapshot => exact variant_isSome (incremental_faithful.written snapshot)
  legible := by
    intro state json written
    cases state with
    | full snapshot => exact variant_legible (fullSnapshot_faithful.legible snapshot) written
    | incremental snapshot => exact variant_legible (incremental_faithful.legible snapshot) written
  restores := by
    intro state json written
    cases state with
    | full snapshot =>
        obtain ⟨carried, there, rfl⟩ := variant_some written
        simp [keyedState, readVariant_member, fullSnapshot_faithful.restores snapshot carried there,
          KeyedState.unregistered]
    | incremental snapshot =>
        obtain ⟨carried, there, rfl⟩ := variant_some written
        simp [keyedState, readVariant_member, incremental_faithful.restores snapshot carried there,
          KeyedState.unregistered]

theorem partitionedState_faithful : Faithful partitionedState id := by
  refine object_faithful
    [.of "partition_offsets" (plain_sortedMap_faithful textKey_faithful offsets_faithful)
        PartitionedState.partitions,
      .of "delegate" blob_faithful PartitionedState.delegate]
    (by decide) (fun _ => rfl) (fun state => ?_) fun state json values all each => ?_
  · show Textual (state.partitions, state.delegate) ↔ _
    simp [textual_pair, Column.of]
  · obtain _ | ⟨partitions, _ | ⟨delegate, ⟨⟩⟩⟩ := each
    simp only [Column.of, List.map_cons, List.map_nil] at all partitions delegate
    simp [partitionedState, all, partitions, delegate]

theorem channelState_faithful : Faithful channelState id := by
  refine object_faithful
    [.of "channel_index" word32_faithful ChannelState.channel,
      .of "offsets" offsets_faithful ChannelState.offsets,
      .of "delegate" blob_faithful ChannelState.delegate]
    (by decide) (fun _ => rfl) (fun state => ?_) fun state json values all each => ?_
  · show Textual (state.channel, state.offsets, state.delegate) ↔ _
    simp [textual_pair, Column.of]
  · obtain _ | ⟨channel, _ | ⟨starts, _ | ⟨delegate, ⟨⟩⟩⟩⟩ := each
    simp only [Column.of, List.map_cons, List.map_nil] at all channel starts delegate
    simp [channelState, all, channel, starts, delegate]

/-! All state of a subtask and of an operator. -/

theorem partitionedStates_faithful : Faithful (list partitionedState) id :=
  plain_list_faithful partitionedState_faithful

theorem keyedStates_faithful : Faithful (list keyedState) (List.map KeyedState.unregistered) :=
  list_faithful keyedState_faithful

theorem channelStates_faithful : Faithful (list channelState) id :=
  plain_list_faithful channelState_faithful

theorem subtask_faithful : Faithful subtask SubtaskState.unregistered := by
  refine object_faithful
    [.of "managed_operator_state" partitionedStates_faithful SubtaskState.managedOperator,
      .of "raw_operator_state" partitionedStates_faithful SubtaskState.rawOperator,
      .of "managed_keyed_state" keyedStates_faithful SubtaskState.managedKeyed,
      .of "raw_keyed_state" keyedStates_faithful SubtaskState.rawKeyed,
      .of "input_channel_state" channelStates_faithful SubtaskState.inputChannel,
      .of "result_subpartition_state" channelStates_faithful SubtaskState.resultSubpartition]
    (by decide) (fun _ => rfl) (fun state => ?_) fun state json values all each => ?_
  · show Textual (state.managedOperator, state.rawOperator, state.managedKeyed, state.rawKeyed,
      state.inputChannel, state.resultSubpartition) ↔ _
    simp [textual_pair, Column.of]
  · obtain _ | ⟨managedOperator, _ | ⟨rawOperator, _ | ⟨managedKeyed, _ | ⟨rawKeyed, _ |
      ⟨input, _ | ⟨result, ⟨⟩⟩⟩⟩⟩⟩⟩ := each
    simp only [Column.of, List.map_cons, List.map_nil] at all managedOperator rawOperator
    simp only [Column.of] at managedKeyed rawKeyed input result
    simp [subtask, all, managedOperator, rawOperator, managedKeyed, rawKeyed, input, result,
      SubtaskState.unregistered]

theorem coordinator_faithful : Faithful (setOnce (option inlineBlob)) SetOnce.reopened :=
  setOnce_faithful inlineBlob_faithful fun _ => record_ne_null _

theorem operatorRecord_faithful : Faithful operatorRecord fun fields =>
    { fields with
      subtasks := fields.subtasks.map SubtaskState.unregistered
      coordinator := fields.coordinator.reopened } := by
  refine record_faithful
    [.of "operator_id" operatorId_faithful OperatorRecord.operator,
      .of "parallelism" word64_faithful OperatorRecord.parallelism,
      .of "max_parallelism" word64_faithful OperatorRecord.maxParallelism,
      .of "subtask_states" (sortedMap_faithful word64Key_faithful subtask_faithful)
        OperatorRecord.subtasks,
      .of "coordinator_state" coordinator_faithful OperatorRecord.coordinator]
    (by decide) (fun _ => rfl) (fun record => ?_) fun record json values found each => ?_
  · show Textual (record.operator, record.parallelism, record.maxParallelism, record.subtasks,
      record.coordinator) ↔ _
    simp [textual_pair, Column.of]
  · obtain _ | ⟨operator, _ | ⟨parallelism, _ | ⟨maximum, _ | ⟨subtasks, _ |
      ⟨coordinator, ⟨⟩⟩⟩⟩⟩⟩ := each
    have all := found 5
    simp only [Column.of, List.map_cons, List.map_nil] at all operator parallelism maximum
    simp only [Column.of] at subtasks coordinator
    simp [operatorRecord, all, readOr, operator, parallelism, maximum, subtasks, coordinator]

theorem operatorCheckpoint_faithful :
    Faithful operatorCheckpoint fun state => state.unregistered.reopened where
  written state := operatorRecord_faithful.written state.toOperatorRecord
  legible state := operatorRecord_faithful.legible state.toOperatorRecord
  restores := by
    intro state json written
    have read : operatorRecord.read json = .ok state.unregistered.reopened.toOperatorRecord :=
      operatorRecord_faithful.restores state.toOperatorRecord json written
    simp [operatorCheckpoint, read, OperatorCheckpoint.ofRecord_toOperatorRecord]

end Schema

/-! Every kind. -/

def StateKind.reopened : (kind : StateKind) → kind.Content → kind.Content
  | .operator => OperatorCheckpoint.reopened
  | _ => id

def DatumKind.reopened : (kind : DatumKind) → kind.Content → kind.Content
  | .cell => SetOnce.reopened
  | _ => id

/-- The value with every cell unset that was set to nothing. -/
def Kind.reopened : (kind : Kind) → kind.Content → kind.Content
  | .state kind => kind.reopened
  | .datum kind => kind.reopened

/-- The value is or has a cell that was set to nothing. -/
def Kind.HoldsNothing : (kind : Kind) → kind.Content → Prop
  | .state .operator, (value : OperatorCheckpoint PlainSubtask) =>
      value.coordinator.value? = some none
  | .datum .cell, (cell : SetOnce (Option UInt64)) => cell.value? = some none
  | _, _ => False

/-- The value is or has a cell that can be set. -/
def Kind.Settable : (kind : Kind) → kind.Content → Prop
  | .state .operator, value => OperatorCheckpoint.Settable value
  | .datum .cell, cell => SetOnce.Settable cell
  | _, _ => False

theorem Kind.settable_reopened (kind : Kind) (value : kind.Content)
    (nothing : kind.HoldsNothing value) :
    kind.Settable (kind.reopened (kind.unregistered value)) := by
  cases kind with
  | state kind =>
      cases kind with
      | operator =>
          exact (OperatorCheckpoint.settable_iff _).mpr (SetOnce.settable_reopened _ nothing)
      | _ => exact nothing.elim
  | datum kind =>
      cases kind with
      | cell => exact SetOnce.settable_reopened value nothing
      | _ => exact nothing.elim

namespace Schema

theorem stateKind_faithful (kind : StateKind) :
    Faithful kind.schema fun value => kind.reopened (kind.unregistered value) :=
  match kind with
  | .blob => blob_faithful
  | .keyed => keyedState_faithful
  | .partitioned => partitionedState_faithful
  | .channel => channelState_faithful
  | .keyedCollection => keyedStates_faithful
  | .partitionedCollection => partitionedStates_faithful
  | .channelCollection => channelStates_faithful
  | .subtask => subtask_faithful
  | .operator => operatorCheckpoint_faithful

theorem datumKind_faithful (kind : DatumKind) : Faithful kind.schema kind.reopened :=
  match kind with
  | .cell => cell_faithful
  | .registryConfig => registryConfig_faithful
  | .operatorId => operatorId_faithful
  | .keyGroups => keyGroups_faithful

theorem kind_faithful (kind : Kind) :
    Faithful kind.schema fun value => kind.reopened (kind.unregistered value) :=
  match kind with
  | .state kind => stateKind_faithful kind
  | .datum kind => datumKind_faithful kind

end Schema

/-- A value of text paths is written and read back, and only a path that is no text keeps a
value from being written. A cell that was set to nothing can be set again in what is read. -/
theorem json_form_restores (kind : Kind) (value : kind.Content) :
    (Textual value → ∃ written, kind.schema.encode value = some written ∧
      kind.schema.decode written = .ok (kind.reopened (kind.unregistered value))) ∧
    (kind.schema.encode value = none ↔ ∃ path ∈ paths value, path.text? = none) ∧
    (kind.HoldsNothing value → kind.Settable (kind.reopened (kind.unregistered value))) := by
  have faithful := Schema.kind_faithful kind
  have encoded : (kind.schema.encode value).isSome = true ↔ Textual value := by
    rw [Schema.encode, Option.isSome_map, faithful.written]
  refine ⟨?_, ?_, kind.settable_reopened value⟩
  · intro textual
    obtain ⟨written, there⟩ := Option.isSome_iff_exists.mp (encoded.mpr textual)
    exact ⟨written, there, Schema.decode_encode faithful value written there⟩
  · rw [← not_textual_iff, ← encoded, Bool.not_eq_true, Option.isSome_eq_false_iff,
      Option.isNone_iff_eq_none]

/-- A coordinator that turned out to have no state, and a path with characters to escape. The
checkpoint that is read back takes the state of a coordinator. -/
theorem empty_coordinator_restores :
    let channel : ChannelState := ⟨3, [0, 18446744073709551615], .file ⟨.ofText "/a\"é\n", 5⟩⟩
    let state : OperatorCheckpoint PlainSubtask :=
      { operator := .ofNat 9, parallelism := 2, maxParallelism := 4, coordinator := ⟨some none⟩
        subtasks := SortedMap.empty.insert 1 { SubtaskState.empty with inputChannel := [channel] }
        parallelism_le := by decide
        index_lt := List.forall_mem_singleton.mpr (by decide) }
    let restored : OperatorCheckpoint PlainSubtask := { state with coordinator := .unset }
    let blob : InlineBlob := ⟨"late", [7]⟩
    (∃ written, Schema.operatorCheckpoint.encode state = some written ∧
      Schema.operatorCheckpoint.decode written = .ok restored) ∧
    restored.setCoordinator (some blob) = .ok { state with coordinator := ⟨some (some blob)⟩ } := by
  intro channel state restored blob
  have textual : Textual state := by decide
  obtain ⟨restores, _, settable⟩ := json_form_restores (.state .operator) state
  exact ⟨restores textual, settable rfl (some blob)⟩

end CheckpointLedger
