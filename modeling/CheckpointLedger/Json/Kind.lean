import CheckpointLedger.Json.Schema
import CheckpointLedger.Snapshot.Kind

/-!
The JSON form of each kind of value, with the names of its fields and variants.
-/

namespace CheckpointLedger

namespace Schema

def operatorId : Schema OperatorId :=
  (natural OperatorId.count).imap OperatorId.ofNat OperatorId.toNat

def keyGroups : Schema KeyGroups where
  write range := record [("start", word32.write range.first), ("end", word32.write range.last)]
  read json := do match ← allFields ["start", "end"] json with
    | [first, last] => return ⟨← word32.read first, ← word32.read last⟩
    | _ => throw .malformed

/-- A cell that was set to nothing cannot be told from one never set. -/
def setOnce {α : Type} (schema : Schema α) : Schema (SetOnce α) :=
  (option schema).imap SetOnce.mk SetOnce.value?

def cell : Schema (SetOnce (Option UInt64)) := setOnce (option word64)

def disposalMode : Schema DisposalMode where
  write
    | .immediate => some (string "inline")
    | .background => some (string "background")
  read json := do match ← readPlainVariant json with
    | "inline" => return .immediate
    | "background" => return .background
    | _ => throw .malformed

def readOr {α : Type} (schema : Schema α) (standard : α) : Option Json → Except JsonFault α
  | none => .ok standard
  | some json => schema.read json

/-- Fields that are missing have their standard values. -/
def registryConfig : Schema RegistryConfig where
  write config := record [("disposal", disposalMode.write config.disposal),
    ("disposal_queue_capacity", word64.write config.queueCapacity)]
  read json := do match ← fields ["disposal", "disposal_queue_capacity"] 0 json with
    | [disposal, capacity] => return ⟨
        ← readOr disposalMode RegistryConfig.standard.disposal disposal,
        ← readOr word64 RegistryConfig.standard.queueCapacity capacity⟩
    | _ => throw .malformed

def inlineBlob : Schema InlineBlob where
  write blob := record [("handle_name", text.write blob.name),
    ("data", (list byte).write blob.data)]
  read json := do match ← allFields ["handle_name", "data"] json with
    | [name, data] => return ⟨← text.read name, ← (list byte).read data⟩
    | _ => throw .malformed

def fileBlob : Schema FileBlob where
  write blob := record [("path", path.write blob.path), ("size", word64.write blob.size)]
  read json := do match ← allFields ["path", "size"] json with
    | [location, size] => return ⟨← path.read location, ← word64.read size⟩
    | _ => throw .malformed

def placeholder : Schema Placeholder where
  write blob := record [("physical_id", text.write blob.physicalId),
    ("size", word64.write blob.size)]
  read json := do match ← allFields ["physical_id", "size"] json with
    | [physicalId, size] => return ⟨← text.read physicalId, ← word64.read size⟩
    | _ => throw .malformed

def blob : Schema Blob where
  write
    | .inline blob => variant "ByteStream" (inlineBlob.write blob)
    | .file blob => variant "File" (fileBlob.write blob)
    | .placeholder blob => variant "Placeholder" (placeholder.write blob)
  read json := do match ← readVariant json with
    | ("ByteStream", value) => return .inline (← inlineBlob.read value)
    | ("File", value) => return .file (← fileBlob.read value)
    | ("Placeholder", value) => return .placeholder (← placeholder.read value)
    | _ => throw .malformed

def offsets : Schema (List UInt64) := list word64

def fullSnapshot : Schema FullSnapshot where
  write snapshot := record [("key_group_range", keyGroups.write snapshot.range),
    ("offsets", offsets.write snapshot.offsets), ("delegate", blob.write snapshot.delegate)]
  read json := do match ← allFields ["key_group_range", "offsets", "delegate"] json with
    | [range, starts, delegate] => return ⟨
        ← keyGroups.read range, ← offsets.read starts, ← blob.read delegate⟩
    | _ => throw .malformed

def slot : Schema Slot where
  write slot := record [("key", text.write slot.key),
    ("local_path", text.write slot.localPath), ("handle", blob.write slot.blob)]
  read json := do match ← allFields ["key", "local_path", "handle"] json with
    | [key, localPath, handle] => return ⟨
        ← text.read key, ← text.read localPath, ← blob.read handle⟩
    | _ => throw .malformed

def incremental : Schema Incremental where
  write snapshot := record [("checkpoint_id", word64.write snapshot.checkpoint),
    ("key_group_range", keyGroups.write snapshot.range),
    ("shared_state", (list slot).write snapshot.slots),
    ("private_state", (list blob).write snapshot.privateBlobs),
    ("metadata", blob.write snapshot.manifest),
    ("checkpointed_size", word64.write snapshot.recordedSize)]
  read json := do
    match ← allFields ["checkpoint_id", "key_group_range", "shared_state", "private_state",
        "metadata", "checkpointed_size"] json with
    | [checkpoint, range, slots, privateBlobs, manifest, recordedSize] => return {
        checkpoint := ← word64.read checkpoint
        range := ← keyGroups.read range
        slots := ← (list slot).read slots
        privateBlobs := ← (list blob).read privateBlobs
        manifest := ← blob.read manifest
        recordedSize := ← word64.read recordedSize
        registered := false }
    | _ => throw .malformed

def keyedState : Schema (KeyedState Incremental) where
  write
    | .full snapshot => variant "KeyGroups" (fullSnapshot.write snapshot)
    | .incremental snapshot => variant "Incremental" (incremental.write snapshot)
  read json := do match ← readVariant json with
    | ("KeyGroups", value) => return .full (← fullSnapshot.read value)
    | ("Incremental", value) => return .incremental (← incremental.read value)
    | _ => throw .malformed

def partitionedState : Schema PartitionedState where
  write state := record
    [("partition_offsets", (sortedMap textKey offsets).write state.partitions),
      ("delegate", blob.write state.delegate)]
  read json := do match ← allFields ["partition_offsets", "delegate"] json with
    | [partitions, delegate] => return ⟨
        ← (sortedMap textKey offsets).read partitions, ← blob.read delegate⟩
    | _ => throw .malformed

def channelState : Schema ChannelState where
  write state := record [("channel_index", word32.write state.channel),
    ("offsets", offsets.write state.offsets), ("delegate", blob.write state.delegate)]
  read json := do match ← allFields ["channel_index", "offsets", "delegate"] json with
    | [channel, starts, delegate] => return ⟨
        ← word32.read channel, ← offsets.read starts, ← blob.read delegate⟩
    | _ => throw .malformed

def subtask : Schema PlainSubtask where
  write state := record
    [("managed_operator_state", (list partitionedState).write state.managedOperator),
      ("raw_operator_state", (list partitionedState).write state.rawOperator),
      ("managed_keyed_state", (list keyedState).write state.managedKeyed),
      ("raw_keyed_state", (list keyedState).write state.rawKeyed),
      ("input_channel_state", (list channelState).write state.inputChannel),
      ("result_subpartition_state", (list channelState).write state.resultSubpartition)]
  read json := do
    match ← allFields ["managed_operator_state", "raw_operator_state", "managed_keyed_state",
        "raw_keyed_state", "input_channel_state", "result_subpartition_state"] json with
    | [managedOperator, rawOperator, managedKeyed, rawKeyed, input, result] => return {
        managedOperator := ← (list partitionedState).read managedOperator
        rawOperator := ← (list partitionedState).read rawOperator
        managedKeyed := ← (list keyedState).read managedKeyed
        rawKeyed := ← (list keyedState).read rawKeyed
        inputChannel := ← (list channelState).read input
        resultSubpartition := ← (list channelState).read result }
    | _ => throw .malformed

/-- An object without a coordinator's state reads as one where it was not set. -/
def operatorRecord : Schema (OperatorRecord PlainSubtask) where
  write fields := record [("operator_id", operatorId.write fields.operator),
    ("parallelism", word64.write fields.parallelism),
    ("max_parallelism", word64.write fields.maxParallelism),
    ("subtask_states", (sortedMap word64Key subtask).write fields.subtasks),
    ("coordinator_state", (setOnce (option inlineBlob)).write fields.coordinator)]
  read json := do
    match ← fields ["operator_id", "parallelism", "max_parallelism", "subtask_states",
        "coordinator_state"] 5 json with
    | [some operator, some parallelism, some maxParallelism, some subtasks, coordinator] =>
        return {
          operator := ← operatorId.read operator
          parallelism := ← word64.read parallelism
          maxParallelism := ← word64.read maxParallelism
          subtasks := ← (sortedMap word64Key subtask).read subtasks
          coordinator := ← readOr (setOnce (option inlineBlob)) .unset coordinator }
    | _ => throw .malformed

def operatorCheckpoint : Schema (OperatorCheckpoint PlainSubtask) where
  write state := operatorRecord.write state.toOperatorRecord
  read json := do match OperatorCheckpoint.ofRecord (← operatorRecord.read json) with
    | .ok state => return state
    | .error violation => throw (.rejected violation)

end Schema

def StateKind.schema : (kind : StateKind) → Schema kind.Content
  | .blob => Schema.blob
  | .keyed => Schema.keyedState
  | .partitioned => Schema.partitionedState
  | .channel => Schema.channelState
  | .keyedCollection => Schema.list Schema.keyedState
  | .partitionedCollection => Schema.list Schema.partitionedState
  | .channelCollection => Schema.list Schema.channelState
  | .subtask => Schema.subtask
  | .operator => Schema.operatorCheckpoint

def DatumKind.schema : (kind : DatumKind) → Schema kind.Content
  | .cell => Schema.cell
  | .registryConfig => Schema.registryConfig
  | .operatorId => Schema.operatorId
  | .keyGroups => Schema.keyGroups

def Kind.schema : (kind : Kind) → Schema kind.Content
  | .state kind => kind.schema
  | .datum kind => kind.schema

end CheckpointLedger
