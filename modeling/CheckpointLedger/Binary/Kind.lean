import CheckpointLedger.Binary.Codec
import CheckpointLedger.Snapshot.Kind

/-!
The binary form of each kind of value: its fields one after the other, in the
order given here. Whether an incremental snapshot is registered is not stored:
one that is read back has yet to be registered.
-/

namespace CheckpointLedger

namespace Codec

def operatorId : Codec OperatorId := (word 16).imap OperatorId.ofNat OperatorId.toNat

def keyGroups : Codec KeyGroups :=
  (pair word32 word32).imap (fun (first, last) => ⟨first, last⟩)
    (fun range => (range.first, range.last))

def setOnce {α : Type} (value : Codec α) : Codec (SetOnce α) :=
  (option value).imap SetOnce.mk SetOnce.value?

def cell : Codec (SetOnce (Option UInt64)) := setOnce (option word64)

def disposalMode : Codec DisposalMode where
  encode
    | .immediate => tagged 0 (.ok [])
    | .background => tagged 1 (.ok [])
  decode := choose [fun rest => .ok (.immediate, rest), fun rest => .ok (.background, rest)]

def registryConfig : Codec RegistryConfig :=
  (pair disposalMode word64).imap (fun (disposal, capacity) => ⟨disposal, capacity⟩)
    (fun config => (config.disposal, config.queueCapacity))

def inlineBlob : Codec InlineBlob :=
  (pair text (list byte)).imap (fun (name, data) => ⟨name, data⟩)
    (fun blob => (blob.name, blob.data))

def fileBlob : Codec FileBlob :=
  (pair path word64).imap (fun (path, size) => ⟨path, size⟩)
    (fun blob => (blob.path, blob.size))

def placeholder : Codec Placeholder :=
  (pair text word64).imap (fun (physicalId, size) => ⟨physicalId, size⟩)
    (fun blob => (blob.physicalId, blob.size))

def blob : Codec Blob where
  encode
    | .inline blob => tagged 0 (inlineBlob.encode blob)
    | .file blob => tagged 1 (fileBlob.encode blob)
    | .placeholder blob => tagged 2 (placeholder.encode blob)
  decode := choose
    [inlineBlob.decodeAs .inline, fileBlob.decodeAs .file, placeholder.decodeAs .placeholder]

def offsets : Codec (List UInt64) := list word64

def fullSnapshot : Codec FullSnapshot :=
  (pair keyGroups (pair offsets blob)).imap
    (fun (range, offsets, delegate) => ⟨range, offsets, delegate⟩)
    (fun snapshot => (snapshot.range, snapshot.offsets, snapshot.delegate))

def slot : Codec Slot :=
  (pair text (pair text blob)).imap (fun (key, localPath, blob) => ⟨key, localPath, blob⟩)
    (fun slot => (slot.key, slot.localPath, slot.blob))

def incremental : Codec Incremental :=
  (pair word64 (pair keyGroups (pair (list slot) (pair (list blob) (pair blob word64))))).imap
    (fun (checkpoint, range, slots, privateBlobs, manifest, recordedSize) =>
      ⟨checkpoint, range, slots, privateBlobs, manifest, recordedSize, false⟩)
    (fun snapshot => (snapshot.checkpoint, snapshot.range, snapshot.slots,
      snapshot.privateBlobs, snapshot.manifest, snapshot.recordedSize))

def keyedState : Codec (KeyedState Incremental) where
  encode
    | .full snapshot => tagged 0 (fullSnapshot.encode snapshot)
    | .incremental snapshot => tagged 1 (incremental.encode snapshot)
  decode := choose [fullSnapshot.decodeAs .full, incremental.decodeAs .incremental]

def partitionedState : Codec PartitionedState :=
  (pair (sortedMap text offsets) blob).imap (fun (partitions, delegate) => ⟨partitions, delegate⟩)
    (fun state => (state.partitions, state.delegate))

def channelState : Codec ChannelState :=
  (pair word32 (pair offsets blob)).imap
    (fun (channel, offsets, delegate) => ⟨channel, offsets, delegate⟩)
    (fun state => (state.channel, state.offsets, state.delegate))

def subtask : Codec PlainSubtask :=
  (pair (list partitionedState) (pair (list partitionedState) (pair (list keyedState)
    (pair (list keyedState) (pair (list channelState) (list channelState)))))).imap
    (fun (managedOperator, rawOperator, managedKeyed, rawKeyed, input, result) =>
      ⟨managedOperator, rawOperator, managedKeyed, rawKeyed, input, result⟩)
    (fun state => (state.managedOperator, state.rawOperator, state.managedKeyed, state.rawKeyed,
      state.inputChannel, state.resultSubpartition))

def operatorRecord : Codec (OperatorRecord PlainSubtask) :=
  (pair operatorId (pair word64 (pair word64 (pair (sortedMap word64 subtask)
    (setOnce (option inlineBlob)))))).imap
    (fun (operator, parallelism, maxParallelism, subtasks, coordinator) =>
      ⟨operator, parallelism, maxParallelism, subtasks, coordinator⟩)
    (fun record => (record.operator, record.parallelism, record.maxParallelism, record.subtasks,
      record.coordinator))

def operatorCheckpoint : Codec (OperatorCheckpoint PlainSubtask) :=
  operatorRecord.checked OperatorCheckpoint.ofRecord OperatorCheckpoint.toOperatorRecord

end Codec

def StateKind.codec : (kind : StateKind) → Codec kind.Content
  | .blob => Codec.blob
  | .keyed => Codec.keyedState
  | .partitioned => Codec.partitionedState
  | .channel => Codec.channelState
  | .keyedCollection => Codec.list Codec.keyedState
  | .partitionedCollection => Codec.list Codec.partitionedState
  | .channelCollection => Codec.list Codec.channelState
  | .subtask => Codec.subtask
  | .operator => Codec.operatorCheckpoint

def DatumKind.codec : (kind : DatumKind) → Codec kind.Content
  | .cell => Codec.cell
  | .registryConfig => Codec.registryConfig
  | .operatorId => Codec.operatorId
  | .keyGroups => Codec.keyGroups

def Kind.codec : (kind : Kind) → Codec kind.Content
  | .state kind => kind.codec
  | .datum kind => kind.codec

end CheckpointLedger
