import CheckpointLedger.Snapshot.OperatorCheckpoint

/-!
The kinds of values that the library stores. Those of checkpointed state have
sizes and can be discarded; the others are plain data.
-/

namespace CheckpointLedger

inductive StateKind where
  | blob
  | keyed
  | partitioned
  | channel
  | keyedCollection
  | partitionedCollection
  | channelCollection
  | subtask
  | operator
  deriving DecidableEq

abbrev StateKind.Content : StateKind → Type
  | .blob => Blob
  | .keyed => KeyedState Incremental
  | .partitioned => PartitionedState
  | .channel => ChannelState
  | .keyedCollection => List (KeyedState Incremental)
  | .partitionedCollection => List PartitionedState
  | .channelCollection => List ChannelState
  | .subtask => PlainSubtask
  | .operator => OperatorCheckpoint PlainSubtask

instance : (kind : StateKind) → Stored kind.Content
  | .blob => inferInstanceAs (Stored Blob)
  | .keyed => inferInstanceAs (Stored (KeyedState Incremental))
  | .partitioned => inferInstanceAs (Stored PartitionedState)
  | .channel => inferInstanceAs (Stored ChannelState)
  | .keyedCollection => inferInstanceAs (Stored (List (KeyedState Incremental)))
  | .partitionedCollection => inferInstanceAs (Stored (List PartitionedState))
  | .channelCollection => inferInstanceAs (Stored (List ChannelState))
  | .subtask => inferInstanceAs (Stored PlainSubtask)
  | .operator => inferInstanceAs (Stored (OperatorCheckpoint PlainSubtask))

inductive DatumKind where
  | cell
  | registryConfig
  | operatorId
  | keyGroups
  deriving DecidableEq

abbrev DatumKind.Content : DatumKind → Type
  | .cell => SetOnce (Option UInt64)
  | .registryConfig => RegistryConfig
  | .operatorId => OperatorId
  | .keyGroups => KeyGroups

instance : (kind : DatumKind) → DecidableEq kind.Content
  | .cell => inferInstanceAs (DecidableEq (SetOnce (Option UInt64)))
  | .registryConfig => inferInstanceAs (DecidableEq RegistryConfig)
  | .operatorId => inferInstanceAs (DecidableEq OperatorId)
  | .keyGroups => inferInstanceAs (DecidableEq KeyGroups)

inductive Kind where
  | state (kind : StateKind)
  | datum (kind : DatumKind)
  deriving DecidableEq

abbrev Kind.Content : Kind → Type
  | .state kind => kind.Content
  | .datum kind => kind.Content

end CheckpointLedger
