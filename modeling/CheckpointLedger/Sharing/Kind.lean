import CheckpointLedger.Sharing.Store
import CheckpointLedger.Snapshot.Kind

/-!
Values of any kind in a store. State is held by reference, so that owners can
share it; reading it gives the plain value, and adding a plain value gives state
that nothing else refers to.
-/

namespace CheckpointLedger

abbrev StateKind.Ref : StateKind → Type
  | .blob => Blob
  | .keyed => KeyedRef
  | .partitioned => PartitionedState
  | .channel => ChannelState
  | .keyedCollection => KeyedCollection
  | .partitionedCollection => PartitionedCollection
  | .channelCollection => ChannelCollection
  | .subtask => SubtaskRef
  | .operator => OperatorCheckpoint SubtaskRef

abbrev Kind.Ref : Kind → Type
  | .state kind => kind.Ref
  | .datum kind => kind.Content

namespace Store

def readState (store : Store) : (kind : StateKind) → kind.Ref → kind.Content
  | .blob, blob => blob
  | .keyed, state => store.readKeyed state
  | .partitioned, state => state
  | .channel, state => state
  | .keyedCollection, states => states.content.map store.readKeyed
  | .partitionedCollection, states => states.content
  | .channelCollection, states => states.content
  | .subtask, state => store.readSubtask state.content
  | .operator, state => store.readOperator state

def addState : (kind : StateKind) → kind.Content → Store → kind.Ref × Store
  | .blob, blob, store => (blob, store)
  | .keyed, state, store => addKeyed state store
  | .partitioned, state, store => (state, store)
  | .channel, state, store => (state, store)
  | .keyedCollection, states, store => addKeyedCollection states store
  | .partitionedCollection, states, store => share states store
  | .channelCollection, states, store => share states store
  | .subtask, state, store => addSubtask state store
  | .operator, state, store => addOperator state store

/-- A copy shares what lies below collections. -/
def copyState : (kind : StateKind) → kind.Ref → Store → kind.Ref × Store
  | .keyed, state, store => copyKeyed state store
  | .subtask, state, store => copySubtask state store
  | _, state, store => (state, store)

def read (store : Store) : (kind : Kind) → kind.Ref → kind.Content
  | .state kind, ref => store.readState kind ref
  | .datum _, value => value

def addValue : (kind : Kind) → kind.Content → Store → kind.Ref × Store
  | .state kind, value, store => addState kind value store
  | .datum _, value, store => (value, store)

def copy : (kind : Kind) → kind.Ref → Store → kind.Ref × Store
  | .state kind, ref, store => copyState kind ref store
  | .datum _, value, store => (value, store)

def equal (store : Store) : (kind : Kind) → kind.Ref → kind.Ref → Bool
  | .state kind, a, b => equivalent (store.readState kind a) (store.readState kind b)
  | .datum _, a, b => decide (a = b)

end Store

end CheckpointLedger
