import CheckpointLedger.Snapshot.OperatorCheckpoint

/-!
State that several owners refer to. Registration changes an incremental snapshot
for all its owners, so snapshots are kept in a store and referred to by number.
Collections and subtask states never change, but two of them can be one and the
same: each has a number too, which its copies keep.
-/

namespace CheckpointLedger

variable {α ι κ : Type}

structure SnapshotId where
  number : Nat
  deriving DecidableEq

structure Shared (α : Type) where
  number : Nat
  content : α

def Shared.same (a b : Shared α) : Bool := a.number == b.number

structure Store where
  next : Nat
  snapshot : SnapshotId → Incremental

abbrev KeyedRef := KeyedState SnapshotId

abbrev KeyedCollection := Shared (List KeyedRef)

abbrev PartitionedCollection := Shared (List PartitionedState)

abbrev ChannelCollection := Shared (List ChannelState)

abbrev SubtaskCategories := SubtaskState PartitionedCollection KeyedCollection ChannelCollection

abbrev SubtaskRef := Shared SubtaskCategories

def KeyedState.map (f : ι → κ) : KeyedState ι → KeyedState κ
  | .full snapshot => .full snapshot
  | .incremental snapshot => .incremental (f snapshot)

namespace Store

/-- A store without snapshots. What stands at unused numbers is never looked at. -/
def empty : Store where
  next := 0
  snapshot _ := ⟨0, .empty, [], [], .placeholder ⟨"", 0⟩, 0, false⟩

def update (store : Store) (id : SnapshotId) (snapshot : Incremental) : Store :=
  { store with snapshot := fun other => if other = id then snapshot else store.snapshot other }

def add (snapshot : Incremental) (store : Store) : SnapshotId × Store :=
  (⟨store.next⟩, { store.update ⟨store.next⟩ snapshot with next := store.next + 1 })

def share (content : α) (store : Store) : Shared α × Store :=
  (⟨store.next, content⟩, { store with next := store.next + 1 })

/-! What the references stand for. -/

def readKeyed (store : Store) (state : KeyedRef) : KeyedState Incremental :=
  state.map store.snapshot

def readSubtask (store : Store) (state : SubtaskCategories) : PlainSubtask where
  managedOperator := state.managedOperator.content
  rawOperator := state.rawOperator.content
  managedKeyed := state.managedKeyed.content.map store.readKeyed
  rawKeyed := state.rawKeyed.content.map store.readKeyed
  inputChannel := state.inputChannel.content
  resultSubpartition := state.resultSubpartition.content

def readOperator (store : Store) (state : OperatorCheckpoint SubtaskRef) :
    OperatorCheckpoint PlainSubtask :=
  state.mapSubtasks fun subtask => store.readSubtask subtask.content

/-! Plain state becomes state of its own: nothing else refers to it. -/

def addKeyed (state : KeyedState Incremental) (store : Store) : KeyedRef × Store :=
  match state with
  | .full snapshot => (.full snapshot, store)
  | .incremental snapshot =>
      let added := add snapshot store
      (.incremental added.1, added.2)

def addKeyedList : List (KeyedState Incremental) → Store → List KeyedRef × Store
  | [], store => ([], store)
  | state :: rest, store =>
      let first := addKeyed state store
      let tail := addKeyedList rest first.2
      (first.1 :: tail.1, tail.2)

def addKeyedCollection (states : List (KeyedState Incremental)) (store : Store) :
    KeyedCollection × Store :=
  let added := addKeyedList states store
  share added.1 added.2

def addSubtask (state : PlainSubtask) (store : Store) : SubtaskRef × Store :=
  let (managedOperator, store) := share state.managedOperator store
  let (rawOperator, store) := share state.rawOperator store
  let (managedKeyed, store) := addKeyedCollection state.managedKeyed store
  let (rawKeyed, store) := addKeyedCollection state.rawKeyed store
  let (inputChannel, store) := share state.inputChannel store
  let (resultSubpartition, store) := share state.resultSubpartition store
  share ⟨managedOperator, rawOperator, managedKeyed, rawKeyed, inputChannel, resultSubpartition⟩
    store

def addOperator (state : OperatorCheckpoint PlainSubtask) (store : Store) :
    OperatorCheckpoint SubtaskRef × Store :=
  state.threadSubtasks addSubtask store

/-! Copies. -/

/-- A keyed handle is copied whole, with slots of its own. -/
def copyKeyed (state : KeyedRef) (store : Store) : KeyedRef × Store :=
  addKeyed (store.readKeyed state) store

/-- A copied subtask state keeps the six collections. -/
def copySubtask (state : SubtaskRef) (store : Store) : SubtaskRef × Store :=
  share state.content store

/-- A copy for a restore that does not replay buffers in flight: both channel
categories are new and empty, the others are kept. -/
def withoutInFlight (state : SubtaskRef) (store : Store) : SubtaskRef × Store :=
  let (inputChannel, store) := share [] store
  let (resultSubpartition, store) := share [] store
  share (state.content.withChannels inputChannel resultSubpartition) store

def operatorWithoutInFlight (state : OperatorCheckpoint SubtaskRef) (store : Store) :
    OperatorCheckpoint SubtaskRef × Store :=
  state.threadSubtasks withoutInFlight store

end Store

end CheckpointLedger
