import CheckpointLedger.Snapshot.Incremental
import CheckpointLedger.SortedMap

/-!
The handles in which a subtask's state comes: keyed state for a range of key
groups, full or incremental; partitioned operator state; and the buffers in
flight on one channel. All but the incremental ones keep their bytes in one
delegate blob.

What one parallel subtask put into a checkpoint is in six categories. The
categories are parameters: plainly they are lists of handles, and between copies
of one state they are shared.
-/

namespace CheckpointLedger

variable {ι ω κ χ : Type}

/-- A full snapshot of the key groups in the range, with the offset of each
group in the delegate. -/
structure FullSnapshot where
  range : KeyGroups
  offsets : List UInt64
  delegate : Blob
  deriving DecidableEq

/-- Keyed state, where `ι` stands for the incremental snapshots. -/
inductive KeyedState (ι : Type) where
  | full (snapshot : FullSnapshot)
  | incremental (snapshot : ι)
  deriving DecidableEq

/-- Operator state: for each named state, where its partitions begin in the
delegate. -/
structure PartitionedState where
  partitions : SortedMap String (List UInt64)
  delegate : Blob
  deriving DecidableEq

structure ChannelState where
  channel : UInt32
  offsets : List UInt64
  delegate : Blob
  deriving DecidableEq

instance : Stored FullSnapshot where
  stateSize snapshot := snapshot.delegate.stateSize
  writtenSize snapshot := snapshot.delegate.writtenSize
  equivalent a b :=
    a.range == b.range && a.offsets == b.offsets && a.delegate.equivalent b.delegate
  discard snapshot := snapshot.delegate.discard

instance : Stored PartitionedState where
  stateSize state := state.delegate.stateSize
  writtenSize state := state.delegate.writtenSize
  equivalent a b :=
    decide (a.partitions = b.partitions) && a.delegate.equivalent b.delegate
  discard state := state.delegate.discard

instance : Stored ChannelState where
  stateSize state := state.delegate.stateSize
  writtenSize state := state.delegate.writtenSize
  equivalent a b :=
    a.channel == b.channel && a.offsets == b.offsets && a.delegate.equivalent b.delegate
  discard state := state.delegate.discard

instance [Stored ι] : Stored (KeyedState ι) where
  stateSize
    | .full snapshot => stateSize snapshot
    | .incremental snapshot => stateSize snapshot
  writtenSize
    | .full snapshot => writtenSize snapshot
    | .incremental snapshot => writtenSize snapshot
  equivalent
    | .full a, .full b => equivalent a b
    | .incremental a, .incremental b => equivalent a b
    | _, _ => false
  discard
    | .full snapshot => discard snapshot
    | .incremental snapshot => discard snapshot

structure SubtaskState (ω κ χ : Type) where
  managedOperator : ω
  rawOperator : ω
  managedKeyed : κ
  rawKeyed : κ
  inputChannel : χ
  resultSubpartition : χ
  deriving DecidableEq

abbrev PlainSubtask :=
  SubtaskState (List PartitionedState) (List (KeyedState Incremental)) (List ChannelState)

namespace SubtaskState

def empty : PlainSubtask := ⟨[], [], [], [], [], []⟩

def hasState (state : PlainSubtask) : Bool :=
  !state.managedOperator.isEmpty || !state.rawOperator.isEmpty || !state.managedKeyed.isEmpty ||
    !state.rawKeyed.isEmpty || !state.inputChannel.isEmpty || !state.resultSubpartition.isEmpty

/-- The state with other buffers in flight. -/
def withChannels (state : SubtaskState ω κ χ) (input result : χ) : SubtaskState ω κ χ :=
  { state with inputChannel := input, resultSubpartition := result }

end SubtaskState

instance [Stored ω] [Stored κ] [Stored χ] : Stored (SubtaskState ω κ χ) where
  stateSize state := Size.total [stateSize state.managedOperator, stateSize state.rawOperator,
    stateSize state.managedKeyed, stateSize state.rawKeyed, stateSize state.inputChannel,
    stateSize state.resultSubpartition]
  writtenSize state := Size.total [writtenSize state.managedOperator,
    writtenSize state.rawOperator, writtenSize state.managedKeyed, writtenSize state.rawKeyed,
    writtenSize state.inputChannel, writtenSize state.resultSubpartition]
  equivalent a b := equivalent a.managedOperator b.managedOperator &&
    equivalent a.rawOperator b.rawOperator && equivalent a.managedKeyed b.managedKeyed &&
    equivalent a.rawKeyed b.rawKeyed && equivalent a.inputChannel b.inputChannel &&
    equivalent a.resultSubpartition b.resultSubpartition
  discard state := do
    discard state.managedOperator
    discard state.rawOperator
    discard state.managedKeyed
    discard state.rawKeyed
    discard state.inputChannel
    discard state.resultSubpartition

end CheckpointLedger
