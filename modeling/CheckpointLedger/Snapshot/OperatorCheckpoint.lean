import CheckpointLedger.Basic
import CheckpointLedger.Snapshot.Subtask

/-!
The state of one operator at one checkpoint: what its subtasks acknowledged so
far, by subtask index, and the state of its coordinator, which is set once.
Indices stay below the parallelism, and this below its maximum.
-/

namespace CheckpointLedger

variable {β γ σ : Type}

/-- The fields of an operator's checkpoint, with nothing known about them. -/
structure OperatorRecord (β : Type) where
  operator : OperatorId
  parallelism : UInt64
  maxParallelism : UInt64
  subtasks : SortedMap UInt64 β
  coordinator : SetOnce (Option InlineBlob)
  deriving DecidableEq

structure OperatorCheckpoint (β : Type) extends OperatorRecord β where
  parallelism_le : parallelism ≤ maxParallelism
  index_lt : ∀ index ∈ subtasks.keys, index < parallelism
  deriving DecidableEq

/-- Subtasks whose state could not be discarded, each with its first failure. -/
structure DiscardReport where
  operator : OperatorId
  failures : List (UInt64 × DiscardFailure)
  deriving DecidableEq

def DiscardReport.message (report : DiscardReport) : String :=
  let causes := report.failures.map fun (index, failure) => s!"subtask {index}: {failure.message}"
  s!"failed to discard {report.failures.length} state objects of operator " ++
    s!"{report.operator.text}: " ++ "; ".intercalate causes

namespace OperatorCheckpoint

def create (operator : OperatorId) (parallelism maxParallelism : UInt64) :
    Except Violation (OperatorCheckpoint β) :=
  if within : parallelism ≤ maxParallelism then
    .ok { operator, parallelism, maxParallelism, subtasks := ∅, coordinator := .unset
          parallelism_le := within
          index_lt := by intro index member; cases member }
  else .error (.invalidParallelism parallelism maxParallelism)

def collected (state : OperatorCheckpoint β) : Nat := state.subtasks.size

def outOfBounds (state : OperatorCheckpoint β) (index : UInt64) : Violation :=
  .subtaskOutOfBounds index state.parallelism state.collected

/-- Records what a subtask acknowledged. A repeated acknowledgement replaces the
earlier one. -/
def put (state : OperatorCheckpoint β) (index : UInt64) (subtask : β) :
    Except Violation (OperatorCheckpoint β) :=
  if below : index < state.parallelism then
    .ok { state with
          subtasks := state.subtasks.insert index subtask
          index_lt := by
            intro other member
            rcases SortedMap.mem_keys_place index subtask state.subtasks.entries other member with
              same | earlier
            · exact same ▸ below
            · exact state.index_lt other earlier }
  else .error (state.outOfBounds index)

def get (state : OperatorCheckpoint β) (index : UInt64) : Except Violation (Option β) :=
  if index < state.parallelism then .ok (state.subtasks.find? index)
  else .error (state.outOfBounds index)

/-- Allowed once, also when the coordinator turns out to have no state. -/
def setCoordinator (state : OperatorCheckpoint β) (blob : Option InlineBlob) :
    Except Violation (OperatorCheckpoint β) :=
  match state.coordinator.set blob with
  | .ok cell => .ok { state with coordinator := cell }
  | .error _ => .error .coordinatorAlreadySet

def coordinatorBlob (state : OperatorCheckpoint β) : Option InlineBlob :=
  state.coordinator.value?.join

def putAll (state : OperatorCheckpoint β) : List (UInt64 × β) →
    Except Violation (OperatorCheckpoint β)
  | [] => .ok state
  | (index, subtask) :: rest => match state.put index subtask with
    | .ok next => next.putAll rest
    | .error violation => .error violation

/-- The checkpoint that the fields describe, checked as if its subtasks
acknowledged in ascending order. -/
def ofRecord (fields : OperatorRecord β) : Except Violation (OperatorCheckpoint β) := do
  let blank ← create fields.operator fields.parallelism fields.maxParallelism
  let filled ← blank.putAll fields.subtasks.entries
  return { filled with coordinator := fields.coordinator }

/-- The same state under another operator. -/
def rename (state : OperatorCheckpoint β) (operator : OperatorId) : OperatorCheckpoint β :=
  { state with operator }

def mapSubtasks (f : β → γ) (state : OperatorCheckpoint β) : OperatorCheckpoint γ where
  operator := state.operator
  parallelism := state.parallelism
  maxParallelism := state.maxParallelism
  subtasks := state.subtasks.map f
  coordinator := state.coordinator
  parallelism_le := state.parallelism_le
  index_lt := by
    intro index member
    refine state.index_lt index ?_
    simpa [SortedMap.keys, SortedMap.map, List.map_map, Function.comp_def] using member

/-- Maps the subtasks in index order while a state passes from one to the next. -/
def threadSubtasks (f : β → σ → γ × σ) (state : OperatorCheckpoint β) (store : σ) :
    OperatorCheckpoint γ × σ :=
  let next := state.subtasks.mapThread f store
  ({ operator := state.operator
     parallelism := state.parallelism
     maxParallelism := state.maxParallelism
     subtasks := next.1
     coordinator := state.coordinator
     parallelism_le := state.parallelism_le
     index_lt := by
       intro index member
       refine state.index_lt index ?_
       rw [SortedMap.keys, ← SortedMap.keys_thread f state.subtasks.entries store]
       exact member }, next.2)

/-- The subtasks that count towards the sizes. -/
def counted (state : OperatorCheckpoint β) : List β :=
  (state.subtasks.below state.parallelism).values

def coordinatorSize (state : OperatorCheckpoint β) : Size :=
  (state.coordinatorBlob.map InlineBlob.stateSize).getD (some 0)

/-- The coordinator's bytes are kept inline, so that no file is left of them. -/
def discard [Stored β] (state : OperatorCheckpoint β) : Discard :=
  state.subtasks.values.forM Stored.discard

def discardEach [Stored β] : List (UInt64 × β) → Directory →
    List (UInt64 × DiscardFailure) × Directory
  | [], directory => ([], directory)
  | (index, subtask) :: rest, directory => match Stored.discard subtask directory with
    | .ok _ next => discardEach rest next
    | .error failure next =>
        let tail := discardEach rest next
        ((index, failure) :: tail.1, tail.2)

/-- Discards subtask after subtask, also past failures, and reports them all. -/
def discardCollecting [Stored β] (state : OperatorCheckpoint β) :
    EStateM DiscardReport Directory Unit := fun directory =>
  match discardEach state.subtasks.entries directory with
  | ([], left) => .ok () left
  | (failures, left) => .error ⟨state.operator, failures⟩ left

end OperatorCheckpoint

/-- Operator checkpoints are compared by identity, extent and the coordinator's
size, not by what the subtasks stored. -/
instance [Stored β] : Stored (OperatorCheckpoint β) where
  stateSize state := Size.add state.coordinatorSize (stateSize state.counted)
  writtenSize state := Size.add state.coordinatorSize (writtenSize state.counted)
  equivalent a b := a.operator == b.operator && a.parallelism == b.parallelism &&
    a.collected == b.collected &&
    a.coordinatorBlob.map (·.data.length) == b.coordinatorBlob.map (·.data.length)
  discard := OperatorCheckpoint.discard

/-- A line on the whole checkpoint, unless its size does not fit. -/
def OperatorCheckpoint.summary? [Stored β] (state : OperatorCheckpoint β) : Option String := do
  let coordinator ← match state.coordinatorBlob with
    | some blob => blob.stateSize.map fun size => s!"{size} bytes"
    | none => some "(none)"
  let total ← stateSize state
  return s!"OperatorState(operatorID: {state.operator.text}, parallelism: {state.parallelism}, " ++
    s!"maxParallelism: {state.maxParallelism}, coordinatorState: {coordinator}, " ++
    s!"sub task states: {state.collected}, total size (bytes): {total})"

end CheckpointLedger
