import CheckpointLedger.Text.Numeral

/-!
The plain values of checkpoint bookkeeping: who an operator is, which key groups
a snapshot covers, cells that are filled once, how a registry disposes of what
it releases, and the ways in which a caller can break the rules. Failures of
storage are kept apart from the last.
-/

namespace CheckpointLedger

/-- A logical operator: a 128-bit number, written as 32 hexadecimal digits and
split into two 64-bit halves. -/
structure OperatorId where
  value : BitVec 128
  deriving DecidableEq

namespace OperatorId

/-- How many identifiers there are. -/
def count : Nat := UInt64.size * UInt64.size

def ofNat (number : Nat) : OperatorId := ⟨BitVec.ofNat 128 number⟩

def toNat (id : OperatorId) : Nat := id.value.toNat

def ofParts (upper lower : UInt64) : OperatorId :=
  ⟨upper.toBitVec.setWidth 128 <<< 64 ||| lower.toBitVec.setWidth 128⟩

def upper (id : OperatorId) : UInt64 := ⟨(id.value >>> 64).setWidth 64⟩

def lower (id : OperatorId) : UInt64 := ⟨id.value.setWidth 64⟩

def text (id : OperatorId) : String := String.ofList (Numeral.hexadecimal 32 id.toNat)

def compare (a b : OperatorId) : Ordering := Ord.compare a.toNat b.toNat

end OperatorId

/-- An inclusive range. One whose end lies below its start is empty; `of` writes
every empty range as the one from 1 to 0, while a range that is read from
storage keeps the bounds it has. -/
structure KeyGroups where
  first : UInt32
  last : UInt32
  deriving DecidableEq

namespace KeyGroups

def empty : KeyGroups := ⟨1, 0⟩

def of (first last : UInt32) : KeyGroups :=
  if last < first then empty else ⟨first, last⟩

/-- The number of key groups, or `none` when 32 bits do not hold it. -/
def size? (range : KeyGroups) : Option UInt32 :=
  if range.last < range.first then some 0
  else
    let steps := range.last - range.first
    if steps.toNat + 1 < UInt32.size then some (steps + 1) else none

def isEmpty? (range : KeyGroups) : Option Bool := range.size?.map (· == 0)

def contains (range : KeyGroups) (group : UInt32) : Bool :=
  range.first ≤ group && group ≤ range.last

end KeyGroups

/-- A cell that takes one value and keeps it. -/
structure SetOnce (α : Type) where
  value? : Option α
  deriving DecidableEq

namespace SetOnce

variable {α : Type}

def unset : SetOnce α := ⟨none⟩

instance : Inhabited (SetOnce α) := ⟨unset⟩

def isSet (cell : SetOnce α) : Bool := cell.value?.isSome

/-- The filled cell, or the rejected value when the cell was filled before. -/
def set (cell : SetOnce α) (value : α) : Except α (SetOnce α) :=
  match cell.value? with
  | none => .ok ⟨some value⟩
  | some _ => .error value

end SetOnce

inductive DisposalMode where
  | immediate
  | background
  deriving DecidableEq

structure RegistryConfig where
  disposal : DisposalMode
  queueCapacity : UInt64
  deriving DecidableEq

namespace RegistryConfig

def standard : RegistryConfig := ⟨.immediate, 1024⟩

def withDisposal (config : RegistryConfig) (disposal : DisposalMode) : RegistryConfig :=
  { config with disposal }

/-- A queue holds at least one blob. -/
def withQueueCapacity (config : RegistryConfig) (capacity : UInt64) : RegistryConfig :=
  { config with queueCapacity := max capacity 1 }

end RegistryConfig

inductive Violation where
  | invalidParallelism (parallelism maximum : UInt64)
  | subtaskOutOfBounds (index parallelism : UInt64) (collected : Nat)
  | coordinatorAlreadySet
  | unknownSharedState (key : String)
  | registryClosed
  | lockPoisoned
  deriving DecidableEq

def Violation.message : Violation → String
  | .invalidParallelism parallelism maximum =>
      s!"parallelism {parallelism} is not smaller or equal to max parallelism {maximum}"
  | .subtaskOutOfBounds index parallelism collected =>
      s!"subtask index {index} is out of bounds for parallelism {parallelism} " ++
        s!"({collected} states collected)"
  | .coordinatorAlreadySet => "coordinator state already set"
  | .unknownSharedState key => s!"attempt to reference unknown shared state {key}"
  | .registryClosed => "attempt to register state to a closed shared state registry"
  | .lockPoisoned => "shared state registry lock poisoned"

end CheckpointLedger
