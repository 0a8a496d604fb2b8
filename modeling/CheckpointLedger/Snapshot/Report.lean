import CheckpointLedger.Snapshot.Kind

/-!
What the library reports to its log, with the line written for each report.
-/

namespace CheckpointLedger

inductive Severity where
  | debug
  | info
  | warning
  deriving DecidableEq

def Severity.label : Severity → String
  | .debug => "DEBUG"
  | .info => "INFO"
  | .warning => "WARN"

inductive Event where
  | registered (key : String) (checkpoint : UInt64)
  | referenced (key : String) (checkpoint : UInt64) (references : Nat)
  | duplicate (redundantId canonicalId : String)
  | unreferenced (key : String)
  | registryClosed (live : Nat)
  | operatorDiscarded (operator : OperatorId) (subtasks : Nat)
  | disposalFailed (physicalId : String) (failure : DiscardFailure)
  deriving DecidableEq

namespace Event

def severity : Event → Severity
  | .registryClosed _ => .info
  | .disposalFailed _ _ => .warning
  | _ => .debug

def message : Event → String
  | .registered key checkpoint => s!"shared state {key} registered by checkpoint {checkpoint}"
  | .referenced key checkpoint references =>
      s!"shared state {key} referenced by checkpoint {checkpoint}, refcount={references}"
  | .duplicate redundantId canonicalId =>
      s!"discarding duplicate upload {redundantId} in favour of {canonicalId}"
  | .unreferenced key => s!"shared state {key} is no longer referenced"
  | .registryClosed live => s!"shared state registry closed with {live} live fragments"
  | .operatorDiscarded operator subtasks =>
      s!"discarding state of operator {operator.text} ({subtasks} subtask states)"
  | .disposalFailed physicalId failure =>
      s!"failed to discard shared state {physicalId}: {failure.message}"

def line (event : Event) : String := s!"{event.severity.label} {event.message}"

end Event

/-- Only an operator's checkpoint announces that it is discarded, before anything
is removed. -/
def StateKind.discardReport : (kind : StateKind) → kind.Content → List Event
  | .operator, state =>
      [.operatorDiscarded (OperatorCheckpoint.toOperatorRecord state).operator
        (OperatorCheckpoint.collected state)]
  | _, _ => []

end CheckpointLedger
