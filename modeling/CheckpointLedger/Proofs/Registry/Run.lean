import CheckpointLedger.Proofs.Registry.Operations

/-!
Runs of a registry: the calls that change it, one after the other, each with its
answer and with what it handed out. `perform_step` says all that one call can
do; what holds along runs follows from it.
-/

namespace CheckpointLedger

/-- What callers ask of a registry, the questions apart that change nothing. -/
inductive Call where
  | reference (key : String) (blob : Blob) (checkpoint : CheckpointId)
  | releaseCheckpoint (checkpoint : CheckpointId)
  | releaseBelow (lowestKept : CheckpointId)
  | close
  deriving DecidableEq

inductive Answer where
  | canonical (blob : Blob)
  | released (count : Nat)
  | done
  deriving DecidableEq

/-- A call, and what came of it. -/
structure Turn where
  call : Call
  answer : Except Violation Answer
  effects : List Effect

namespace Call

/-- The checkpoints whose references the call drops. -/
def covers : Call → CheckpointId → Bool
  | .releaseCheckpoint released => (· == released)
  | .releaseBelow lowestKept => (· < lowestKept)
  | _ => fun _ => false

def isRelease : Call → Bool
  | .releaseCheckpoint _ | .releaseBelow _ => true
  | _ => false

end Call

namespace Turn

def accepted (turn : Turn) : Bool := turn.answer.isOk

def Registers (turn : Turn) (key : String) (blob : Blob) (checkpoint : CheckpointId) : Prop :=
  turn.accepted = true ∧ turn.call = .reference key blob checkpoint

def Releases (turn : Turn) (checkpoint : CheckpointId) : Prop :=
  turn.accepted = true ∧ turn.call.covers checkpoint = true

end Turn

namespace Registry

def attempt (registry : Registry) : Call → Except Violation (Registry × Answer × List Effect)
  | .reference key blob checkpoint => (registry.reference key blob checkpoint).map fun made =>
      (made.registry, .canonical made.canonical, made.effects)
  | .releaseCheckpoint checkpoint => (registry.releaseCheckpoint checkpoint).map fun release =>
      (release.registry, .released release.released.length, release.effects)
  | .releaseBelow lowestKept => (registry.releaseBelow lowestKept).map fun release =>
      (release.registry, .released release.released.length, release.effects)
  | .close => registry.close.map fun closed => (closed.1, .done, closed.2)

/-- The registry after the call. A refused call leaves it as it was. -/
def perform (registry : Registry) (call : Call) : Registry × Turn :=
  match registry.attempt call with
  | .ok (next, answer, effects) => (next, ⟨call, .ok answer, effects⟩)
  | .error violation => (registry, ⟨call, .error violation, []⟩)

def after (registry : Registry) (calls : List Call) : Registry :=
  calls.foldl (fun registry call => (registry.perform call).1) registry

def history : Registry → List Call → List Turn
  | _, [] => []
  | registry, call :: rest =>
      let next := registry.perform call
      next.2 :: next.1.history rest

/-- The registries that callers can bring about. -/
def Reachable (registry : Registry) : Prop := ∃ calls, registry = empty.after calls

@[simp] theorem after_nil (registry : Registry) : registry.after [] = registry := rfl

@[simp] theorem after_cons (registry : Registry) (call : Call) (rest : List Call) :
    registry.after (call :: rest) = (registry.perform call).1.after rest := rfl

theorem after_append (registry : Registry) (calls more : List Call) :
    registry.after (calls ++ more) = (registry.after calls).after more :=
  List.foldl_append

theorem history_append (registry : Registry) (calls more : List Call) :
    registry.history (calls ++ more) =
      registry.history calls ++ (registry.after calls).history more := by
  induction calls generalizing registry with
  | nil => rfl
  | cons call rest ih =>
      simp only [List.cons_append, history, after_cons]
      rw [ih]

theorem after_concat (registry : Registry) (calls : List Call) (call : Call) :
    registry.after (calls ++ [call]) = ((registry.after calls).perform call).1 :=
  after_append registry calls [call]

theorem history_concat (registry : Registry) (calls : List Call) (call : Call) :
    registry.history (calls ++ [call]) =
      registry.history calls ++ [((registry.after calls).perform call).2] :=
  history_append registry calls [call]

theorem history_length (registry : Registry) (calls : List Call) :
    (registry.history calls).length = calls.length := by
  induction calls generalizing registry with
  | nil => rfl
  | cons call rest ih => simp [history, ih]

theorem history_take (registry : Registry) (calls : List Call) (turns : Nat) :
    (registry.history calls).take turns = registry.history (calls.take turns) := by
  induction calls generalizing registry turns with
  | nil => simp [history]
  | cons call rest ih =>
      cases turns with
      | zero => rfl
      | succ turns => simp [history, ih]

theorem perform_release (registry : Registry) (intact : registry.status ≠ .poisoned) (call : Call)
    (release : call.isRelease = true) :
    registry.perform call =
      ((registry.releaseCovered call.covers).registry,
        ⟨call, .ok (.released (registry.releaseCovered call.covers).released.length),
          (registry.releaseCovered call.covers).effects⟩) := by
  cases call with
  | releaseCheckpoint checkpoint =>
      simp only [perform, attempt, releaseCheckpoint, answer, intact, ↓reduceIte, Except.map,
        Call.covers]
  | releaseBelow lowestKept =>
      simp only [perform, attempt, releaseBelow, answer, intact, ↓reduceIte, Except.map,
        Call.covers]
  | reference key blob checkpoint => cases release
  | close => cases release

/-- All that a call can do to a registry that no caller has broken. -/
inductive Step (registry : Registry) : Call → Registry × Turn → Prop where
  | refused {key : String} {blob : Blob} {checkpoint : CheckpointId} {violation : Violation}
      (refusal : registry.reference key blob checkpoint = .error violation) :
      Step registry (.reference key blob checkpoint)
        (registry, ⟨.reference key blob checkpoint, .error violation, []⟩)
  | registered {key : String} {blob : Blob} {checkpoint : CheckpointId} {made : Reference}
      (accepted : registry.reference key blob checkpoint = .ok made) :
      Step registry (.reference key blob checkpoint)
        (made.registry,
          ⟨.reference key blob checkpoint, .ok (.canonical made.canonical), made.effects⟩)
  | released {call : Call} (release : call.isRelease = true) :
      Step registry call
        ((registry.releaseCovered call.covers).registry,
          ⟨call, .ok (.released (registry.releaseCovered call.covers).released.length),
            (registry.releaseCovered call.covers).effects⟩)
  | closed {events : List Event} :
      Step registry .close
        (⟨registry.fragments, .closed⟩, ⟨.close, .ok .done, events.map .report⟩)

theorem perform_step (registry : Registry) (intact : registry.status ≠ .poisoned) (call : Call) :
    registry.Step call (registry.perform call) := by
  cases call with
  | reference key blob checkpoint =>
      cases outcome : registry.reference key blob checkpoint with
      | error violation =>
          simp only [perform, attempt, outcome, Except.map]
          exact .refused outcome
      | ok made =>
          simp only [perform, attempt, outcome, Except.map]
          exact .registered outcome
  | releaseCheckpoint checkpoint =>
      rw [perform_release registry intact _ rfl]
      exact .released rfl
  | releaseBelow lowestKept =>
      rw [perform_release registry intact _ rfl]
      exact .released rfl
  | close =>
      cases status : registry.status with
      | poisoned => exact absurd status intact
      | accepting =>
          simp only [perform, attempt, close, answer, status, Except.map]
          exact @Step.closed registry [.registryClosed registry.fragments.size]
      | closed =>
          -- Closing once more changes nothing and reports nothing.
          have same : registry = ⟨registry.fragments, .closed⟩ := by rw [← status]
          simp only [perform, attempt, close, answer, status, Except.map]
          have step : registry.Step .close (⟨registry.fragments, .closed⟩, _) :=
            @Step.closed registry []
          rwa [← same] at step

section Step

variable {registry : Registry} {call : Call} {next : Registry × Turn}

theorem step_call (step : registry.Step call next) : next.2.call = call := by
  cases step <;> rfl

theorem step_intact (step : registry.Step call next) (intact : registry.status ≠ .poisoned) :
    next.1.status ≠ .poisoned := by
  cases step with
  | refused => exact intact
  | registered accepted => simp [(reference_cases accepted).2.1]
  | released => exact intact
  | closed => simp

theorem step_wellformed (step : registry.Step call next) (valid : registry.WellFormed) :
    next.1.WellFormed := by
  cases step with
  | refused => exact valid
  | registered accepted => exact reference_wellformed accepted valid
  | released => exact release_wellformed registry _ valid
  | closed => exact ⟨valid.occupied, valid.real⟩

/-- A reference is there after a call if the call registers it, or if it was
there before and the call does not release it. -/
theorem step_refers (step : registry.Step call next) (key : String) (checkpoint : CheckpointId) :
    next.1.Refers key checkpoint ↔
      (∃ blob, next.2.Registers key blob checkpoint) ∨
        (registry.Refers key checkpoint ∧ ¬ next.2.Releases checkpoint) := by
  cases step with
  | refused => simp [Turn.Registers, Turn.Releases, Turn.accepted, Except.isOk, Except.toBool]
  | registered accepted =>
      rw [reference_refers accepted]
      simp [Turn.Registers, Turn.Releases, Turn.accepted, Except.isOk, Except.toBool, Call.covers,
        eq_comm]
  | released release =>
      rw [release_refers]
      cases call <;>
        simp_all [Turn.Registers, Turn.Releases, Turn.accepted, Except.isOk, Except.toBool,
          Call.isRelease]
  | closed => simp [Turn.Registers, Turn.Releases, Turn.accepted, Call.covers, Refers]

/-- A key that has a blob after a call had it before, or had none and got it from
the call. -/
theorem step_blob? (step : registry.Step call next) (key : String) (blob : Blob)
    (found : next.1.blob? key = some blob) :
    registry.blob? key = some blob ∨
      (registry.blob? key = none ∧ ∃ checkpoint, next.2.Registers key blob checkpoint) := by
  cases step with
  | refused => exact Or.inl found
  | @registered registeredKey presented checkpoint made accepted =>
      rw [reference_blob? accepted] at found
      by_cases same : key = registeredKey
      · simp only [same, ↓reduceIte, Option.some.injEq] at found
        subst same found
        rcases reference_canonical accepted with known | ⟨absent, adopted, _⟩
        · exact Or.inl known
        · refine Or.inr ⟨absent, checkpoint, rfl, ?_⟩
          simp [adopted]
      · exact Or.inl (by simpa [same] using found)
  | released => exact Or.inl ((release_blob? registry _ key blob).mp found).1
  | closed => exact Or.inl found

theorem step_keeps_blob (step : registry.Step call next) (key : String) (blob : Blob)
    (found : registry.blob? key = some blob) (present : next.1.blob? key ≠ none) :
    next.1.blob? key = some blob := by
  obtain ⟨other, there⟩ := Option.ne_none_iff_exists'.mp present
  rcases step_blob? step key other there with same | ⟨absent, _⟩
  · rw [there, ← same, found]
  · simp [found] at absent

end Step

/-- No run breaks a registry. -/
theorem after_wellformed (registry : Registry) (intact : registry.status ≠ .poisoned)
    (valid : registry.WellFormed) (calls : List Call) :
    (registry.after calls).status ≠ .poisoned ∧ (registry.after calls).WellFormed := by
  induction calls generalizing registry with
  | nil => exact ⟨intact, valid⟩
  | cons call rest ih =>
      have step := perform_step registry intact call
      exact ih _ (step_intact step intact) (step_wellformed step valid)

theorem reachable_wellformed (registry : Registry) (reachable : registry.Reachable) :
    registry.status ≠ .poisoned ∧ registry.WellFormed := by
  obtain ⟨calls, same⟩ := reachable
  subst registry
  exact after_wellformed empty (by simp [empty]) empty_wellformed calls

/-- A turn of a run is a step from where the calls before it have led. -/
theorem history_step (registry : Registry) (intact : registry.status ≠ .poisoned)
    (calls : List Call) (position : Nat) (turn : Turn)
    (found : (registry.history calls)[position]? = some turn) :
    ∃ call, calls[position]? = some call ∧
      (registry.after (calls.take position)).Step call
        (registry.after (calls.take (position + 1)), turn) := by
  induction calls generalizing registry position with
  | nil => simp [history] at found
  | cons first rest ih =>
      have step := perform_step registry intact first
      cases position with
      | zero =>
          simp only [history, List.getElem?_cons_zero, Option.some.injEq] at found
          subst turn
          exact ⟨first, rfl, step⟩
      | succ position =>
          exact ih _ (step_intact step intact) position found

end Registry

end CheckpointLedger
