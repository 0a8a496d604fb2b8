import CheckpointLedger.Proofs.Sharing.CanonicalSlots

/-!
What closing a registry does to everything that follows. Registrations are turned away at
the first slot that they come to and leave no trace but the marks on the snapshots they
reached. All else goes on as it would have: a run on the closed registry is compared with
the run on the open one that is asked the same, but for what the closed one refuses.
-/

namespace CheckpointLedger

namespace Registry

section Closed

variable {registry : Registry} (closed : registry.status = .closed)
include closed

theorem reference_closed (key : String) (blob : Blob) (checkpoint : CheckpointId) :
    registry.reference key blob checkpoint = .error .registryClosed :=
  (reference_error registry key blob checkpoint .registryClosed).mpr
    (Or.inr (Or.inl ⟨closed, rfl⟩))

theorem perform_reference_closed (key : String) (blob : Blob) (checkpoint : CheckpointId) :
    registry.perform (.reference key blob checkpoint) =
      (registry, ⟨.reference key blob checkpoint, .error .registryClosed, []⟩) := by
  simp only [perform, attempt, reference_closed closed, Except.map]

/-- Closing once more changes nothing and reports nothing. -/
theorem perform_close_closed : registry.perform .close = (registry, ⟨.close, .ok .done, []⟩) := by
  simp only [perform, attempt, close, answer, closed, reduceCtorEq, ↓reduceIte, Except.map]

theorem registerSlots_closed (checkpoint : CheckpointId) (slots : List Slot) :
    registerSlots checkpoint slots registry =
      ⟨slots, registry, [], if slots = [] then none else some .registryClosed⟩ := by
  cases slots with
  | nil => rfl
  | cons slot rest => simp only [registerSlots, reference_closed closed, reduceCtorEq, ↓reduceIte]

theorem registrations_closed {covered : CheckpointId → Bool} {effects : List Effect}
    {after : Registry} (grown : Registrations covered registry effects after) :
    after = registry := by
  cases grown with
  | none => rfl
  | next earlier own accepted =>
      have accepting := (reference_cases accepted).1
      rw [registrations_status earlier, closed] at accepting
      cases accepting

end Closed

theorem perform_close (registry : Registry) (intact : registry.status ≠ .poisoned) :
    (registry.perform .close).1 = ⟨registry.fragments, .closed⟩ := by
  have step := perform_step registry intact .close
  generalize registry.perform .close = next at step ⊢
  cases step with
  | released release => cases release
  | closed => rfl

/-- No key is new, and a key that is still there has its blob and no checkpoints but
those it had. -/
structure Shrinks (before after : Registry) : Prop where
  blobs : ∀ key, after.canonical? key = .ok none ∨ after.canonical? key = before.canonical? key
  checkpoints : ∀ key, ∃ former left, before.checkpointsOf key = .ok former ∧
    after.checkpointsOf key = .ok left ∧ ∀ holder ∈ left, holder ∈ former

section Shrinks

variable {first second third : Registry}

theorem shrinks_refl (intact : first.status ≠ .poisoned) : first.Shrinks first := by
  constructor
  · exact fun key => Or.inr rfl
  · intro key
    obtain ⟨holders, listed, _⟩ := checkpointsOf_view first intact key
    exact ⟨holders, holders, listed, listed, fun _ member => member⟩

theorem shrinks_trans (early : first.Shrinks second) (late : second.Shrinks third) :
    first.Shrinks third := by
  constructor
  · intro key
    rcases late.blobs key with gone | kept
    · exact Or.inl gone
    · rw [kept]
      exact early.blobs key
  · intro key
    obtain ⟨former, middle, before, between, fewer⟩ := early.checkpoints key
    obtain ⟨still, left, same, after, fewest⟩ := late.checkpoints key
    rw [between, Except.ok.injEq] at same
    exact ⟨former, left, before, after, fun holder member =>
      fewer holder (same ▸ fewest holder member)⟩

theorem shrinks_release (intact : first.status ≠ .poisoned) (covered : CheckpointId → Bool) :
    first.Shrinks (first.releaseCovered covered).registry := by
  have still : (first.releaseCovered covered).registry.status ≠ .poisoned := intact
  constructor
  · intro key
    rw [canonical?_view _ intact, canonical?_view _ still]
    cases left : (first.releaseCovered covered).registry.blob? key with
    | none => exact Or.inl rfl
    | some blob => exact Or.inr (by rw [((release_blob? first covered key blob).mp left).1])
  · intro key
    obtain ⟨former, listed, _, exact, _⟩ := checkpointsOf_view first intact key
    obtain ⟨left, listed', _, exact', _⟩ := checkpointsOf_view _ still key
    refine ⟨former, left, listed, listed', ?_⟩
    intro holder member
    exact (exact holder).mpr ((release_refers first covered key holder).mp
      ((exact' holder).mp member)).1

theorem step_shrinks (closed : first.status = .closed) {call : Call} {next : Registry × Turn}
    (step : first.Step call next) : first.Shrinks next.1 := by
  have intact : first.status ≠ .poisoned := by simp [closed]
  cases step with
  | refused => exact shrinks_refl intact
  | registered accepted =>
      have accepting := (reference_cases accepted).1
      rw [closed] at accepting
      cases accepting
  | released release => exact shrinks_release intact call.covers
  | closed =>
      have same : first = ⟨first.fragments, .closed⟩ := by rw [← closed]
      rw [← same]
      exact shrinks_refl intact

end Shrinks

/-- Every question about entries has the same answer. -/
structure AnswersLike (first second : Registry) : Prop where
  size : first.size = second.size
  isEmpty : first.isEmpty = second.isEmpty
  contains : ∀ key, first.contains key = second.contains key
  referenceCount : ∀ key, first.referenceCount key = second.referenceCount key
  checkpointsOf : ∀ key, first.checkpointsOf key = second.checkpointsOf key
  canonical? : ∀ key, first.canonical? key = second.canonical? key

theorem answersLike_of_fragments (first second : Registry) (intact : first.status ≠ .poisoned)
    (intact' : second.status ≠ .poisoned) (same : first.fragments = second.fragments) :
    first.AnswersLike second := by
  have answered {α : Type} (value : α) : first.answer value = second.answer value := by
    simp only [answer, intact, intact', ↓reduceIte]
  constructor <;> intros <;>
    simp only [Registry.size, Registry.isEmpty, Registry.contains, Registry.referenceCount,
      Registry.checkpointsOf, Registry.canonical?, answered, same]

end Registry

namespace Store

theorem slotsOf_ne_nil (store : Store) (composite : Composite) :
    store.slotsOf composite ≠ [] ↔ ∃ id ∈ composite.snapshots, (store.snapshot id).slots ≠ [] := by
  simp [slotsOf, List.flatMap_eq_nil_iff]

end Store

namespace Ledger

open Registry

/-- The attempt has stopped at the first of the snapshots that has a slot. This one and
those before it count as registered, and nothing else has changed. -/
def TurnedAway (ledger : Ledger) (ids : List SnapshotId)
    (attempt : Option Violation × Ledger) : Prop :=
  ∃ before first rest, ids = before ++ first :: rest ∧
    (∀ id ∈ before, (ledger.store.snapshot id).slots = []) ∧
    (ledger.store.snapshot first).slots ≠ [] ∧
    attempt = (some .registryClosed,
      { ledger with store := ledger.store.marked (before ++ [first]) })

section Attempts

variable (checkpoint : CheckpointId) (ledger : Ledger)

theorem register_slotless (id : SnapshotId) (slotless : (ledger.store.snapshot id).slots = []) :
    outcome (id.register checkpoint) ledger =
      (none, { ledger with store := ledger.store.mark id }) := by
  simp only [outcome_register, slotless, registerSlots, List.append_nil, Store.mark]

/-- Whether open or closed, a registry is not asked about snapshots without slots. -/
theorem registerEach_slotless (ids : List SnapshotId)
    (slotless : ∀ id ∈ ids, (ledger.store.snapshot id).slots = []) :
    outcome (registerEach checkpoint ids) ledger =
      (none, { ledger with store := ledger.store.marked ids }) := by
  induction ids generalizing ledger with
  | nil => rfl
  | cons id rest ih =>
      have passed := register_slotless checkpoint ledger id (slotless id List.mem_cons_self)
      rw [outcome_passed checkpoint id rest ledger _ passed]
      apply ih
      intro other member
      rw [Store.mark_slots]
      exact slotless other (List.mem_cons_of_mem id member)

variable {ledger} (closed : ledger.registry.status = .closed)
include closed

theorem register_closed (id : SnapshotId) (shares : (ledger.store.snapshot id).slots ≠ []) :
    outcome (id.register checkpoint) ledger =
      (some .registryClosed, { ledger with store := ledger.store.mark id }) := by
  simp only [outcome_register, registerSlots_closed closed, shares, ↓reduceIte, List.append_nil,
    Store.mark]

theorem registerEach_closed (ids : List SnapshotId)
    (shares : ∃ id ∈ ids, (ledger.store.snapshot id).slots ≠ []) :
    ledger.TurnedAway ids (outcome (registerEach checkpoint ids) ledger) := by
  -- Snapshots without slots are passed, and marked, until there is one with slots.
  induction ids generalizing ledger with
  | nil =>
      obtain ⟨_, member, _⟩ := shares
      cases member
  | cons id rest ih =>
      by_cases here : (ledger.store.snapshot id).slots = []
      · have passed := register_slotless checkpoint ledger id here
        rw [outcome_passed checkpoint id rest ledger _ passed]
        have later : ∃ other ∈ rest, ((ledger.store.mark id).snapshot other).slots ≠ [] := by
          obtain ⟨other, member, slotted⟩ := shares
          rcases List.mem_cons.mp member with same | behind
          · exact absurd here (same ▸ slotted)
          · exact ⟨other, behind, (ledger.store.mark_slots id other).symm ▸ slotted⟩
        let next : Ledger := { ledger with store := ledger.store.mark id }
        have turned : next.TurnedAway rest (outcome (registerEach checkpoint rest) next) :=
          ih closed later
        obtain ⟨before, first, behind, split, slotless, slotted, ended⟩ := turned
        simp only [next, Store.mark_slots] at slotless slotted
        refine ⟨id :: before, first, behind, congrArg (List.cons id) split, ?_, slotted, ended⟩
        exact List.forall_mem_cons.mpr ⟨here, slotless⟩
      · have stopped := register_closed checkpoint closed id here
        rw [outcome_stopped checkpoint id rest ledger _ _ stopped]
        exact ⟨[], id, rest, rfl, List.forall_mem_nil _, here, rfl⟩

end Attempts

end Ledger

def Operation.isClose : Operation → Bool
  | .call .close => true
  | _ => false

namespace Ledger

open Registry

/-- Only registrations are refused. -/
def refuses (ledger : Ledger) : Operation → Bool
  | .register checkpoint composites =>
      (outcome (registerAll checkpoint composites) ledger).1.isSome
  | .call asked => !(ledger.registry.perform asked).2.accepted
  | .make _ => false

/-- The operations without those that are refused and without further closings. -/
def spared : Ledger → List Operation → List Operation
  | _, [] => []
  | ledger, operation :: rest =>
      let later := (ledger.perform operation).spared rest
      if operation.isClose || ledger.refuses operation then later else operation :: later

/-- What the registry is asked directly, and how it answers. -/
def asked (ledger : Ledger) : Operation → List Turn
  | .call call => [(ledger.registry.perform call).2]
  | _ => []

def turns : Ledger → List Operation → List Turn
  | _, [] => []
  | ledger, operation :: rest =>
      ledger.asked operation ++ (ledger.perform operation).turns rest

/-- The first ledger is closed, the second may be open. They have the same entries and the
same slots, though not the same marks. -/
structure Alike (first second : Ledger) : Prop where
  closed : first.registry.status = .closed
  intact : second.registry.status ≠ .poisoned
  fragments : first.registry.fragments = second.registry.fragments
  next : first.store.next = second.store.next
  slots : ∀ id, (first.store.snapshot id).slots = (second.store.snapshot id).slots

/-- The two have reported and handed out the same in the end, each after its own. -/
def Appends (first second first' second' : Ledger) : Prop :=
  ∃ brought, first'.effects = first.effects ++ brought ∧
    second'.effects = second.effects ++ brought

/-- An operation on the closed ledger is left out on the other, and comes to nothing, or it
does the same to both. -/
inductive AlikeStep (first second : Ledger) (operation : Operation) : Prop where
  | skipped (leaves : (operation.isClose || first.refuses operation) = true)
      (alike : (first.perform operation).Alike second)
      (quiet : (first.perform operation).effects = first.effects)
      (unreleased : (first.asked operation).filter (·.call.isRelease) = [])
  | taken (stays : (operation.isClose || first.refuses operation) = false)
      (alike : (first.perform operation).Alike (second.perform operation))
      (status : (second.perform operation).registry.status = second.registry.status)
      (appends : Appends first second (first.perform operation) (second.perform operation))
      (answered : (first.asked operation).filter (·.call.isRelease) = second.asked operation)

section Alike

variable {first second : Ledger} (alike : first.Alike second)
include alike

theorem alike_marked (ids others : List SnapshotId) :
    Alike { first with store := first.store.marked ids }
      { second with store := second.store.marked others } where
  closed := alike.closed
  intact := alike.intact
  fragments := alike.fragments
  next := by
    rw [Store.marked_next, Store.marked_next]
    exact alike.next
  slots id := by
    rw [Store.marked_slots, Store.marked_slots]
    exact alike.slots id

theorem alike_release (call : Call) (release : call.isRelease = true) :
    AlikeStep first second (.call call) := by
  have sound : first.registry.status ≠ .poisoned := by simp [alike.closed]
  have performed := perform_release first.registry sound call release
  have performed' := perform_release second.registry alike.intact call release
  -- What a release does to the entries does not depend on the status.
  have same : second.registry = ⟨first.registry.fragments, second.registry.status⟩ := by
    rw [alike.fragments]
  apply AlikeStep.taken
  case stays =>
    have goesOn : (Operation.call call).isClose = false := by
      cases call with
      | close => cases release
      | _ => rfl
    simp only [goesOn, refuses, performed]
    rfl
  case alike =>
    simp only [perform, performed, performed']
    rw [same]
    exact ⟨alike.closed, alike.intact, rfl, alike.next, alike.slots⟩
  case status =>
    simp only [perform, performed']
    rfl
  case appends =>
    simp only [perform, performed, performed']
    rw [same]
    exact ⟨_, rfl, rfl⟩
  case answered =>
    simp only [asked, performed, performed']
    rw [same]
    exact List.filter_eq_self.mpr (List.forall_mem_singleton.mpr release)

/-- The closed registry has nothing to do. -/
theorem alike_idle (call : Call) (turn : Turn) (other : turn.call.isRelease = false)
    (leaves : ((Operation.call call).isClose || !turn.accepted) = true) (silent : turn.effects = [])
    (idle : first.registry.perform call = (first.registry, turn)) :
    AlikeStep first second (.call call) := by
  have unchanged : first.perform (.call call) = first := by
    simp only [perform, idle, silent, List.append_nil]
  apply AlikeStep.skipped
  case leaves => simpa only [refuses, idle] using leaves
  case alike => exact unchanged.symm ▸ alike
  case quiet => rw [unchanged]
  case unreleased =>
    simp only [asked, idle]
    exact List.filter_cons_of_neg (Bool.eq_false_iff.mp other)

theorem alike_make (snapshot : Incremental) :
    (first.perform (.make snapshot)).Alike (second.perform (.make snapshot)) where
  closed := alike.closed
  intact := alike.intact
  fragments := alike.fragments
  next := congrArg (· + 1) alike.next
  slots id := by
    simp only [perform, Store.add, Store.update, alike.next]
    split
    · rfl
    · exact alike.slots id

theorem alike_register (checkpoint : CheckpointId) (composites : List Composite) :
    AlikeStep first second (.register checkpoint composites) := by
  let ids := composites.flatMap Composite.snapshots
  by_cases slotless : ∀ id ∈ ids, (first.store.snapshot id).slots = []
  · have passes := registerEach_slotless checkpoint first ids slotless
    have passes' := registerEach_slotless checkpoint second ids
      fun id member => alike.slots id ▸ slotless id member
    apply AlikeStep.taken
    case stays => simp only [Operation.isClose, refuses, registerAll_flat, ids, passes]; rfl
    case alike =>
      simp only [perform, registerAll_flat, ids, passes, passes']
      exact alike_marked alike ids ids
    case status => simp only [perform, registerAll_flat, ids, passes']
    case appends =>
      simp only [perform, registerAll_flat, ids, passes, passes']
      exact ⟨[], (List.append_nil _).symm, (List.append_nil _).symm⟩
    case answered => rfl
  · push Not at slotless
    obtain ⟨before, last, rest, _, _, _, turned⟩ :=
      registerEach_closed checkpoint alike.closed ids slotless
    apply AlikeStep.skipped
    case leaves => simp only [Operation.isClose, refuses, registerAll_flat, ids, turned]; rfl
    case alike =>
      simp only [perform, registerAll_flat, ids, turned]
      exact alike_marked alike (before ++ [last]) []
    case quiet => simp only [perform, registerAll_flat, ids, turned]
    case unreleased => rfl

theorem alike_perform (operation : Operation) : AlikeStep first second operation := by
  cases operation with
  | register checkpoint composites => exact alike_register alike checkpoint composites
  | make snapshot =>
      apply AlikeStep.taken
      case stays => rfl
      case alike => exact alike_make alike snapshot
      case status => rfl
      case appends => exact ⟨[], (List.append_nil _).symm, (List.append_nil _).symm⟩
      case answered => rfl
  | call call =>
      cases call with
      | reference key blob checkpoint =>
          exact alike_idle alike _ _ rfl rfl rfl
            (perform_reference_closed alike.closed key blob checkpoint)
      | releaseCheckpoint checkpoint => exact alike_release alike _ rfl
      | releaseBelow lowestKept => exact alike_release alike _ rfl
      | close => exact alike_idle alike _ _ rfl rfl rfl (perform_close_closed alike.closed)

end Alike

theorem alike_after {first second : Ledger} (alike : first.Alike second) (later : List Operation) :
    (first.after later).Alike (second.after (first.spared later)) ∧
      (second.after (first.spared later)).registry.status = second.registry.status ∧
      Appends first second (first.after later) (second.after (first.spared later)) ∧
      (first.turns later).filter (·.call.isRelease) = second.turns (first.spared later) := by
  -- The closed ledger takes every step, the other only those that are not left out.
  induction later generalizing first second with
  | nil => exact ⟨alike, rfl, ⟨[], (List.append_nil _).symm, (List.append_nil _).symm⟩, rfl⟩
  | cons operation rest ih =>
      rw [turns, List.filter_append]
      cases alike_perform alike operation with
      | skipped leaves still quiet unreleased =>
          obtain ⟨ended, status, ⟨brought, here, there⟩, answered⟩ := ih still
          rw [spared, if_pos leaves, unreleased]
          exact ⟨ended, status, ⟨brought, quiet ▸ here, there⟩, answered⟩
      | taken stays still status appends same =>
          obtain ⟨ended, status', ⟨more, here, there⟩, answered⟩ := ih still
          obtain ⟨brought, first', second'⟩ := appends
          rw [spared, stays, same, answered]
          refine ⟨ended, status'.trans status, ⟨brought ++ more, ?_, ?_⟩, rfl⟩
          · rw [after_cons, here, first', List.append_assoc]
          · exact there.trans (by rw [second', List.append_assoc])

theorem close_alike (ledger : Ledger) (intact : ledger.registry.status ≠ .poisoned) :
    (ledger.perform (.call .close)).Alike ledger := by
  have closed := perform_close ledger.registry intact
  constructor
  case closed => simp only [perform, closed]
  case intact => exact intact
  case fragments => simp only [perform, closed]
  case next => rfl
  case slots => exact fun _ => rfl

theorem closed_perform (ledger : Ledger) (closed : ledger.registry.status = .closed)
    (operation : Operation) :
    ledger.registry.Shrinks (ledger.perform operation).registry ∧
      (ledger.perform operation).registry.status = .closed := by
  have intact : ledger.registry.status ≠ .poisoned := by simp [closed]
  cases operation with
  | register checkpoint composites =>
      obtain ⟨_, _, grown⟩ :=
        registerEach_registrations checkpoint (composites.flatMap Composite.snapshots) ledger
      rw [perform, registerAll_flat, registrations_closed closed grown]
      exact ⟨shrinks_refl intact, closed⟩
  | make snapshot => exact ⟨shrinks_refl intact, closed⟩
  | call call =>
      have step := perform_step ledger.registry intact call
      exact ⟨step_shrinks closed step, (step_closed step).mpr (Or.inl closed)⟩

theorem closed_after (ledger : Ledger) (closed : ledger.registry.status = .closed)
    (operations : List Operation) :
    ledger.registry.Shrinks (ledger.after operations).registry ∧
      (ledger.after operations).registry.status = .closed := by
  induction operations generalizing ledger with
  | nil => exact ⟨shrinks_refl (by simp [closed]), closed⟩
  | cons operation rest ih =>
      have first := closed_perform ledger closed operation
      have later := ih (ledger.perform operation) first.2
      exact ⟨shrinks_trans first.1 later.1, later.2⟩

end Ledger

open Registry

/-- A registry that is closed, whatever has happened to it and the state around it before,
and whatever happens next. It is never open again. Every registration is refused, at the
first slot that it comes to, and changes no entry and no slot and hands nothing out. The
entries shrink from then on. If the refused registrations and further closings are left
out on the registry that was not closed, all releases answer the same, the same blobs are
handed out, and the entries end up the same. -/
theorem closing_only_stops_growth (store : Store) (earlier later : List Operation) :
    let ledger := (Ledger.mk store .empty []).after earlier
    let closed := ledger.perform (.call .close)
    let now := closed.after later
    let opened := ledger.after (closed.spared later)
    now.registry.isOpen = .ok false ∧
    (∀ key blob checkpoint, now.registry.perform (.reference key blob checkpoint) =
      (now.registry, ⟨.reference key blob checkpoint, .error .registryClosed, []⟩)) ∧
    (∀ checkpoint composite, now.store.slotsOf composite ≠ [] →
      now.TurnedAway composite.snapshots (outcome (composite.register checkpoint) now)) ∧
    (∀ checkpoint composites, (∃ composite ∈ composites, now.store.slotsOf composite ≠ []) →
      now.TurnedAway (composites.flatMap Composite.snapshots)
        (outcome (registerAll checkpoint composites) now)) ∧
    (∀ more, now.registry.Shrinks (now.after more).registry) ∧
    opened.registry.isOpen = ledger.registry.isOpen ∧
    opened.registry.fragments = now.registry.fragments ∧
    now.registry.AnswersLike opened.registry ∧
    (closed.turns later).filter (·.call.isRelease) = ledger.turns (closed.spared later) ∧
    ∃ brought, now.effects = closed.effects ++ brought ∧
      opened.effects = ledger.effects ++ brought := by
  intro ledger closed now opened
  have intact : ledger.registry.status ≠ .poisoned :=
    (Ledger.continues_after ⟨store, .empty, []⟩ earlier).intact (by simp [Registry.empty])
  have start := Ledger.close_alike ledger intact
  obtain ⟨alike, status, appends, answered⟩ := Ledger.alike_after start later
  have still : now.registry.status = .closed := alike.closed
  have sound : now.registry.status ≠ .poisoned := by simp [still]
  refine ⟨?_, ?_, ?_, ?_, ?_, ?_, ?_, ?_, answered, appends⟩
  · simp [Registry.isOpen, Registry.answer, still]
  · exact perform_reference_closed still
  · intro checkpoint composite shares
    rw [composite_register_flat]
    exact Ledger.registerEach_closed checkpoint still _ ((Store.slotsOf_ne_nil _ _).mp shares)
  · rintro checkpoint composites ⟨composite, member, shares⟩
    rw [registerAll_flat]
    apply Ledger.registerEach_closed checkpoint still
    obtain ⟨id, inside, slotted⟩ := (Store.slotsOf_ne_nil _ _).mp shares
    exact ⟨id, List.mem_flatMap.mpr ⟨composite, member, inside⟩, slotted⟩
  · exact fun more => (Ledger.closed_after now still more).1
  · simp only [Registry.isOpen, Registry.answer, opened, closed, status]
  · exact alike.fragments.symm
  · exact answersLike_of_fragments _ _ sound alike.intact alike.fragments

end CheckpointLedger
