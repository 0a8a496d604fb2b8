import CheckpointLedger.Proofs.Registry.Refinement
import Mathlib.Algebra.GroupWithZero.Nat

/-!
What a registry hands out for disposal, against the lifetimes in its history.
Every lifetime that ends accounts for one blob, handed out by the release that
ends it, and every upload beside a canonical blob accounts for itself; nothing
else is ever handed out. One turn is settled first, and runs add the turns up.
-/

namespace CheckpointLedger

namespace Turn

/-- The blob of a successful registration that is no placeholder and is stored
apart from the canonical one. -/
def redundant (turn : Turn) : List Blob :=
  match turn.call, turn.answer with
  | .reference _ blob _, .ok (.canonical canonical) =>
      if blob.isPlaceholder ∨ blob.physicalId = canonical.physicalId then [] else [blob]
  | _, _ => []

def releasedCount (turn : Turn) : Nat :=
  match turn.answer with
  | .ok (.released count) => count
  | _ => 0

theorem not_releases (turn : Turn) (checkpoint : CheckpointId)
    (other : turn.call.isRelease = false) : ¬ turn.Releases checkpoint := by
  rintro ⟨_, covered⟩
  cases call : turn.call <;> simp_all [Call.isRelease, Call.covers]

theorem not_registers (turn : Turn) (key : String) (blob : Blob) (checkpoint : CheckpointId)
    (release : turn.call.isRelease = true) : ¬ turn.Registers key blob checkpoint := by
  rintro ⟨_, call⟩
  simp [call, Call.isRelease] at release

theorem redundant_real (turn : Turn) (blob : Blob) (member : blob ∈ turn.redundant) :
    blob.isPlaceholder = false := by
  unfold redundant at member
  split at member
  · split at member
    · cases member
    · rename_i apart
      rw [List.mem_singleton.mp member]
      simpa using (not_or.mp apart).1
  · cases member

end Turn

namespace Registry

open History

variable {registry : Registry} {turns : List Turn} {call : Call} {next : Registry × Turn}

/-- The lifetimes that end with the turn after the history. -/
def EndingWith (turns : List Turn) (turn : Turn) (life : Lifetime) : Prop :=
  life.released = turns.length ∧ AdoptedAt turns life.key life.blob life.adopted ∧
    ¬ Present (turns ++ [turn]) life.key

theorem present_kept (turns : List Turn) (turn : Turn) (other : turn.call.isRelease = false)
    (key : String) (present : Present turns key) : Present (turns ++ [turn]) key := by
  obtain ⟨checkpoint, holds⟩ := present
  exact ⟨checkpoint, (holds_concat _ _ _ _).mpr
    (Or.inr ⟨holds, Turn.not_releases turn checkpoint other⟩)⟩

theorem not_endingWith (turns : List Turn) (turn : Turn) (other : turn.call.isRelease = false)
    (life : Lifetime) : ¬ EndingWith turns turn life := by
  rintro ⟨_, adopted, gone⟩
  exact gone (present_kept turns turn other life.key (adoptedAt_present _ _ _ _ adopted))

/-- The blobs a release hands out are those of the lifetimes it ends, one each. -/
theorem released_lifetimes (tracks : registry.Tracks turns)
    (step : registry.Step call
      ((registry.releaseCovered call.covers).registry,
        ⟨call, .ok (.released (registry.releaseCovered call.covers).released.length),
          (registry.releaseCovered call.covers).effects⟩)) :
    ∃ ended : List Lifetime, ended.Nodup ∧
      (∀ life, life ∈ ended ↔ EndingWith turns
        ⟨call, .ok (.released (registry.releaseCovered call.covers).released.length),
          (registry.releaseCovered call.covers).effects⟩ life) ∧
      (registry.releaseCovered call.covers).released.map Prod.snd = ended.map (·.blob) := by
  have later := tracks_step tracks step
  -- Whatever blob a key has, its present lifetime began at one position.
  have known : ∀ key, ∃ position, ∀ blob, registry.blob? key = some blob →
      AdoptedAt turns key blob position := by
    intro key
    cases found : registry.blob? key with
    | none => exact ⟨0, fun _ there => nomatch there⟩
    | some blob =>
        obtain ⟨position, adoption⟩ := tracks.adopted key blob found
        exact ⟨position, fun other same => Option.some.inj same ▸ adoption⟩
  choose began adoption using known
  let lifetime : String × Blob → Lifetime := fun entry =>
    ⟨entry.1, entry.2, began entry.1, turns.length⟩
  refine ⟨(registry.releaseCovered call.covers).released.map lifetime, ?_, ?_, ?_⟩
  · -- The released keys are distinct, and so are the lifetimes that carry them.
    apply List.Nodup.of_map Lifetime.key
    rw [List.map_map]
    exact released_keys_nodup registry call.covers
  · intro life
    rw [List.mem_map]
    constructor
    · rintro ⟨⟨key, blob⟩, member, same⟩
      subst same
      obtain ⟨found, unreferenced⟩ := (mem_released registry call.covers key blob).mp member
      refine ⟨rfl, adoption key blob found, ?_⟩
      rintro ⟨checkpoint, holds⟩
      exact unreferenced checkpoint ((later.holders key checkpoint).mpr holds)
    · rintro ⟨last, adopted, gone⟩
      have found := (tracks_blob? tracks life.key life.blob).mpr ⟨life.adopted, adopted⟩
      have began_same := adoptedAt_position_unique _ _ _ _ _ _ (adoption _ _ found) adopted
      refine ⟨(life.key, life.blob), (mem_released _ _ _ _).mpr ⟨found, ?_⟩, ?_⟩
      · intro checkpoint refers
        exact gone ⟨checkpoint, (later.holders life.key checkpoint).mp refers⟩
      · simp only [lifetime, began_same, ← last]
  · rw [List.map_map]
    rfl

/-- What one turn hands out, and what a release answers. -/
theorem step_disposals (tracks : registry.Tracks turns) (step : registry.Step call next) :
    ∃ ended : List Lifetime, ended.Nodup ∧
      (∀ life, life ∈ ended ↔ EndingWith turns next.2 life) ∧
      disposals next.2.effects = ended.map (·.blob) ++ next.2.redundant ∧
      next.2.releasedCount = ended.length ∧
      (next.2.call.isRelease = true → next.2.answer = .ok (.released ended.length)) ∧
      (next.2.accepted = false → ended = [] ∧ next.2.redundant = []) := by
  -- Only a release ends lifetimes.
  have none_ended : next.2.call.isRelease = false →
      ∀ life, life ∈ ([] : List Lifetime) ↔ EndingWith turns next.2 life := by
    intro other life
    exact ⟨fun member => (List.not_mem_nil member).elim,
      fun ending => (not_endingWith turns next.2 other life ending).elim⟩
  cases step with
  | refused =>
      exact ⟨[], List.nodup_nil, none_ended rfl, rfl, rfl, by simp [Call.isRelease],
        fun _ => ⟨rfl, rfl⟩⟩
  | registered accepted =>
      refine ⟨[], List.nodup_nil, none_ended rfl, ?_, rfl, by simp [Call.isRelease], ?_⟩
      · rw [reference_disposals accepted]
        rfl
      · simp [Turn.accepted, Except.isOk, Except.toBool]
  | released release =>
      obtain ⟨ended, distinct, exact, handed⟩ :=
        released_lifetimes tracks (.released release)
      have count : (registry.releaseCovered call.covers).released.length = ended.length := by
        have lengths := congrArg List.length handed
        simpa using lengths
      refine ⟨ended, distinct, exact, ?_, count, fun _ => by rw [count], ?_⟩
      · rw [disposals_release, handed]
        cases call <;> simp_all [Turn.redundant, Call.isRelease]
      · simp [Turn.accepted, Except.isOk, Except.toBool]
  | closed =>
      refine ⟨[], List.nodup_nil, none_ended rfl, ?_, rfl, by simp [Call.isRelease], ?_⟩
      · simp [disposals, Turn.redundant, List.filterMap_map]
      · simp [Turn.accepted, Except.isOk, Except.toBool]

theorem reference_size {key : String} {blob : Blob} {checkpoint : CheckpointId} {made : Reference}
    (accepted : registry.reference key blob checkpoint = .ok made) :
    made.registry.fragments.size =
      registry.fragments.size + if registry.blob? key = none then 1 else 0 := by
  obtain ⟨_, _, checkpoints, fragments, known⟩ := reference_cases accepted
  rw [fragments]
  rcases known with ⟨found, _⟩ | ⟨absent, _⟩
  · simp [SortedMap.size_insert_of_some _ _ _ _ found, blob?, found]
  · simp [SortedMap.size_insert_of_none _ _ _ absent, blob?, absent]

/-- A turn adds a key by adopting it, or takes away the keys whose lifetimes it
ends. -/
theorem step_balance (tracks : registry.Tracks turns) (step : registry.Step call next) :
    ∃ adopting : List Nat, adopting.Nodup ∧
      (∀ position, position ∈ adopting ↔ position = turns.length ∧ ∃ key blob checkpoint,
        next.2.Registers key blob checkpoint ∧ ¬ Present turns key) ∧
      next.1.fragments.size + next.2.releasedCount =
        registry.fragments.size + adopting.length := by
  cases step with
  | refused =>
      refine ⟨[], List.nodup_nil, ?_, rfl⟩
      simp [Turn.Registers, Turn.accepted, Except.isOk, Except.toBool]
  | @registered key blob checkpoint made accepted =>
      have size := reference_size accepted
      have absent_iff : registry.blob? key = none ↔ ¬ Present turns key := by
        rw [← tracks_present tracks, not_not]
      -- An absent key is adopted by this turn; one that is there was counted before.
      by_cases absent : registry.blob? key = none
      · refine ⟨[turns.length], List.nodup_singleton _, ?_, ?_⟩
        · intro position
          rw [List.mem_singleton]
          constructor
          · intro last
            exact ⟨last, key, blob, checkpoint, ⟨rfl, rfl⟩, absent_iff.mp absent⟩
          · exact And.left
        · simpa [absent, Turn.releasedCount] using size
      · refine ⟨[], List.nodup_nil, ?_, ?_⟩
        · intro position
          constructor
          · intro member
            cases member
          · rintro ⟨_, other, _, _, ⟨_, call⟩, fresh⟩
            cases call
            exact absurd (absent_iff.mpr fresh) absent
        · simpa [absent, Turn.releasedCount] using size
  | released release =>
      refine ⟨[], List.nodup_nil, ?_, release_size registry call.covers⟩
      intro position
      constructor
      · intro member
        cases member
      · rintro ⟨_, key, blob, checkpoint, registers, _⟩
        exact absurd registers (Turn.not_registers _ key blob checkpoint release)
  | closed =>
      refine ⟨[], List.nodup_nil, ?_, rfl⟩
      simp [Turn.Registers]

/-- The books of a run: the lifetimes that have ended, the positions at which
lifetimes have begun, and what has been handed out in between. -/
structure Accounted (registry : Registry) (turns : List Turn) (ended : List Lifetime)
    (adoptions : List Nat) : Prop where
  ended_nodup : ended.Nodup
  ended_exact : ∀ life, life ∈ ended ↔ Ended turns life
  adoptions_nodup : adoptions.Nodup
  adoptions_exact : ∀ position, position ∈ adoptions ↔ Adoption turns position
  /-- All that was ever handed out, as a multiset. -/
  total : (turns.flatMap fun turn => disposals turn.effects).Perm
    (ended.map (·.blob) ++ turns.flatMap Turn.redundant)
  /-- Each blob is handed out by the turn that it is accounted for. -/
  onTime : ∀ (position : Nat) (turn : Turn), turns[position]? = some turn →
    (disposals turn.effects).Perm
      ((ended.filter (·.released = position)).map (·.blob) ++ turn.redundant)
  counted : ∀ (position : Nat) (turn : Turn), turns[position]? = some turn →
    turn.call.isRelease = true →
    turn.answer = .ok (.released (ended.filter (·.released = position)).length)
  balance : ∃ size, registry.size = .ok size ∧
    adoptions.length = size + (turns.map Turn.releasedCount).sum
  real : ∀ turn ∈ turns, ∀ blob ∈ disposals turn.effects, blob.isPlaceholder = false
  refused : ∀ turn ∈ turns, turn.accepted = false → disposals turn.effects = []

theorem size_ok (intact : registry.status ≠ .poisoned) :
    registry.size = .ok registry.fragments.size := by
  simp [size, answer, intact]

theorem append_interchange {α : Type} (a b c d : List α) :
    ((a ++ b) ++ (c ++ d)).Perm ((a ++ c) ++ (b ++ d)) := by
  rw [List.append_assoc, List.append_assoc]
  apply List.Perm.append_left
  rw [← List.append_assoc, ← List.append_assoc]
  exact List.Perm.append_right d List.perm_append_comm

/-! Every lifetime is filed under the turn that ended it, so the lifetimes that a turn
ends are apart from all those that ended before. -/

section Filing

variable {ended ending : List Lifetime} (old : ∀ life ∈ ended, Ended turns life)
  (new : ∀ life ∈ ending, life.released = turns.length)

include old new in
theorem filed_nodup (distinct : ended.Nodup) (distinctNew : ending.Nodup) :
    (ended ++ ending).Nodup := by
  refine List.nodup_append.mpr ⟨distinct, distinctNew, ?_⟩
  intro life member other member' same
  have within := (old life member).within
  have last := new other member'
  rw [← same] at last
  omega

include new in
theorem filed_before (position : Nat) (before : position < turns.length) :
    (ended ++ ending).filter (·.released = position) = ended.filter (·.released = position) := by
  rw [List.filter_append, List.append_right_eq_self, List.filter_eq_nil_iff]
  intro life member here
  have last := new life member
  have same : life.released = position := by simpa using here
  omega

include old new in
theorem filed_last : (ended ++ ending).filter (·.released = turns.length) = ending := by
  have none_old : ended.filter (·.released = turns.length) = [] := by
    apply List.filter_eq_nil_iff.mpr
    intro life member last
    have within := (old life member).within
    have same : life.released = turns.length := by simpa using last
    omega
  rw [List.filter_append, none_old, List.nil_append, List.filter_eq_self]
  intro life member
  simpa using new life member

end Filing

theorem ending_real (tracks : registry.Tracks turns) (turn : Turn) (life : Lifetime)
    (ending : EndingWith turns turn life) : life.blob.isPlaceholder = false := by
  have found := (tracks_blob? tracks life.key life.blob).mpr ⟨life.adopted, ending.2.1⟩
  exact tracks.valid.real life.key life.blob found

theorem accounted_step {ended : List Lifetime} {adoptions : List Nat}
    (tracks : registry.Tracks turns) (books : registry.Accounted turns ended adoptions)
    (step : registry.Step call next) :
    ∃ ended adoptions, next.1.Accounted (turns ++ [next.2]) ended adoptions := by
  obtain ⟨ending, ending_nodup, ending_exact, handed, count, answered, idle⟩ :=
    step_disposals tracks step
  obtain ⟨adopting, adopting_nodup, adopting_exact, sizes⟩ := step_balance tracks step
  have old : ∀ life ∈ ended, Ended turns life := fun life => (books.ended_exact life).mp
  have new : ∀ life ∈ ending, life.released = turns.length := fun life member =>
    ((ending_exact life).mp member).1
  refine ⟨ended ++ ending, adoptions ++ adopting, ?_⟩
  constructor
  case ended_nodup => exact filed_nodup old new books.ended_nodup ending_nodup
  case ended_exact =>
    intro life
    rw [List.mem_append, books.ended_exact, ending_exact, ended_concat]
    rfl
  case adoptions_nodup =>
    refine List.nodup_append.mpr ⟨books.adoptions_nodup, adopting_nodup, ?_⟩
    intro position member other member' same
    obtain ⟨_, _, begun⟩ := (books.adoptions_exact position).mp member
    have within := begins_within _ _ _ _ begun
    have last := ((adopting_exact other).mp member').1
    omega
  case adoptions_exact =>
    intro position
    rw [List.mem_append, books.adoptions_exact, adopting_exact, adoption_concat]
  case total =>
    rw [List.flatMap_append, List.flatMap_append, List.map_append, List.flatMap_singleton,
      List.flatMap_singleton, handed]
    exact (books.total.append_right _).trans (append_interchange _ _ _ _)
  case onTime =>
    intro position turn found
    rcases turn_of_concat turns next.2 position turn found with ⟨before, found⟩ | ⟨last, same⟩
    · rw [filed_before new position before]
      exact books.onTime position turn found
    · subst last same
      rw [filed_last old new, handed]
  case counted =>
    intro position turn found release
    rcases turn_of_concat turns next.2 position turn found with ⟨before, found⟩ | ⟨last, same⟩
    · rw [filed_before new position before]
      exact books.counted position turn found release
    · subst last same
      rw [filed_last old new]
      exact answered release
  case balance =>
    -- What the turn adopts and what it releases are the change of the registry's size.
    refine ⟨_, size_ok (step_intact step tracks.intact), ?_⟩
    obtain ⟨size, known, balance⟩ := books.balance
    rw [size_ok tracks.intact, Except.ok.injEq] at known
    rw [List.length_append, List.map_append, List.sum_append]
    simp only [List.map_cons, List.map_nil, List.sum_cons, List.sum_nil]
    omega
  case real =>
    intro turn member blob handedOut
    rcases List.mem_append.mp member with before | last
    · exact books.real turn before blob handedOut
    · rw [List.mem_singleton.mp last, handed, List.mem_append, List.mem_map] at handedOut
      rcases handedOut with ⟨life, ends, same⟩ | redundant
      · exact same ▸ ending_real tracks next.2 life ((ending_exact life).mp ends)
      · exact Turn.redundant_real next.2 blob redundant
  case refused =>
    intro turn member refusal
    rcases List.mem_append.mp member with before | last
    · exact books.refused turn before refusal
    · rw [List.mem_singleton.mp last] at refusal ⊢
      obtain ⟨noneEnded, noneRedundant⟩ := idle refusal
      rw [handed, noneEnded, noneRedundant]
      rfl

theorem accounted_empty : empty.Accounted [] [] [] where
  ended_nodup := List.nodup_nil
  ended_exact life := by
    constructor
    · intro member
      cases member
    · intro ended
      cases ended.within
  adoptions_nodup := List.nodup_nil
  adoptions_exact position := by
    constructor
    · intro member
      cases member
    · rintro ⟨_, _, begun⟩
      cases begins_within _ _ _ _ begun
  total := List.Perm.refl _
  onTime _ _ found := nomatch found
  counted _ _ found := nomatch found
  balance := ⟨0, rfl, rfl⟩
  real _ member := nomatch member
  refused _ member := nomatch member

/-- Over any run, what is handed out for disposal is one blob for each lifetime
that has ended and every redundant upload, each at its time; and what was adopted
is still there or has been counted by a release. -/
theorem run_accounted (calls : List Call) : ∃ ended adoptions,
    (empty.after calls).Accounted (empty.history calls) ended adoptions := by
  induction calls using List.reverseRecOn with
  | nil => exact ⟨[], [], accounted_empty⟩
  | append_singleton calls call ih =>
      obtain ⟨ended, adoptions, books⟩ := ih
      have tracks := run_tracks calls
      rw [after_concat, history_concat]
      exact accounted_step tracks books (perform_step _ tracks.intact call)

end Registry

end CheckpointLedger
