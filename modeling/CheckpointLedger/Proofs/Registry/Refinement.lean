import CheckpointLedger.Proofs.Registry.History
import Mathlib.Data.List.Induction

/-!
A registry is determined by its history. After any run the checkpoints it lists
under a key are those whose registrations no release has covered, and the blob is
the one that was presented when the key was last adopted. `Tracks` is the
invariant that carries this along a run; `registry_reflects_history` states it in
the answers that callers get.
-/

namespace CheckpointLedger.Registry

open History

structure Tracks (registry : Registry) (turns : List Turn) : Prop where
  intact : registry.status ≠ .poisoned
  valid : registry.WellFormed
  closed : registry.status = .closed ↔ Closed turns
  holders : ∀ key checkpoint, registry.Refers key checkpoint ↔ Holds turns key checkpoint
  adopted : ∀ key blob, registry.blob? key = some blob → Adopted turns key blob

theorem tracks_empty : empty.Tracks [] where
  intact := by simp [empty]
  valid := empty_wellformed
  closed := by simp [empty, Closed]
  holders key checkpoint := by
    constructor
    · rintro ⟨fragment, found, _⟩
      cases found
    · intro holds
      exact absurd holds (not_holds_nil key checkpoint)
  adopted _ _ found := nomatch found

section Tracks

variable {registry : Registry} {turns : List Turn}

theorem tracks_present (tracks : registry.Tracks turns) (key : String) :
    registry.blob? key ≠ none ↔ Present turns key := by
  constructor
  · intro present
    obtain ⟨checkpoint, refers⟩ := tracks.valid.occupied key present
    exact ⟨checkpoint, (tracks.holders key checkpoint).mp refers⟩
  · rintro ⟨checkpoint, holds⟩
    exact refers_present registry key checkpoint ((tracks.holders key checkpoint).mpr holds)

/-- The blob under a key is the one that the history adopted, not just one that
it adopted at some time. -/
theorem tracks_blob? (tracks : registry.Tracks turns) (key : String) (blob : Blob) :
    registry.blob? key = some blob ↔ Adopted turns key blob := by
  constructor
  · exact tracks.adopted key blob
  · rintro ⟨position, adoption⟩
    have present := (tracks_present tracks key).mpr (adoptedAt_present _ _ _ _ adoption)
    -- The registry has some blob under the key, and the history has adopted only one.
    obtain ⟨other, found⟩ := Option.ne_none_iff_exists'.mp present
    obtain ⟨position', adoption'⟩ := tracks.adopted key other found
    rw [found, adoptedAt_blob_unique _ _ _ _ _ _ adoption adoption']

theorem step_closed {call : Call} {next : Registry × Turn} (step : registry.Step call next) :
    next.1.status = .closed ↔ registry.status = .closed ∨ next.2.call = .close := by
  cases step with
  | refused => simp
  | registered accepted =>
      obtain ⟨before, later, _⟩ := reference_cases accepted
      simp [before, later]
  | released release => cases call <;> simp_all [Call.isRelease, releaseCovered]
  | closed => simp

theorem tracks_step (tracks : registry.Tracks turns) {call : Call} {next : Registry × Turn}
    (step : registry.Step call next) : next.1.Tracks (turns ++ [next.2]) := by
  have holders : ∀ key checkpoint, next.1.Refers key checkpoint ↔
      Holds (turns ++ [next.2]) key checkpoint := by
    intro key checkpoint
    rw [step_refers step, holds_concat, tracks.holders]
  constructor
  case intact => exact step_intact step tracks.intact
  case valid => exact step_wellformed step tracks.valid
  case closed => rw [step_closed step, closed_concat, tracks.closed]
  case holders => exact holders
  case adopted =>
    -- A blob that was there keeps the position it began at; a new one begins with this turn.
    intro key blob found
    have occupied := (step_wellformed step tracks.valid).occupied key (by simp [found])
    have present : Present (turns ++ [next.2]) key := by
      obtain ⟨checkpoint, refers⟩ := occupied
      exact ⟨checkpoint, (holders key checkpoint).mp refers⟩
    rcases step_blob? step key blob found with old | ⟨absent, registers⟩
    · obtain ⟨position, adoption⟩ := tracks.adopted key blob old
      exact ⟨position, (adoptedAt_concat _ _ _ _ _).mpr ⟨present, Or.inl adoption⟩⟩
    · have fresh : ¬ Present turns key := by
        rw [← tracks_present tracks, not_not]
        exact absent
      exact ⟨turns.length,
        (adoptedAt_concat _ _ _ _ _).mpr ⟨present, Or.inr ⟨rfl, fresh, registers⟩⟩⟩

end Tracks

theorem run_tracks (calls : List Call) : (empty.after calls).Tracks (empty.history calls) := by
  induction calls using List.reverseRecOn with
  | nil => exact tracks_empty
  | append_singleton calls call ih =>
      rw [after_concat, history_concat]
      exact tracks_step ih (perform_step _ ih.intact call)

/-! What callers see of an unbroken registry. -/

section Views

variable (registry : Registry) (intact : registry.status ≠ .poisoned) (key : String)

include intact

theorem checkpointsOf_view : ∃ holders, registry.checkpointsOf key = .ok holders ∧
    holders.Pairwise (· < ·) ∧
    (∀ checkpoint, checkpoint ∈ holders ↔ registry.Refers key checkpoint) ∧
    registry.referenceCount key = .ok holders.length := by
  cases found : registry.fragments.find? key with
  | none =>
      refine ⟨[], ?_, List.Pairwise.nil, ?_, ?_⟩
      · simp [checkpointsOf, answer, intact, found]
      · simp [Refers, found]
      · simp [referenceCount, answer, intact, found]
  | some fragment =>
      refine ⟨fragment.checkpoints.keys, ?_, ?_, ?_, ?_⟩
      · simp [checkpointsOf, answer, intact, found]
      · exact fragment.checkpoints.ascending.imp Std.compare_eq_lt.mp
      · simp [Refers, found]
      · simp [referenceCount, answer, intact, found, SortedMap.keys, SortedMap.size]

theorem canonical?_view : registry.canonical? key = .ok (registry.blob? key) := by
  simp [canonical?, answer, intact, blob?]

theorem contains_view : registry.contains key = .ok (registry.blob? key).isSome := by
  simp [contains, answer, intact, blob?, SortedMap.contains]

theorem contains_true_iff : registry.contains key = .ok true ↔ registry.blob? key ≠ none := by
  rw [contains_view registry intact key, Except.ok.injEq, Option.isSome_iff_ne_none]

omit key in
theorem size_view : ∃ keys : List String, keys.Nodup ∧
    (∀ key, key ∈ keys ↔ registry.blob? key ≠ none) ∧ registry.size = .ok keys.length := by
  refine ⟨registry.fragments.keys, SortedMap.keys_nodup _, ?_, ?_⟩
  · intro key
    rw [SortedMap.mem_keys_iff]
    cases found : registry.fragments.find? key <;> simp [blob?, found]
  · simp [size, answer, intact, SortedMap.keys, SortedMap.size]

/-- A key that is present all along keeps its blob. -/
theorem canonical_kept (more : List Call)
    (present : ∀ part, part <+: more → (registry.after part).contains key = .ok true) :
    (registry.after more).canonical? key = registry.canonical? key := by
  induction more generalizing registry with
  | nil => rfl
  | cons call rest ih =>
      have step := perform_step registry intact call
      have intactNext := step_intact step intact
      have here := (contains_true_iff registry intact key).mp (present [] (List.nil_prefix))
      have there := (contains_true_iff _ intactNext key).mp
        (present [call] (List.cons_prefix_cons.mpr ⟨rfl, List.nil_prefix⟩))
      obtain ⟨blob, found⟩ := Option.ne_none_iff_exists'.mp here
      -- The key is present on both sides of the call, so the call keeps its blob.
      have same := step_keeps_blob step key blob found there
      have later := ih _ intactNext fun part begun =>
        present (call :: part) (List.cons_prefix_cons.mpr ⟨rfl, begun⟩)
      rw [after_cons, later, canonical?_view _ intactNext, canonical?_view _ intact, same, found]

end Views

/-- What a registry answers about its keys, as far as the calls before determine it. -/
structure Reflects (registry : Registry) (turns : List Turn) : Prop where
  checkpoints : ∀ key, ∃ holders, registry.checkpointsOf key = .ok holders ∧
    holders.Pairwise (· < ·) ∧
    (∀ checkpoint, checkpoint ∈ holders ↔ Holds turns key checkpoint) ∧
    registry.referenceCount key = .ok holders.length ∧
    registry.contains key = .ok (decide (holders ≠ []))
  canonical : ∀ key, ∃ canonical, registry.canonical? key = .ok canonical ∧
    (canonical.isSome = true ↔ Present turns key) ∧
    ∀ blob, canonical = some blob ↔ Adopted turns key blob ∧ blob.isPlaceholder = false
  size : ∃ keys : List String, keys.Nodup ∧ (∀ key, key ∈ keys ↔ Present turns key) ∧
    registry.size = .ok keys.length

/-- What a registration is answered, likewise. A refusal changes nothing and hands
nothing out. -/
structure Decides (registry : Registry) (turns : List Turn) (key : String) (blob : Blob)
    (checkpoint : CheckpointId) : Prop where
  closed : Closed turns → registry.perform (.reference key blob checkpoint) =
    (registry, ⟨.reference key blob checkpoint, .error .registryClosed, []⟩)
  unknown : ¬ Closed turns → ¬ Present turns key → blob.isPlaceholder = true →
    registry.perform (.reference key blob checkpoint) =
      (registry, ⟨.reference key blob checkpoint, .error (.unknownSharedState key), []⟩)
  accepted : ¬ Closed turns → (Present turns key ∨ blob.isPlaceholder = false) →
    ∃ canonical,
      (registry.perform (.reference key blob checkpoint)).2.answer = .ok (.canonical canonical) ∧
      (registry.perform (.reference key blob checkpoint)).1.canonical? key = .ok (some canonical)

theorem tracks_reflects (registry : Registry) (turns : List Turn)
    (tracks : registry.Tracks turns) : registry.Reflects turns := by
  constructor
  · intro key
    obtain ⟨holders, listed, ascending, exact, counted⟩ :=
      checkpointsOf_view registry tracks.intact key
    refine ⟨holders, listed, ascending, ?_, counted, ?_⟩
    · intro checkpoint
      rw [exact, tracks.holders]
    · rw [contains_view registry tracks.intact, Except.ok.injEq, Bool.eq_iff_iff,
        Option.isSome_iff_ne_none, tracks_present tracks, decide_eq_true_eq]
      constructor
      · rintro ⟨checkpoint, holds⟩
        exact List.ne_nil_of_mem
          ((exact checkpoint).mpr ((tracks.holders key checkpoint).mpr holds))
      · intro occupied
        obtain ⟨checkpoint, member⟩ := List.exists_mem_of_ne_nil holders occupied
        exact ⟨checkpoint, (tracks.holders key checkpoint).mp ((exact checkpoint).mp member)⟩
  · intro key
    refine ⟨registry.blob? key, canonical?_view registry tracks.intact key, ?_, ?_⟩
    · rw [Option.isSome_iff_ne_none, tracks_present tracks]
    · intro blob
      rw [← tracks_blob? tracks]
      exact ⟨fun found => ⟨found, tracks.valid.real key blob found⟩, And.left⟩
  · obtain ⟨keys, distinct, exact, counted⟩ := size_view registry tracks.intact
    exact ⟨keys, distinct, fun key => (exact key).trans (tracks_present tracks key), counted⟩

theorem tracks_decides (registry : Registry) (turns : List Turn)
    (tracks : registry.Tracks turns) (key : String) (blob : Blob) (checkpoint : CheckpointId) :
    registry.Decides turns key blob checkpoint := by
  have absent_iff : registry.blob? key = none ↔ ¬ Present turns key := by
    rw [← tracks_present tracks, not_not]
  constructor
  · intro closed
    have refusal : registry.reference key blob checkpoint = .error .registryClosed :=
      (reference_error ..).mpr (Or.inr (Or.inl ⟨tracks.closed.mpr closed, rfl⟩))
    simp [perform, attempt, refusal, Except.map]
  · intro unclosed absent placeholder
    have accepting : registry.status = .accepting := by
      cases status : registry.status with
      | accepting => rfl
      | closed => exact absurd (tracks.closed.mp status) unclosed
      | poisoned => exact absurd status tracks.intact
    have refusal : registry.reference key blob checkpoint = .error (.unknownSharedState key) :=
      (reference_error ..).mpr
        (Or.inr (Or.inr ⟨accepting, absent_iff.mpr absent, placeholder, rfl⟩))
    simp [perform, attempt, refusal, Except.map]
  · intro unclosed usable
    cases outcome : registry.reference key blob checkpoint with
    | ok made =>
        have intact : made.registry.status ≠ .poisoned := by
          simp [(reference_cases outcome).2.1]
        refine ⟨made.canonical, by simp [perform, attempt, outcome, Except.map], ?_⟩
        simp only [perform, attempt, outcome, Except.map]
        rw [canonical?_view _ intact, reference_blob? outcome, if_pos rfl]
    | error violation =>
        -- None of the reasons for a refusal is given.
        rcases (reference_error ..).mp outcome with ⟨poisoned, _⟩ | ⟨closed, _⟩ |
          ⟨_, absent, placeholder, _⟩
        · exact absurd poisoned tracks.intact
        · exact absurd (tracks.closed.mp closed) unclosed
        · rcases usable with present | real
          · exact absurd present (absent_iff.mp absent)
          · simp [real] at placeholder

/-- After any run, the registry's answers are those that the history of the calls
gives: about every key, about how long a blob stays canonical, and to every
further registration. -/
theorem registry_reflects_history (calls : List Call) :
    (empty.after calls).Reflects (empty.history calls) ∧
    (∀ key more,
      (∀ part, part <+: more → ((empty.after calls).after part).contains key = .ok true) →
      ((empty.after calls).after more).canonical? key = (empty.after calls).canonical? key) ∧
    (∀ key blob checkpoint,
      (empty.after calls).Decides (empty.history calls) key blob checkpoint) := by
  have tracks := run_tracks calls
  refine ⟨tracks_reflects _ _ tracks, ?_, tracks_decides _ _ tracks⟩
  intro key more present
  exact canonical_kept _ tracks.intact key more present

end CheckpointLedger.Registry
