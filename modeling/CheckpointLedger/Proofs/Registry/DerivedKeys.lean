import CheckpointLedger.Proofs.Registry.ObjectKeys

/-!
Registration under derived keys: every blob is presented under its own identity, as a
slot does that was made from its blob. Then the key of an entry tells its object, no
upload is ever a duplicate, and an object is disposed of once for each time that it was
adopted.
-/

namespace CheckpointLedger

/-- A registration uses the identity of its blob as the key. -/
abbrev Call.Derived : Call → Prop := Call.Within fun key blob => key = blob.physicalId

namespace History

theorem begins_append (history more : List Turn) (key : String) (blob : Blob) (position : Nat)
    (begun : Begins history key blob position) : Begins (history ++ more) key blob position := by
  induction more using List.reverseRecOn with
  | nil => simpa using begun
  | append_singleton more turn ih =>
      rw [← List.append_assoc, begins_concat]
      exact Or.inl ih

end History

namespace Registry

open History

/-- A key that is absent after some calls and present after more was adopted in between. -/
theorem begins_between (calls more : List Call) (key : String)
    (absent : (empty.after calls).blob? key = none)
    (present : (empty.after (calls ++ more)).blob? key ≠ none) :
    ∃ position blob, calls.length ≤ position ∧
      Begins (empty.history (calls ++ more)) key blob position := by
  induction more using List.reverseRecOn with
  | nil => exact absurd absent (by simpa using present)
  | append_singleton more call ih =>
      rw [← List.append_assoc] at present ⊢
      rw [history_concat]
      by_cases before : (empty.after (calls ++ more)).blob? key = none
      · -- The last call makes the key present.
        have tracks := run_tracks (calls ++ more)
        have step := perform_step _ tracks.intact call
        rw [after_concat] at present
        obtain ⟨blob, found⟩ := Option.ne_none_iff_exists'.mp present
        rcases step_blob? step key blob found with earlier | ⟨_, registers⟩
        · rw [before] at earlier
          cases earlier
        · have fresh : ¬ Present (empty.history (calls ++ more)) key := by
            rw [← tracks_present tracks, not_not]
            exact before
          refine ⟨(empty.history (calls ++ more)).length, blob, ?_,
            (begins_concat _ _ _ _ _).mpr (Or.inr ⟨rfl, fresh, registers⟩)⟩
          simp [history_length]
      · obtain ⟨position, blob, later, begun⟩ := ih before
        exact ⟨position, blob, later, begins_append _ _ _ _ _ begun⟩

section Step

variable {registry : Registry} {next : Registry × Turn}
  (keyed : registry.Within fun key blob => key = blob.physicalId)
include keyed

/-- A registration hands nothing out and reports no duplicate. -/
theorem step_unduplicated {key : String} {blob : Blob} {checkpoint : CheckpointId}
    (step : registry.Step (.reference key blob checkpoint) next)
    (derived : key = blob.physicalId) :
    disposals next.2.effects = [] ∧
      ∀ redundantId canonicalId, .report (.duplicate redundantId canonicalId) ∉ next.2.effects := by
  cases step with
  | refused => exact ⟨rfl, fun _ _ reported => nomatch reported⟩
  | registered accepted =>
      rcases reference_effects accepted with ⟨_, adopted⟩ | ⟨known, references, referenced⟩
      · simp [adopted, disposals]
      · have same := derived.symm.trans (keyed key _ known)
        simp [referenced, duplicate, same, disposals]
  | released release => cases release

/-- What a call hands out is released, each object once, and its key is absent afterwards. -/
theorem step_released {call : Call} (step : registry.Step call next) (derived : call.Derived) :
    ((disposals next.2.effects).map Blob.physicalId).Nodup ∧
      ∀ blob ∈ disposals next.2.effects,
        registry.blob? blob.physicalId = some blob ∧ next.1.blob? blob.physicalId = none := by
  cases step with
  | refused => exact ⟨List.nodup_nil, fun _ handed => nomatch handed⟩
  | registered accepted =>
      rw [(step_unduplicated keyed (.registered accepted) derived).1]
      exact ⟨List.nodup_nil, fun _ handed => nomatch handed⟩
  | released release =>
      constructor
      · -- The identities are the released keys, and these are distinct.
        have keys : (registry.releaseCovered call.covers).released.map (·.2.physicalId) =
            (registry.releaseCovered call.covers).released.map Prod.fst := by
          apply List.map_congr_left
          rintro ⟨key, blob⟩ member
          exact (keyed key blob ((mem_released _ _ key blob).mp member).1).symm
        rw [disposals_release, List.map_map]
        exact keys ▸ released_keys_nodup registry call.covers
      · intro blob handed
        obtain ⟨key, gone⟩ := (release_handed _ blob).mp handed
        obtain ⟨found, unneeded⟩ := (mem_released _ _ key blob).mp gone
        have own : key = blob.physicalId := keyed key blob found
        subst own
        refine ⟨found, Option.eq_none_iff_forall_ne_some.mpr ?_⟩
        intro other there
        obtain ⟨_, holder, refers⟩ := (release_blob? _ _ _ other).mp there
        exact unneeded holder refers
  | closed => simp [disposals, List.filterMap_map]

end Step

/-- Along the run every entry has the object that its key names, no upload is a duplicate,
and whatever is disposed of is stored nowhere else and was adopted anew for each disposal. -/
structure SparesLive (calls : List Call) : Prop where
  keyed : ∀ key blob, (empty.after calls).blob? key = some blob → blob.physicalId = key
  unduplicated : ∀ turn ∈ empty.history calls, ∀ key blob checkpoint,
    turn.call = .reference key blob checkpoint → disposals turn.effects = [] ∧
      ∀ redundantId canonicalId, .report (.duplicate redundantId canonicalId) ∉ turn.effects
  spared : ∀ (position : Nat) (turn : Turn), (empty.history calls)[position]? = some turn →
    ∀ blob ∈ disposals turn.effects,
      ¬ (empty.after (calls.take (position + 1))).Stores blob.physicalId
  once : ∀ turn ∈ empty.history calls, ((disposals turn.effects).map Blob.physicalId).Nodup
  readopted : ∀ (first second : Nat) (before after : Turn), first < second →
    (empty.history calls)[first]? = some before → (empty.history calls)[second]? = some after →
    ∀ blob ∈ disposals before.effects, ∀ again ∈ disposals after.effects,
      blob.physicalId = again.physicalId →
      ∃ position key adopted, first < position ∧ position < second ∧
        Begins (empty.history calls) key adopted position ∧
        adopted.physicalId = blob.physicalId

section Run

variable (calls : List Call) (derived : ∀ call ∈ calls, call.Derived)
include derived

theorem derived_keyed (turns : Nat) :
    (empty.after (calls.take turns)).Within fun key blob => key = blob.physicalId :=
  after_within _ _ fun call member => derived call (List.mem_of_mem_take member)

/-- Every turn of the run is a step between registries whose keys tell their objects. -/
theorem derived_step (position : Nat) (turn : Turn)
    (found : (empty.history calls)[position]? = some turn) :
    ∃ call, call.Derived ∧ (empty.after (calls.take position)).Step call
      (empty.after (calls.take (position + 1)), turn) := by
  obtain ⟨call, listed, step⟩ := history_step empty (by simp [empty]) calls position turn found
  exact ⟨call, derived call (List.mem_of_getElem? listed), step⟩

/-- Between two disposals the key of the object is absent after the first and present
before the second. -/
theorem derived_readopted (first second : Nat) (before after : Turn) (order : first < second)
    (atFirst : (empty.history calls)[first]? = some before)
    (atSecond : (empty.history calls)[second]? = some after) (blob again : Blob)
    (handed : blob ∈ disposals before.effects) (handedAgain : again ∈ disposals after.effects)
    (same : blob.physicalId = again.physicalId) :
    ∃ position key adopted, first < position ∧ position < second ∧
      Begins (empty.history calls) key adopted position ∧
      adopted.physicalId = blob.physicalId := by
  obtain ⟨call, permitted, step⟩ := derived_step calls derived first before atFirst
  obtain ⟨later, permittedLater, stepLater⟩ := derived_step calls derived second after atSecond
  have gone := ((step_released (derived_keyed calls derived first) step permitted).2 blob
    handed).2
  have there := ((step_released (derived_keyed calls derived second) stepLater
    permittedLater).2 again handedAgain).1
  -- The calls up to the second disposal are those up to the first and some more.
  have split : calls.take second =
      calls.take (first + 1) ++ (calls.take second).drop (first + 1) := by
    have shorter : (calls.take second).take (first + 1) = calls.take (first + 1) := by
      rw [List.take_take, Nat.min_eq_left order]
    rw [← shorter, List.take_append_drop]
  obtain ⟨position, adopted, above, begun⟩ := begins_between (calls.take (first + 1)) _
    blob.physicalId gone (by rw [← split, same, there]; simp)
  rw [← split, ← history_take] at begun
  have whole : Begins (empty.history calls) blob.physicalId adopted position := by
    rw [← List.take_append_drop second (empty.history calls)]
    exact begins_append _ _ _ _ _ begun
  have within := begins_within _ _ _ _ begun
  have length := (List.getElem?_eq_some_iff.mp atFirst).1
  rw [history_length] at length
  rw [List.length_take] at above within
  refine ⟨position, blob.physicalId, adopted, by omega, by omega, whole, ?_⟩
  -- The adopting registration used the identity of its blob, which is the key.
  obtain ⟨turn, checkpoint, found, ⟨_, presented⟩, _⟩ := whole
  obtain ⟨asked, own, adopting⟩ := derived_step calls derived position turn found
  rw [step_call adopting] at presented
  subst asked
  exact Eq.symm own

end Run

/-- With derived keys a registry disposes of nothing that is live, in any run. -/
theorem derived_keys_spare_live (calls : List Call) (derived : ∀ call ∈ calls, call.Derived) :
    SparesLive calls where
  keyed key blob found := by
    have within := derived_keyed calls derived calls.length
    rw [List.take_length] at within
    exact (within key blob found).symm
  unduplicated := by
    intro turn member key blob checkpoint presented
    obtain ⟨position, found⟩ := List.mem_iff_getElem?.mp member
    obtain ⟨call, permitted, step⟩ := derived_step calls derived position turn found
    have asked := (step_call step).symm.trans presented
    subst asked
    exact step_unduplicated (derived_keyed calls derived position) step permitted
  spared := by
    intro position turn found blob handed
    obtain ⟨call, permitted, step⟩ := derived_step calls derived position turn found
    have single : OneKey fun key blob => key = blob.physicalId :=
      fun _ _ _ _ own ownTwin _ _ same => own.trans (same.trans ownTwin.symm)
    have valid := (run_tracks (calls.take position)).valid
    exact step_spares step valid (derived_keyed calls derived position) permitted single blob handed
  once := by
    intro turn member
    obtain ⟨position, found⟩ := List.mem_iff_getElem?.mp member
    obtain ⟨call, permitted, step⟩ := derived_step calls derived position turn found
    exact (step_released (derived_keyed calls derived position) step permitted).1
  readopted := by
    intro first second before after order atFirst atSecond blob handed again handedAgain same
    exact derived_readopted calls derived first second before after order atFirst atSecond blob
      again handed handedAgain same

/-- A file is disposed of, an inline blob of the same identity is adopted and kept for a
placeholder, and then disposed of as well. -/
theorem same_identity_readopted :
    let calls : List Call := [.reference "x" (.file ⟨⟨[0x78]⟩, 1⟩) 1, .releaseCheckpoint 1,
      .reference "x" (.inline ⟨"x", []⟩) 2, .reference "x" (.placeholder ⟨"x", 1⟩) 3,
      .releaseBelow 9]
    (empty.history calls).map (disposals ·.effects) =
        [[], [.file ⟨⟨[0x78]⟩, 1⟩], [], [], [.inline ⟨"x", []⟩]] ∧
      ∃ position key adopted, 1 < position ∧ position < 4 ∧
        Begins (empty.history calls) key adopted position ∧ adopted.physicalId = "x" := by
  intro calls
  have derived : ∀ call ∈ calls, call.Derived := by decide
  refine ⟨by decide, ?_⟩
  exact (derived_keys_spare_live calls derived).readopted 1 4 _ _ (by decide) rfl rfl
    (.file ⟨⟨[0x78]⟩, 1⟩) (by decide) (.inline ⟨"x", []⟩) (by decide) rfl

end Registry

end CheckpointLedger
