import CheckpointLedger.Proofs.Registry.Refinement

/-!
A registry looks at one key at a time. A blob that it hands out for disposal no longer
stands under the key that it came from, but the same object may stand under another key,
and then something that checkpoints still need is deleted. `handed_out_exactly` says when
this happens in a run, and which callers never bring it about: those that present no
object under two keys.
-/

namespace CheckpointLedger

/-- The call presents only what the callers may present. -/
def Call.Within (allowed : String → Blob → Prop) : Call → Prop
  | .reference key blob _ => allowed key blob
  | _ => True

instance (allowed : String → Blob → Prop) [∀ key blob, Decidable (allowed key blob)] :
    (call : Call) → Decidable (call.Within allowed)
  | .reference key blob _ => inferInstanceAs (Decidable (allowed key blob))
  | .releaseCheckpoint _ | .releaseBelow _ | .close => .isTrue trivial

namespace Registry

open History

/-- Some entry has the object. -/
def Stores (registry : Registry) (id : String) : Prop :=
  ∃ key blob, registry.blob? key = some blob ∧ blob.physicalId = id

def Within (registry : Registry) (allowed : String → Blob → Prop) : Prop :=
  ∀ key blob, registry.blob? key = some blob → allowed key blob

/-- No object is presented under two keys. A placeholder is not an object of its own. -/
def OneKey (allowed : String → Blob → Prop) : Prop :=
  ∀ first second blob twin, allowed first blob → allowed second twin →
    blob.isPlaceholder = false → twin.isPlaceholder = false →
    blob.physicalId = twin.physicalId → first = second

section Step

variable {registry : Registry} {call : Call} {next : Registry × Turn}
  {allowed : String → Blob → Prop}

theorem step_within (step : registry.Step call next) (within : registry.Within allowed)
    (permitted : call.Within allowed) : next.1.Within allowed := by
  intro key blob found
  rcases step_blob? step key blob found with before | ⟨_, checkpoint, _, presented⟩
  · exact within key blob before
  · rw [step_call step] at presented
    subst call
    exact permitted

/-- What a registration hands out is the blob presented; the key keeps another object, and
no entry gets a new one. -/
theorem duplicate_handed {key : String} {blob : Blob} {checkpoint : CheckpointId}
    {made : Reference} (accepted : registry.reference key blob checkpoint = .ok made)
    (handed : Blob) (member : handed ∈ disposals made.effects) :
    handed = blob ∧ blob.isPlaceholder = false ∧ made.canonical.physicalId ≠ blob.physicalId ∧
      ∀ other, made.registry.blob? other = registry.blob? other := by
  rw [reference_disposals accepted] at member
  split at member
  · cases member
  · rename_i apart
    simp only [not_or, Bool.not_eq_true] at apart
    rcases reference_canonical accepted with known | ⟨_, adopted, _⟩
    · refine ⟨List.mem_singleton.mp member, apart.1, Ne.symm apart.2, ?_⟩
      intro other
      rw [reference_blob? accepted]
      by_cases same : other = key
      · rw [if_pos same, same, known]
      · rw [if_neg same]
    · exact absurd (congrArg Blob.physicalId adopted.symm) apart.2

theorem release_handed (covered : CheckpointId → Bool) (blob : Blob) :
    blob ∈ disposals (registry.releaseCovered covered).effects ↔
      ∃ key, (key, blob) ∈ (registry.releaseCovered covered).released := by
  rw [disposals_release, List.mem_map]
  constructor
  · rintro ⟨⟨key, other⟩, member, same⟩
    exact ⟨key, same ▸ member⟩
  · rintro ⟨key, member⟩
    exact ⟨(key, blob), member, rfl⟩

/-- What is handed out is a real blob from one key, under which its object is gone. -/
theorem step_handed (step : registry.Step call next) (valid : registry.WellFormed) (blob : Blob)
    (handed : blob ∈ disposals next.2.effects) :
    blob.isPlaceholder = false ∧ ∃ key,
      (registry.blob? key = some blob ∨ ∃ checkpoint, call = .reference key blob checkpoint) ∧
        ∀ other, next.1.blob? key = some other → other.physicalId ≠ blob.physicalId := by
  cases step with
  | refused => cases handed
  | @registered key presented checkpoint made accepted =>
      obtain ⟨same, real, apart, _⟩ := duplicate_handed accepted blob handed
      subst blob
      refine ⟨real, key, Or.inr ⟨checkpoint, rfl⟩, ?_⟩
      intro other found
      rw [reference_blob? accepted, if_pos rfl, Option.some.injEq] at found
      exact found ▸ apart
  | released release =>
      obtain ⟨key, gone⟩ := (release_handed _ blob).mp handed
      obtain ⟨found, unneeded⟩ := (mem_released _ _ key blob).mp gone
      refine ⟨valid.real key blob found, key, Or.inl found, ?_⟩
      intro other there
      obtain ⟨_, holder, refers⟩ := (release_blob? _ _ key other).mp there
      exact absurd refers (unneeded holder)
  | closed => simp [disposals, List.filterMap_map] at handed

/-- The object of a blob that is handed out is left in the registry where an entry has it
that the call does not release. -/
theorem step_stores_iff (step : registry.Step call next) (valid : registry.WellFormed)
    (blob : Blob) (handed : blob ∈ disposals next.2.effects) :
    next.1.Stores blob.physicalId ↔ ∃ key canonical checkpoint,
      registry.blob? key = some canonical ∧ canonical.physicalId = blob.physicalId ∧
        registry.Refers key checkpoint ∧ call.covers checkpoint = false := by
  cases step with
  | refused => cases handed
  | @registered key presented checkpoint made accepted =>
      obtain ⟨_, _, _, unchanged⟩ := duplicate_handed accepted blob handed
      simp only [Stores, unchanged]
      constructor
      · rintro ⟨other, canonical, found, same⟩
        obtain ⟨holder, refers⟩ :=
          valid.occupied other (Option.ne_none_iff_exists'.mpr ⟨canonical, found⟩)
        exact ⟨other, canonical, holder, found, same, refers, rfl⟩
      · rintro ⟨other, canonical, _, found, same, _⟩
        exact ⟨other, canonical, found, same⟩
  | released release =>
      simp only [Stores, release_blob?, release_refers]
      constructor
      · rintro ⟨key, canonical, ⟨found, holder, refers, spared⟩, same⟩
        exact ⟨key, canonical, holder, found, same, refers, spared⟩
      · rintro ⟨key, canonical, holder, found, same, refers, spared⟩
        exact ⟨key, canonical, ⟨found, holder, refers, spared⟩, same⟩
  | closed => simp [disposals, List.filterMap_map] at handed

/-- An object with one key leaves the registry with that key. -/
theorem step_spares (step : registry.Step call next) (valid : registry.WellFormed)
    (within : registry.Within allowed) (permitted : call.Within allowed)
    (single : OneKey allowed) (blob : Blob) (handed : blob ∈ disposals next.2.effects) :
    ¬ next.1.Stores blob.physicalId := by
  rintro ⟨key, canonical, found, same⟩
  obtain ⟨real, own, source, gone⟩ := step_handed step valid blob handed
  have presented : allowed own blob := by
    rcases source with stored | ⟨checkpoint, asked⟩
    · exact within own blob stored
    · subst call
      exact permitted
  have stored : allowed key canonical := step_within step within permitted key canonical found
  have canonicalReal := (step_wellformed step valid).real key canonical found
  have sameKey : key = own := single key own canonical blob stored presented canonicalReal real same
  exact gone canonical (sameKey ▸ found) same

end Step

theorem after_within (allowed : String → Blob → Prop) (calls : List Call)
    (permitted : ∀ call ∈ calls, call.Within allowed) : (empty.after calls).Within allowed := by
  induction calls using List.reverseRecOn with
  | nil => exact fun _ _ found => nomatch found
  | append_singleton calls call ih =>
      have before := ih fun other member => permitted other (List.mem_append_left _ member)
      have step := perform_step _ (run_tracks calls).intact call
      rw [after_concat]
      exact step_within step before (permitted call (by simp))

/-- Callers who present one object under two keys can have it deleted under the other. -/
theorem twin_handed_out (first second : String) (blob twin : Blob) (apart : first ≠ second)
    (real : blob.isPlaceholder = false) (realTwin : twin.isPlaceholder = false)
    (same : blob.physicalId = twin.physicalId) :
    let registry := empty.after [.reference first blob 1, .reference second twin 2]
    let next := registry.perform (.releaseCheckpoint 1)
    blob ∈ disposals next.2.effects ∧ next.1.Stores blob.physicalId := by
  intro registry next
  obtain ⟨one, accepted⟩ := reference_accepted empty first blob 1 rfl (Or.inr real)
  obtain ⟨two, acceptedTwin⟩ :=
    reference_accepted one.registry second twin 2 (reference_cases accepted).2.1 (Or.inr realTwin)
  have built : registry = two.registry := by
    simp [registry, perform, attempt, accepted, acceptedTwin, Except.map]
  have intact : registry.status ≠ .poisoned := by
    simp [built, (reference_cases acceptedTwin).2.1]
  have oneBlob : ∀ key, one.registry.blob? key = if key = first then some blob else none := by
    rcases reference_canonical accepted with known | ⟨_, adopted, _⟩
    · cases known
    · intro key
      rw [reference_blob? accepted, adopted]
      rfl
  have firstBlob : registry.blob? first = some blob := by
    rw [built, reference_blob? acceptedTwin, if_neg apart, oneBlob, if_pos rfl]
  have secondBlob : registry.blob? second = some twin := by
    rw [built, reference_blob? acceptedTwin, if_pos rfl]
    rcases reference_canonical acceptedTwin with known | ⟨_, adopted, _⟩
    · rw [oneBlob, if_neg (Ne.symm apart)] at known
      cases known
    · rw [adopted]
  have refers : ∀ key holder, registry.Refers key holder ↔
      (key = second ∧ holder = 2) ∨ (key = first ∧ holder = 1) := by
    intro key holder
    have none : ¬ empty.Refers key holder := fun there => refers_present empty key holder there rfl
    rw [built, reference_refers acceptedTwin, reference_refers accepted, or_iff_left none]
  have released := perform_release registry intact (.releaseCheckpoint 1) rfl
  rw [show next = _ from released]
  constructor
  · refine (release_handed _ blob).mpr ⟨first, (mem_released _ _ _ _).mpr ⟨firstBlob, ?_⟩⟩
    intro holder there
    obtain ⟨held, spared⟩ := (release_refers _ _ _ _).mp there
    rcases (refers first holder).mp held with ⟨other, _⟩ | ⟨_, own⟩
    · exact apart other
    · simp [own, Call.covers] at spared
  · refine ⟨second, twin, (release_blob? _ _ _ _).mpr ⟨secondBlob, 2, ?_⟩, same.symm⟩
    rw [release_refers, refers]
    exact ⟨Or.inl ⟨rfl, rfl⟩, by decide⟩

/-- A blob that is handed out is still stored exactly if another key has adopted the same
object and the call leaves this key in place. Callers are safe from that, whatever they do,
exactly if they present no object under two keys. -/
theorem handed_out_exactly (calls : List Call) (call : Call) (allowed : String → Blob → Prop) :
    (∀ blob ∈ disposals ((empty.after calls).perform call).2.effects,
      (((empty.after calls).perform call).1.Stores blob.physicalId ↔
        ∃ key canonical checkpoint, Adopted (empty.history calls) key canonical ∧
          canonical.physicalId = blob.physicalId ∧
          Holds (empty.history calls) key checkpoint ∧ call.covers checkpoint = false)) ∧
    ((∀ run last, (∀ made ∈ run ++ [last], made.Within allowed) →
        ∀ blob ∈ disposals ((empty.after run).perform last).2.effects,
          ¬ ((empty.after run).perform last).1.Stores blob.physicalId) ↔ OneKey allowed) := by
  constructor
  · intro blob handed
    have tracks := run_tracks calls
    rw [step_stores_iff (perform_step _ tracks.intact call) tracks.valid blob handed]
    simp only [tracks_blob? tracks, tracks.holders]
  constructor
  · intro safe first second blob twin presented presentedTwin real realTwin same
    by_contra apart
    obtain ⟨handed, stored⟩ := twin_handed_out first second blob twin apart real realTwin same
    refine safe _ (.releaseCheckpoint 1) ?_ blob handed stored
    intro made member
    simp only [List.cons_append, List.nil_append, List.mem_cons, List.not_mem_nil,
      or_false] at member
    rcases member with one | two | three
    · exact one ▸ presented
    · exact two ▸ presentedTwin
    · exact three ▸ trivial
  · intro single run last permitted blob handed
    have tracks := run_tracks run
    have within := after_within allowed run fun made member =>
      permitted made (List.mem_append_left _ member)
    exact step_spares (perform_step _ tracks.intact last) tracks.valid within
      (permitted last (by simp)) single blob handed

/-- A duplicate under one key is deleted although another key has it as its own, and so is
what one of two keys releases. -/
theorem shared_object_handed_out :
    let x : Blob := .file ⟨⟨[0x78]⟩, 1⟩
    let y : Blob := .file ⟨⟨[0x79]⟩, 1⟩
    let uploads := empty.after [.reference "a" x 1, .reference "b" y 1]
    let duplicate := uploads.perform (.reference "b" x 2)
    let twins := empty.after [.reference "a" x 1, .reference "b" x 2]
    let release := twins.perform (.releaseCheckpoint 1)
    (disposals duplicate.2.effects = [x] ∧ duplicate.1.canonical? "a" = .ok (some x)) ∧
      (disposals release.2.effects = [x] ∧ release.1.canonical? "b" = .ok (some x)) := by
  decide

end Registry

end CheckpointLedger
