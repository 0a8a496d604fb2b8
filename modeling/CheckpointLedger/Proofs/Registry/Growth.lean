import CheckpointLedger.Proofs.Registry.Operations

/-!
Registrations in a row, all for checkpoints that a release may cover together. A
registry only grows by them: what it had it keeps, and a key that is new is reported
once. If nothing depended on the checkpoints before, the release takes back exactly that.
-/

namespace CheckpointLedger

/-- The keys reported as new, in order. -/
def adoptions (effects : List Effect) : List String :=
  effects.filterMap fun effect => match effect with
    | .report (.registered key _) => some key
    | _ => none

theorem adoptions_append (effects more : List Effect) :
    adoptions (effects ++ more) = adoptions effects ++ adoptions more :=
  List.filterMap_append

namespace Registry

/-- Accepted registrations one after the other, with all that they report and hand out. -/
inductive Registrations (covered : CheckpointId → Bool) (before : Registry) :
    List Effect → Registry → Prop where
  | none : Registrations covered before [] before
  | next {effects : List Effect} {after : Registry} {key : String} {blob : Blob}
      {checkpoint : CheckpointId} {made : Reference}
      (earlier : Registrations covered before effects after) (own : covered checkpoint = true)
      (accepted : after.reference key blob checkpoint = .ok made) :
      Registrations covered before (effects ++ made.effects) made.registry

theorem reference_adoptions {registry : Registry} {key : String} {blob : Blob}
    {checkpoint : CheckpointId} {made : Reference}
    (accepted : registry.reference key blob checkpoint = .ok made) :
    adoptions made.effects = if registry.blob? key = none then [key] else [] := by
  rcases reference_effects accepted with ⟨absent, reported⟩ | ⟨known, references, reported⟩
  · rw [if_pos absent, reported]
    rfl
  · -- A duplicate is reported too, but not as something new.
    rw [if_neg (by simp [known]), reported, duplicate]
    split <;> rfl

section Registrations

variable {covered : CheckpointId → Bool} {before middle after : Registry}
  {effects more : List Effect}

theorem registrations_single {key : String} {blob : Blob} {checkpoint : CheckpointId}
    {made : Reference} (own : covered checkpoint = true)
    (accepted : before.reference key blob checkpoint = .ok made) :
    Registrations covered before made.effects made.registry :=
  .next .none own accepted

theorem registrations_trans (first : Registrations covered before effects middle)
    (second : Registrations covered middle more after) :
    Registrations covered before (effects ++ more) after := by
  induction second with
  | none =>
      rw [List.append_nil]
      exact first
  | next _ own accepted ih =>
      rw [← List.append_assoc]
      exact .next ih own accepted

theorem registrations_status (grown : Registrations covered before effects after) :
    after.status = before.status := by
  induction grown with
  | none => rfl
  | next _ _ accepted ih =>
      obtain ⟨accepting, still, _⟩ := reference_cases accepted
      rw [still, ← accepting, ih]

theorem registrations_wellformed (grown : Registrations covered before effects after)
    (valid : before.WellFormed) : after.WellFormed := by
  induction grown with
  | none => exact valid
  | next _ _ accepted ih => exact reference_wellformed accepted ih

theorem registrations_keep_reference (grown : Registrations covered before effects after)
    (key : String) (checkpoint : CheckpointId) (refers : before.Refers key checkpoint) :
    after.Refers key checkpoint := by
  induction grown with
  | none => exact refers
  | next _ _ accepted ih => exact (reference_refers accepted key checkpoint).mpr (Or.inr ih)

/-- Other checkpoints depend on what they depended on. -/
theorem registrations_spare (grown : Registrations covered before effects after)
    (key : String) (checkpoint : CheckpointId) (other : covered checkpoint = false) :
    after.Refers key checkpoint ↔ before.Refers key checkpoint := by
  induction grown with
  | none => rfl
  | @next _ _ registered _ holder _ _ own accepted ih =>
      rw [reference_refers accepted, ← ih]
      apply or_iff_right
      rintro ⟨_, same⟩
      rw [same, own] at other
      cases other

theorem registrations_keep_blob (grown : Registrations covered before effects after)
    (key : String) (blob : Blob) (found : before.blob? key = some blob) :
    after.blob? key = some blob := by
  induction grown with
  | none => exact found
  | next _ _ accepted ih =>
      rw [reference_blob? accepted]
      split
      · rename_i same
        rcases reference_canonical accepted with known | ⟨absent, _⟩
        · rw [← known, ← same, ih]
        · rw [← same, ih] at absent
          cases absent
      · exact ih

/-- Each key that was taken in is reported, and only those are. -/
theorem mem_adoptions (grown : Registrations covered before effects after) (key : String) :
    key ∈ adoptions effects ↔ before.blob? key = none ∧ after.blob? key ≠ none := by
  induction grown with
  | none => simp [adoptions]
  | @next effects after registered _ _ _ earlier _ accepted ih =>
      rw [adoptions_append, List.mem_append, ih, reference_adoptions accepted,
        reference_blob? accepted]
      by_cases same : key = registered
      · subst registered
        -- The key is there now. It is new with this registration, or with an earlier one.
        cases found : after.blob? key with
        | none =>
            have absent : before.blob? key = none := by
              by_contra present
              obtain ⟨blob, there⟩ := Option.ne_none_iff_exists'.mp present
              rw [registrations_keep_blob earlier key blob there] at found
              cases found
            simp [absent]
        | some blob => simp
      · have elsewhere : key ∉ if after.blob? registered = none then [registered] else [] := by
          split <;> simp [same]
        simp [same, elsewhere]

theorem adoptions_nodup (grown : Registrations covered before effects after) :
    (adoptions effects).Nodup := by
  induction grown with
  | none => exact List.nodup_nil
  | @next effects after registered _ _ _ earlier _ accepted ih =>
      rw [adoptions_append, reference_adoptions accepted]
      split
      · rename_i absent
        apply ih.append (List.nodup_singleton registered)
        rw [List.disjoint_singleton]
        exact fun reported => ((mem_adoptions earlier registered).mp reported).2 absent
      · rw [List.append_nil]
        exact ih

section Undone

variable (grown : Registrations covered before effects after)
  (unused : ∀ key checkpoint, before.Refers key checkpoint → covered checkpoint = false)
include grown unused

theorem undone_references (key : String) (checkpoint : CheckpointId) :
    (after.releaseCovered covered).registry.Refers key checkpoint ↔
      before.Refers key checkpoint := by
  rw [release_refers]
  constructor
  · rintro ⟨refers, other⟩
    exact (registrations_spare grown key checkpoint other).mp refers
  · intro refers
    exact ⟨registrations_keep_reference grown key checkpoint refers,
      unused key checkpoint refers⟩

variable (valid : before.WellFormed)
include valid

/-- A release of the checkpoints brings the registry back. -/
theorem undone_registry : (after.releaseCovered covered).registry = before := by
  have status := registrations_status grown
  apply ext_views
  · exact status
  · intro key
    apply Option.ext
    intro blob
    rw [release_blob?]
    simp only [undone_references grown unused]
    constructor
    · rintro ⟨found, checkpoint, refers⟩
      obtain ⟨own, there⟩ := Option.ne_none_iff_exists'.mp (refers_present before key _ refers)
      rw [registrations_keep_blob grown key own there] at found
      rw [there, found]
    · intro found
      exact ⟨registrations_keep_blob grown key blob found,
        valid.occupied key (Option.ne_none_iff_exists'.mpr ⟨blob, found⟩)⟩
  · exact undone_references grown unused

theorem mem_undone (key : String) (blob : Blob) :
    (key, blob) ∈ (after.releaseCovered covered).released ↔
      before.blob? key = none ∧ after.blob? key = some blob := by
  rw [mem_released, and_comm]
  apply and_congr_left
  intro _
  simp only [undone_references grown unused]
  rw [← not_exists, ← present_iff before valid, not_not]

/-- The release removes each key that was reported as new, once. -/
theorem undone_keys :
    ((after.releaseCovered covered).released.map Prod.fst).Perm (adoptions effects) := by
  apply (List.perm_ext_iff_of_nodup (released_keys_nodup after covered)
    (adoptions_nodup grown)).mpr
  intro key
  rw [mem_adoptions grown, List.mem_map, Option.ne_none_iff_exists']
  constructor
  · rintro ⟨⟨other, blob⟩, gone, same⟩
    obtain ⟨absent, found⟩ := (mem_undone grown unused valid other blob).mp gone
    subst same
    exact ⟨absent, blob, found⟩
  · rintro ⟨absent, blob, found⟩
    exact ⟨(key, blob), (mem_undone grown unused valid key blob).mpr ⟨absent, found⟩, rfl⟩

end Undone

end Registrations

end Registry

end CheckpointLedger
