import CheckpointLedger.Proofs.Registry.Growth
import CheckpointLedger.Sharing.Registration

/-!
A snapshot's slots are registered in order, up to the first refusal. The laws
here say what such a run leaves in the registry, in the slots and for disposal,
wherever it breaks off.
-/

namespace CheckpointLedger

/-- The slot is registered under the identity of its blob. -/
def Slot.Keyed (slot : Slot) : Prop := slot.blob.physicalId = slot.key

/-- The slots that are registered before the first refusal. -/
def served (checkpoint : CheckpointId) : List Slot → Registry → List Slot
  | [], _ => []
  | slot :: rest, registry =>
      match registry.reference slot.key slot.blob checkpoint with
      | .error _ => []
      | .ok made => slot :: served checkpoint rest made.registry

section Run

variable (checkpoint : CheckpointId)

theorem served_sublist (slots : List Slot) (registry : Registry) :
    (served checkpoint slots registry).Sublist slots := by
  induction slots generalizing registry with
  | nil => exact List.Sublist.refl []
  | cons slot rest ih =>
      rw [served]
      cases registry.reference slot.key slot.blob checkpoint with
      | error violation => exact List.nil_sublist _
      | ok made => exact (ih made.registry).cons_cons slot

theorem served_first (slots : List Slot) (registry : Registry) (key : String) (slot : Slot)
    (first : (served checkpoint slots registry).find? (·.key = key) = some slot) :
    slot ∈ slots ∧ slot.key = key := by
  constructor
  · exact (served_sublist checkpoint slots registry).subset (List.mem_of_find?_eq_some first)
  · simpa using List.find?_some first

/-- To the registry a run is a row of registrations. -/
theorem registerSlots_registrations (slots : List Slot) (registry : Registry) :
    Registry.Registrations (· == checkpoint) registry
      (registerSlots checkpoint slots registry).effects
      (registerSlots checkpoint slots registry).registry := by
  induction slots generalizing registry with
  | nil => exact .none
  | cons slot rest ih =>
      rw [registerSlots]
      cases outcome : registry.reference slot.key slot.blob checkpoint with
      | error violation => exact .none
      | ok made =>
          have first : Registry.Registrations (· == checkpoint) registry made.effects
              made.registry :=
            Registry.registrations_single (beq_self_eq_true checkpoint) outcome
          exact Registry.registrations_trans first (ih made.registry)

theorem registerSlots_status (slots : List Slot) (registry : Registry) :
    (registerSlots checkpoint slots registry).registry.status = registry.status :=
  Registry.registrations_status (registerSlots_registrations checkpoint slots registry)

theorem registerSlots_wellformed (slots : List Slot) (registry : Registry)
    (valid : registry.WellFormed) :
    (registerSlots checkpoint slots registry).registry.WellFormed :=
  Registry.registrations_wellformed (registerSlots_registrations checkpoint slots registry) valid

/-- A run adds references of its own checkpoint only, and drops none. -/
theorem registerSlots_refers (slots : List Slot) (registry : Registry) (key : String)
    (holder : CheckpointId) :
    (registerSlots checkpoint slots registry).registry.Refers key holder ↔
      registry.Refers key holder ∨
        (holder = checkpoint ∧ ∃ slot ∈ served checkpoint slots registry, slot.key = key) := by
  induction slots generalizing registry with
  | nil => simp [registerSlots, served]
  | cons slot rest ih =>
      rw [registerSlots, served]
      cases outcome : registry.reference slot.key slot.blob checkpoint with
      | error violation => simp
      | ok made =>
          simp only [ih made.registry, Registry.reference_refers outcome, List.mem_cons,
            exists_eq_or_imp]
          constructor
          · rintro ((⟨same, own⟩ | before) | ⟨own, later⟩)
            · exact Or.inr ⟨own, Or.inl same.symm⟩
            · exact Or.inl before
            · exact Or.inr ⟨own, Or.inr later⟩
          · rintro (before | ⟨own, same | later⟩)
            · exact Or.inl (Or.inr before)
            · exact Or.inl (Or.inl ⟨same.symm, own⟩)
            · exact Or.inr ⟨own, later⟩

/-- A known key keeps its blob. An unknown one takes that of the first slot with this
key, if the run gets that far. -/
theorem registerSlots_blob? (slots : List Slot) (registry : Registry) (key : String) :
    (registerSlots checkpoint slots registry).registry.blob? key =
      (registry.blob? key).or
        (((served checkpoint slots registry).find? (·.key = key)).map (·.blob)) := by
  induction slots generalizing registry with
  | nil => simp [registerSlots, served]
  | cons slot rest ih =>
      rw [registerSlots, served]
      cases outcome : registry.reference slot.key slot.blob checkpoint with
      | error violation => simp
      | ok made =>
          simp only [ih made.registry, Registry.reference_blob? outcome, List.find?_cons]
          -- Under its own key the head meets a blob, or brings the one that later slots meet.
          by_cases same : key = slot.key
          · subst same
            rcases Registry.reference_canonical outcome with known | ⟨absent, adopted, _⟩
            · simp [known]
            · simp [absent, adopted]
          · simp [same, Ne.symm same]

/-- Every slot keeps its blob or takes over the one that the registry has for it. -/
theorem registerSlots_slots (slots : List Slot) (registry : Registry) (slot : Slot)
    (member : slot ∈ (registerSlots checkpoint slots registry).slots) :
    ∃ old ∈ slots, slot.key = old.key ∧
      (slot.blob = old.blob ∨
        (registerSlots checkpoint slots registry).registry.blob? slot.key = some slot.blob) := by
  induction slots generalizing registry with
  | nil => cases member
  | cons head rest ih =>
      rw [registerSlots] at member ⊢
      cases outcome : registry.reference head.key head.blob checkpoint with
      | error violation =>
          rw [outcome] at member
          exact ⟨slot, member, rfl, Or.inl rfl⟩
      | ok made =>
          rw [outcome] at member
          rcases List.mem_cons.mp member with here | later
          · subst here
            refine ⟨head, List.mem_cons_self, rfl, Or.inr ?_⟩
            rw [registerSlots_blob?, Registry.reference_blob? outcome]
            simp
          · obtain ⟨old, there, same, source⟩ := ih made.registry later
            exact ⟨old, List.mem_cons_of_mem _ there, same, source⟩

/-- What a run hands out was uploaded under a key that the registry knew before, beside
another blob. Within one run keyed slots do not get in each other's way. -/
theorem registerSlots_disposals (slots : List Slot) (registry : Registry)
    (keyed : ∀ slot ∈ slots, slot.Keyed) (blob : Blob)
    (handed : blob ∈ disposals (registerSlots checkpoint slots registry).effects) :
    ∃ slot ∈ slots, slot.blob = blob ∧
      ∃ canonical, registry.blob? slot.key = some canonical ∧
        canonical.physicalId ≠ slot.key := by
  induction slots generalizing registry with
  | nil => cases handed
  | cons head rest ih =>
      rw [registerSlots] at handed
      cases outcome : registry.reference head.key head.blob checkpoint with
      | error violation =>
          rw [outcome] at handed
          cases handed
      | ok made =>
          have headKeyed : head.blob.physicalId = head.key := keyed head List.mem_cons_self
          rw [outcome] at handed
          rcases List.mem_append.mp (disposals_append _ _ ▸ handed) with here | later
          · rw [Registry.reference_disposals outcome] at here
            split at here
            · cases here
            · rename_i apart
              simp only [not_or, List.mem_singleton] at apart here
              refine ⟨head, List.mem_cons_self, here.symm, ?_⟩
              rcases Registry.reference_canonical outcome with known | ⟨_, adopted, _⟩
              · exact ⟨_, known, fun same => apart.2 (headKeyed.trans same.symm)⟩
              · exact absurd (congrArg Blob.physicalId adopted.symm) apart.2
          · obtain ⟨slot, member, same, canonical, known, apart⟩ := ih made.registry
              (fun slot member => keyed slot (List.mem_cons_of_mem _ member)) later
            refine ⟨slot, List.mem_cons_of_mem _ member, same, canonical, ?_, apart⟩
            rw [Registry.reference_blob? outcome] at known
            by_cases shared : slot.key = head.key
            · -- The head's key was known before, or it has the head's own blob now,
              -- whose identity is the key.
              rw [if_pos shared, Option.some.injEq] at known
              subst known
              rcases Registry.reference_canonical outcome with before | ⟨_, adopted, _⟩
              · exact shared ▸ before
              · rw [adopted, headKeyed] at apart
                exact absurd shared.symm apart
            · simpa [shared] using known

end Run

end CheckpointLedger
