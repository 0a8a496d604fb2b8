import CheckpointLedger.Registry.Disposal
import CheckpointLedger.SortedMap.Lemmas
import Mathlib.Data.List.Nodup

/-!
What a registration and a release do, seen through two views of a registry: the
blob under each key, and the checkpoints that depend on it. Later proofs use
these laws and leave the fragments alone.
-/

namespace CheckpointLedger

theorem disposals_append (effects more : List Effect) :
    disposals (effects ++ more) = disposals effects ++ disposals more :=
  List.filterMap_append

namespace Registry

/-- The checkpoint depends on the key. -/
def Refers (registry : Registry) (key : String) (checkpoint : CheckpointId) : Prop :=
  ∃ fragment, registry.fragments.find? key = some fragment ∧
    checkpoint ∈ fragment.checkpoints.keys

def blob? (registry : Registry) (key : String) : Option Blob :=
  (registry.fragments.find? key).map (·.canonical)

/-- Every fragment serves some checkpoint, and its blob is a real one. -/
structure WellFormed (registry : Registry) : Prop where
  occupied : ∀ key, registry.blob? key ≠ none → ∃ checkpoint, registry.Refers key checkpoint
  real : ∀ key blob, registry.blob? key = some blob → blob.isPlaceholder = false

theorem empty_wellformed : empty.WellFormed :=
  ⟨fun _ absent => absurd rfl absent, fun _ _ found => nomatch found⟩

theorem refers_present (registry : Registry) (key : String) (checkpoint : CheckpointId)
    (refers : registry.Refers key checkpoint) : registry.blob? key ≠ none := by
  obtain ⟨fragment, found, _⟩ := refers
  simp [blob?, found]

theorem present_iff (registry : Registry) (valid : registry.WellFormed) (key : String) :
    registry.blob? key ≠ none ↔ ∃ checkpoint, registry.Refers key checkpoint := by
  constructor
  · exact valid.occupied key
  · rintro ⟨checkpoint, refers⟩
    exact refers_present registry key checkpoint refers

theorem not_mem_empty_keys (checkpoint : CheckpointId) :
    checkpoint ∉ (SortedMap.empty : CheckpointSet).keys := by
  simp [SortedMap.keys, SortedMap.empty]

theorem mem_insert_keys (checkpoints : CheckpointSet) (added checkpoint : CheckpointId) :
    checkpoint ∈ (checkpoints.insert added ()).keys ↔
      checkpoint = added ∨ checkpoint ∈ checkpoints.keys := by
  rw [SortedMap.mem_keys_iff, SortedMap.mem_keys_iff, SortedMap.find?_insert]
  by_cases same : checkpoint = added <;> simp [same]

/-- The two views and the status are all there is to a registry. -/
theorem ext_views (first second : Registry) (status : first.status = second.status)
    (blobs : ∀ key, first.blob? key = second.blob? key)
    (references : ∀ key checkpoint, first.Refers key checkpoint ↔ second.Refers key checkpoint) :
    first = second := by
  obtain ⟨fragments, _⟩ := first
  obtain ⟨fragments', _⟩ := second
  have same : fragments = fragments' := by
    apply SortedMap.ext_find?
    intro key
    have blob := blobs key
    have holders := references key
    simp only [blob?, Refers] at blob holders
    cases found : fragments.find? key <;> cases found' : fragments'.find? key <;>
      simp only [found, found', Option.map_none, Option.map_some, reduceCtorEq,
        Option.some.injEq, exists_eq_left'] at blob holders ⊢
    exact Fragment.mk.injEq .. ▸ ⟨blob, SortedMap.ext_keys _ _ holders⟩
  exact congrArg₂ Registry.mk same status

/-! Registrations. -/

section Reference

variable {registry : Registry} {key : String} {blob : Blob} {checkpoint : CheckpointId}
  {made : Reference}

/-- All that an accepted registration does. The fragment under its key has the
canonical blob that is answered, and one more checkpoint than before. -/
theorem reference_cases (accepted : registry.reference key blob checkpoint = .ok made) :
    registry.status = .accepting ∧ made.registry.status = .accepting ∧
    ∃ checkpoints : CheckpointSet,
      made.registry.fragments = registry.fragments.insert key
        ⟨made.canonical, checkpoints.insert checkpoint ()⟩ ∧
      ((registry.fragments.find? key = some ⟨made.canonical, checkpoints⟩ ∧
          disposals made.effects = disposals (duplicate blob made.canonical)) ∨
        (registry.fragments.find? key = none ∧ checkpoints = .empty ∧ made.canonical = blob ∧
          blob.isPlaceholder = false ∧ disposals made.effects = [])) := by
  cases status : registry.status with
  | poisoned => simp [reference, status] at accepted
  | closed => simp [reference, status] at accepted
  | accepting =>
      cases found : registry.fragments.find? key with
      | some fragment =>
          simp only [reference, status, found, Except.ok.injEq] at accepted
          subst made
          exact ⟨rfl, rfl, fragment.checkpoints, rfl, Or.inl ⟨rfl, rfl⟩⟩
      | none =>
          cases placeholder : blob.isPlaceholder with
          | true => simp [reference, status, found, placeholder] at accepted
          | false =>
              simp only [reference, status, found, placeholder, Bool.false_eq_true, ↓reduceIte,
                Except.ok.injEq] at accepted
              subst made
              exact ⟨rfl, rfl, .empty, rfl, Or.inr ⟨rfl, rfl, rfl, rfl, rfl⟩⟩

theorem reference_blob? (accepted : registry.reference key blob checkpoint = .ok made)
    (other : String) :
    made.registry.blob? other =
      if other = key then some made.canonical else registry.blob? other := by
  obtain ⟨_, _, checkpoints, fragments, _⟩ := reference_cases accepted
  simp only [blob?, fragments, SortedMap.find?_insert]
  by_cases same : other = key <;> simp [same]

theorem reference_refers (accepted : registry.reference key blob checkpoint = .ok made)
    (other : String) (holder : CheckpointId) :
    made.registry.Refers other holder ↔
      (other = key ∧ holder = checkpoint) ∨ registry.Refers other holder := by
  obtain ⟨_, _, checkpoints, fragments, known⟩ := reference_cases accepted
  simp only [Refers, fragments, SortedMap.find?_insert]
  by_cases same : other = key
  · subst other
    rcases known with ⟨found, _⟩ | ⟨absent, fresh, _⟩
    · simp [found, mem_insert_keys]
    · subst fresh
      simp [absent, mem_insert_keys, not_mem_empty_keys]
  · simp [same]

/-- A key that has a blob keeps it; one that has none takes the blob presented. -/
theorem reference_canonical (accepted : registry.reference key blob checkpoint = .ok made) :
    registry.blob? key = some made.canonical ∨
      (registry.blob? key = none ∧ made.canonical = blob ∧ blob.isPlaceholder = false) := by
  obtain ⟨_, _, checkpoints, _, known⟩ := reference_cases accepted
  rcases known with ⟨found, _⟩ | ⟨absent, _, adopted, real, _⟩
  · exact Or.inl (by simp [blob?, found])
  · exact Or.inr ⟨by simp [blob?, absent], adopted, real⟩

/-- A blob is handed out when it was uploaded beside the canonical one. -/
theorem reference_disposals (accepted : registry.reference key blob checkpoint = .ok made) :
    disposals made.effects =
      if blob.isPlaceholder ∨ blob.physicalId = made.canonical.physicalId then [] else [blob] := by
  obtain ⟨_, _, checkpoints, _, known⟩ := reference_cases accepted
  rcases known with ⟨_, handed⟩ | ⟨_, _, adopted, _, handed⟩
  · rw [handed, duplicate]
    split <;> rfl
  · simp [handed, adopted]

/-- What a registration reports tells whether it adopted its blob. -/
theorem reference_effects (accepted : registry.reference key blob checkpoint = .ok made) :
    (registry.blob? key = none ∧ made.effects = [.report (.registered key checkpoint)]) ∨
      (registry.blob? key = some made.canonical ∧ ∃ references,
        made.effects = .report (.referenced key checkpoint references) ::
          duplicate blob made.canonical) := by
  have status := (reference_cases accepted).1
  cases found : registry.fragments.find? key with
  | some fragment =>
      simp only [reference, status, found, Except.ok.injEq] at accepted
      subst made
      exact Or.inr ⟨by simp [blob?, found], _, rfl⟩
  | none =>
      cases placeholder : blob.isPlaceholder with
      | true => simp [reference, status, found, placeholder] at accepted
      | false =>
          simp only [reference, status, found, placeholder, Bool.false_eq_true, ↓reduceIte,
            Except.ok.injEq] at accepted
          subst made
          exact Or.inl ⟨by simp [blob?, found], rfl⟩

theorem reference_wellformed (accepted : registry.reference key blob checkpoint = .ok made)
    (valid : registry.WellFormed) : made.registry.WellFormed := by
  constructor
  · -- The key itself serves this checkpoint at least; the others serve those they served.
    intro other present
    rw [reference_blob? accepted] at present
    by_cases same : other = key
    · exact ⟨checkpoint, (reference_refers accepted _ _).mpr (Or.inl ⟨same, rfl⟩)⟩
    · obtain ⟨holder, refers⟩ := valid.occupied other (by simpa [same] using present)
      exact ⟨holder, (reference_refers accepted _ _).mpr (Or.inr refers)⟩
  · intro other stored found
    rw [reference_blob? accepted] at found
    by_cases same : other = key
    · simp only [same, ↓reduceIte, Option.some.injEq] at found
      subst stored
      rcases reference_canonical accepted with known | ⟨_, adopted, real⟩
      · exact valid.real key _ known
      · exact adopted ▸ real
    · exact valid.real other stored (by simpa [same] using found)

/-- A registration is refused by a registry that accepts none, and when a
placeholder stands for a blob that nobody registered. -/
theorem reference_error (registry : Registry) (key : String) (blob : Blob)
    (checkpoint : CheckpointId) (violation : Violation) :
    registry.reference key blob checkpoint = .error violation ↔
      (registry.status = .poisoned ∧ violation = .lockPoisoned) ∨
      (registry.status = .closed ∧ violation = .registryClosed) ∨
      (registry.status = .accepting ∧ registry.blob? key = none ∧ blob.isPlaceholder = true ∧
        violation = .unknownSharedState key) := by
  rw [eq_comm (a := registry.reference key blob checkpoint)]
  cases status : registry.status with
  | poisoned => simp [reference, status]
  | closed => simp [reference, status]
  | accepting =>
      cases found : registry.fragments.find? key with
      | some fragment => simp [reference, status, found, blob?]
      | none => cases placeholder : blob.isPlaceholder <;>
          simp [reference, status, found, blob?, placeholder]

theorem reference_accepted (registry : Registry) (key : String) (blob : Blob)
    (checkpoint : CheckpointId) (accepting : registry.status = .accepting)
    (served : registry.blob? key ≠ none ∨ blob.isPlaceholder = false) :
    ∃ made, registry.reference key blob checkpoint = .ok made := by
  cases outcome : registry.reference key blob checkpoint with
  | ok made => exact ⟨made, rfl⟩
  | error violation =>
      rcases (reference_error ..).mp outcome with ⟨other, _⟩ | ⟨other, _⟩ | ⟨_, absent, virtual, _⟩
      · simp [accepting] at other
      · simp [accepting] at other
      · simp [absent, virtual] at served

end Reference

/-! Releases. -/

section Release

variable (registry : Registry) (covered : CheckpointId → Bool)

theorem mem_uncover_keys (fragment : Fragment) (checkpoint : CheckpointId) :
    checkpoint ∈ (uncover covered fragment).checkpoints.keys ↔
      checkpoint ∈ fragment.checkpoints.keys ∧ covered checkpoint = false := by
  rw [SortedMap.mem_keys_iff, SortedMap.mem_keys_iff]
  simp only [uncover, SortedMap.find?_filterMap]
  cases fragment.checkpoints.find? checkpoint <;> cases covered checkpoint <;> simp

theorem isEmpty_iff_keys (checkpoints : CheckpointSet) :
    checkpoints.isEmpty = true ↔ ∀ checkpoint, checkpoint ∉ checkpoints.keys := by
  rw [SortedMap.isEmpty, List.isEmpty_iff, SortedMap.keys, ← List.eq_nil_iff_forall_not_mem,
    List.map_eq_nil_iff]

theorem find?_releaseCovered (key : String) :
    (registry.releaseCovered covered).registry.fragments.find? key =
      (registry.fragments.find? key).bind fun fragment =>
        if (uncover covered fragment).checkpoints.isEmpty then none
        else some (uncover covered fragment) :=
  SortedMap.find?_filterMap _ _ _

theorem release_refers (key : String) (checkpoint : CheckpointId) :
    (registry.releaseCovered covered).registry.Refers key checkpoint ↔
      registry.Refers key checkpoint ∧ covered checkpoint = false := by
  simp only [Refers, find?_releaseCovered]
  cases found : registry.fragments.find? key with
  | none => simp
  | some fragment =>
      simp only [Option.bind_some, Option.some.injEq, exists_eq_left']
      rw [← mem_uncover_keys]
      split
      · rename_i emptied
        simp [(isEmpty_iff_keys _).mp emptied checkpoint]
      · simp

theorem release_blob? (key : String) (blob : Blob) :
    (registry.releaseCovered covered).registry.blob? key = some blob ↔
      registry.blob? key = some blob ∧
        ∃ checkpoint, (registry.releaseCovered covered).registry.Refers key checkpoint := by
  simp only [release_refers]
  simp only [blob?, Refers, find?_releaseCovered]
  cases found : registry.fragments.find? key with
  | none => simp
  | some fragment =>
      simp only [Option.bind_some, Option.some.injEq, exists_eq_left', Option.map_some]
      simp only [← mem_uncover_keys]
      split
      · rename_i emptied
        simp [(isEmpty_iff_keys _).mp emptied]
      · rename_i occupied
        have left : ∃ checkpoint, checkpoint ∈ (uncover covered fragment).checkpoints.keys := by
          by_contra none
          exact occupied ((isEmpty_iff_keys _).mpr (not_exists.mp none))
        rw [Option.map_some, Option.some.injEq]
        exact ⟨fun same => ⟨same, left⟩, And.left⟩

/-- What is handed out are the blobs of the keys that no checkpoint needs any
more. -/
theorem mem_released (key : String) (blob : Blob) :
    (key, blob) ∈ (registry.releaseCovered covered).released ↔
      registry.blob? key = some blob ∧
        ∀ checkpoint, ¬ (registry.releaseCovered covered).registry.Refers key checkpoint := by
  have entry : (key, blob) ∈ (registry.releaseCovered covered).released ↔
      ∃ fragment, registry.fragments.find? key = some fragment ∧
        (uncover covered fragment).checkpoints.isEmpty = true ∧ fragment.canonical = blob := by
    simp only [releaseCovered, List.mem_filterMap, Option.ite_none_right_eq_some,
      Option.some.injEq, Prod.mk.injEq, Prod.exists, SortedMap.mem_entries_iff]
    constructor
    · rintro ⟨other, fragment, found, emptied, same, canonical⟩
      subst other
      exact ⟨fragment, found, emptied, canonical⟩
    · rintro ⟨fragment, found, emptied, canonical⟩
      exact ⟨key, fragment, found, emptied, rfl, canonical⟩
  rw [entry]
  simp only [release_refers]
  simp only [blob?, Refers, isEmpty_iff_keys, mem_uncover_keys]
  cases found : registry.fragments.find? key with
  | none => simp
  | some fragment => simp [and_comm]

theorem released_keys_nodup :
    ((registry.releaseCovered covered).released.map Prod.fst).Nodup := by
  have sublist : ((registry.releaseCovered covered).released.map Prod.fst).Sublist
      (registry.fragments.entries.map Prod.fst) := by
    -- Entry by entry: one that is released stays in the list, the others are skipped.
    simp only [releaseCovered]
    induction registry.fragments.entries with
    | nil => simp
    | cons entry rest ih =>
        by_cases emptied : (uncover covered entry.2).checkpoints.isEmpty = true
        · simpa [List.filterMap_cons, emptied] using ih
        · simpa [List.filterMap_cons, emptied] using ih.cons entry.1
  exact (SortedMap.keys_nodup registry.fragments).sublist sublist

theorem release_size :
    (registry.releaseCovered covered).registry.fragments.size +
      (registry.releaseCovered covered).released.length = registry.fragments.size := by
  simp only [releaseCovered, SortedMap.size, SortedMap.filterMap]
  induction registry.fragments.entries with
  | nil => rfl
  | cons entry rest ih =>
      by_cases emptied : (uncover covered entry.2).checkpoints.isEmpty = true
      · simp only [List.filterMap_cons, emptied, ↓reduceIte, Option.map_none, List.length_cons]
        omega
      · simp only [List.filterMap_cons, emptied, Bool.false_eq_true, ↓reduceIte, Option.map_some,
          List.length_cons]
        omega

theorem release_wellformed (valid : registry.WellFormed) :
    (registry.releaseCovered covered).registry.WellFormed := by
  constructor
  · intro key present
    obtain ⟨blob, found⟩ := Option.ne_none_iff_exists'.mp present
    exact ((release_blob? registry covered key blob).mp found).2
  · intro key blob found
    exact valid.real key blob ((release_blob? registry covered key blob).mp found).1

theorem disposals_release (release : Release) :
    disposals release.effects = release.released.map Prod.snd := by
  simp [disposals, Release.effects, List.filterMap_append, List.filterMap_map]

end Release

end Registry

end CheckpointLedger
