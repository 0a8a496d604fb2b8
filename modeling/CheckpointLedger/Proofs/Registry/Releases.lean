import CheckpointLedger.Proofs.Registry.Accounting

/-!
Releases in a row. What they come to depends on the checkpoints that they cover together, not
on their order and not on how often a checkpoint is covered. An entry whose checkpoints are
covered by several of them is removed once, by the one that comes last.
-/

namespace CheckpointLedger

/-- All that the turns hand out, in order. -/
def handedOut (turns : List Turn) : List Blob := turns.flatMap fun turn => disposals turn.effects

/-- How many entries the turns say they removed. -/
def removedCount (turns : List Turn) : Nat := (turns.map Turn.releasedCount).sum

/-- Some release of the row covers the checkpoint. -/
def coveredBy (calls : List Call) (checkpoint : CheckpointId) : Bool :=
  calls.any fun call => call.covers checkpoint

namespace Registry

section Covered

variable (registry : Registry)

/-- A release looks only at checkpoints that occur. -/
theorem releaseCovered_congr {first second : CheckpointId → Bool}
    (same : ∀ key checkpoint, registry.Refers key checkpoint →
      first checkpoint = second checkpoint) :
    registry.releaseCovered first = registry.releaseCovered second := by
  have uncovered : ∀ entry ∈ registry.fragments.entries,
      uncover first entry.2 = uncover second entry.2 := by
    rintro ⟨key, fragment⟩ member
    have found := (SortedMap.mem_entries_iff _ key fragment).mp member
    have checkpoints : (uncover first fragment).checkpoints =
        (uncover second fragment).checkpoints := by
      apply SortedMap.ext_keys
      intro checkpoint
      rw [mem_uncover_keys, mem_uncover_keys]
      apply and_congr_right
      intro holds
      rw [same key checkpoint ⟨fragment, found, holds⟩]
    exact congrArg (Fragment.mk fragment.canonical) checkpoints
  simp only [releaseCovered, Release.mk.injEq, Registry.mk.injEq, and_true]
  constructor
  · apply SortedMap.ext_entries
    apply List.filterMap_congr
    intro entry member
    simp only [uncovered entry member]
  · apply List.filterMap_congr
    intro entry member
    simp only [uncovered entry member]

/-- Releases that cover none of the checkpoints do nothing. -/
theorem release_idle (valid : registry.WellFormed) {covered : CheckpointId → Bool}
    (none : ∀ key checkpoint, registry.Refers key checkpoint → covered checkpoint = false) :
    registry.releaseCovered covered = ⟨registry, []⟩ := by
  have kept : ∀ key checkpoint, (registry.releaseCovered covered).registry.Refers key checkpoint ↔
      registry.Refers key checkpoint := by
    intro key checkpoint
    rw [release_refers]
    exact and_iff_left_of_imp (none key checkpoint)
  have unchanged : (registry.releaseCovered covered).registry = registry := by
    refine ext_views _ _ rfl ?_ kept
    intro key
    apply Option.ext
    intro blob
    rw [release_blob?]
    apply and_iff_left_of_imp
    intro found
    obtain ⟨checkpoint, refers⟩ := valid.occupied key (by simp [found])
    exact ⟨checkpoint, (kept key checkpoint).mpr refers⟩
  have removed : (registry.releaseCovered covered).released = [] := by
    rw [List.eq_nil_iff_forall_not_mem]
    rintro ⟨key, blob⟩ member
    obtain ⟨found, unreferenced⟩ := (mem_released registry covered key blob).mp member
    obtain ⟨checkpoint, refers⟩ := valid.occupied key (by simp [found])
    exact unreferenced checkpoint ((kept key checkpoint).mpr refers)
  calc registry.releaseCovered covered
      = ⟨(registry.releaseCovered covered).registry,
          (registry.releaseCovered covered).released⟩ := rfl
    _ = ⟨registry, []⟩ := by rw [unchanged, removed]

section Twice

variable (first second : CheckpointId → Bool)

theorem release_twice_refers (key : String) (checkpoint : CheckpointId) :
    ((registry.releaseCovered first).registry.releaseCovered second).registry.Refers key
        checkpoint ↔
      (registry.releaseCovered fun checkpoint =>
        first checkpoint || second checkpoint).registry.Refers key checkpoint := by
  simp only [release_refers, Bool.or_eq_false_iff, and_assoc]

/-- Two releases leave what one release of all their checkpoints leaves. -/
theorem release_twice_registry :
    ((registry.releaseCovered first).registry.releaseCovered second).registry =
      (registry.releaseCovered fun checkpoint =>
        first checkpoint || second checkpoint).registry := by
  refine ext_views _ _ rfl ?_ (release_twice_refers registry first second)
  intro key
  apply Option.ext
  intro blob
  rw [release_blob?, release_blob?, release_blob?]
  simp only [release_twice_refers]
  constructor
  · rintro ⟨⟨found, _⟩, left⟩
    exact ⟨found, left⟩
  · rintro ⟨found, checkpoint, refers⟩
    have still := (release_twice_refers registry first second key checkpoint).mpr refers
    exact ⟨⟨found, checkpoint, ((release_refers _ second key checkpoint).mp still).1⟩,
      checkpoint, refers⟩

theorem released_nodup (covered : CheckpointId → Bool) :
    (registry.releaseCovered covered).released.Nodup :=
  (released_keys_nodup registry covered).of_map Prod.fst

/-- The first release removes an entry, or the second one does, but not both. -/
theorem release_twice_released :
    ((registry.releaseCovered first).released ++
        ((registry.releaseCovered first).registry.releaseCovered second).released).Perm
      (registry.releaseCovered fun checkpoint =>
        first checkpoint || second checkpoint).released := by
  have apart : ((registry.releaseCovered first).released).Disjoint
      ((registry.releaseCovered first).registry.releaseCovered second).released := by
    rintro ⟨key, blob⟩ early late
    have unreferenced := ((mem_released registry first key blob).mp early).2
    obtain ⟨found, _⟩ := (mem_released _ second key blob).mp late
    obtain ⟨checkpoint, refers⟩ := ((release_blob? registry first key blob).mp found).2
    exact unreferenced checkpoint refers
  apply (List.perm_ext_iff_of_nodup
    (List.Nodup.append (released_nodup _ first) (released_nodup _ second) apart)
    (released_nodup _ _)).mpr
  rintro ⟨key, blob⟩
  rw [List.mem_append, mem_released, mem_released, mem_released, release_blob?]
  simp only [release_twice_refers]
  constructor
  · rintro (⟨found, unreferenced⟩ | ⟨⟨found, _⟩, unreferenced⟩)
    · refine ⟨found, fun checkpoint refers => ?_⟩
      have still := (release_twice_refers registry first second key checkpoint).mpr refers
      exact unreferenced checkpoint ((release_refers _ second key checkpoint).mp still).1
    · exact ⟨found, unreferenced⟩
  · rintro ⟨found, unreferenced⟩
    -- What the first release leaves of the entry is left for the second.
    by_cases left : ∃ checkpoint, (registry.releaseCovered first).registry.Refers key checkpoint
    · exact Or.inr ⟨⟨found, left⟩, unreferenced⟩
    · exact Or.inl ⟨found, not_exists.mp left⟩

end Twice

end Covered

/-! Runs of releases. -/

/-- Both rows of calls answer with counts, end in one registry, hand out the same blobs up to
order, and remove as many entries. -/
structure ReleaseAlike (registry : Registry) (calls others : List Call) : Prop where
  answered : ∀ turn ∈ registry.history calls ++ registry.history others,
    ∃ count, turn.answer = .ok (.released count)
  left : registry.after calls = registry.after others
  handed : (handedOut (registry.history calls)).Perm (handedOut (registry.history others))
  counted : removedCount (registry.history calls) = removedCount (registry.history others)

section Runs

variable (registry : Registry) (intact : registry.status ≠ .poisoned)

include intact

theorem releases_answered (calls : List Call) (releases : ∀ call ∈ calls, call.isRelease = true) :
    ∀ turn ∈ registry.history calls, ∃ count, turn.answer = .ok (.released count) := by
  induction calls generalizing registry with
  | nil => exact fun _ member => nomatch member
  | cons call rest ih =>
      have first := perform_release registry intact call (releases call List.mem_cons_self)
      intro turn member
      rw [history, first] at member
      rcases List.mem_cons.mp member with rfl | later
      · exact ⟨_, rfl⟩
      · exact ih (registry.releaseCovered call.covers).registry intact
          (fun other inside => releases other (List.mem_cons_of_mem call inside)) turn later

/-- A row of releases is one release of all that they cover. -/
theorem releases_run (valid : registry.WellFormed) (calls : List Call)
    (releases : ∀ call ∈ calls, call.isRelease = true) :
    let whole := registry.releaseCovered (coveredBy calls)
    registry.after calls = whole.registry ∧
      (handedOut (registry.history calls)).Perm (whole.released.map Prod.snd) ∧
      removedCount (registry.history calls) = whole.released.length := by
  induction calls generalizing registry with
  | nil =>
      have idle : registry.releaseCovered (coveredBy []) = ⟨registry, []⟩ :=
        release_idle registry valid fun _ _ _ => rfl
      simp only [idle]
      exact ⟨rfl, .refl _, rfl⟩
  | cons call rest ih =>
      intro whole
      have first := perform_release registry intact call (releases call List.mem_cons_self)
      obtain ⟨ended, handed, counted⟩ := ih (registry.releaseCovered call.covers).registry intact
        (release_wellformed registry call.covers valid)
        fun other inside => releases other (List.mem_cons_of_mem call inside)
      have removed := release_twice_released registry call.covers (coveredBy rest)
      rw [history, after_cons, first]
      refine ⟨?_, ?_, ?_⟩
      · rw [ended]
        exact release_twice_registry registry call.covers (coveredBy rest)
      · refine List.Perm.trans ?_ (removed.map Prod.snd)
        rw [handedOut, List.flatMap_cons, List.map_append, disposals_release]
        exact handed.append_left _
      · have lengths := removed.length_eq
        rw [List.length_append] at lengths
        simp only [removedCount, List.map_cons, List.sum_cons, Turn.releasedCount] at counted ⊢
        rw [counted]
        exact lengths

/-- Rows of releases that cover the same of the checkpoints that occur. -/
theorem releases_alike (valid : registry.WellFormed) (calls others : List Call)
    (releases : ∀ call ∈ calls, call.isRelease = true)
    (releases' : ∀ call ∈ others, call.isRelease = true)
    (same : ∀ key checkpoint, registry.Refers key checkpoint →
      coveredBy calls checkpoint = coveredBy others checkpoint) :
    registry.ReleaseAlike calls others := by
  obtain ⟨ended, handed, counted⟩ := releases_run registry intact valid calls releases
  obtain ⟨ended', handed', counted'⟩ := releases_run registry intact valid others releases'
  rw [releaseCovered_congr registry same] at ended handed counted
  constructor
  case answered =>
    intro turn member
    rcases List.mem_append.mp member with one | other
    · exact releases_answered registry intact calls releases turn one
    · exact releases_answered registry intact others releases' turn other
  case left => rw [ended, ended']
  case handed => exact handed.trans handed'.symm
  case counted => rw [counted, counted']

end Runs

/-- Releasing all checkpoints below a bound at once comes to the same as releasing those of
them that occur one by one, in any order and any number of times. And of any two releases
either may come first. -/
theorem bulk_release_as_singles (registry : Registry) (reachable : registry.Reachable) :
    (∀ (lowestKept : CheckpointId) (checkpoints : List CheckpointId),
      (∀ checkpoint ∈ checkpoints, checkpoint < lowestKept) →
      (∀ key checkpoint, registry.Refers key checkpoint → checkpoint < lowestKept →
        checkpoint ∈ checkpoints) →
      registry.ReleaseAlike [.releaseBelow lowestKept]
        (checkpoints.map Call.releaseCheckpoint)) ∧
    ∀ first second : Call, first.isRelease = true → second.isRelease = true →
      registry.ReleaseAlike [first, second] [second, first] := by
  obtain ⟨intact, valid⟩ := reachable_wellformed registry reachable
  constructor
  · intro lowestKept checkpoints below all
    refine releases_alike registry intact valid _ _ (by simp [Call.isRelease])
      (by simp [Call.isRelease]) ?_
    intro key checkpoint refers
    have listed : checkpoint < lowestKept ↔ checkpoint ∈ checkpoints :=
      ⟨all key checkpoint refers, below checkpoint⟩
    rw [Bool.eq_iff_iff]
    simp [coveredBy, Call.covers, listed]
  · intro first second release release'
    refine releases_alike registry intact valid _ _ (by simp [release, release'])
      (by simp [release, release']) ?_
    intro key checkpoint _
    simp [coveredBy, Bool.or_comm]

/-- One entry is emptied by both checkpoints below the bound together, one by the first of them
alone, and one stays. Which call counts an entry depends on the order. -/
theorem bulk_release_in_either_order :
    let blob : String → Blob := fun name => .inline ⟨name, []⟩
    let registry := empty.after [.reference "a" (blob "a") 1, .reference "a" (blob "a") 2,
      .reference "b" (blob "b") 1, .reference "c" (blob "c") 2, .reference "c" (blob "c") 3]
    let upwards : List Call := [.releaseCheckpoint 1, .releaseCheckpoint 2, .releaseCheckpoint 1]
    let downwards : List Call := [.releaseCheckpoint 2, .releaseCheckpoint 1, .releaseCheckpoint 2]
    registry.ReleaseAlike [.releaseBelow 3] upwards ∧
      registry.ReleaseAlike [.releaseBelow 3] downwards ∧
      registry.ReleaseAlike [.releaseBelow 2, .releaseCheckpoint 2]
        [.releaseCheckpoint 2, .releaseBelow 2] ∧
      (registry.history upwards).map Turn.releasedCount = [1, 1, 0] ∧
      (registry.history downwards).map Turn.releasedCount = [0, 2, 0] ∧
      (registry.perform (.releaseBelow 3)).2.releasedCount = 2 ∧
      (registry.after upwards).checkpointsOf "c" = .ok [3] := by
  intro blob registry upwards downwards
  have reachable : registry.Reachable := ⟨_, rfl⟩
  have occurring : ∀ key checkpoint, registry.Refers key checkpoint → checkpoint < 3 →
      checkpoint = 1 ∨ checkpoint = 2 := by
    have listed : ∀ entry ∈ registry.fragments.entries,
        entry.2.checkpoints.keys.all
          (fun checkpoint => checkpoint < 3 → checkpoint = 1 ∨ checkpoint = 2) = true := by
      decide
    rintro key checkpoint ⟨fragment, found, member⟩
    have every := listed (key, fragment) ((SortedMap.mem_entries_iff _ _ _).mpr found)
    exact of_decide_eq_true (List.all_eq_true.mp every checkpoint member)
  obtain ⟨bulk, commute⟩ := bulk_release_as_singles registry reachable
  refine ⟨bulk 3 [1, 2, 1] (by simp) ?_, bulk 3 [2, 1, 2] (by simp) ?_,
    commute (.releaseBelow 2) (.releaseCheckpoint 2) rfl rfl, by decide, by decide, by decide,
    by decide⟩
  · intro key checkpoint refers below
    rcases occurring key checkpoint refers below with rfl | rfl <;> decide
  · intro key checkpoint refers below
    rcases occurring key checkpoint refers below with rfl | rfl <;> decide

end Registry

end CheckpointLedger
