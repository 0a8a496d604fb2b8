import CheckpointLedger.Proofs.Sharing.Discarding

/-!
An operator's checkpoint can be discarded up to the first failure, or past the failures of
single subtasks. Both go through the subtasks in order, and each subtask stops at its own
first failure. The two agree as long as nothing fails, and the one that goes on removes what
the other removes, and more.
-/

namespace CheckpointLedger

open Directory
open OperatorCheckpoint (discardEach)

/-- A subtask that is about to be discarded, with the tree that those before it have left. -/
structure Visit (β : Type) where
  index : UInt64
  subtask : β
  tree : Directory

section Visits

variable {β : Type} [Stored β]

/-- The subtasks are discarded one after the other, whatever came of those before. -/
def visits : List (UInt64 × β) → Directory → List (Visit β)
  | [], _ => []
  | (index, subtask) :: rest, tree =>
      ⟨index, subtask, tree⟩ :: visits rest (attempted (discard subtask) tree)

namespace Visit

def failure? (visit : Visit β) : Option DiscardFailure :=
  match discard visit.subtask visit.tree with
  | .ok _ _ => none
  | .error failure _ => some failure

/-- The failure of the visit, as it is reported. -/
def report? (visit : Visit β) : Option (UInt64 × DiscardFailure) :=
  visit.failure?.map (visit.index, ·)

end Visit

theorem discardEach_cons (index : UInt64) (subtask : β) (rest : List (UInt64 × β))
    (tree : Directory) :
    let tail := discardEach rest (attempted (discard subtask) tree)
    discardEach ((index, subtask) :: rest) tree =
      ((Visit.mk index subtask tree).report?.toList ++ tail.1, tail.2) := by
  simp only [discardEach, attempted, Visit.report?, Visit.failure?]
  cases discard subtask tree <;> rfl

theorem discardEach_failures (entries : List (UInt64 × β)) (tree : Directory) :
    (discardEach entries tree).1 = (visits entries tree).filterMap Visit.report? := by
  induction entries generalizing tree with
  | nil => rfl
  | cons entry rest ih =>
      obtain ⟨index, subtask⟩ := entry
      rw [discardEach_cons, visits, List.filterMap_cons, ih]
      cases (Visit.mk index subtask tree).report? <;> rfl

/-- The report counts the subtasks whose own discard fails. -/
theorem discardEach_count (entries : List (UInt64 × β)) (tree : Directory) :
    (discardEach entries tree).1.length =
      (visits entries tree).countP (·.failure?.isSome) := by
  rw [discardEach_failures, List.length_filterMap_eq_countP]
  simp only [Visit.report?, Option.isSome_map]

theorem discard_entries (state : OperatorCheckpoint β) (directory : Directory) :
    discard state directory = (state.subtasks.entries.map Prod.snd).forM discard directory := rfl

theorem discardCollecting_eq (state : OperatorCheckpoint β) (directory : Directory) :
    state.discardCollecting directory =
      let outcome := discardEach state.subtasks.entries directory
      if outcome.1 = [] then .ok () outcome.2
      else .error ⟨state.operator, outcome.1⟩ outcome.2 := by
  simp only [OperatorCheckpoint.discardCollecting]
  split <;> simp_all

/-- Up to the first failure both ways go through the same subtasks. -/
theorem discardEach_first (entries : List (UInt64 × β)) (directory : Directory) :
    match (entries.map Prod.snd).forM discard directory with
    | .ok _ left => discardEach entries directory = ([], left)
    | .error failure left => ∃ before index subtask after middle,
        entries = before ++ (index, subtask) :: after ∧
        (before.map Prod.snd).forM discard directory = .ok () middle ∧
        discard subtask middle = .error failure left ∧
        discardEach entries directory =
          ((index, failure) :: (discardEach after left).1, (discardEach after left).2) := by
  induction entries generalizing directory with
  | nil => rfl
  | cons entry rest ih =>
      obtain ⟨index, subtask⟩ := entry
      simp only [List.map_cons, List.forM_eq_forM, List.forM_cons, bind, EStateM.bind] at ih ⊢
      cases first : discard subtask directory with
      | error failure left =>
          refine ⟨[], index, subtask, rest, directory, rfl, rfl, first, ?_⟩
          simp only [discardEach, first]
      | ok _ next =>
          have later := ih next
          simp only [discardEach, first]
          cases tail : forM (rest.map Prod.snd) discard next with
          | ok _ left =>
              rw [tail] at later
              exact later
          | error failure left =>
              rw [tail] at later
              obtain ⟨before, other, stopped, after, middle, split, passed, failed, outcome⟩ :=
                later
              refine ⟨(index, subtask) :: before, other, stopped, after, middle, ?_, ?_, failed,
                outcome⟩
              · rw [split]
                rfl
              · simp only [List.map_cons, List.forM_cons, bind, EStateM.bind, first]
                exact passed

end Visits

/-! Subtasks that discard blobs. -/

namespace Visit

variable (visit : Visit PlainSubtask)

/-- The paths of the files that the subtask is to remove, in order. -/
def paths : List Path := filePaths (visit.subtask.blobs Incremental.discarded)

/-- Those up to the subtask's first failure. -/
def cleared : List Path := visit.tree.cleared visit.paths

theorem left_cleared :
    attempted (discard visit.subtask) visit.tree = visit.tree.without visit.cleared := by
  rw [discard_paths .subtask visit.subtask]
  exact attempted_forM visit.paths visit.tree

theorem failure?_iff (failure : DiscardFailure) :
    visit.failure? = some failure ↔
      ∃ earlier later, visit.tree.Stops visit.paths earlier failure later := by
  constructor
  · intro failed
    rcases clears_or_stops visit.tree visit.paths with clears | ⟨earlier, first, later, stops⟩
    · have done : discard visit.subtask visit.tree = .ok () _ :=
        discard_clears .subtask visit.subtask visit.tree clears
      rw [failure?, done] at failed
      cases failed
    · have stopped : discard visit.subtask visit.tree = .error first _ :=
        discard_stops .subtask visit.subtask visit.tree earlier later first stops
      rw [failure?, stopped] at failed
      cases failed
      exact ⟨earlier, later, stops⟩
  · rintro ⟨earlier, later, stops⟩
    have stopped : discard visit.subtask visit.tree = .error failure _ :=
      discard_stops .subtask visit.subtask visit.tree earlier later failure stops
    rw [failure?, stopped]

/-- A path that does not fail is cleared, or it stands behind the one that does. -/
theorem cleared_or_behind (directory : Directory) (within : visit.tree.Within directory)
    (path : Path) (member : path ∈ visit.paths) (place : Option (List Name))
    (found : directory.findFile path = .ok place) :
    path ∈ visit.cleared ∨ ∃ earlier failure later,
      visit.tree.Stops visit.paths earlier failure later ∧ path ∈ later := by
  rcases clears_or_stops visit.tree visit.paths with clears | ⟨earlier, failure, later, stops⟩
  · left
    rw [cleared, cleared_of_clears visit.tree visit.paths clears]
    exact member
  · rw [stops.split, List.mem_append, List.mem_cons] at member
    rcases member with before | same | behind
    · left
      rw [cleared, cleared_of_stops visit.tree visit.paths earlier later failure stops]
      exact before
    · -- What fails now has failed in the first tree.
      have still := within_trans (without_within visit.tree earlier) within
      have failed := unlink_fault still failure.path failure.fault stops.fails
      exact absurd (same ▸ failed) (not_fails_of_findFile directory path place _ found)
    · exact Or.inr ⟨earlier, failure, later, stops, behind⟩

end Visit

theorem discardEach_left (entries : List (UInt64 × PlainSubtask)) (directory : Directory) :
    (discardEach entries directory).2 =
      directory.without ((visits entries directory).flatMap Visit.cleared) := by
  induction entries generalizing directory with
  | nil => exact (without_nil directory).symm
  | cons entry rest ih =>
      obtain ⟨index, subtask⟩ := entry
      have left : attempted (discard subtask) directory =
          directory.without (Visit.mk index subtask directory).cleared :=
        (Visit.mk index subtask directory).left_cleared
      rw [discardEach_cons, visits, List.flatMap_cons, ← without_without, ← left]
      exact ih _

/-- Every path of the state has its turn in one of the visits. -/
theorem visits_paths (entries : List (UInt64 × PlainSubtask)) (directory : Directory) :
    (visits entries directory).flatMap Visit.paths =
      filePaths ((entries.map Prod.snd).flatMap (SubtaskState.blobs Incremental.discarded)) := by
  rw [filePaths_flatMap]
  induction entries generalizing directory with
  | nil => rfl
  | cons entry rest ih =>
      obtain ⟨index, subtask⟩ := entry
      rw [visits, List.flatMap_cons, List.map_cons, List.flatMap_cons, ih]
      rfl

theorem visits_within (entries : List (UInt64 × PlainSubtask)) (directory : Directory) :
    ∀ visit ∈ visits entries directory, visit.tree.Within directory := by
  induction entries generalizing directory with
  | nil => exact fun _ member => nomatch member
  | cons entry rest ih =>
      obtain ⟨index, subtask⟩ := entry
      intro visit member
      rcases List.mem_cons.mp member with rfl | later
      · exact within_refl directory
      · have left := (Visit.mk index subtask directory).left_cleared
        exact within_trans (ih _ visit later) (left ▸ without_within directory _)

theorem intercalate_first (front separator first : String) (rest : List String) :
    ∃ more, front ++ separator.intercalate (first :: rest) = front ++ first ++ more := by
  cases rest with
  | nil => exact ⟨"", by rw [String.intercalate_singleton, String.append_empty]⟩
  | cons second rest =>
      exact ⟨separator ++ separator.intercalate (second :: rest), by
        simp only [String.intercalate_cons_cons, String.append_assoc]⟩

/-- The text of a report states the number of failures and then the first of them. -/
theorem message_first (report : DiscardReport) (index : UInt64) (failure : DiscardFailure)
    (rest : List (UInt64 × DiscardFailure)) (first : report.failures = (index, failure) :: rest) :
    ∃ more, report.message =
      s!"failed to discard {report.failures.length} state objects of operator " ++
        s!"{report.operator.text}: " ++ s!"subtask {index}: {failure.message}" ++ more := by
  unfold DiscardReport.message
  rw [first, List.map_cons]
  exact intercalate_first _ _ _ _

/-- Discards that stop and discards that go on. If nothing fails they leave the same tree.
Otherwise both fail: the one that goes on has removed what the other has removed, it reports
first what the other reports, and counts the subtasks whose own discard fails. -/
theorem collecting_extends_stopping (state : OperatorCheckpoint PlainSubtask)
    (directory : Directory) :
    match discard state directory, state.discardCollecting directory with
    | .ok _ left, .ok _ other => left = other
    | .error failure left, .error report other =>
        (∀ names, directory.kind? names = some .file → left.kind? names = none →
          other.kind? names = none) ∧
        report.operator = state.operator ∧
        report.failures.length =
          (visits state.subtasks.entries directory).countP (·.failure?.isSome) ∧
        ∃ before index subtask after middle rest more,
          state.subtasks.entries = before ++ (index, subtask) :: after ∧
          (before.map Prod.snd).forM discard directory = .ok () middle ∧
          discard subtask middle = .error failure left ∧
          report.failures = (index, failure) :: rest ∧
          report.message =
            s!"failed to discard {report.failures.length} state objects of operator " ++
              s!"{report.operator.text}: " ++ s!"subtask {index}: {failure.message}" ++ more
    | _, _ => False := by
  have together := discardEach_first state.subtasks.entries directory
  rw [← discard_entries] at together
  rw [discardCollecting_eq]
  cases ended : discard state directory with
  | ok _ left =>
      rw [ended] at together
      simp [together]
  | error failure left =>
      rw [ended] at together
      obtain ⟨before, index, subtask, after, middle, split, passed, failed, outcome⟩ := together
      have within : (discardEach after left).2.Within left :=
        discardEach_left after left ▸ without_within left _
      have counted := discardEach_count state.subtasks.entries directory
      rw [outcome] at counted
      obtain ⟨more, written⟩ := message_first ⟨state.operator, _⟩ index failure _ rfl
      simp only [outcome, List.cons_ne_nil, if_false]
      refine ⟨?_, trivial, counted, before, index, subtask, after, middle, _, more, split, passed,
        failed, rfl, written⟩
      intro names _ gone
      by_contra still
      obtain ⟨kind, there⟩ := Option.ne_none_iff_exists'.mp still
      rw [within.nodes names kind there] at gone
      cases gone

/-- Nothing is reported exactly if no removal fails. -/
theorem discardEach_clears (state : OperatorCheckpoint PlainSubtask) (directory : Directory) :
    (discardEach state.subtasks.entries directory).1 = [] ↔
      directory.Clears (filePaths (state.blobs Incremental.discarded)) := by
  have together := discardEach_first state.subtasks.entries directory
  rw [← discard_entries] at together
  rcases clears_or_stops directory (filePaths (state.blobs Incremental.discarded)) with
    clears | ⟨earlier, failure, later, stops⟩
  · have done : discard state directory = .ok () _ :=
      discard_clears .operator state directory clears
    rw [done] at together
    exact iff_of_true (congrArg Prod.fst together) clears
  · have stopped : discard state directory = .error failure _ :=
      discard_stops .operator state directory earlier later failure stops
    rw [stopped] at together
    obtain ⟨_, _, _, _, _, _, _, _, outcome⟩ := together
    exact iff_of_false (by simp [outcome])
      (stops_not_clears directory _ earlier later failure stops)

/-- What discards that go on past failures leave and report. They fail exactly if some file
cannot be removed, and report each subtask's first failure. What a subtask holds behind its
first failure they do not touch: all files are gone exactly if these are named before a
failure as well. -/
theorem collected_exactly (state : OperatorCheckpoint PlainSubtask) (directory : Directory) :
    let paths := filePaths (state.blobs Incremental.discarded)
    let made := visits state.subtasks.entries directory
    let gone := made.flatMap Visit.cleared
    let left := directory.without gone
    let failures := made.filterMap Visit.report?
    state.discardCollecting directory =
        (if failures = [] then .ok () left else .error ⟨state.operator, failures⟩ left) ∧
      (failures = [] ↔ directory.Clears paths) ∧
      (∀ index failure, (index, failure) ∈ failures ↔ ∃ visit ∈ made, visit.index = index ∧
        ∃ earlier later, visit.tree.Stops visit.paths earlier failure later) ∧
      ((∀ path ∈ paths, ∀ names, directory.findFile path = .ok (some names) →
          left.kind? names = none) ↔
        ∀ visit ∈ made, ∀ earlier failure later,
          visit.tree.Stops visit.paths earlier failure later →
          ∀ path ∈ later, ∀ names, directory.findFile path = .ok (some names) →
            ∃ other ∈ gone, directory.findFile other = .ok (some names)) := by
  intro paths made gone left failures
  have all : made.flatMap Visit.paths = paths := visits_paths state.subtasks.entries directory
  have reported : (discardEach state.subtasks.entries directory).1 = failures :=
    discardEach_failures state.subtasks.entries directory
  refine ⟨?_, ?_, ?_, ?_⟩
  · rw [discardCollecting_eq]
    simp only [reported, discardEach_left]
    rfl
  · rw [← reported]
    exact discardEach_clears state directory
  · intro index failure
    simp only [failures, List.mem_filterMap, Visit.report?, Option.map_eq_some_iff,
      Visit.failure?_iff, Prod.mk.injEq]
    constructor
    · rintro ⟨visit, member, other, stops, rfl, rfl⟩
      exact ⟨visit, member, rfl, stops⟩
    · rintro ⟨visit, member, same, stops⟩
      exact ⟨visit, member, failure, stops, same, rfl⟩
  · constructor
    · intro removed visit member earlier failure later stops path behind names found
      have own : path ∈ visit.paths := by
        rw [stops.split]
        exact List.mem_append_right _ (List.mem_cons_of_mem _ behind)
      have inside : path ∈ paths := all ▸ List.mem_flatMap.mpr ⟨visit, member, own⟩
      exact (gone_iff directory gone path names found).mp (removed path inside names found)
    · intro named path inside names found
      apply (gone_iff directory gone path names found).mpr
      obtain ⟨visit, member, own⟩ := List.mem_flatMap.mp (all ▸ inside)
      have within := visits_within state.subtasks.entries directory visit member
      rcases visit.cleared_or_behind directory within path own _ found with
        cleared | ⟨earlier, failure, later, stops, behind⟩
      · exact ⟨path, List.mem_flatMap.mpr ⟨visit, member, cleared⟩, found⟩
      · exact named visit member earlier failure later stops path behind names found

/-- Of one subtask's two handles the first names a directory. The file of the second is still
there afterwards, and nothing is reported of it. -/
theorem hidden_file_left :
    let blocked : PartitionedState := ⟨.empty, .file ⟨⟨[0x64]⟩, 1⟩⟩
    let behind : PartitionedState := ⟨.empty, .file ⟨⟨[0x78]⟩, 1⟩⟩
    let subtask : PlainSubtask := ⟨[blocked, behind], [], [], [], [], []⟩
    let state : OperatorCheckpoint PlainSubtask :=
      { operator := .ofNat 7, parallelism := 1, maxParallelism := 1
        subtasks := SortedMap.empty.insert 0 subtask, coordinator := .unset
        parallelism_le := by decide
        index_lt := List.forall_mem_singleton.mpr (by decide) }
    let directory : Directory := ⟨[([[0x77]], .directory), ([[0x77], [0x64]], .directory),
      ([[0x77], [0x78]], .file)], [[0x77]]⟩
    ⟨[0x78]⟩ ∈ filePaths (state.blobs Incremental.discarded) ∧
      directory.findFile ⟨[0x78]⟩ = .ok (some [[0x77], [0x78]]) ∧
      state.discardCollecting directory =
        .error ⟨.ofNat 7, [(0, ⟨⟨[0x64]⟩, .isDirectory⟩)]⟩ directory ∧
      directory.kind? [[0x77], [0x78]] = some .file := by
  intro blocked behind subtask state directory
  refine ⟨by decide, ?_, ?_, by decide⟩
  · rfl
  · rfl

end CheckpointLedger
