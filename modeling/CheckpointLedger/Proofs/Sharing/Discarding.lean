import CheckpointLedger.Proofs.Sharing.Restore
import CheckpointLedger.Proofs.Storage.Unlinking

/-!
Discards of state of any kind remove the files of its blobs in order, up to the first
failure. What is left is the first tree without the files that the blobs before the failure
named in it, and a repeated discard ends in the same way.
-/

namespace CheckpointLedger

open Directory

theorem discard_paths (kind : StateKind) (state : kind.Content) :
    discard state = (filePaths (kind.blobs state)).forM Path.discard := by
  rw [discard_kind, forM_filePaths]

theorem discard_clears (kind : StateKind) (state : kind.Content) (directory : Directory)
    (clears : directory.Clears (filePaths (kind.blobs state))) :
    discard state directory = .ok () (directory.without (filePaths (kind.blobs state))) := by
  rw [discard_paths]
  exact forM_clears _ directory clears

theorem discard_stops (kind : StateKind) (state : kind.Content) (directory : Directory)
    (earlier later : List Path) (failure : DiscardFailure)
    (stops : directory.Stops (filePaths (kind.blobs state)) earlier failure later) :
    discard state directory = .error failure (directory.without earlier) := by
  rw [discard_paths]
  exact forM_stops _ earlier later failure directory stops

/-- State that was discarded, with success or without, may be discarded again: it ends with
the same success or the same failure, and the tree stays as it is. -/
theorem discard_repeats (kind : StateKind) (state : kind.Content) (directory : Directory) :
    discard state (attempted (discard state) directory) = discard state directory := by
  rw [discard_paths]
  exact forM_again _ directory

namespace Family

variable (family : Family) (index : Nat) (left : Directory)

theorem perform_discard_ok (done : discard (family.read index) family.directory = .ok () left) :
    family.perform (.discard index) = (family.withDirectory left, none) := by
  simp only [perform, done]

theorem perform_discard_error (failure : DiscardFailure)
    (failed : discard (family.read index) family.directory = .error failure left) :
    family.perform (.discard index) =
      (family.withDirectory left, some (.storage failure)) := by
  simp only [perform, failed]

end Family

/-- A discard of an operator's checkpoint, which is any member of any family, removes its files
in order, and succeeds exactly if no removal fails. Then the tree is left without the files
that its paths name. Else the first failure is reported, and the tree is left without those
that the paths before it name. Nothing else changes: not the registry, and no mark, slot or
field of any member. -/
theorem discard_removes_prefix (family : Family) (index : Nat) :
    let state := family.read index
    let tree := family.directory
    let paths := filePaths (state.blobs Incremental.discarded)
    discard state = paths.forM Path.discard ∧
      ((family.perform (.discard index)).2 = none ↔ tree.Clears paths) ∧
      ((tree.Clears paths ∧
          discard state tree = .ok () (tree.without paths) ∧
          family.perform (.discard index) = (family.withDirectory (tree.without paths), none)) ∨
        ∃ earlier failure later, tree.Stops paths earlier failure later ∧
          discard state tree = .error failure (tree.without earlier) ∧
          family.perform (.discard index) =
            (family.withDirectory (tree.without earlier), some (.storage failure))) := by
  intro state tree paths
  refine ⟨discard_paths .operator state, ?_⟩
  rcases clears_or_stops tree paths with clears | ⟨earlier, failure, later, stops⟩
  · have done := discard_clears .operator state tree clears
    have outcome := family.perform_discard_ok index (tree.without paths) done
    exact ⟨iff_of_true (congrArg Prod.snd outcome) clears, Or.inl ⟨clears, done, outcome⟩⟩
  · have failed := discard_stops .operator state tree earlier later failure stops
    have outcome := family.perform_discard_error index (tree.without earlier) failure failed
    have refused : (family.perform (.discard index)).2 ≠ none := by simp [outcome]
    exact ⟨iff_of_false refused (stops_not_clears tree paths earlier later failure stops),
      Or.inr ⟨earlier, failure, later, stops, failed, outcome⟩⟩

end CheckpointLedger
