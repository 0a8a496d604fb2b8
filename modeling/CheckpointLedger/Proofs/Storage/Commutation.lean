import CheckpointLedger.Proofs.Storage.Removals
import Mathlib.Data.List.Perm.Basic

/-!
Discards may be made in any order. A discard takes one regular file away at most, and the
ways to other files go through directories only. So it neither blocks another discard nor
opens the way for it, even if one path lies under the other.
-/

namespace CheckpointLedger

namespace Directory

/-- Without a file, paths name the files that they named, this one apart. -/
theorem findFile_erase (directory : Directory) (erased : List Name)
    (isFile : directory.kind? erased = some .file) (path : Path) (names : List Name) :
    (directory.erase erased).findFile path = .ok (some names) ↔
      directory.findFile path = .ok (some names) ∧ names ≠ erased := by
  have spared : ∀ others, directory.kind? others = some .directory →
      decide (others ≠ erased) = true := by
    intro others isDirectory
    apply decide_eq_true
    rintro rfl
    rw [isFile] at isDirectory
    cases isDirectory
  rw [erase, findFile_retain directory _ spared, decide_eq_true_eq]

theorem erase_comm (directory : Directory) (names others : List Name) :
    (directory.erase names).erase others = (directory.erase others).erase names := by
  simp only [erase, retain_retain, Bool.and_comm]

end Directory

open Directory

/-- The file that a discard of the blob removes. -/
def Blob.target? (blob : Blob) (directory : Directory) : Option (List Name) :=
  match blob with
  | .file stored => (directory.findFile stored.path).toOption.join
  | .inline _ | .placeholder _ => none

section Discard

variable (blob : Blob) (directory : Directory)

theorem target?_iff (names : List Name) :
    blob.target? directory = some names ↔
      ∃ file, blob = .file file ∧ directory.findFile file.path = .ok (some names) := by
  cases blob with
  | inline stored => simp [Blob.target?]
  | placeholder stored => simp [Blob.target?]
  | file stored =>
      simp only [Blob.target?, Blob.file.injEq, exists_eq_left']
      cases directory.findFile stored.path <;> simp [Except.toOption]

theorem attempted_target :
    attempted blob.discard directory =
      ((blob.target? directory).map directory.erase).getD directory := by
  cases target : blob.target? directory with
  | none =>
      rcases attempted_discard blob directory with kept | ⟨file, names, isFile, found, _⟩
      · exact kept
      · rw [(target?_iff blob directory names).mpr ⟨file, isFile, found⟩] at target
        cases target
  | some names =>
      obtain ⟨file, isFile, found⟩ := (target?_iff blob directory names).mp target
      subst isFile
      simp only [attempted, discard_file, unlink, found, Option.map_some, Option.getD_some]

theorem target?_kind (names : List Name) (target : blob.target? directory = some names) :
    directory.kind? names = some .file := by
  obtain ⟨file, _, found⟩ := (target?_iff blob directory names).mp target
  exact findFile_kind directory file.path names found

theorem target?_erase (erased : List Name) (isFile : directory.kind? erased = some .file) :
    blob.target? (directory.erase erased) =
      (blob.target? directory).filter (· ≠ erased) := by
  apply Option.ext
  intro names
  simp only [target?_iff, Option.filter_eq_some_iff, findFile_erase directory erased isFile,
    decide_eq_true_eq]
  constructor
  · rintro ⟨file, same, found, apart⟩
    exact ⟨⟨file, same, found⟩, apart⟩
  · rintro ⟨⟨file, same, found⟩, apart⟩
    exact ⟨file, same, found, apart⟩

theorem discard_comm (other : Blob) :
    attempted other.discard (attempted blob.discard directory) =
      attempted blob.discard (attempted other.discard directory) := by
  simp only [attempted_target]
  -- Either discard leaves the other's target where it was, unless both have the same.
  cases first : blob.target? directory with
  | none =>
      cases second : other.target? directory with
      | none => simp [first, second]
      | some others =>
          have isFile := target?_kind other directory others second
          simp [first, second, target?_erase blob directory others isFile]
  | some names =>
      have isFile := target?_kind blob directory names first
      cases second : other.target? directory with
      | none => simp [first, second, target?_erase other directory names isFile]
      | some others =>
          have isFile' := target?_kind other directory others second
          simp only [Option.map_some, Option.getD_some, target?_erase other directory names isFile,
            target?_erase blob directory others isFile', first, second]
          by_cases same : names = others
          · simp [same]
          · simp [Option.filter, same, Ne.symm same, erase_comm]

end Discard

/-- The order in which the blobs are discarded makes no difference to the directory. -/
theorem discardAll_perm (directory : Directory) {blobs others : List Blob}
    (same : blobs.Perm others) : discardAll directory blobs = discardAll directory others := by
  have comm : RightCommutative fun left (blob : Blob) => attempted blob.discard left :=
    ⟨fun left blob other => discard_comm blob left other⟩
  exact same.foldl_eq directory

end CheckpointLedger
