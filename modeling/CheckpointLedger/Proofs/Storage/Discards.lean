import CheckpointLedger.Proofs.Storage.Spelling
import CheckpointLedger.Registry.Disposal
import Mathlib.Data.List.Find

/-!
Removing files by name. A path names a file if its way leads through directories to
one. For paths of a single segment the working directory is a set of names: a removal
takes its own name away, leaves all others, and brings none back. A sequence of discards
is followed through the files that are there.
-/

namespace CheckpointLedger

/-- The path has one segment. -/
def Path.IsName (path : Path) : Prop := Path.slash ∉ path.bytes

def Blob.IsFileAt (blob : Blob) (path : Path) : Prop := ∃ size, blob = .file ⟨path, size⟩

/-- What a discard leaves, also when it fails. -/
def attempted (discard : Discard) (directory : Directory) : Directory :=
  match discard directory with
  | .ok _ left => left
  | .error _ left => left

/-- Discards one after the other, each made whatever came of those before. -/
def discardAll (directory : Directory) (blobs : List Blob) : Directory :=
  blobs.foldl (fun left blob => attempted blob.discard left) directory

theorem discardAll_append (directory : Directory) (blobs more : List Blob) :
    discardAll directory (blobs ++ more) = discardAll (discardAll directory blobs) more :=
  List.foldl_append

namespace Directory

/-- A regular file stands at the path. -/
def HasFile (directory : Directory) (path : Path) : Prop :=
  ∃ names, directory.findFile path = .ok (some names)

/-- A name that a regular file can have. -/
def Admissible (name : Name) : Prop :=
  (0 : UInt8) ∉ name ∧ name ≠ [] ∧ name.length ≤ longestName ∧ name ≠ Path.here ∧
    name ≠ Path.parent

theorem not_isMove {name : Name} (admissible : Admissible name) : ¬ IsMove name := by
  obtain ⟨_, nonempty, _, notHere, notParent⟩ := admissible
  simp [IsMove, nonempty, notHere, notParent]

theorem step_name (place : List Name) (name : Name) (proper : ¬ IsMove name) :
    step place name = place ++ [name] := by
  simp only [IsMove, not_or] at proper
  simp [step, proper]

theorem entry_iff (directory : Directory) (place : List Name) (name : Name) (kind : NodeKind) :
    directory.entry place name = .ok (some kind) ↔
      name.length ≤ longestName ∧ directory.kind? (place ++ [name]) = some kind := by
  by_cases short : name.length ≤ longestName
  · simp [entry, Nat.not_lt.mpr short, short]
  · simp [entry, Nat.lt_of_not_le short, short]

/-- What it takes for a path to name a file: a final segment that is a name, and a way of
directories to it. -/
theorem findFile_iff (directory : Directory) (path : Path) (names : List Name) :
    directory.findFile path = .ok (some names) ↔
      (0 ∉ path.bytes ∧ path.bytes ≠ [] ∧ path.bytes.length ≤ longestPath) ∧
      ∃ way final place,
        path.split? = some (way, final) ∧
        directory.walk (directory.start path) way = .ok (some place) ∧
        ¬ IsMove final ∧ directory.entry place final = .ok (some .file) ∧
        path.endsInSlash = false ∧ step place final = names := by
  constructor
  · intro found
    rw [findFile] at found
    split at found
    · cases found
    rename_i noNul
    split at found
    · cases found
    rename_i written
    split at found
    · cases found
    rename_i short
    refine ⟨⟨by simpa using noNul, written, Nat.le_of_not_lt short⟩, ?_⟩
    split at found
    · cases found
    rename_i way final split
    split at found
    · cases found
    · cases found
    rename_i place walked
    split at found
    · cases found
    rename_i proper
    split at found
    · cases found
    · cases found
    · cases found
    rename_i there
    split at found
    · cases found
    rename_i bare
    cases found
    exact ⟨way, final, place, split, walked, proper, there, by simpa using bare, rfl⟩
  · rintro ⟨⟨noNul, written, short⟩, way, final, place, split, walked, proper, there, bare, rfl⟩
    simp [findFile, noNul, written, Nat.not_lt.mpr short, split, walked, proper, there, bare]

/-- A path without empty segments starts in the working directory. -/
theorem start_relative (directory : Directory) (path : Path)
    (nonempty : ∀ segment ∈ path.segments, segment ≠ []) :
    directory.start path = directory.current := by
  rw [start, if_neg]
  intro absolute
  have first := (Path.segments_head path).mpr (Or.inr absolute)
  exact nonempty [] (List.mem_of_mem_head? first) rfl

/-- A single segment is looked up in the working directory, if it can be a file's name. -/
theorem findFile_name (directory : Directory) (path : Path) (single : path.IsName)
    (names : List Name) :
    directory.findFile path = .ok (some names) ↔
      Admissible path.bytes ∧ names = directory.current ++ [path.bytes] ∧
        directory.kind? (directory.current ++ [path.bytes]) = some .file := by
  obtain ⟨name⟩ := path
  have segments : Path.segments ⟨name⟩ = [] ++ [name] := Path.splitSlash_single name single
  rw [findFile_iff]
  constructor
  · rintro ⟨⟨noNul, written, _⟩, way, final, place, split, walked, proper, there, _, rfl⟩
    rw [Path.split?_final segments written, Option.some.injEq, Prod.mk.injEq] at split
    obtain ⟨rfl, rfl⟩ := split
    rw [start_relative directory _ (by simpa [segments] using written)] at walked
    cases walked
    obtain ⟨short, isFile⟩ := (entry_iff directory _ name .file).mp there
    have dots := not_or.mp (not_or.mp proper).2
    exact ⟨⟨noNul, written, short, dots⟩, step_name _ name proper, isFile⟩
  · rintro ⟨admissible, rfl, isFile⟩
    have proper := not_isMove admissible
    obtain ⟨noNul, written, short, _⟩ := admissible
    have readable : name.length ≤ longestPath := Nat.le_trans short (by decide)
    rw [start_relative directory _ (by simpa [segments] using written)]
    exact ⟨⟨noNul, written, readable⟩, [], name, directory.current,
      Path.split?_final segments written, rfl, proper,
      (entry_iff directory _ name .file).mpr ⟨short, isFile⟩,
      Path.endsInSlash_final segments written, step_name _ name proper⟩

theorem hasFile_name (directory : Directory) (path : Path) (single : path.IsName) :
    directory.HasFile path ↔
      Admissible path.bytes ∧
        directory.kind? (directory.current ++ [path.bytes]) = some .file := by
  simp [HasFile, findFile_name directory path single]

/-- Dropping nodes by their names leaves the others as they are. -/
theorem kind?_retain (directory : Directory) (keep : List Name → Bool) (names : List Name) :
    (directory.retain keep).kind? names =
      if keep names then directory.kind? names else none := by
  simp only [retain, kind?, List.find?_filter]
  cases kept : keep names with
  | false =>
      rw [List.find?_eq_none.mpr]
      · rfl
      · intro node _
        by_cases here : node.1 = names
        · simp [here, kept]
        · simp [here]
  | true =>
      simp only [if_true]
      congr 1
      apply List.find?_congr
      intro node _
      by_cases here : node.1 = names
      · simp [here, kept]
      · simp [here]

theorem retain_retain (directory : Directory) (keep more : List Name → Bool) :
    (directory.retain keep).retain more =
      directory.retain fun names => more names && keep names := by
  simp only [retain, List.filter_filter]

theorem kind?_erase (directory : Directory) (erased names : List Name) :
    (directory.erase erased).kind? names =
      if names = erased then none else directory.kind? names := by
  rw [erase, kind?_retain]
  by_cases same : names = erased <;> simp [same]

end Directory

/-- Whatever file the blob is, its path is a name. -/
def Blob.Named (blob : Blob) : Prop := ∀ path, blob.IsFileAt path → path.IsName

open Directory

theorem discard_file (file : FileBlob) (directory : Directory) :
    (Blob.file file).discard directory = match directory.unlink file.path with
      | .ok smaller => .ok () smaller
      | .error fault => .error ⟨file.path, fault⟩ directory := rfl

/-- A file whose path is a name is removed, or it was not there. -/
theorem discard_file_name (file : FileBlob) (single : file.path.IsName)
    (directory : Directory) :
    (directory.HasFile file.path ∧
        (Blob.file file).discard directory =
          .ok () (directory.erase (directory.current ++ [file.path.bytes]))) ∨
      (¬ directory.HasFile file.path ∧
        attempted (Blob.file file).discard directory = directory) := by
  cases found : directory.findFile file.path with
  | error fault =>
      right
      constructor
      · simp [HasFile, found]
      · simp only [attempted, discard_file, unlink, found]
  | ok place =>
      cases place with
      | none =>
          right
          constructor
          · simp [HasFile, found]
          · simp only [attempted, discard_file, unlink, found]
      | some names =>
          -- The node that is found is the one with the path's own name.
          have same := ((findFile_name directory file.path single names).mp found).2.1
          left
          constructor
          · exact ⟨names, found⟩
          · simp only [discard_file, unlink, found, same]

/-- Discarding a blob takes its own file away, and no other. -/
theorem hasFile_discard (blob : Blob) (named : blob.Named) (path : Path) (isName : path.IsName)
    (directory : Directory) :
    (attempted blob.discard directory).HasFile path ↔
      directory.HasFile path ∧ ¬ blob.IsFileAt path := by
  cases blob with
  | inline blob =>
      have kept : attempted (Blob.inline blob).discard directory = directory := rfl
      rw [kept]
      simp [Blob.IsFileAt]
  | placeholder blob =>
      have kept : attempted (Blob.placeholder blob).discard directory = directory := rfl
      rw [kept]
      simp [Blob.IsFileAt]
  | file file =>
      have single := named file.path ⟨file.size, rfl⟩
      have isFileAt : (Blob.file file).IsFileAt path ↔ file.path = path := by
        constructor
        · rintro ⟨size, same⟩
          cases same
          rfl
        · intro same
          exact ⟨file.size, same ▸ rfl⟩
      rw [isFileAt]
      rcases discard_file_name file single directory with ⟨_, removed⟩ | ⟨absent, kept⟩
      · have left : attempted (Blob.file file).discard directory =
            directory.erase (directory.current ++ [file.path.bytes]) := by
          simp only [attempted, removed]
        have stays : (directory.erase (directory.current ++ [file.path.bytes])).current =
            directory.current := rfl
        rw [left, hasFile_name _ path isName, hasFile_name _ path isName, stays, kind?_erase]
        by_cases same : file.path = path
        · simp [same]
        · have apart : path.bytes ≠ file.path.bytes := by
            intro equal
            obtain ⟨bytes⟩ := path
            exact same (congrArg Path.mk equal.symm)
          simp [same, apart]
      · rw [kept]
        constructor
        · intro stored
          exact ⟨stored, fun same => absent (same ▸ stored)⟩
        · exact And.left

/-- The disposer goes on after a failure, so every file that was handed out is gone
in the end. -/
theorem hasFile_discards (blobs : List Blob) (named : ∀ blob ∈ blobs, blob.Named) (path : Path)
    (isName : path.IsName) (directory : Directory) :
    (discardAll directory blobs).HasFile path ↔
      directory.HasFile path ∧ ∀ blob ∈ blobs, ¬ blob.IsFileAt path := by
  induction blobs generalizing directory with
  | nil => simp [discardAll]
  | cons blob rest ih =>
      have namedRest : ∀ blob ∈ rest, blob.Named := fun other member =>
        named other (List.mem_cons_of_mem _ member)
      rw [discardAll, List.foldl_cons, ← discardAll, ih namedRest,
        hasFile_discard blob (named blob List.mem_cons_self) path isName]
      simp [and_assoc]

theorem attempted_forM_cons (blob : Blob) (rest : List Blob) (directory : Directory) :
    attempted ((blob :: rest).forM Blob.discard) directory =
      match blob.discard directory with
      | .ok _ left => attempted (rest.forM Blob.discard) left
      | .error _ left => left := by
  simp only [attempted, List.forM_eq_forM, List.forM_cons, bind, EStateM.bind]
  cases blob.discard directory <;> rfl

/-- Discards in order stop at a failure. What they leave out stays, and what they
do not name stays in any case. -/
theorem hasFile_forM (blobs : List Blob) (named : ∀ blob ∈ blobs, blob.Named) (path : Path)
    (isName : path.IsName) (directory : Directory) (stored : directory.HasFile path)
    (spared : ∀ blob ∈ blobs, ¬ blob.IsFileAt path) :
    (attempted (blobs.forM Blob.discard) directory).HasFile path := by
  -- Whichever discard fails and ends the sequence, the file was spared so far.
  induction blobs generalizing directory with
  | nil => exact stored
  | cons blob rest ih =>
      have kept := (hasFile_discard blob (named blob List.mem_cons_self) path isName
        directory).mpr ⟨stored, spared blob List.mem_cons_self⟩
      rw [attempted_forM_cons]
      simp only [attempted] at kept
      cases outcome : blob.discard directory with
      | ok _ left =>
          rw [outcome] at kept
          exact ih (fun other member => named other (List.mem_cons_of_mem _ member)) left kept
            fun other member => spared other (List.mem_cons_of_mem _ member)
      | error _ left =>
          rw [outcome] at kept
          exact kept

/-- Discards that all succeed take away exactly the files they name. -/
theorem hasFile_forM_ok (blobs : List Blob) (named : ∀ blob ∈ blobs, blob.Named) (path : Path)
    (isName : path.IsName) (directory left : Directory)
    (done : blobs.forM Blob.discard directory = .ok () left) :
    left.HasFile path ↔ directory.HasFile path ∧ ∀ blob ∈ blobs, ¬ blob.IsFileAt path := by
  induction blobs generalizing directory with
  | nil =>
      cases done
      simp
  | cons blob rest ih =>
      have one := hasFile_discard blob (named blob List.mem_cons_self) path isName directory
      simp only [List.forM_eq_forM, List.forM_cons, bind, EStateM.bind] at done
      simp only [attempted] at one
      cases outcome : blob.discard directory with
      | ok _ next =>
          rw [outcome] at done one
          rw [ih (fun other member => named other (List.mem_cons_of_mem _ member)) next done, one]
          simp [and_assoc]
      | error _ next =>
          rw [outcome] at done
          cases done

/-! Disposal at once. -/

namespace Disposal

theorem discardLogged_disposer (disposal : Disposal) (blob : Blob) :
    (disposal.discardLogged blob).disposer = disposal.disposer := by
  rw [discardLogged]
  cases blob.discard disposal.directory <;> rfl

theorem discardLogged_directory (disposal : Disposal) (blob : Blob) :
    (disposal.discardLogged blob).directory = attempted blob.discard disposal.directory := by
  rw [discardLogged, attempted]
  cases blob.discard disposal.directory <;> rfl

theorem apply_immediate (disposal : Disposal) (immediate : disposal.disposer = .immediate)
    (blob : Blob) : disposal.apply (.dispose blob) = disposal.discardLogged blob := by
  simp only [apply, dispose, immediate]

end Disposal

open Disposal

theorem settle_immediate (disposal : Disposal) (immediate : disposal.disposer = .immediate)
    (effects : List Effect) :
    (disposal.settle effects).disposer = .immediate ∧
      (disposal.settle effects).directory =
        discardAll disposal.directory (disposals effects) := by
  induction effects generalizing disposal with
  | nil => exact ⟨immediate, rfl⟩
  | cons effect rest ih =>
      cases effect with
      | report event => exact ih _ immediate
      | dispose blob =>
          have still := (discardLogged_disposer disposal blob).trans immediate
          have later := ih (disposal.discardLogged blob) still
          rw [discardLogged_directory] at later
          simp only [settle, List.foldl_cons, apply_immediate disposal immediate blob]
          exact later

theorem hasFile_settle (disposal : Disposal) (immediate : disposal.disposer = .immediate)
    (effects : List Effect) (named : ∀ blob ∈ disposals effects, blob.Named) (path : Path)
    (isName : path.IsName) :
    (disposal.settle effects).directory.HasFile path ↔
      disposal.directory.HasFile path ∧ ∀ blob ∈ disposals effects, ¬ blob.IsFileAt path := by
  rw [(settle_immediate disposal immediate effects).2]
  exact hasFile_discards (disposals effects) named path isName disposal.directory

end CheckpointLedger
