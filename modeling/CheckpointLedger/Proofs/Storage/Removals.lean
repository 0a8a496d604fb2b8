import CheckpointLedger.Proofs.Storage.Discards

/-!
What removals can take from a directory tree, for paths of any form. A removal takes one
node at most, the one that its path names, and brings none back: a path that names a
file afterwards named it before. Hence a sequence of discards takes only nodes that its
blobs named in the first place.
-/

namespace CheckpointLedger

namespace Directory

/-- Nothing is in the smaller tree that was not in the larger, and the working directory is the
same. -/
structure Within (smaller larger : Directory) : Prop where
  current : smaller.current = larger.current
  nodes : ∀ names kind, smaller.kind? names = some kind → larger.kind? names = some kind

theorem within_refl (directory : Directory) : directory.Within directory :=
  ⟨rfl, fun _ _ found => found⟩

theorem within_trans {first second third : Directory} (inner : first.Within second)
    (outer : second.Within third) : first.Within third where
  current := inner.current.trans outer.current
  nodes names kind found := outer.nodes names kind (inner.nodes names kind found)

theorem within_retain (directory : Directory) (keep : List Name → Bool) :
    (directory.retain keep).Within directory where
  current := rfl
  nodes other kind found := by
    rw [kind?_retain] at found
    split at found
    · exact found
    · cases found

theorem within_erase (directory : Directory) (names : List Name) :
    (directory.erase names).Within directory :=
  within_retain directory _

/-- A path that names something names a regular file. -/
theorem findFile_kind (directory : Directory) (path : Path) (names : List Name)
    (found : directory.findFile path = .ok (some names)) : directory.kind? names = some .file := by
  obtain ⟨_, _, final, place, _, _, proper, there, _, rfl⟩ :=
    (findFile_iff directory path names).mp found
  rw [step_name place final proper]
  exact ((entry_iff directory place final .file).mp there).2

theorem walk_cons (directory : Directory) (place reached : List Name) (segment : Name)
    (rest : List Name) :
    directory.walk place (segment :: rest) = .ok (some reached) ↔
      ∃ next, directory.enter place segment = .ok (some next) ∧
        directory.walk next rest = .ok (some reached) := by
  rw [walk]
  rcases directory.enter place segment with fault | _ | next <;> simp

/-! Ways lead through directories only, so they stay open as long as these are there. -/

section Kept

variable {first second : Directory}
  (kept : ∀ names, first.kind? names = some .directory → second.kind? names = some .directory)
include kept

theorem enter_kept (place next : List Name) (segment : Name)
    (entered : first.enter place segment = .ok (some next)) :
    second.enter place segment = .ok (some next) := by
  rw [enter] at entered ⊢
  split at entered
  · rename_i moves
    rw [if_pos moves]
    exact entered
  · rename_i proper
    rw [if_neg proper]
    -- Of the ways on, only one through a directory leads anywhere.
    cases found : first.entry place segment with
    | error fault => simp [found] at entered
    | ok node =>
        match node with
        | none => simp [found] at entered
        | some .file => simp [found] at entered
        | some .directory =>
            obtain ⟨short, there⟩ := (entry_iff first place segment .directory).mp found
            have still := (entry_iff second place segment .directory).mpr ⟨short, kept _ there⟩
            rw [still]
            rw [found] at entered
            exact entered

theorem walk_kept (segments : List Name) (place reached : List Name)
    (walked : first.walk place segments = .ok (some reached)) :
    second.walk place segments = .ok (some reached) := by
  induction segments generalizing place with
  | nil => exact walked
  | cons segment rest ih =>
      obtain ⟨next, entered, onward⟩ := (walk_cons first place reached segment rest).mp walked
      exact (walk_cons second place reached segment rest).mpr
        ⟨next, enter_kept kept place next segment entered, ih next onward⟩

/-- A path that names a file names it as long as the file is there, and the directories. -/
theorem findFile_kept (same : first.current = second.current) (path : Path) (names : List Name)
    (isFile : second.kind? names = some .file)
    (found : first.findFile path = .ok (some names)) :
    second.findFile path = .ok (some names) := by
  obtain ⟨readable, way, final, place, split, walked, proper, there, bare, rfl⟩ :=
    (findFile_iff first path names).mp found
  have started : first.start path = second.start path := by simp only [start, same]
  rw [started] at walked
  rw [step_name place final proper] at isFile
  obtain ⟨short, _⟩ := (entry_iff first place final .file).mp there
  have still := (entry_iff second place final .file).mpr ⟨short, isFile⟩
  exact (findFile_iff second path _).mpr ⟨readable, way, final, place, split,
    walk_kept kept _ _ place walked, proper, still, bare, rfl⟩

end Kept

/-- A path that names a file in the smaller tree names the same one in the larger. -/
theorem findFile_within {smaller larger : Directory} (within : smaller.Within larger)
    (path : Path) (names : List Name) (found : smaller.findFile path = .ok (some names)) :
    larger.findFile path = .ok (some names) :=
  findFile_kept (fun others => within.nodes others .directory) within.current path names
    (within.nodes names .file (findFile_kind smaller path names found)) found

/-- Where only files are dropped, paths name the files that they named, as far as these are
still there. -/
theorem findFile_retain (directory : Directory) (keep : List Name → Bool)
    (spared : ∀ names, directory.kind? names = some .directory → keep names = true)
    (path : Path) (names : List Name) :
    (directory.retain keep).findFile path = .ok (some names) ↔
      directory.findFile path = .ok (some names) ∧ keep names = true := by
  constructor
  · intro found
    refine ⟨findFile_within (within_retain directory keep) path names found, ?_⟩
    have there := findFile_kind _ path names found
    rw [kind?_retain] at there
    split at there
    · assumption
    · cases there
  · rintro ⟨found, kept⟩
    have directories : ∀ others, directory.kind? others = some .directory →
        (directory.retain keep).kind? others = some .directory := by
      intro others isDirectory
      rw [kind?_retain, if_pos (spared others isDirectory), isDirectory]
    apply findFile_kept directories rfl path names _ found
    rw [kind?_retain, if_pos kept]
    exact findFile_kind directory path names found

end Directory

open Directory

/-- A discard removes nothing, or the one node that the blob's path names. -/
theorem attempted_discard (blob : Blob) (directory : Directory) :
    attempted blob.discard directory = directory ∨
      ∃ file names, blob = .file file ∧ directory.findFile file.path = .ok (some names) ∧
        attempted blob.discard directory = directory.erase names := by
  cases blob with
  | inline blob => exact Or.inl rfl
  | placeholder blob => exact Or.inl rfl
  | file file =>
      cases found : directory.findFile file.path with
      | error fault => exact Or.inl (by simp only [attempted, discard_file, unlink, found])
      | ok place =>
          cases place with
          | none => exact Or.inl (by simp only [attempted, discard_file, unlink, found])
          | some names =>
              exact Or.inr ⟨file, names, rfl, found,
                by simp only [attempted, discard_file, unlink, found]⟩

theorem discard_within (blob : Blob) (directory : Directory) :
    (attempted blob.discard directory).Within directory := by
  rcases attempted_discard blob directory with kept | ⟨_, names, _, _, removed⟩
  · rw [kept]
    exact within_refl directory
  · rw [removed]
    exact within_erase directory names

theorem discard_removed (blob : Blob) (directory : Directory) (node : List Name × NodeKind)
    (there : node ∈ directory.nodes) (gone : node ∉ (attempted blob.discard directory).nodes) :
    ∃ file, blob = .file file ∧ directory.findFile file.path = .ok (some node.1) := by
  rcases attempted_discard blob directory with kept | ⟨file, names, isFile, found, removed⟩
  · rw [kept] at gone
    exact absurd there gone
  · have same : node.1 = names := by
      by_contra apart
      rw [removed] at gone
      exact gone (List.mem_filter.mpr ⟨there, by simpa using apart⟩)
    exact ⟨file, isFile, same ▸ found⟩

/-- The tree that is left, and the nodes that are not: the blobs named them. -/
structure Removes (blobs : List Blob) (before after : Directory) : Prop where
  within : after.Within before
  named : ∀ node ∈ before.nodes, node ∉ after.nodes →
    ∃ file, .file file ∈ blobs ∧ before.findFile file.path = .ok (some node.1)

theorem removes_nothing (blobs : List Blob) (directory : Directory) :
    Removes blobs directory directory :=
  ⟨within_refl directory, fun _ there gone => absurd there gone⟩

theorem removes_trans {blobs more : List Blob} {before middle after : Directory}
    (first : Removes blobs before middle) (second : Removes more middle after) :
    Removes (blobs ++ more) before after where
  within := within_trans second.within first.within
  named node there gone := by
    by_cases survives : node ∈ middle.nodes
    · obtain ⟨file, member, found⟩ := second.named node survives gone
      exact ⟨file, List.mem_append_right blobs member,
        findFile_within first.within file.path node.1 found⟩
    · obtain ⟨file, member, found⟩ := first.named node there survives
      exact ⟨file, List.mem_append_left more member, found⟩

theorem discard_removes (blob : Blob) (directory : Directory) :
    Removes [blob] directory (attempted blob.discard directory) where
  within := discard_within blob directory
  named node there gone := by
    obtain ⟨file, isFile, found⟩ := discard_removed blob directory node there gone
    exact ⟨file, List.mem_singleton.mpr isFile.symm, found⟩

/-- Discards in order, which may stop at a failure, remove only what they name. -/
theorem forM_removes (blobs : List Blob) (directory : Directory) :
    Removes blobs directory (attempted (blobs.forM Blob.discard) directory) := by
  induction blobs generalizing directory with
  | nil => exact removes_nothing [] directory
  | cons blob rest ih =>
      have first := discard_removes blob directory
      rw [attempted_forM_cons]
      simp only [attempted] at first
      cases outcome : blob.discard directory with
      | ok _ left =>
          rw [outcome] at first
          exact removes_trans first (ih left)
      | error _ left =>
          rw [outcome] at first
          exact removes_trans first (removes_nothing rest left)

end CheckpointLedger
