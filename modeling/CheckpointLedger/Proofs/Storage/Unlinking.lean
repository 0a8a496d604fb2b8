import CheckpointLedger.Proofs.Storage.Removals

/-!
Removing the files that a list of paths names, one after the other, up to the first failure.
Whatever a tree has lost, a path that cannot be removed from it could not be removed before,
for the same reason; and it names a file exactly if it named it before and the file is still
there. So the tree at any point is the first one without the files that the paths so far
named in it, and a second round meets what the first one left behind.
-/

namespace CheckpointLedger

namespace Directory

/-! Failures are never new: they come from what is still there. -/

theorem entry_fault (directory : Directory) (place : List Name) (name : Name)
    (fault : UnlinkFault) :
    directory.entry place name = .error fault ↔
      longestName < name.length ∧ fault = .nameTooLong := by
  by_cases long : longestName < name.length
  · simp [entry, long, eq_comm]
  · simp [entry, long]

section Within

variable {smaller larger : Directory} (within : smaller.Within larger)
include within

theorem entry_within (place : List Name) (name : Name) (kind : NodeKind)
    (there : smaller.entry place name = .ok (some kind)) :
    larger.entry place name = .ok (some kind) := by
  obtain ⟨short, found⟩ := (entry_iff smaller place name kind).mp there
  exact (entry_iff larger place name kind).mpr ⟨short, within.nodes _ _ found⟩

theorem enter_fault (place : List Name) (segment : Name) (fault : UnlinkFault)
    (failed : smaller.enter place segment = .error fault) :
    larger.enter place segment = .error fault := by
  rw [enter] at failed ⊢
  split at failed
  · cases failed
  rename_i proper
  rw [if_neg proper]
  split at failed
  · rename_i found
    cases failed
    have long := (entry_fault smaller place segment _).mp found
    rw [(entry_fault larger place segment _).mpr long]
  · cases failed
  · cases failed
  · rename_i found
    rw [entry_within within place segment _ found]
    exact failed

theorem walk_fault (segments place : List Name) (fault : UnlinkFault)
    (failed : smaller.walk place segments = .error fault) :
    larger.walk place segments = .error fault := by
  induction segments generalizing place with
  | nil => cases failed
  | cons segment rest ih =>
      rw [walk] at failed ⊢
      cases entered : smaller.enter place segment with
      | error stopped =>
          rw [entered] at failed
          rw [enter_fault within place segment stopped entered]
          exact failed
      | ok next =>
          cases next with
          | none => simp [entered] at failed
          | some next =>
              rw [entered] at failed
              have kept :=
                enter_kept (fun names => within.nodes names .directory) place next segment entered
              rw [kept]
              exact ih next failed

/-- What cannot be removed from the smaller tree cannot be removed from the larger. -/
theorem findFile_fault (path : Path) (fault : UnlinkFault)
    (failed : smaller.findFile path = .error fault) : larger.findFile path = .error fault := by
  rw [findFile] at failed ⊢
  split at failed
  · rename_i nul
    rw [if_pos nul]
    exact failed
  rename_i noNul
  rw [if_neg noNul]
  split at failed
  · cases failed
  rename_i written
  rw [if_neg written]
  split at failed
  · rename_i long
    rw [if_pos long]
    exact failed
  rename_i short
  rw [if_neg short]
  split at failed
  · exact failed
  rename_i way final _
  have started : smaller.start path = larger.start path := by simp only [start, within.current]
  rw [started] at failed
  split at failed
  · rename_i stopped walked
    rw [walk_fault within _ _ stopped walked]
    exact failed
  · cases failed
  rename_i place walked
  rw [walk_kept (fun names => within.nodes names .directory) _ _ place walked]
  -- Both trees are left at the same place: what stands there decides.
  split at failed
  · rename_i dotted
    simp only [if_pos dotted]
    exact failed
  rename_i proper
  simp only [if_neg proper]
  split at failed
  · rename_i stopped found
    rw [(entry_fault larger place final stopped).mpr
      ((entry_fault smaller place final stopped).mp found)]
    exact failed
  · cases failed
  · rename_i found
    rw [entry_within within place final _ found]
    exact failed
  · rename_i found
    rw [entry_within within place final _ found]
    exact failed

theorem unlink_fault (path : Path) (fault : UnlinkFault)
    (failed : smaller.unlink path = .error fault) : larger.unlink path = .error fault := by
  rw [unlink] at failed ⊢
  split at failed
  · rename_i stopped found
    rw [findFile_fault within path stopped found]
    exact failed
  · cases failed
  · cases failed

end Within

/-! The tree without the files that some paths name. -/

/-- The tree without the regular files that the paths name. -/
def without (directory : Directory) (paths : List Path) : Directory :=
  directory.retain fun names => decide (∀ path ∈ paths, directory.findFile path ≠ .ok (some names))

section Without

variable (directory : Directory) (paths : List Path)

theorem kind?_without (names : List Name) :
    (directory.without paths).kind? names =
      if ∀ path ∈ paths, directory.findFile path ≠ .ok (some names) then directory.kind? names
      else none := by
  rw [without, kind?_retain]
  simp only [decide_eq_true_eq]

theorem without_within : (directory.without paths).Within directory :=
  within_retain directory _

/-- A path names a file afterwards exactly if it named it before and the file is still there. -/
theorem findFile_without (path : Path) (names : List Name) :
    (directory.without paths).findFile path = .ok (some names) ↔
      directory.findFile path = .ok (some names) ∧
        ∀ other ∈ paths, directory.findFile other ≠ .ok (some names) := by
  -- The paths name files only, so all directories are still there.
  have spared : ∀ others, directory.kind? others = some .directory →
      decide (∀ path ∈ paths, directory.findFile path ≠ .ok (some others)) = true := by
    intro others isDirectory
    apply decide_eq_true
    intro other _ named
    rw [findFile_kind directory other others named] at isDirectory
    cases isDirectory
  rw [without, findFile_retain directory _ spared, decide_eq_true_eq]

theorem without_unnamed
    (unnamed : ∀ path ∈ paths, ∀ names, directory.findFile path ≠ .ok (some names)) :
    directory.without paths = directory := by
  have spared : ∀ node ∈ directory.nodes,
      decide (∀ path ∈ paths, directory.findFile path ≠ .ok (some node.1)) = true :=
    fun node _ => decide_eq_true fun path member => unnamed path member node.1
  rw [without, retain, List.filter_eq_self.mpr spared]

/-- A file is gone exactly if some path names it. -/
theorem gone_iff (path : Path) (names : List Name)
    (found : directory.findFile path = .ok (some names)) :
    (directory.without paths).kind? names = none ↔
      ∃ other ∈ paths, directory.findFile other = .ok (some names) := by
  rw [kind?_without, findFile_kind directory path names found]
  split
  · rename_i spared
    simpa using spared
  · rename_i named
    simpa using named

@[simp] theorem without_nil : directory.without [] = directory :=
  without_unnamed directory [] fun _ member => nomatch member

theorem without_without (more : List Path) :
    (directory.without paths).without more = directory.without (paths ++ more) := by
  have both : ∀ names,
      (decide (∀ path ∈ more, (directory.without paths).findFile path ≠ .ok (some names)) &&
        decide (∀ path ∈ paths, directory.findFile path ≠ .ok (some names))) =
      decide (∀ path ∈ paths ++ more, directory.findFile path ≠ .ok (some names)) := by
    intro names
    rw [← Bool.decide_and, decide_eq_decide, List.forall_mem_append, and_comm]
    -- A file that is spared by the first paths is named by the others as before.
    apply and_congr_right
    intro spared
    apply forall₂_congr
    intro path _
    exact not_congr ((findFile_without directory paths path names).trans (and_iff_left spared))
  exact (retain_retain directory _ _).trans (congrArg directory.retain (funext both))

theorem without_congr {others : List Path} (same : ∀ path, path ∈ paths ↔ path ∈ others) :
    directory.without paths = directory.without others := by
  simp only [without, same]

/-- Removing a file is removing what its path names, unless it fails. -/
theorem unlink_eq (path : Path) :
    directory.unlink path = (directory.findFile path).map fun _ => directory.without [path] := by
  rw [unlink]
  cases found : directory.findFile path with
  | error fault => rfl
  | ok place =>
      cases place with
      | none =>
          have unnamed := without_unnamed directory [path]
            (List.forall_mem_singleton.mpr fun names => by simp [found])
          simp only [Except.map, unnamed]
      | some names =>
          simp only [Except.map, erase, without, List.forall_mem_singleton, found, ne_eq,
            Except.ok.injEq, Option.some.injEq, eq_comm]

end Without

theorem without_again (directory : Directory) (paths : List Path) :
    (directory.without paths).without paths = directory.without paths := by
  rw [without_without]
  exact without_congr directory _ fun path => by simp

theorem without_comm (directory : Directory) (paths more : List Path) :
    (directory.without paths).without more = (directory.without more).without paths := by
  rw [without_without, without_without]
  exact without_congr directory _ fun path => by simp only [List.mem_append, or_comm]

/-- The removal does not fail; the file may be missing. -/
def Passes (directory : Directory) (path : Path) : Prop :=
  ∃ left, directory.unlink path = .ok left

theorem passes_unlink (directory : Directory) (path : Path) (passes : directory.Passes path) :
    directory.unlink path = .ok (directory.without [path]) := by
  obtain ⟨left, made⟩ := passes
  rw [unlink_eq] at made ⊢
  cases found : directory.findFile path with
  | error fault => simp [found, Except.map] at made
  | ok place => rfl

theorem not_fails_of_findFile (directory : Directory) (path : Path) (place : Option (List Name))
    (fault : UnlinkFault) (found : directory.findFile path = .ok place) :
    directory.unlink path ≠ .error fault := by
  rw [unlink_eq, found]
  exact nofun

theorem passes_or_fails (directory : Directory) (path : Path) :
    directory.Passes path ∨ ∃ fault, directory.unlink path = .error fault := by
  cases made : directory.unlink path with
  | ok left => exact Or.inl ⟨left, made⟩
  | error fault => exact Or.inr ⟨fault, rfl⟩

theorem passes_within {smaller larger : Directory} (within : smaller.Within larger) (path : Path)
    (passes : larger.Passes path) : smaller.Passes path := by
  rcases passes_or_fails smaller path with made | ⟨fault, failed⟩
  · exact made
  · obtain ⟨left, made⟩ := passes
    rw [unlink_fault within path fault failed] at made
    cases made

/-! Removals in a row. -/

/-- None of the removals fails when they are made one after the other. -/
def Clears (directory : Directory) (paths : List Path) : Prop :=
  ∀ earlier path later, paths = earlier ++ path :: later → (directory.without earlier).Passes path

/-- The removals come to a stop: those so far are made, and the next one fails. -/
structure Stops (directory : Directory) (paths earlier : List Path) (failure : DiscardFailure)
    (later : List Path) : Prop where
  split : paths = earlier ++ failure.path :: later
  made : directory.Clears earlier
  fails : (directory.without earlier).unlink failure.path = .error failure.fault

theorem clears_nil (directory : Directory) : directory.Clears [] := by
  intro earlier path later split
  simp at split

theorem clears_cons (directory : Directory) (path : Path) (rest : List Path) :
    directory.Clears (path :: rest) ↔
      directory.Passes path ∧ (directory.without [path]).Clears rest := by
  constructor
  · intro clears
    constructor
    · simpa using clears [] path rest rfl
    · intro earlier other later split
      rw [without_without]
      exact clears (path :: earlier) other later (congrArg (path :: ·) split)
  · rintro ⟨passes, clears⟩ earlier other later split
    cases earlier with
    | nil =>
        obtain ⟨rfl, _⟩ := List.cons_eq_cons.mp split
        rw [without_nil]
        exact passes
    | cons first earlier =>
        obtain ⟨rfl, tail⟩ := List.cons_eq_cons.mp split
        have still := clears earlier other later tail
        rw [without_without] at still
        exact still

theorem stops_cons (directory : Directory) (path : Path) (rest earlier later : List Path)
    (failure : DiscardFailure) (passes : directory.Passes path)
    (stops : (directory.without [path]).Stops rest earlier failure later) :
    directory.Stops (path :: rest) (path :: earlier) failure later where
  split := congrArg (path :: ·) stops.split
  made := (clears_cons directory path earlier).mpr ⟨passes, stops.made⟩
  fails := by
    have fails := stops.fails
    rw [without_without] at fails
    exact fails

theorem clears_or_stops (directory : Directory) (paths : List Path) :
    directory.Clears paths ∨
      ∃ earlier failure later, directory.Stops paths earlier failure later := by
  induction paths generalizing directory with
  | nil => exact Or.inl (clears_nil directory)
  | cons path rest ih =>
      rcases passes_or_fails directory path with passes | ⟨fault, failed⟩
      · rcases ih (directory.without [path]) with clears | ⟨earlier, failure, later, stops⟩
        · exact Or.inl ((clears_cons directory path rest).mpr ⟨passes, clears⟩)
        · exact Or.inr ⟨path :: earlier, failure, later,
            stops_cons directory path rest earlier later failure passes stops⟩
      · refine Or.inr ⟨[], ⟨path, fault⟩, rest, rfl, clears_nil directory, ?_⟩
        rw [without_nil]
        exact failed

theorem stops_not_clears (directory : Directory) (paths earlier later : List Path)
    (failure : DiscardFailure) (stops : directory.Stops paths earlier failure later) :
    ¬ directory.Clears paths := by
  intro clears
  obtain ⟨left, made⟩ := clears earlier failure.path later stops.split
  rw [stops.fails] at made
  cases made

/-- The paths up to the first failure. -/
def cleared : Directory → List Path → List Path
  | _, [] => []
  | directory, path :: rest => match directory.unlink path with
      | .ok left => path :: cleared left rest
      | .error _ => []

theorem cleared_append (directory : Directory) (paths more : List Path)
    (clears : directory.Clears paths) :
    directory.cleared (paths ++ more) = paths ++ (directory.without paths).cleared more := by
  induction paths generalizing directory with
  | nil => rw [without_nil]; rfl
  | cons path rest ih =>
      obtain ⟨passes, clears⟩ := (clears_cons directory path rest).mp clears
      have tail := ih (directory.without [path]) clears
      rw [without_without] at tail
      simp only [List.cons_append, cleared, passes_unlink directory path passes]
      exact congrArg (path :: ·) tail

theorem cleared_of_clears (directory : Directory) (paths : List Path)
    (clears : directory.Clears paths) : directory.cleared paths = paths := by
  have all := cleared_append directory paths [] clears
  simpa [cleared] using all

theorem cleared_of_stops (directory : Directory) (paths earlier later : List Path)
    (failure : DiscardFailure) (stops : directory.Stops paths earlier failure later) :
    directory.cleared paths = earlier := by
  rw [stops.split, cleared_append directory earlier _ stops.made]
  simp [cleared, stops.fails]

/-! A second round finds what the first one left. -/

/-- What has been lost since blocks no removal. -/
theorem clears_without (directory : Directory) (paths more : List Path)
    (clears : directory.Clears paths) : (directory.without more).Clears paths := by
  intro earlier path later split
  rw [without_comm]
  exact passes_within (without_within _ more) path (clears earlier path later split)

theorem stops_again (directory : Directory) (paths earlier later : List Path)
    (failure : DiscardFailure) (stops : directory.Stops paths earlier failure later) :
    (directory.without earlier).Stops paths earlier failure later where
  split := stops.split
  made := clears_without directory earlier earlier stops.made
  fails := by
    rw [without_again]
    exact stops.fails

end Directory

open Directory

/-! Discards of paths, which stop at a failure. -/

/-- Removes the file that the path names. -/
def Path.discard (path : Path) : Discard := fun directory =>
  match directory.unlink path with
  | .ok smaller => .ok () smaller
  | .error fault => .error ⟨path, fault⟩ directory

theorem discard_passes (path : Path) (directory : Directory) (passes : directory.Passes path) :
    path.discard directory = .ok () (directory.without [path]) := by
  simp only [Path.discard, passes_unlink directory path passes]

theorem forM_clears (paths : List Path) (directory : Directory) (clears : directory.Clears paths) :
    paths.forM Path.discard directory = .ok () (directory.without paths) := by
  induction paths generalizing directory with
  | nil => rw [without_nil]; rfl
  | cons path rest ih =>
      obtain ⟨passes, clears⟩ := (clears_cons directory path rest).mp clears
      have tail := ih (directory.without [path]) clears
      rw [without_without] at tail
      simp only [List.forM_eq_forM, List.forM_cons, bind, EStateM.bind,
        discard_passes path directory passes] at tail ⊢
      exact tail

theorem forM_stops (paths earlier later : List Path) (failure : DiscardFailure)
    (directory : Directory) (stops : directory.Stops paths earlier failure later) :
    paths.forM Path.discard directory = .error failure (directory.without earlier) := by
  have made := forM_clears earlier directory stops.made
  rw [stops.split]
  simp only [List.forM_eq_forM, List.forM_append, List.forM_cons, bind, EStateM.bind] at made ⊢
  simp only [made, Path.discard, stops.fails]

theorem attempted_forM (paths : List Path) (directory : Directory) :
    attempted (paths.forM Path.discard) directory =
      directory.without (directory.cleared paths) := by
  rcases clears_or_stops directory paths with clears | ⟨earlier, failure, later, stops⟩
  · rw [cleared_of_clears directory paths clears]
    simp only [attempted, forM_clears paths directory clears]
  · rw [cleared_of_stops directory paths earlier later failure stops]
    simp only [attempted, forM_stops paths earlier later failure directory stops]

/-- After a first round, whatever came of it, a second one ends the same way and changes
nothing. -/
theorem forM_again (paths : List Path) (directory : Directory) :
    paths.forM Path.discard (attempted (paths.forM Path.discard) directory) =
      paths.forM Path.discard directory := by
  rw [attempted_forM]
  rcases clears_or_stops directory paths with clears | ⟨earlier, failure, later, stops⟩
  · have again := clears_without directory paths paths clears
    rw [cleared_of_clears directory paths clears, forM_clears paths directory clears,
      forM_clears paths _ again, without_again]
  · have again := stops_again directory paths earlier later failure stops
    rw [cleared_of_stops directory paths earlier later failure stops,
      forM_stops paths earlier later failure directory stops,
      forM_stops paths earlier later failure _ again, without_again]

/-! Blobs come down to the paths of those that are files. -/

def Blob.path? : Blob → Option Path
  | .file stored => some stored.path
  | .inline _ | .placeholder _ => none

def filePaths (blobs : List Blob) : List Path := blobs.filterMap Blob.path?

theorem filePaths_flatMap {α : Type} (parts : List α) (blobs : α → List Blob) :
    filePaths (parts.flatMap blobs) = parts.flatMap fun part => filePaths (blobs part) :=
  List.filterMap_flatMap

theorem forM_filePaths (blobs : List Blob) :
    blobs.forM Blob.discard = (filePaths blobs).forM Path.discard := by
  simp only [filePaths, List.forM_eq_forM]
  induction blobs with
  | nil => rfl
  | cons blob rest ih =>
      rw [List.forM_cons, ih]
      cases blob with
      | inline stored => rfl
      | placeholder stored => rfl
      | file stored => rfl

end CheckpointLedger
