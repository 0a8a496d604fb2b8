import CheckpointLedger.Proofs.Storage.Removals

/-!
The paths of a file. From any place that a path has led to, a file is named by the names on the
way to it. So every file has an absolute path and paths that climb from the working directory to
the root first, and one from the working directory if it is below that.
-/

namespace CheckpointLedger

namespace Directory

/-- Below the place stands a regular file: the names that lead to it are those of directories
and, at last, its own. -/
structure Stands (directory : Directory) (place way : List Name) (final : Name) : Prop where
  admissible : ∀ name ∈ way ++ [final], Admissible name
  opened : ∀ before, before <+: way → before ≠ [] →
    directory.kind? (place ++ before) = some .directory
  isFile : directory.kind? (place ++ way ++ [final]) = some .file

variable {directory : Directory}

theorem walk_append (place lead way reached : List Name)
    (led : directory.walk place lead = .ok (some reached)) :
    directory.walk place (lead ++ way) = directory.walk reached way := by
  induction lead generalizing place with
  | nil =>
      cases led
      rfl
  | cons segment rest ih =>
      obtain ⟨next, entered, onward⟩ := (walk_cons directory place reached segment rest).mp led
      rw [List.cons_append, walk, entered]
      exact ih next onward

/-- The names of directories lead down to them. -/
theorem walk_down (place way : List Name) (admissible : ∀ name ∈ way, Admissible name)
    (opened : ∀ before, before <+: way → before ≠ [] →
      directory.kind? (place ++ before) = some .directory) :
    directory.walk place way = .ok (some (place ++ way)) := by
  induction way generalizing place with
  | nil => simp [walk]
  | cons name rest ih =>
      obtain ⟨first, others⟩ := List.forall_mem_cons.mp admissible
      have there := opened [name] ⟨rest, rfl⟩ (by simp)
      have held := (entry_iff directory place name .directory).mpr ⟨first.2.2.1, there⟩
      have entered : directory.enter place name = .ok (some (place ++ [name])) := by
        rw [enter, if_neg (not_isMove first), held, step_name place name (not_isMove first)]
      have below : ∀ before, before <+: rest → before ≠ [] →
          directory.kind? (place ++ [name] ++ before) = some .directory := by
        intro before ahead _
        simpa using opened (name :: before) ((List.prefix_cons_inj name).mpr ahead) (by simp)
      exact (walk_cons ..).mpr ⟨_, entered, by simpa using ih (place ++ [name]) others below⟩

/-- A path that leads up often enough is at the root, and stays there. -/
theorem walk_up (place : List Name) (steps : Nat) (enough : place.length ≤ steps) :
    directory.walk place (List.replicate steps Path.parent) = .ok (some []) := by
  induction steps generalizing place with
  | zero =>
      rw [List.length_eq_zero_iff.mp (Nat.le_zero.mp enough)]
      rfl
  | succ steps ih =>
      have entered : directory.enter place Path.parent = .ok (some place.dropLast) := by
        simp [enter, IsMove, step, Path.parent, Path.here]
      have above : place.dropLast.length ≤ steps := by
        rw [List.length_dropLast]
        omega
      rw [List.replicate_succ]
      exact (walk_cons ..).mpr ⟨_, entered, ih place.dropLast above⟩

section Spellings

variable {path : Path} {place way : List Name} {final : Name}
  (short : path.bytes.length ≤ longestPath)
include short

/-- From wherever the path has led, the names on the way to a file lead to it. -/
theorem findFile_along (stands : directory.Stands place way final) (lead : List Name)
    (segments : path.segments = lead ++ way ++ [final]) (nulFree : ∀ segment ∈ lead, 0 ∉ segment)
    (led : directory.walk (directory.start path) lead = .ok (some place)) :
    directory.findFile path = .ok (some (place ++ way ++ [final])) := by
  have own := stands.admissible final (by simp)
  have proper := not_isMove own
  have clear : 0 ∉ path.bytes := by
    rw [← Path.join_splitSlash path.bytes]
    apply Path.nul_not_mem_join
    intro segment member
    rw [← Path.segments, segments, List.append_assoc, List.mem_append] at member
    rcases member with before | after
    · exact nulFree segment before
    · exact (stands.admissible segment after).1
  have walked : directory.walk (directory.start path) (lead ++ way) =
      .ok (some (place ++ way)) := by
    rw [walk_append _ lead way place led]
    exact walk_down place way
      (fun name member => stands.admissible name (List.mem_append_left _ member)) stands.opened
  exact (findFile_iff directory path _).mpr
    ⟨⟨clear, Path.bytes_final segments own.2.1, short⟩,
      lead ++ way, final, place ++ way, Path.split?_final segments own.2.1, walked, proper,
      (entry_iff directory _ final .file).mpr ⟨own.2.2.1, stands.isFile⟩,
      Path.endsInSlash_final segments own.2.1, step_name _ final proper⟩

theorem findFile_absolute (stands : directory.Stands [] way final)
    (segments : path.segments = [] :: way ++ [final]) :
    directory.findFile path = .ok (some (way ++ [final])) := by
  have written := Path.bytes_final segments (stands.admissible final (by simp)).2.1
  have first : path.segments.head? = some [] := by rw [segments]; rfl
  have root : directory.start path = [] := by
    rw [start, if_pos (((Path.segments_head path).mp first).resolve_left written)]
  refine findFile_along short stands [[]] segments (by simp) ?_
  rw [root]
  rfl

theorem findFile_relative (stands : directory.Stands directory.current way final)
    (segments : path.segments = way ++ [final]) :
    directory.findFile path = .ok (some (directory.current ++ way ++ [final])) := by
  have started : directory.start path = directory.current :=
    start_relative directory path fun segment member =>
      (stands.admissible segment (segments ▸ member)).2.1
  refine findFile_along short stands [] segments (by simp) ?_
  rw [started]
  rfl

/-- A path may climb further than the working directory is deep: above the root is the root. -/
theorem findFile_climbing (stands : directory.Stands [] way final) (steps : Nat)
    (enough : directory.current.length ≤ steps)
    (segments : path.segments = List.replicate steps Path.parent ++ way ++ [final]) :
    directory.findFile path = .ok (some (way ++ [final])) := by
  have climbing : ∀ segment ∈ List.replicate steps Path.parent, 0 ∉ segment ∧ segment ≠ [] := by
    intro segment member
    rw [List.eq_of_mem_replicate member]
    decide
  have started : directory.start path = directory.current := by
    apply start_relative
    intro segment member
    rw [segments, List.append_assoc, List.mem_append] at member
    rcases member with up | down
    · exact (climbing segment up).2
    · exact (stands.admissible segment down).2.1
  refine findFile_along short stands _ segments (fun segment up => (climbing segment up).1) ?_
  rw [started]
  exact walk_up directory.current steps enough

example : ((∅ : Directory).create (.ofText "../tmp/x")).findFile (.ofText "/tmp/x") =
    .ok (some [Utf8.encode "tmp", Utf8.encode "x"]) := by decide +kernel

end Spellings

end Directory

end CheckpointLedger
