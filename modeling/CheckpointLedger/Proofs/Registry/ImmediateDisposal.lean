import CheckpointLedger.Proofs.Registry.Run
import CheckpointLedger.Proofs.Storage.Unlinking
import Mathlib.Data.List.Infix

/-!
Releases that discard at once. The entries are gone from the registry before the first discard
is made, and a discard that fails is only reported. So the order in which the entries come up
decides which discards fail, but neither what the registry keeps nor which files are left.
-/

namespace CheckpointLedger

open Directory

/-- What is reported when the blob is discarded from the tree and that fails. -/
def Blob.warning? (blob : Blob) (directory : Directory) : Option Event :=
  match blob.discard directory with
  | .ok _ _ => none
  | .error failure _ => some (.disposalFailed blob.physicalId failure)

/-- The failed discards of a row. Each is made in the tree without the files of the blobs before
it, whether their own discards failed or not. -/
def disposalWarnings (directory : Directory) (blobs : List Blob) : List Event :=
  (blobs.zip blobs.inits).filterMap fun (blob, earlier) =>
    blob.warning? (directory.without (filePaths earlier))

theorem filePaths_cons (blob : Blob) (rest : List Blob) :
    filePaths (blob :: rest) = filePaths [blob] ++ filePaths rest :=
  List.filterMap_append (l := [blob])

theorem disposalWarnings_cons (directory : Directory) (blob : Blob) (rest : List Blob) :
    disposalWarnings directory (blob :: rest) = (blob.warning? directory).toList ++
      disposalWarnings (directory.without (filePaths [blob])) rest := by
  have later : ∀ earlier, (directory.without (filePaths [blob])).without (filePaths earlier) =
      directory.without (filePaths (blob :: earlier)) := by
    intro earlier
    rw [without_without, filePaths_cons blob earlier]
  have first : directory.without (filePaths []) = directory := without_nil directory
  simp only [disposalWarnings, List.inits_cons, List.zip_cons_cons, List.zip_map_right,
    List.filterMap_cons, List.filterMap_map, Function.comp_def, Prod.map, id, first, later]
  cases blob.warning? directory <;> rfl

namespace Disposal

variable (disposal : Disposal)

/-- A discard takes the file away that the blob names, or it is reported and there is none. -/
theorem discardLogged_eq (blob : Blob) :
    disposal.discardLogged blob = { disposal with
      directory := disposal.directory.without (filePaths [blob])
      log := disposal.log ++ (blob.warning? disposal.directory).toList } := by
  have idle : blob.discard disposal.directory = .ok () disposal.directory →
      filePaths [blob] = [] → disposal.discardLogged blob = { disposal with
        directory := disposal.directory.without (filePaths [blob])
        log := disposal.log ++ (blob.warning? disposal.directory).toList } := by
    intro passed noFile
    simp only [discardLogged, Blob.warning?, passed, noFile, without_nil, Option.toList_none,
      List.append_nil]
  cases blob with
  | inline stored => exact idle rfl rfl
  | placeholder stored => exact idle rfl rfl
  | file stored =>
      have named : filePaths [.file stored] = [stored.path] := rfl
      simp only [discardLogged, Blob.warning?, discard_file, named, unlink_eq]
      cases found : disposal.directory.findFile stored.path with
      | ok place => simp only [Except.map, Option.toList_none, List.append_nil]
      | error fault =>
          -- A path that cannot be removed names no file.
          have unnamed := without_unnamed disposal.directory [stored.path]
            (List.forall_mem_singleton.mpr fun names => by rw [found]; exact nofun)
          simp only [Except.map, unnamed, Option.toList_some]

theorem discards_logged (blobs : List Blob) :
    blobs.foldl discardLogged disposal = { disposal with
      directory := disposal.directory.without (filePaths blobs)
      log := disposal.log ++ disposalWarnings disposal.directory blobs } := by
  induction blobs generalizing disposal with
  | nil => simp [filePaths, disposalWarnings]
  | cons blob rest ih =>
      rw [List.foldl_cons, ih, discardLogged_eq, disposalWarnings_cons, filePaths_cons blob rest]
      simp only [without_without, List.append_assoc]

theorem settle_reports (entries : List (String × Blob)) :
    disposal.settle (entries.map fun entry => .report (.unreferenced entry.1)) =
      { disposal with
        log := disposal.log ++ entries.map fun entry => .unreferenced entry.1 } := by
  induction entries generalizing disposal with
  | nil => simp [settle]
  | cons entry rest ih =>
      rw [List.map_cons, settle, List.foldl_cons, ← settle, ih]
      simp [apply]

theorem settle_disposals (immediate : disposal.disposer = .immediate)
    (entries : List (String × Blob)) :
    disposal.settle (entries.map fun entry => .dispose entry.2) =
      (entries.map Prod.snd).foldl discardLogged disposal := by
  induction entries generalizing disposal with
  | nil => rfl
  | cons entry rest ih =>
      have still := (discardLogged_disposer disposal entry.2).trans immediate
      rw [List.map_cons, settle, List.foldl_cons, ← settle, apply_immediate disposal immediate]
      exact ih (disposal.discardLogged entry.2) still

/-- All entries are reported before the first blob is discarded. -/
theorem settle_release (immediate : disposal.disposer = .immediate) (release : Release) :
    disposal.settle release.effects = { disposal with
      directory := disposal.directory.without (filePaths (release.released.map Prod.snd))
      log := disposal.log ++ release.released.map (fun entry => .unreferenced entry.1) ++
        disposalWarnings disposal.directory (release.released.map Prod.snd) } := by
  have reports := disposal.settle_reports release.released
  have discards := settle_disposals
    { disposal with log := disposal.log ++ release.released.map fun entry => .unreferenced entry.1 }
    immediate release.released
  rw [Release.effects, settle, List.foldl_append, ← settle, ← settle, reports, discards,
    discards_logged]

end Disposal

namespace Registry

/-- The entries that are left without checkpoints once the covered ones are dropped. -/
structure Empties (registry : Registry) (covered : CheckpointId → Bool)
    (emptied : List (String × Blob)) : Prop where
  distinct : (emptied.map Prod.fst).Nodup
  exact : ∀ key blob, (key, blob) ∈ emptied ↔ registry.blob? key = some blob ∧
    ∀ checkpoint, registry.Refers key checkpoint → covered checkpoint = true

/-- The registry without those entries, and otherwise only without the covered checkpoints. -/
structure Drops (before : Registry) (covered : CheckpointId → Bool)
    (emptied : List (String × Blob)) (after : Registry) : Prop where
  status : after.status = before.status
  blobs : ∀ key, after.blob? key =
    if key ∈ emptied.map Prod.fst then none else before.blob? key
  references : ∀ key checkpoint, after.Refers key checkpoint ↔
    before.Refers key checkpoint ∧ covered checkpoint = false

section Release

variable (registry : Registry) (covered : CheckpointId → Bool)

theorem releaseCovered_empties :
    registry.Empties covered (registry.releaseCovered covered).released where
  distinct := released_keys_nodup registry covered
  exact key blob := by
    rw [mem_released]
    simp only [release_refers, not_and, Bool.not_eq_false]

theorem releaseCovered_drops :
    registry.Drops covered (registry.releaseCovered covered).released
      (registry.releaseCovered covered).registry where
  status := rfl
  blobs key := by
    apply Option.ext
    intro blob
    rw [release_blob?]
    have emptied : key ∈ (registry.releaseCovered covered).released.map Prod.fst ↔
        registry.blob? key ≠ none ∧
          ∀ checkpoint, ¬ (registry.releaseCovered covered).registry.Refers key checkpoint := by
      rw [List.mem_map, Option.ne_none_iff_exists']
      constructor
      · rintro ⟨⟨_, blob⟩, gone, rfl⟩
        obtain ⟨found, unreferenced⟩ := (mem_released registry covered _ blob).mp gone
        exact ⟨⟨blob, found⟩, unreferenced⟩
      · rintro ⟨⟨blob, found⟩, unreferenced⟩
        exact ⟨(key, blob), (mem_released registry covered key blob).mpr ⟨found, unreferenced⟩,
          rfl⟩
    split
    · rename_i gone
      have unreferenced := (emptied.mp gone).2
      simp [unreferenced]
    · rename_i kept
      apply and_iff_left_of_imp
      intro found
      by_contra none
      exact kept (emptied.mpr ⟨by simp [found], not_exists.mp none⟩)
  references := release_refers registry covered

end Release

/-- However the emptied entries are ordered, a release returns their number, removes just them,
and takes just the files away that their blobs name; each discard that fails is reported. -/
theorem release_discards_in_any_order (registry : Registry) (reachable : registry.Reachable)
    (call : Call) (release : call.isRelease = true) (directory : Directory) (log : List Event) :
    let made := registry.releaseCovered call.covers
    registry.Empties call.covers made.released ∧
      registry.Drops call.covers made.released made.registry ∧
      registry.perform call =
        (made.registry, ⟨call, .ok (.released made.released.length), made.effects⟩) ∧
      ∀ order : List (String × Blob), order.Perm made.released →
        Disposal.settle ⟨.immediate, directory, log⟩ (Release.mk made.registry order).effects =
          ⟨.immediate, directory.without (filePaths (made.released.map Prod.snd)),
            log ++ order.map (fun entry => .unreferenced entry.1) ++
              disposalWarnings directory (order.map Prod.snd)⟩ := by
  intro made
  have intact := (reachable_wellformed registry reachable).1
  refine ⟨releaseCovered_empties registry _, releaseCovered_drops registry _,
    perform_release registry intact call release, ?_⟩
  intro order perm
  have same : directory.without (filePaths (order.map Prod.snd)) =
      directory.without (filePaths (made.released.map Prod.snd)) :=
    without_congr directory _ fun path => ((perm.map Prod.snd).filterMap Blob.path?).mem_iff
  rw [Disposal.settle_release _ rfl, same]

/-- A relative and an absolute path name one file, a third path lies under it, and a fourth
leads out of the working directory to another one. Whether the third can be discarded depends on
what came before; the tree does not. -/
theorem one_file_under_two_texts :
    let file : List UInt8 → Blob := fun bytes => .file ⟨⟨bytes⟩, 1⟩
    let x := file [0x78]
    let absolute := file [0x2F, 0x77, 0x2F, 0x78]
    let nested := file [0x78, 0x2F, 0x79]
    let d := file [0x2E, 0x2E, 0x2F, 0x64]
    let registry := empty.after [.reference "a" x 1, .reference "b" absolute 1,
      .reference "c" nested 1, .reference "d" d 1, .reference "e" (file [0x7A]) 2]
    let directory : Directory := ⟨[([[0x77]], .directory), ([[0x77], [0x78]], .file),
      ([[0x64]], .directory), ([[0x77], [0x7A]], .file)], [[0x77]]⟩
    let left : Directory :=
      ⟨[([[0x77]], .directory), ([[0x64]], .directory), ([[0x77], [0x7A]], .file)], [[0x77]]⟩
    let made := (registry.perform (.releaseCheckpoint 1)).1
    let settled : List (String × Blob) → Disposal := fun order =>
      Disposal.settle ⟨.immediate, directory, []⟩ (Release.mk made order).effects
    (registry.perform (.releaseCheckpoint 1)).2.answer = .ok (.released 4) ∧
      made.checkpointsOf "a" = .ok [] ∧ made.checkpointsOf "e" = .ok [2] ∧
      settled [("a", x), ("b", absolute), ("c", nested), ("d", d)] = ⟨.immediate, left,
        [.unreferenced "a", .unreferenced "b", .unreferenced "c", .unreferenced "d",
          .disposalFailed "../d" ⟨⟨[0x2E, 0x2E, 0x2F, 0x64]⟩, .isDirectory⟩]⟩ ∧
      settled [("c", nested), ("d", d), ("b", absolute), ("a", x)] = ⟨.immediate, left,
        [.unreferenced "c", .unreferenced "d", .unreferenced "b", .unreferenced "a",
          .disposalFailed "x/y" ⟨⟨[0x78, 0x2F, 0x79]⟩, .notDirectory⟩,
          .disposalFailed "../d" ⟨⟨[0x2E, 0x2E, 0x2F, 0x64]⟩, .isDirectory⟩]⟩ := by
  intro file x absolute nested d registry directory left made settled
  obtain ⟨_, _, performed, anyOrder⟩ := release_discards_in_any_order registry ⟨_, rfl⟩
    (.releaseCheckpoint 1) rfl directory []
  have same : made = (registry.releaseCovered (Call.covers (.releaseCheckpoint 1))).registry :=
    congrArg Prod.fst performed
  have first := anyOrder [("a", x), ("b", absolute), ("c", nested), ("d", d)] (by decide)
  have second := anyOrder [("c", nested), ("d", d), ("b", absolute), ("a", x)] (by decide)
  rw [← same] at first second
  refine ⟨by rw [performed]; decide, by decide, by decide, first.trans ?_, second.trans ?_⟩
  · decide
  · decide

end Registry

end CheckpointLedger
