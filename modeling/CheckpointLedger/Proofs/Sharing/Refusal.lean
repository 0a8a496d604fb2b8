import CheckpointLedger.Proofs.Sharing.Fleet

/-!
Taking a failed registration back: the checkpoint is released and the snapshot
discarded. The registry deletes the files that the registration gave to it, and the
snapshot what belongs to it alone. The other shared files of the snapshot stay behind:
it counts as registered although nothing took them over.
-/

namespace CheckpointLedger

namespace Fleet

/-- The first slot with the key is a file at the path, and the registration gets as far
as that slot. -/
def Serves (fleet : Fleet) (id : SnapshotId) (checkpoint : CheckpointId) (key : String)
    (path : Path) : Prop :=
  ∃ slot, (served checkpoint (fleet.store.snapshot id).slots fleet.registry).find? (·.key = key) =
    some slot ∧ slot.blob.IsFileAt path

theorem keyed_path (slot : Slot) (keyed : slot.Keyed) (path : Path)
    (isFile : slot.blob.IsFileAt path) : slot.key = path.display := by
  obtain ⟨size, same⟩ := isFile
  rw [← keyed, same]
  rfl

section Undone

variable (fleet : Fleet) (id : SnapshotId) (checkpoint : CheckpointId)

/-- The registration was made, and its checkpoint released. -/
def undone : Fleet := (fleet.registered id checkpoint).released (· == checkpoint)

theorem undone_perform (intact : fleet.registry.status ≠ .poisoned) :
    fleet.after [.register id checkpoint, .releaseCheckpoint checkpoint] =
      fleet.undone id checkpoint := by
  have still : (fleet.registered id checkpoint).registry.status ≠ .poisoned := fun broken =>
    intact ((registerSlots_status checkpoint _ _).symm.trans broken)
  simp only [after_cons, after_nil, perform_register, perform_release _ still, undone]

theorem undone_discarded :
    ((fleet.undone id checkpoint).store.snapshot id).discarded =
      (fleet.store.snapshot id).ownBlobs := by
  simp [undone, released, Incremental.discarded, Incremental.ownBlobs]

section Unused

variable (unused : ∀ key, ¬ fleet.registry.Refers key checkpoint)
include unused

theorem others_depend (key : String) (holder : CheckpointId)
    (refers : fleet.registry.Refers key holder) : (holder == checkpoint) = false := by
  rw [beq_eq_false_iff_ne]
  intro same
  exact unused key (same ▸ refers)

/-- The release drops all references that the registration has made. -/
theorem undone_refers (key : String) (holder : CheckpointId) :
    (fleet.undone id checkpoint).registry.Refers key holder ↔ fleet.registry.Refers key holder :=
  Registry.undone_references (registerSlots_registrations checkpoint _ fleet.registry)
    (others_depend fleet checkpoint unused) key holder

/-- The release hands out the blobs that the registration brought into the registry. -/
theorem undone_released (valid : fleet.registry.WellFormed) (key : String) (blob : Blob) :
    (key, blob) ∈ ((fleet.registered id checkpoint).registry.releaseCovered
        (· == checkpoint)).released ↔
      ¬ fleet.Needs key ∧
        ((served checkpoint (fleet.store.snapshot id).slots
          fleet.registry).find? (·.key = key)).map (·.blob) = some blob := by
  have unneeded : fleet.registry.blob? key = none ↔ ¬ fleet.Needs key := by
    rw [Needs, ← Registry.present_iff fleet.registry valid, not_not]
  rw [registered, Registry.mem_undone (registerSlots_registrations checkpoint _ fleet.registry)
    (others_depend fleet checkpoint unused) valid, unneeded]
  apply and_congr_right
  intro absent
  simp [registerSlots_blob?, unneeded.mpr absent]

end Unused

section Files

variable (valid : fleet.registry.WellFormed) (immediate : fleet.disposal.disposer = .immediate)
  (keyed : ∀ slot ∈ (fleet.store.snapshot id).slots, slot.Keyed)
  (named : ∀ slot ∈ (fleet.store.snapshot id).slots, slot.blob.Named)
  (path : Path) (isName : path.IsName) (unneeded : ¬ fleet.Needs path.display)
include valid immediate keyed named isName unneeded

/-- The registration itself leaves the file alone: it disposes only of what was uploaded
under a key that was known before. -/
theorem registered_hasFile :
    (fleet.registered id checkpoint).disposal.directory.HasFile path ↔
      fleet.disposal.directory.HasFile path := by
  have source := registerSlots_disposals checkpoint (fleet.store.snapshot id).slots
    fleet.registry keyed
  rw [registered, hasFile_settle _ immediate _ _ path isName]
  · apply and_iff_left
    intro blob handed isFile
    obtain ⟨slot, member, same, canonical, known, _⟩ := source blob handed
    rw [keyed_path slot (keyed slot member) path (same ▸ isFile)] at known
    exact unneeded (valid.occupied _ (Option.ne_none_iff_exists'.mpr ⟨canonical, known⟩))
  · intro blob handed
    obtain ⟨slot, member, same, _⟩ := source blob handed
    exact same ▸ named slot member

/-- A file that no checkpoint needed before is gone if the registration gave it to the
registry, and only then. -/
theorem undone_hasFile (unused : ∀ key, ¬ fleet.registry.Refers key checkpoint) :
    (fleet.undone id checkpoint).disposal.directory.HasFile path ↔
      fleet.disposal.directory.HasFile path ∧ ¬ fleet.Serves id checkpoint path.display path := by
  have handed := undone_released fleet id checkpoint unused valid
  -- Whatever the release hands out stood in a slot that was served.
  have source : ∀ key blob, (key, blob) ∈ ((fleet.registered id checkpoint).registry.releaseCovered
      (· == checkpoint)).released → ∃ slot ∈ (fleet.store.snapshot id).slots, slot.key = key ∧
        slot.blob = blob ∧ (served checkpoint (fleet.store.snapshot id).slots
          fleet.registry).find? (·.key = key) = some slot := by
    intro key blob gone
    obtain ⟨slot, first, held⟩ := Option.map_eq_some_iff.mp ((handed key blob).mp gone).2
    obtain ⟨member, sameKey⟩ := served_first checkpoint _ _ key slot first
    exact ⟨slot, member, sameKey, held, first⟩
  have settled := registered_immediate fleet immediate id checkpoint
  rw [undone, hasFile_released _ settled _ _ path isName, registered_hasFile fleet id
    checkpoint valid immediate keyed named path isName unneeded]
  · apply and_congr_right
    intro _
    constructor
    · rintro spared ⟨slot, first, isFile⟩
      have gone := (handed path.display slot.blob).mpr ⟨unneeded, by rw [first]; rfl⟩
      exact spared path.display slot.blob gone isFile
    · intro notServed key blob gone isFile
      obtain ⟨slot, member, sameKey, held, first⟩ := source key blob gone
      subst held
      rw [← sameKey, keyed_path slot (keyed slot member) path isFile] at first
      exact notServed ⟨slot, first, isFile⟩
  · intro key blob gone
    obtain ⟨slot, member, _, held, _⟩ := source key blob gone
    exact held ▸ named slot member

end Files

end Undone

/-- What is left after a registration is taken back, be it that some slot was refused
or none. A file on the disk is gone or still needed exactly if some checkpoint needed
it before, or it belongs to the snapshot alone, or the registration gave it to the
registry. Any other shared file of the snapshot stays, and no one is to delete it. -/
theorem taken_back_exactly (fleet : Fleet) (reachable : fleet.registry.Reachable)
    (immediate : fleet.disposal.disposer = .immediate) (id : SnapshotId)
    (checkpoint : CheckpointId) (unused : ∀ key, ¬ fleet.registry.Refers key checkpoint)
    (fresh : (fleet.store.snapshot id).Fresh)
    (named : ∀ blob ∈ (fleet.store.snapshot id).ownBlobs ++ (fleet.store.snapshot id).slotBlobs,
      blob.Named)
    (done : ((fleet.after [.register id checkpoint, .releaseCheckpoint checkpoint]).perform
      (.discard id)).2 = none)
    (slot : Slot) (member : slot ∈ (fleet.store.snapshot id).slots) (file : FileBlob)
    (held : slot.blob = .file file) (onDisk : fleet.disposal.directory.HasFile file.path) :
    let left := fleet.after
      [.register id checkpoint, .releaseCheckpoint checkpoint, .discard id]
    (left.disposal.directory.HasFile file.path → left.Needs slot.key) ↔
      fleet.Needs slot.key ∨
        (∃ blob ∈ (fleet.store.snapshot id).ownBlobs, blob.IsFileAt file.path) ∨
        fleet.Serves id checkpoint slot.key file.path := by
  intro left
  obtain ⟨intact, valid⟩ := Registry.reachable_wellformed fleet.registry reachable
  have keyed := (Incremental.fresh_slots _ fresh).2
  have namedSlots : ∀ slot ∈ (fleet.store.snapshot id).slots, slot.blob.Named := fun other there =>
    named other.blob (List.mem_append_right _ (List.mem_map.mpr ⟨other, there, rfl⟩))
  have isName : file.path.IsName := namedSlots slot member file.path ⟨file.size, held⟩
  have key : slot.key = file.path.display :=
    keyed_path slot (keyed slot member) file.path ⟨file.size, held⟩
  have ending : left = (fleet.undone id checkpoint).discarded id := by
    rw [← perform_discard, ← undone_perform fleet id checkpoint intact]
    rfl
  have needs : left.Needs slot.key ↔ fleet.Needs slot.key := by
    rw [ending]
    exact exists_congr fun holder => undone_refers fleet id checkpoint unused slot.key holder
  -- A key that was needed before still is, whatever became of the file.
  by_cases needed : fleet.Needs slot.key
  · exact iff_of_true (fun _ => needs.mpr needed) (Or.inl needed)
  have deleted : left.disposal.directory.HasFile file.path ↔
      ¬ fleet.Serves id checkpoint slot.key file.path ∧
        ∀ blob ∈ (fleet.store.snapshot id).ownBlobs, ¬ blob.IsFileAt file.path := by
    rw [undone_perform fleet id checkpoint intact] at done
    rw [ending, hasFile_discarded _ id done _ file.path isName, undone_discarded, key,
      undone_hasFile fleet id checkpoint valid immediate keyed namedSlots file.path isName
        (key ▸ needed) unused]
    · simp only [onDisk, true_and]
    · rw [undone_discarded]
      exact fun blob there => named blob (List.mem_append_left _ there)
  rw [needs, deleted]
  constructor
  · intro gone
    by_contra nobody
    simp only [not_or, not_exists, not_and] at nobody
    exact needed (gone ⟨nobody.2.2, nobody.2.1⟩)
  · rintro (before | ⟨blob, there, isFile⟩ | serves) ⟨notServed, notOwn⟩
    · exact before
    · exact absurd isFile (notOwn blob there)
    · exact absurd serves notServed

/-- A snapshot with two uploads, and between them a placeholder that nobody registered. -/
def interrupted : Fleet where
  store := Store.empty.update ⟨0⟩ ⟨1, .empty,
    [⟨"x", "a", .file ⟨⟨[0x78]⟩, 1⟩⟩, ⟨"y", "b", .placeholder ⟨"y", 1⟩⟩,
      ⟨"z", "c", .file ⟨⟨[0x7A]⟩, 1⟩⟩],
    [], .inline ⟨"m", []⟩, 2, false⟩
  registry := .empty
  disposal := ⟨.immediate, ⟨[([[0x78]], .file), ([[0x7A]], .file)], []⟩, []⟩

theorem interrupted_fresh : (interrupted.store.snapshot ⟨0⟩).Fresh :=
  ⟨1, .empty, [("a", .file ⟨⟨[0x78]⟩, 1⟩), ("b", .placeholder ⟨"y", 1⟩),
    ("c", .file ⟨⟨[0x7A]⟩, 1⟩)], [], .inline ⟨"m", []⟩, by decide⟩

/-- The upload behind the refused slot stays on the disk. -/
theorem interrupted_upload_left :
    let left := interrupted.after [.register ⟨0⟩ 1, .releaseCheckpoint 1, .discard ⟨0⟩]
    (interrupted.perform (.register ⟨0⟩ 1)).2 = some (.refused (.unknownSharedState "y")) ∧
      left.disposal.directory.HasFile ⟨[0x7A]⟩ ∧ ¬ left.Needs "z" := by
  have named : ∀ blob ∈ (interrupted.store.snapshot ⟨0⟩).ownBlobs ++
      (interrupted.store.snapshot ⟨0⟩).slotBlobs, blob.Named := by
    rintro blob member path ⟨size, isFile⟩
    have same : path = ⟨[0x78]⟩ ∨ path = ⟨[0x7A]⟩ := by
      subst isFile
      simp [interrupted, Store.update, Incremental.ownBlobs, Incremental.slotBlobs] at member
      rcases member with ⟨path, _⟩ | ⟨path, _⟩
      · exact Or.inl path
      · exact Or.inr path
    have single : Path.slash ∉ ([0x78] : List UInt8) ∧ Path.slash ∉ ([0x7A] : List UInt8) := by
      decide
    rcases same with first | second
    · exact first ▸ single.1
    · exact second ▸ single.2
  have exact_left := taken_back_exactly interrupted ⟨[], rfl⟩ rfl ⟨0⟩ 1
    (fun key refers => by obtain ⟨_, found, _⟩ := refers; cases found) interrupted_fresh named rfl
    ⟨"z", "c", .file ⟨⟨[0x7A]⟩, 1⟩⟩ (by decide) ⟨⟨[0x7A]⟩, 1⟩ rfl ⟨[[0x7A]], by decide⟩
  have nobody : ¬ (interrupted.Needs "z" ∨
      (∃ blob ∈ (interrupted.store.snapshot ⟨0⟩).ownBlobs, blob.IsFileAt ⟨[0x7A]⟩) ∨
        interrupted.Serves ⟨0⟩ 1 "z" ⟨[0x7A]⟩) := by
    rintro (⟨_, _, found, _⟩ | ⟨blob, member, _, isFile⟩ | ⟨slot, first, _⟩)
    · cases found
    · subst isFile
      simp [interrupted, Store.update, Incremental.ownBlobs] at member
    · cases first
  obtain ⟨there, unneeded⟩ := Classical.not_imp.mp (mt exact_left.mp nobody)
  exact ⟨rfl, there, unneeded⟩

/-- A closed registry takes nothing over, and yet the only upload stays on the disk. -/
theorem refused_upload_left :
    let fleet : Fleet :=
      ⟨Store.empty.update ⟨0⟩ ⟨1, .empty, [⟨"x", "a", .file ⟨⟨[0x78]⟩, 1⟩⟩], [], .inline ⟨"m", []⟩,
        1, false⟩, Registry.empty.after [.close], ⟨.immediate, ⟨[([[0x78]], .file)], []⟩, []⟩⟩
    let left := fleet.after [.register ⟨0⟩ 1, .releaseCheckpoint 1, .discard ⟨0⟩]
    (fleet.store.snapshot ⟨0⟩).Fresh ∧
      (∀ key, ¬ fleet.registry.Refers key 1) ∧
      (fleet.perform (.register ⟨0⟩ 1)).2 = some (.refused .registryClosed) ∧
      ((fleet.after [.register ⟨0⟩ 1, .releaseCheckpoint 1]).perform (.discard ⟨0⟩)).2 = none ∧
      left.disposal.directory.HasFile ⟨[0x78]⟩ ∧ ∀ holder, ¬ left.registry.Refers "x" holder := by
  intro fleet left
  have unused : ∀ key holder, ¬ fleet.registry.Refers key holder := by
    rintro key holder ⟨_, found, _⟩
    cases found
  refine ⟨?_, fun key => unused key 1, rfl, rfl, ⟨[[0x78]], by decide⟩, ?_⟩
  · exact ⟨1, .empty, [("a", .file ⟨⟨[0x78]⟩, 1⟩)], [], .inline ⟨"m", []⟩, by decide⟩
  · rintro holder ⟨_, found, _⟩
    cases found

end Fleet

end CheckpointLedger
