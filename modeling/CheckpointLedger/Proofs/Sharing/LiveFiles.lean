import CheckpointLedger.Proofs.Sharing.Fleet

/-!
Two owners can delete a shared file: the snapshot that uploaded it, as long as it was
never registered, and the registry afterwards. `Accord` is what keeps them apart. A
file that the registry holds came from a snapshot that counts as registered, so no
snapshot deletes it any more, and the registry deletes it with its last reference.
-/

namespace CheckpointLedger

/-- One of the snapshot's slots has a file at the path. -/
def Incremental.HoldsFile (snapshot : Incremental) (path : Path) : Prop :=
  ∃ slot ∈ snapshot.slots, slot.blob.IsFileAt path

/-- Snapshots that were just taken and never copied: a shared file is in the slots of
one of them only, and is not among what belongs to a snapshot alone. -/
structure Store.Orderly (store : Store) : Prop where
  fresh : ∀ id, (store.snapshot id).Fresh
  named : ∀ id, ∀ blob ∈ (store.snapshot id).ownBlobs ++ (store.snapshot id).slotBlobs, blob.Named
  sole : ∀ first second path, (store.snapshot first).HoldsFile path →
    (store.snapshot second).HoldsFile path → first = second
  apart : ∀ holder other path, (store.snapshot holder).HoldsFile path →
    ∀ blob ∈ (store.snapshot other).ownBlobs, ¬ blob.IsFileAt path

namespace Fleet

/-- Before the first move the registry is empty. -/
def launched (start : Store) (disposal : Disposal) : Fleet := ⟨start, .empty, disposal⟩

/-- If the blob is a file, a snapshot that is registered by now uploaded it. -/
def Entrusted (start : Store) (fleet : Fleet) (blob : Blob) : Prop :=
  ∀ path, blob.IsFileAt path → ∃ owner, (start.snapshot owner).HoldsFile path ∧
    (fleet.store.snapshot owner).registered = true

structure Accord (start : Store) (fleet : Fleet) : Prop where
  intact : fleet.registry.status ≠ .poisoned
  valid : fleet.registry.WellFormed
  immediate : fleet.disposal.disposer = .immediate
  keyed : ∀ key blob, fleet.registry.blob? key = some blob → blob.physicalId = key
  slotKeyed : ∀ id, ∀ slot ∈ (fleet.store.snapshot id).slots, slot.Keyed
  untouched : ∀ id, (fleet.store.snapshot id).registered = false →
    fleet.store.snapshot id = start.snapshot id
  own : ∀ id, (fleet.store.snapshot id).ownBlobs = (start.snapshot id).ownBlobs
  slotEntrusted : ∀ id, (fleet.store.snapshot id).registered = true →
    ∀ slot ∈ (fleet.store.snapshot id).slots, Entrusted start fleet slot.blob
  canonicalEntrusted : ∀ key blob, fleet.registry.blob? key = some blob →
    Entrusted start fleet blob

theorem accord_start (start : Store) (orderly : start.Orderly) (disposal : Disposal)
    (immediate : disposal.disposer = .immediate) : Accord start (launched start disposal) where
  intact := by simp [launched, Registry.empty]
  valid := Registry.empty_wellformed
  immediate := immediate
  keyed _ _ found := nomatch found
  slotKeyed id := (Incremental.fresh_slots _ (orderly.fresh id)).2
  untouched _ _ := rfl
  own _ := rfl
  slotEntrusted id marked := by
    have unmarked := (Incremental.fresh_slots _ (orderly.fresh id)).1
    rw [launched, unmarked] at marked
    cases marked
  canonicalEntrusted _ _ found := nomatch found

section Step

variable {start : Store} {fleet next : Fleet} {move : Move}

/-- No keyed slot is uploaded beside another blob of its key, so a registration
disposes of nothing. -/
theorem registered_disposals (accord : Accord start fleet) (id : SnapshotId)
    (checkpoint : CheckpointId) :
    disposals (registerSlots checkpoint (fleet.store.snapshot id).slots
      fleet.registry).effects = [] := by
  apply List.eq_nil_iff_forall_not_mem.mpr
  intro blob handed
  obtain ⟨slot, _, _, canonical, known, apart⟩ :=
    registerSlots_disposals checkpoint _ _ (accord.slotKeyed id) blob handed
  exact apart (accord.keyed _ _ known)

theorem registered_directory (accord : Accord start fleet) (id : SnapshotId)
    (checkpoint : CheckpointId) :
    (fleet.registered id checkpoint).disposal.directory = fleet.disposal.directory := by
  rw [registered, (settle_immediate _ accord.immediate _).2, registered_disposals accord]
  rfl

/-- After a registration the registry has a key's former blob or one from a slot. -/
theorem registered_blob? (id : SnapshotId) (checkpoint : CheckpointId) (key : String) (blob : Blob)
    (found : (fleet.registered id checkpoint).registry.blob? key = some blob) :
    fleet.registry.blob? key = some blob ∨
      ∃ slot ∈ (fleet.store.snapshot id).slots, slot.key = key ∧ slot.blob = blob := by
  simp only [registered, registerSlots_blob?, Option.or_eq_some_iff,
    Option.map_eq_some_iff] at found
  rcases found with before | ⟨_, slot, first, same⟩
  · exact Or.inl before
  · obtain ⟨member, sameKey⟩ := served_first checkpoint _ _ key slot first
    exact Or.inr ⟨slot, member, sameKey, same⟩

section Registered

variable (id : SnapshotId) (checkpoint : CheckpointId)

theorem entrusted_registered (blob : Blob) (entrusted : Entrusted start fleet blob) :
    Entrusted start (fleet.registered id checkpoint) blob := by
  intro path isFile
  obtain ⟨owner, holds, marked⟩ := entrusted path isFile
  exact ⟨owner, holds, registered_marks fleet id owner checkpoint marked⟩

variable (accord : Accord start fleet)
include accord

/-- The snapshot's own files are entrusted from now on, as it counts as registered. -/
theorem entrusted_slot (slot : Slot) (member : slot ∈ (fleet.store.snapshot id).slots) :
    Entrusted start (fleet.registered id checkpoint) slot.blob := by
  cases mark : (fleet.store.snapshot id).registered with
  | true =>
      have entrusted := accord.slotEntrusted id mark slot member
      exact entrusted_registered id checkpoint slot.blob entrusted
  | false =>
      intro path isFile
      rw [accord.untouched id mark] at member
      exact ⟨id, ⟨slot, member, isFile⟩, by simp⟩

theorem canonical_registered (key : String) (blob : Blob)
    (found : (fleet.registered id checkpoint).registry.blob? key = some blob) :
    blob.physicalId = key ∧ Entrusted start (fleet.registered id checkpoint) blob := by
  rcases registered_blob? id checkpoint key blob found with before | ⟨slot, member, same, held⟩
  · have entrusted := accord.canonicalEntrusted key blob before
    exact ⟨accord.keyed key blob before, entrusted_registered id checkpoint blob entrusted⟩
  · subst same held
    exact ⟨accord.slotKeyed id slot member, entrusted_slot id checkpoint accord slot member⟩

theorem slots_registered (slot : Slot)
    (member : slot ∈ ((fleet.registered id checkpoint).store.snapshot id).slots) :
    slot.Keyed ∧ Entrusted start (fleet.registered id checkpoint) slot.blob := by
  rw [registered_same] at member
  obtain ⟨old, there, sameKey, source⟩ := registerSlots_slots checkpoint _ _ slot member
  rcases source with kept | taken
  · rw [Slot.Keyed, kept, sameKey]
    exact ⟨accord.slotKeyed id old there, entrusted_slot id checkpoint accord old there⟩
  · exact canonical_registered id checkpoint accord slot.key slot.blob taken

theorem accord_registered : Accord start (fleet.registered id checkpoint) := by
  constructor
  case intact =>
    intro broken
    exact accord.intact ((registerSlots_status checkpoint _ _).symm.trans broken)
  case valid => exact registerSlots_wellformed checkpoint _ _ accord.valid
  case immediate => exact registered_immediate fleet accord.immediate id checkpoint
  case keyed =>
    intro key blob found
    exact (canonical_registered id checkpoint accord key blob found).1
  case slotKeyed =>
    intro other slot member
    by_cases same : other = id
    · subst same
      exact (slots_registered other checkpoint accord slot member).1
    · rw [registered_other fleet id other checkpoint same] at member
      exact accord.slotKeyed other slot member
  case untouched =>
    intro other unmarked
    by_cases same : other = id
    · subst same
      simp at unmarked
    · rw [registered_other fleet id other checkpoint same] at unmarked ⊢
      exact accord.untouched other unmarked
  case own =>
    intro other
    by_cases same : other = id
    · subst same
      rw [registered_same]
      exact accord.own other
    · rw [registered_other fleet id other checkpoint same]
      exact accord.own other
  case slotEntrusted =>
    intro other mark slot member
    by_cases same : other = id
    · subst same
      exact (slots_registered other checkpoint accord slot member).2
    · rw [registered_other fleet id other checkpoint same] at mark member
      have entrusted := accord.slotEntrusted other mark slot member
      exact entrusted_registered id checkpoint slot.blob entrusted
  case canonicalEntrusted =>
    intro key blob found
    exact (canonical_registered id checkpoint accord key blob found).2

end Registered

/-- A registry with fewer blobs is still in accord with the snapshots. -/
theorem accord_shrunk (accord : Accord start fleet) (registry : Registry) (disposal : Disposal)
    (intact : registry.status ≠ .poisoned) (valid : registry.WellFormed)
    (immediate : disposal.disposer = .immediate)
    (fewer : ∀ key blob, registry.blob? key = some blob → fleet.registry.blob? key = some blob) :
    Accord start { fleet with registry, disposal } where
  intact := intact
  valid := valid
  immediate := immediate
  keyed key blob found := accord.keyed key blob (fewer key blob found)
  slotKeyed := accord.slotKeyed
  untouched := accord.untouched
  own := accord.own
  slotEntrusted := accord.slotEntrusted
  canonicalEntrusted key blob found := accord.canonicalEntrusted key blob (fewer key blob found)

theorem accord_step (accord : Accord start fleet) (step : fleet.Step move next) :
    Accord start next := by
  cases step with
  | registered => exact accord_registered _ _ accord
  | released =>
      exact accord_shrunk accord _ _ accord.intact (Registry.release_wellformed _ _ accord.valid)
        (settle_immediate _ accord.immediate _).1 fun key blob found =>
          ((Registry.release_blob? _ _ key blob).mp found).1
  | closed =>
      exact accord_shrunk accord _ _ (by simp) ⟨accord.valid.occupied, accord.valid.real⟩
        (settle_immediate _ accord.immediate _).1 fun _ _ found => found
  | discarded =>
      exact accord_shrunk accord _ _ accord.intact accord.valid accord.immediate
        fun _ _ found => found

end Step

/-! The files. -/

section Files

variable {start : Store} {fleet next : Fleet} {move : Move}

theorem entrusted_named (orderly : start.Orderly) (blob : Blob)
    (entrusted : Entrusted start fleet blob) : blob.Named := by
  intro path isFile
  obtain ⟨owner, ⟨slot, member, held⟩, _⟩ := entrusted path isFile
  have listed : slot.blob ∈ (start.snapshot owner).slotBlobs := List.mem_map.mpr ⟨slot, member, rfl⟩
  exact orderly.named owner slot.blob (List.mem_append_right _ listed) path held

/-- A discard leaves the files alone that the registry holds. -/
theorem discarded_hasFile (orderly : start.Orderly) (accord : Accord start fleet)
    (id : SnapshotId) (key : String) (file : FileBlob)
    (held : fleet.registry.blob? key = some (.file file))
    (onDisk : fleet.disposal.directory.HasFile file.path) :
    (fleet.discarded id).disposal.directory.HasFile file.path := by
  have entrusted := accord.canonicalEntrusted key _ held
  have isName := entrusted_named orderly _ entrusted file.path ⟨file.size, rfl⟩
  obtain ⟨owner, holds, marked⟩ := entrusted file.path ⟨file.size, rfl⟩
  have own := accord.own id
  cases mark : (fleet.store.snapshot id).registered with
  | true =>
      have blobs : (fleet.store.snapshot id).discarded = (start.snapshot id).ownBlobs := by
        simp [Incremental.discarded, mark, own]
      have named : ∀ blob ∈ (start.snapshot id).ownBlobs, blob.Named := fun blob member =>
        orderly.named id blob (List.mem_append_left _ member)
      have spared := orderly.apart owner id file.path holds
      rw [discarded, blobs]
      exact hasFile_forM _ named file.path isName _ onDisk spared
  | false =>
      have blobs : (fleet.store.snapshot id).discarded =
          (start.snapshot id).ownBlobs ++ (start.snapshot id).slotBlobs := by
        have same := accord.untouched id mark
        rw [same] at mark ⊢
        simp [Incremental.discarded, mark]
      have spared : ∀ blob ∈ (start.snapshot id).ownBlobs ++ (start.snapshot id).slotBlobs,
          ¬ blob.IsFileAt file.path := by
        intro blob member isFile
        rcases List.mem_append.mp member with owned | shared
        · exact orderly.apart owner id file.path holds blob owned isFile
        · -- The snapshot would be the one that uploaded the file, and that one is registered.
          obtain ⟨slot, listed, same⟩ := List.mem_map.mp shared
          have holder : id = owner :=
            orderly.sole id owner file.path ⟨slot, listed, same ▸ isFile⟩ holds
          rw [holder, marked] at mark
          cases mark
      rw [discarded, blobs]
      exact hasFile_forM _ (orderly.named id) file.path isName _ onDisk spared

/-- After a move the registry still holds the file, and it is there, or the move was
the release that ended the last reference, and the file is gone. -/
theorem step_file (orderly : start.Orderly) (accord : Accord start fleet)
    (step : fleet.Step move next) (key : String) (file : FileBlob)
    (held : fleet.registry.blob? key = some (.file file))
    (onDisk : fleet.disposal.directory.HasFile file.path) :
    (next.registry.blob? key = some (.file file) ∧
        next.disposal.directory.HasFile file.path) ∨
      (next.registry.blob? key = none ∧ move.isRelease = true ∧
        ¬ next.disposal.directory.HasFile file.path) := by
  have isName := entrusted_named orderly _ (accord.canonicalEntrusted key _ held) file.path
    ⟨file.size, rfl⟩
  cases step with
  | @registered id checkpoint =>
      left
      constructor
      · simp [registered, registerSlots_blob?, held]
      · rw [registered_directory accord]
        exact onDisk
  | @released _ covered release =>
      have named : ∀ other blob, (other, blob) ∈ (fleet.registry.releaseCovered covered).released →
          blob.Named := by
        intro other blob gone
        have found := ((Registry.mem_released _ _ other blob).mp gone).1
        exact entrusted_named orderly blob (accord.canonicalEntrusted other blob found)
      rw [hasFile_released fleet accord.immediate covered named file.path isName]
      by_cases needed : ∃ holder, (fleet.registry.releaseCovered covered).registry.Refers key holder
      · refine Or.inl ⟨(Registry.release_blob? _ _ key _).mpr ⟨held, needed⟩, onDisk, ?_⟩
        -- A file at the same path would be under the same key, which is not released.
        rintro other blob gone ⟨size, same⟩
        obtain ⟨found, unneeded⟩ := (Registry.mem_released _ _ other blob).mp gone
        have sameKey : other = key := by
          rw [← accord.keyed other blob found, ← accord.keyed key _ held, same]
          rfl
        obtain ⟨holder, refers⟩ := needed
        exact unneeded holder (sameKey ▸ refers)
      · have unneeded := not_exists.mp needed
        have gone := (Registry.mem_released _ covered key _).mpr ⟨held, unneeded⟩
        refine Or.inr ⟨?_, release, ?_⟩
        · apply Option.eq_none_iff_forall_ne_some.mpr
          intro blob found
          exact needed ((Registry.release_blob? _ _ key blob).mp found).2
        · rintro ⟨_, kept⟩
          exact kept key _ gone ⟨file.size, rfl⟩
  | @closed events =>
      have nothing : disposals (events.map .report) = [] := by simp [disposals]
      left
      constructor
      · exact held
      · rw [hasFile_settle _ accord.immediate _ (by simp [nothing]) _ isName]
        exact ⟨onDisk, by simp [nothing]⟩
  | discarded => exact Or.inl ⟨held, discarded_hasFile orderly accord _ key file held onDisk⟩

/-! Whole runs. -/

theorem needs_iff (accord : Accord start fleet) (key : String) :
    fleet.Needs key ↔ fleet.registry.blob? key ≠ none :=
  (Registry.present_iff fleet.registry accord.valid key).symm

theorem after_accord (accord : Accord start fleet) (moves : List Move) :
    Accord start (fleet.after moves) := by
  induction moves generalizing fleet with
  | nil => exact accord
  | cons move rest ih => exact ih (accord_step accord (perform_step fleet accord.intact move))

theorem after_file (orderly : start.Orderly) (accord : Accord start fleet) (key : String)
    (file : FileBlob) (held : fleet.registry.blob? key = some (.file file))
    (onDisk : fleet.disposal.directory.HasFile file.path) (moves : List Move)
    (needed : ∀ soFar, soFar <+: moves → (fleet.after soFar).Needs key) :
    (fleet.after moves).registry.blob? key = some (.file file) ∧
      (fleet.after moves).disposal.directory.HasFile file.path := by
  -- The invariant and the file itself are handed on to the fleet after each move.
  induction moves generalizing fleet with
  | nil => exact ⟨held, onDisk⟩
  | cons move rest ih =>
      have step := perform_step fleet accord.intact move
      have next := accord_step accord step
      have neededRest : ∀ soFar, soFar <+: rest →
          ((fleet.perform move).1.after soFar).Needs key := by
        intro soFar initial
        exact needed (move :: soFar) ((List.prefix_cons_inj move).mpr initial)
      rcases step_file orderly accord step key file held onDisk with ⟨kept, there⟩ | ⟨gone, _⟩
      · exact ih next kept there neededRest
      · exact absurd gone ((needs_iff next key).mp (neededRest [] List.nil_prefix))

end Files

/-- The registration puts a file under a key that is absent, and the file is there. -/
structure Adopts (fleet : Fleet) (id : SnapshotId) (checkpoint : CheckpointId) (key : String)
    (file : FileBlob) : Prop where
  absent : fleet.registry.blob? key = none
  adopted : (fleet.perform (.register id checkpoint)).1.registry.blob? key = some (.file file)
  onDisk : fleet.disposal.directory.HasFile file.path

/-- An adopted file stays as long as some checkpoint depends on it, whatever else is
registered, released and discarded meanwhile. The release that ends this deletes it. -/
theorem live_file_kept (start : Store) (orderly : start.Orderly) (disposal : Disposal)
    (immediate : disposal.disposer = .immediate) (before : List Move) (id : SnapshotId)
    (checkpoint : CheckpointId) (key : String) (file : FileBlob)
    (adopts : ((launched start disposal).after before).Adopts id checkpoint key file)
    (later : List Move)
    (needed : ∀ soFar, soFar <+: later →
      ((launched start disposal).after (before ++ .register id checkpoint :: soFar)).Needs key) :
    let fleet := (launched start disposal).after (before ++ .register id checkpoint :: later)
    fleet.disposal.directory.HasFile file.path ∧
      ∀ move, ¬ (fleet.perform move).1.Needs key →
        move.isRelease = true ∧
          ¬ (fleet.perform move).1.disposal.directory.HasFile file.path := by
  have begun := after_accord (accord_start start orderly disposal immediate) before
  have registration := perform_step _ begun.intact (.register id checkpoint)
  have adopted := accord_step begun registration
  have onDisk : (((launched start disposal).after before).perform
      (.register id checkpoint)).1.disposal.directory.HasFile file.path := by
    rw [perform_register, registered_directory begun]
    exact adopts.onDisk
  have split : ∀ moves,
      (launched start disposal).after (before ++ .register id checkpoint :: moves) =
        (((launched start disposal).after before).perform
          (.register id checkpoint)).1.after moves :=
    fun moves => List.foldl_append
  simp only [split] at needed ⊢
  have final := after_accord adopted later
  obtain ⟨held, there⟩ := after_file orderly adopted key file adopts.adopted onDisk later needed
  constructor
  · exact there
  intro move unneeded
  have step := perform_step _ final.intact move
  rcases step_file orderly final step key file held there with ⟨kept, _⟩ | ⟨_, release, gone⟩
  · have present := Option.ne_none_iff_exists'.mpr ⟨_, kept⟩
    exact absurd ((needs_iff (accord_step final step) key).mpr present) unneeded
  · exact ⟨release, gone⟩

/-- The first snapshot has uploaded a file, all others refer to it. -/
def uploadAndReuse : Store where
  next := 2
  snapshot id :=
    if id = ⟨0⟩ then
      ⟨1, .empty, [⟨"x", "a", .file ⟨⟨[0x78]⟩, 3⟩⟩], [], .inline ⟨"m", []⟩, 3, false⟩
    else ⟨2, .empty, [⟨"x", "b", .placeholder ⟨"x", 3⟩⟩], [], .inline ⟨"m", []⟩, 0, false⟩

theorem uploadAndReuse_holds (id : SnapshotId) (path : Path)
    (holds : (uploadAndReuse.snapshot id).HoldsFile path) : id = ⟨0⟩ := by
  by_contra other
  simp [uploadAndReuse, other, Incremental.HoldsFile, Blob.IsFileAt] at holds

theorem uploadAndReuse_orderly : uploadAndReuse.Orderly := by
  constructor
  case fresh =>
    intro id
    by_cases first : id = ⟨0⟩
    · subst first
      exact ⟨1, .empty, [("a", .file ⟨⟨[0x78]⟩, 3⟩)], [], .inline ⟨"m", []⟩, by decide⟩
    · simp only [uploadAndReuse, first, if_false]
      exact ⟨2, .empty, [("b", .placeholder ⟨"x", 3⟩)], [], .inline ⟨"m", []⟩, by decide⟩
  case named =>
    rintro id blob member path ⟨size, isFile⟩
    have same : path = ⟨[0x78]⟩ := by
      by_cases first : id = ⟨0⟩ <;>
        simp_all [uploadAndReuse, Incremental.ownBlobs, Incremental.slotBlobs]
    have single : Path.slash ∉ ([0x78] : List UInt8) := by decide
    exact same ▸ single
  case sole =>
    intro first second path holds holds'
    rw [uploadAndReuse_holds first path holds, uploadAndReuse_holds second path holds']
  case apart =>
    rintro _ other path _ blob member ⟨size, isFile⟩
    by_cases first : other = ⟨0⟩ <;>
      simp_all [uploadAndReuse, Incremental.ownBlobs]

/-- The second snapshot keeps the file of the first one after the first is discarded. -/
theorem reused_file_kept :
    let disposal : Disposal := ⟨.immediate, ⟨[([[0x78]], .file)], []⟩, []⟩
    let later : List Move := [.register ⟨1⟩ 2, .releaseCheckpoint 1, .discard ⟨0⟩]
    let fleet := (launched uploadAndReuse disposal).after ([] ++ .register ⟨0⟩ 1 :: later)
    fleet.disposal.directory.HasFile ⟨[0x78]⟩ ∧
      ¬ (fleet.perform (.releaseBelow 9)).1.disposal.directory.HasFile ⟨[0x78]⟩ := by
  intro disposal later fleet
  have needed : ∀ soFar, soFar <+: later →
      ((launched uploadAndReuse disposal).after ([] ++ .register ⟨0⟩ 1 :: soFar)).Needs "x" := by
    intro soFar initial
    simp only [later, List.prefix_cons_iff, List.prefix_nil] at initial
    rcases initial with none | ⟨_, one, none | ⟨_, two, none | ⟨_, three, all⟩⟩⟩
    · subst none
      exact ⟨1, _, rfl, by decide⟩
    · subst one none
      exact ⟨1, _, rfl, by decide⟩
    · subst one two none
      exact ⟨2, ⟨.file ⟨⟨[0x78]⟩, 3⟩, SortedMap.empty.insert 2 ()⟩, by decide, by decide⟩
    · subst one two three all
      exact ⟨2, ⟨.file ⟨⟨[0x78]⟩, 3⟩, SortedMap.empty.insert 2 ()⟩, by decide, by decide⟩
  have adopts : ((launched uploadAndReuse disposal).after []).Adopts ⟨0⟩ 1 "x" ⟨⟨[0x78]⟩, 3⟩ :=
    ⟨by decide, by decide, ⟨[[0x78]], by decide⟩⟩
  obtain ⟨kept, deleted⟩ := live_file_kept uploadAndReuse uploadAndReuse_orderly disposal rfl [] ⟨0⟩
    1 "x" ⟨⟨[0x78]⟩, 3⟩ adopts later needed
  constructor
  · exact kept
  · apply (deleted (.releaseBelow 9) _).2
    rintro ⟨holder, refers⟩
    exact Registry.refers_present _ "x" holder refers (by decide)

end Fleet

end CheckpointLedger
