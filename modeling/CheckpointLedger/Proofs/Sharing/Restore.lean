import CheckpointLedger.Proofs.Sharing.CanonicalSlots
import CheckpointLedger.Proofs.Sharing.Copies
import CheckpointLedger.Proofs.Storage.Removals

/-!
The family of an operator's checkpoint and the copies that restores made of it. All members
are registered together and show the same blobs, none of them deletes a shared file from
then on, and a fragment stays in the registry as long as one checkpoint depends on it that
any of them was registered for.
-/

namespace CheckpointLedger

open Registry

/-- An operator's checkpoint and its copies in the order in which they were made, with the
registry and the storage around them. -/
structure Family where
  fleet : Fleet
  original : OperatorCheckpoint SubtaskRef
  copies : List (OperatorCheckpoint SubtaskRef)

/-- What can happen in a family. Its members are counted from the original on. -/
inductive Act where
  | copy (index : Nat) (how : Copying)
  | register (index : Nat) (checkpoint : CheckpointId)
  | discard (index : Nat)
  | other (operation : Operation)

def Act.covers : Act → CheckpointId → Bool
  | .other operation => operation.covers
  | _ => fun _ => false

namespace Family

/-- A number that nobody has stands for the original. -/
def member (family : Family) (index : Nat) : OperatorCheckpoint SubtaskRef :=
  ((family.original :: family.copies)[index]?).getD family.original

def store (family : Family) : Store := family.fleet.store

def registry (family : Family) : Registry := family.fleet.registry

/-- The member's state as it is now. -/
def read (family : Family) (index : Nat) : OperatorCheckpoint PlainSubtask :=
  family.store.readOperator (family.member index)

def directory (family : Family) : Directory := family.fleet.disposal.directory

def ledger (family : Family) : Ledger := ⟨family.store, family.registry, []⟩

/-- The family after something has come of the ledger, with the effects carried out. -/
def record (family : Family) (ledger : Ledger) : Family :=
  { family with fleet := family.fleet.record ledger }

def withDirectory (family : Family) (directory : Directory) : Family :=
  { family with fleet := { family.fleet with
      disposal := { family.fleet.disposal with directory } } }

def perform (family : Family) : Act → Family × Option Failure
  | .copy index how =>
      let made := family.store.copyOperator how (family.member index)
      ({ family with
          fleet := { family.fleet with store := made.2 }
          copies := family.copies ++ [made.1] }, none)
  | .register index checkpoint =>
      let attempt := outcome ((family.member index).register checkpoint) family.ledger
      (family.record attempt.2, attempt.1.map .refused)
  | .discard index => match discard (family.read index) family.directory with
      | .ok _ directory => (family.withDirectory directory, none)
      | .error failure directory => (family.withDirectory directory, some (.storage failure))
  | .other operation => (family.record (family.ledger.perform operation), none)

def after (family : Family) (acts : List Act) : Family :=
  acts.foldl (fun family act => (family.perform act).1) family

@[simp] theorem after_nil (family : Family) : family.after [] = family := rfl

@[simp] theorem after_cons (family : Family) (act : Act) (rest : List Act) :
    family.after (act :: rest) = (family.perform act).1.after rest := rfl

theorem after_append (family : Family) (acts more : List Act) :
    family.after (acts ++ more) = (family.after acts).after more :=
  List.foldl_append

theorem perform_discard (family : Family) (index : Nat) :
    (family.perform (.discard index)).1 = family.withDirectory
      (attempted (((family.read index).blobs Incremental.discarded).forM Blob.discard)
        family.directory) := by
  rw [← discard_operator]
  simp only [perform, attempted]
  cases discard (family.read index) family.directory <;> rfl

/-- The members have the same collections of keyed state, these are in the store, and the
registry is not broken. -/
structure Kin (family : Family) : Prop where
  keyed : ∀ state ∈ family.copies, state.keyed = family.original.keyed
  held : family.store.Holds (.operator family.original)
  intact : family.registry.status ≠ .poisoned

theorem kin_member (family : Family) (kin : family.Kin) (index : Nat) :
    (family.member index).keyed = family.original.keyed := by
  rw [member]
  cases found : (family.original :: family.copies)[index]? with
  | none => rfl
  | some state =>
      rcases List.mem_cons.mp (List.mem_of_getElem? found) with same | copy
      · rw [Option.getD_some, same]
      · exact kin.keyed state copy

theorem kin_snapshots (family : Family) (kin : family.Kin) (index : Nat) :
    (family.member index).snapshots = family.original.snapshots :=
  snapshots_of_keyed (kin_member family kin index)

/-! What one act keeps. -/

theorem perform_original (family : Family) (act : Act) :
    (family.perform act).1.original = family.original := by
  cases act with
  | discard index =>
      rw [perform_discard]
      rfl
  | copy index how => rfl
  | register index checkpoint => rfl
  | other operation => rfl

/-- The registration of a member is one of the operations on its ledger. -/
theorem register_operation (family : Family) (index : Nat) (checkpoint : CheckpointId) :
    (outcome ((family.member index).register checkpoint) family.ledger).2 =
      family.ledger.perform (.register checkpoint [.operator (family.member index)]) := by
  rw [Ledger.perform, registerAll_flat, operator_register_flat, List.flatMap_cons,
    List.flatMap_nil, List.append_nil]
  rfl

theorem continues_record (family : Family) (later : Ledger)
    (continues : family.ledger.Continues later) :
    family.ledger.Continues (family.record later).ledger :=
  ⟨continues.intact, continues.next_le, continues.slotKeys, continues.marks⟩

theorem perform_continues (family : Family) (act : Act) :
    family.ledger.Continues (family.perform act).1.ledger := by
  cases act with
  | copy index how =>
      obtain ⟨same, next_le⟩ := copyOperator_store how (family.member index) family.store
      have unchanged : (family.perform (.copy index how)).1.ledger.store.snapshot =
          family.ledger.store.snapshot := same
      constructor
      case intact => exact id
      case next_le => exact next_le
      case slotKeys =>
        intro id _
        simp only [Store.slotKeys, unchanged]
      case marks =>
        intro id _ marked
        rw [unchanged]
        exact marked
  | register index checkpoint =>
      apply continues_record
      rw [register_operation]
      exact Ledger.continues_perform family.ledger _
  | discard index =>
      rw [perform_discard]
      exact Ledger.continues_refl family.ledger
  | other operation => exact continues_record _ _ (Ledger.continues_perform family.ledger operation)

theorem perform_kin (family : Family) (kin : family.Kin) (act : Act) :
    (family.perform act).1.Kin where
  keyed state member := by
    rw [perform_original]
    cases act with
    | copy index how =>
        rcases List.mem_append.mp member with older | made
        · exact kin.keyed state older
        · rw [List.mem_singleton.mp made, copyOperator_keyed, kin_member family kin]
    | discard index =>
        rw [perform_discard] at member
        exact kin.keyed state member
    | register index checkpoint => exact kin.keyed state member
    | other operation => exact kin.keyed state member
  held id inside := by
    rw [perform_original] at inside
    exact Nat.lt_of_lt_of_le (kin.held id inside) (perform_continues family act).next_le
  intact := (perform_continues family act).intact kin.intact

theorem perform_keeps_reference (family : Family) (kin : family.Kin) (act : Act) (key : String)
    (holder : CheckpointId) (spared : act.covers holder = false)
    (refers : family.registry.Refers key holder) :
    (family.perform act).1.registry.Refers key holder := by
  cases act with
  | copy index how => exact refers
  | register index checkpoint =>
      have kept := Ledger.perform_keeps_reference family.ledger kin.intact
        (.register checkpoint [.operator (family.member index)]) key holder rfl refers
      rw [← register_operation] at kept
      exact kept
  | discard index =>
      rw [perform_discard]
      exact refers
  | other operation =>
      exact Ledger.perform_keeps_reference family.ledger kin.intact operation key holder spared
        refers

/-! What is reached by a registration of any member that succeeds, and kept from then on. -/

/-- All incremental snapshots in the family count as registered. -/
def Marked (family : Family) : Prop :=
  ∀ id ∈ family.original.snapshots, (family.store.snapshot id).registered = true

/-- The checkpoint depends on the keys of all slots in the family. -/
def NeededBy (family : Family) (holder : CheckpointId) : Prop :=
  ∀ id ∈ family.original.snapshots, ∀ key ∈ family.store.slotKeys id,
    family.registry.Refers key holder

theorem register_joins (family : Family) (kin : family.Kin) (index : Nat)
    (checkpoint : CheckpointId)
    (accepted : (family.perform (.register index checkpoint)).2 = none) :
    (family.perform (.register index checkpoint)).1.Marked ∧
      (family.perform (.register index checkpoint)).1.NeededBy checkpoint := by
  have passed : outcome (registerEach checkpoint (family.member index).snapshots) family.ledger =
      (none, (outcome ((family.member index).register checkpoint) family.ledger).2) := by
    rw [← operator_register_flat]
    exact Prod.ext (Option.map_eq_none_iff.mp accepted) rfl
  have settled := registerEach_settles checkpoint _ _ _ passed
  rw [kin_snapshots family kin] at settled
  constructor
  · exact fun id inside => (settled id inside).marked
  · intro id inside key member
    obtain ⟨slot, there, same⟩ := List.mem_map.mp member
    exact same ▸ ((settled id inside).served slot there).needed

theorem perform_marked (family : Family) (kin : family.Kin) (marked : family.Marked) (act : Act) :
    (family.perform act).1.Marked := by
  intro id inside
  rw [perform_original] at inside
  exact (perform_continues family act).marks id (kin.held id inside) (marked id inside)

theorem perform_neededBy (family : Family) (kin : family.Kin) (holder : CheckpointId)
    (needed : family.NeededBy holder) (act : Act) (spared : act.covers holder = false) :
    (family.perform act).1.NeededBy holder := by
  intro id inside key member
  rw [perform_original] at inside
  have sameKeys := (perform_continues family act).slotKeys id (kin.held id inside)
  exact perform_keeps_reference family kin act key holder spared
    (needed id inside key (sameKeys ▸ member))

theorem after_kin (family : Family) (kin : family.Kin) (acts : List Act) :
    (family.after acts).Kin := by
  induction acts generalizing family with
  | nil => exact kin
  | cons act rest ih => exact ih _ (perform_kin family kin act)

theorem after_marked (family : Family) (kin : family.Kin) (marked : family.Marked)
    (acts : List Act) : (family.after acts).Marked := by
  induction acts generalizing family with
  | nil => exact marked
  | cons act rest ih =>
      exact ih _ (perform_kin family kin act) (perform_marked family kin marked act)

theorem after_neededBy (family : Family) (kin : family.Kin) (holder : CheckpointId)
    (needed : family.NeededBy holder) (acts : List Act)
    (spared : ∀ act ∈ acts, act.covers holder = false) :
    (family.after acts).NeededBy holder := by
  induction acts generalizing family with
  | nil => exact needed
  | cons act rest ih =>
      exact ih _ (perform_kin family kin act)
        (perform_neededBy family kin holder needed act (spared act List.mem_cons_self))
        fun later member => spared later (List.mem_cons_of_mem act member)

/-- Once the snapshots count as registered, a member discards only what is its own. -/
theorem discard_removes_own (family : Family) (kin : family.Kin) (marked : family.Marked)
    (index : Nat) :
    Removes ((family.read index).blobs Incremental.ownBlobs) family.directory
      (family.perform (.discard index)).1.directory := by
  have own : (family.read index).blobs Incremental.discarded =
      (family.read index).blobs Incremental.ownBlobs := by
    apply operator_blobs_congr
    intro id inside
    rw [kin_snapshots family kin] at inside
    rw [Incremental.discarded, marked id inside, if_pos rfl, List.append_nil]
  rw [perform_discard, own]
  exact forM_removes _ family.directory

theorem discards_remove_own (family : Family) (kin : family.Kin) (marked : family.Marked)
    (indices : List Nat) :
    Removes (indices.flatMap fun index => (family.read index).blobs Incremental.ownBlobs)
      family.directory (family.after (indices.map .discard)).directory := by
  induction indices generalizing family with
  | nil => exact removes_nothing [] family.directory
  | cons index rest ih =>
      have later := ih _ (perform_kin family kin (.discard index))
        (perform_marked family kin marked (.discard index))
      have unread (other : Nat) :
          (family.perform (.discard index)).1.read other = family.read other := by
        rw [perform_discard]
        rfl
      simp only [unread] at later
      exact removes_trans (discard_removes_own family kin marked index) later

end Family

open Family

/-- Some member of a family is registered with success, after and before anything else that
can happen to it. From then on all incremental snapshots in all members count as registered,
and the members show the same keyed state. They may be discarded in any order, and nothing
is removed but files of their metadata, private blobs and delegates. If a member is then
registered for another checkpoint, all keys stay with this one until it is released itself,
whichever others are released and whoever is discarded. -/
theorem restore_copies_spare_fragments (fleet : Fleet) (reachable : fleet.registry.Reachable)
    (original : OperatorCheckpoint SubtaskRef) (held : fleet.store.Holds (.operator original))
    (earlier : List Act) (one : Nat) (first : CheckpointId)
    (accepted :
      (((Family.mk fleet original []).after earlier).perform (.register one first)).2 = none)
    (later : List Act) :
    let family := (Family.mk fleet original []).after (earlier ++ .register one first :: later)
    (∀ index, ∀ id ∈ (family.member index).snapshots,
      (family.store.snapshot id).registered = true) ∧
    (∀ index other, (family.read index).subtasks.map SubtaskState.keyed =
      (family.read other).subtasks.map SubtaskState.keyed) ∧
    (∀ indices : List Nat, ∀ node ∈ family.directory.nodes,
      node ∉ (family.after (indices.map .discard)).directory.nodes →
      ∃ index ∈ indices, ∃ file,
        .file file ∈ (family.read index).blobs Incremental.ownBlobs ∧
        family.directory.findFile file.path = .ok (some node.1)) ∧
    (∀ other second, (family.perform (.register other second)).2 = none →
      ∀ more, (∀ act ∈ more, act.covers second = false) →
      let last := family.after (.register other second :: more)
      ∀ index, ∀ id ∈ (last.member index).snapshots,
        ∀ key ∈ last.store.slotKeys id,
          last.registry.contains key = .ok true ∧
          ∃ holders, last.registry.checkpointsOf key = .ok holders ∧
            second ∈ holders) := by
  intro family
  have kinStart : (Family.mk fleet original []).Kin := by
    constructor
    case keyed => exact fun state member => nomatch member
    case held => exact held
    case intact => exact (reachable_wellformed fleet.registry reachable).1
  have kinEarlier := after_kin _ kinStart earlier
  have kinJoined := perform_kin _ kinEarlier (.register one first)
  have reached : family = Family.after _ later := after_append _ earlier _
  have kin : family.Kin := reached ▸ after_kin _ kinJoined later
  have marked : family.Marked :=
    reached ▸ after_marked _ kinJoined (register_joins _ kinEarlier one first accepted).1 later
  refine ⟨?_, ?_, ?_, ?_⟩
  · intro index id inside
    exact marked id (kin_snapshots family kin index ▸ inside)
  · intro index other
    exact read_of_keyed
      ((kin_member family kin index).trans (kin_member family kin other).symm) _
  · intro indices node there gone
    obtain ⟨file, member, found⟩ :=
      (discards_remove_own family kin marked indices).named node there gone
    obtain ⟨index, inside, own⟩ := List.mem_flatMap.mp member
    exact ⟨index, inside, file, own, found⟩
  · intro other second again more spared last index id inside key member
    have kinAgain := perform_kin family kin (.register other second)
    have kinLast : last.Kin := after_kin _ kinAgain more
    have needed : last.NeededBy second :=
      after_neededBy _ kinAgain second (register_joins family kin other second again).2 more spared
    rw [kin_snapshots last kinLast] at inside
    have refers := needed id inside key member
    obtain ⟨holders, listed, _, exact, _⟩ :=
      checkpointsOf_view last.registry kinLast.intact key
    exact ⟨(contains_true_iff _ kinLast.intact _).mpr (refers_present _ _ _ refers),
      holders, listed, (exact second).mpr refers⟩

/-- The shared file and that of the metadata have absolute paths. A stripped and renamed
copy is registered for the first checkpoint, a copy of that copy for the second. The first
checkpoint is released, the original and the renamed copy are discarded, and the shared file
is still there. -/
theorem shared_file_outlives_original :
    let x : Blob := .file ⟨⟨[0x2F, 0x77, 0x2F, 0x78]⟩, 1⟩
    let m : Blob := .file ⟨⟨[0x2F, 0x77, 0x2F, 0x6D]⟩, 1⟩
    let c : Blob := .file ⟨⟨[0x63]⟩, 1⟩
    let snapshot : Incremental := ⟨1, .empty, [⟨"x", "a", x⟩], [], m, 2, false⟩
    let subtask : PlainSubtask :=
      ⟨[], [], [.incremental snapshot], [], [⟨0, [], c⟩], []⟩
    let made := Store.addSubtask subtask .empty
    let original : OperatorCheckpoint SubtaskRef :=
      { operator := .ofNat 7, parallelism := 1, maxParallelism := 1
        subtasks := SortedMap.empty.insert 0 made.1, coordinator := .unset
        parallelism_le := by decide
        index_lt := List.forall_mem_singleton.mpr (by decide) }
    let directory : Directory := ⟨[([[0x77]], .directory), ([[0x77], [0x78]], .file),
      ([[0x77], [0x6D]], .file), ([[0x77], [0x63]], .file)], [[0x77]]⟩
    let fleet : Fleet := ⟨made.2, .empty, ⟨.immediate, directory, []⟩⟩
    let earlier : List Act := [.copy 0 .withoutInFlight, .copy 1 (.rename (.ofNat 8))]
    let family := (Family.mk fleet original []).after (earlier ++ [.register 2 1, .copy 2 .clone])
    let more : List Act :=
      [.other (.call (.releaseCheckpoint 1)), .discard 0, .discard 2]
    let last := family.after (.register 3 2 :: more)
    fleet.registry.Reachable ∧ fleet.store.Holds (.operator original) ∧
      (((Family.mk fleet original []).after earlier).perform (.register 2 1)).2 = none ∧
      (family.perform (.register 3 2)).2 = none ∧
      last.directory = ⟨[([[0x77]], .directory), ([[0x77], [0x78]], .file)], [[0x77]]⟩ ∧
      last.registry.contains "x" = .ok true := by
  intro x m c snapshot subtask made original directory fleet earlier family more last
  have reachable : fleet.registry.Reachable := ⟨[], rfl⟩
  have held : fleet.store.Holds (.operator original) := by decide
  have accepted :
      (((Family.mk fleet original []).after earlier).perform (.register 2 1)).2 = none :=
    Option.isNone_iff_eq_none.mp (by decide)
  have again : (family.perform (.register 3 2)).2 = none :=
    Option.isNone_iff_eq_none.mp (by decide)
  obtain ⟨_, _, _, kept⟩ := restore_copies_spare_fragments fleet reachable original held earlier 2 1
    accepted [.copy 2 .clone]
  have spared : ∀ act ∈ more, act.covers 2 = false := by decide
  have inside : (⟨2⟩ : SnapshotId) ∈ (last.member 3).snapshots := by decide
  have shared : "x" ∈ last.store.slotKeys ⟨2⟩ := by decide
  have left : last.directory = ⟨[([[0x77]], .directory), ([[0x77], [0x78]], .file)], [[0x77]]⟩ := by
    decide
  obtain ⟨present, _⟩ := kept 3 2 again more spared 3 ⟨2⟩ inside "x" shared
  exact ⟨reachable, held, accepted, again, left, present⟩

end CheckpointLedger
