import CheckpointLedger.Proofs.Binary.RoundTrip
import CheckpointLedger.Proofs.Sharing.Additions
import CheckpointLedger.Proofs.Sharing.Places
import CheckpointLedger.Proofs.Snapshot.ExactSizes

/-!
What counts as written for a snapshot, whatever becomes of it. Registration, with any number
of registries, puts other blobs into its slots; copies and stored forms go on from there. The
size that was recorded when the snapshot was taken is kept by all of them, and limits what is
counted.
-/

namespace CheckpointLedger

/-- What can happen to snapshots: operations on one of the registries and the state around it,
copies, and forms that are written and read back. -/
inductive Passage where
  | operate (registry : Nat) (operation : Operation)
  | copy (id : SnapshotId)
  | reload (id : SnapshotId)

/-- What the stored form of the state gives back, if it can be written. -/
def Store.reloadKeyed (state : KeyedRef) (store : Store) : Option (KeyedRef × Store) := do
  let bytes ← (Codec.keyedState.encode (store.readKeyed state)).toOption
  let restored ← (Codec.keyedState.decode bytes).toOption
  return addKeyed restored.1 store

/-- A snapshot is among its heirs, and so is what was made from an heir. -/
structure Descent where
  store : Store
  registries : Nat → Registry
  heirs : List SnapshotId

namespace Descent

def read (descent : Descent) (id : SnapshotId) : Incremental := descent.store.snapshot id

/-- A snapshot that was just taken. -/
def start (taken : Incremental) (store : Store) (registries : Nat → Registry) : Descent :=
  let added := Store.add taken store
  ⟨added.2, registries, [added.1]⟩

def gain (descent : Descent) (source : SnapshotId) (made : KeyedRef × Store) : Descent :=
  { descent with
    store := made.2
    heirs :=
      if source ∈ descent.heirs then made.1.snapshots ++ descent.heirs else descent.heirs }

def perform (descent : Descent) : Passage → Descent
  | .operate index operation =>
      let next := (Ledger.mk descent.store (descent.registries index) []).perform operation
      { descent with
        store := next.store
        registries := fun other =>
          if other = index then next.registry else descent.registries other }
  | .copy id => descent.gain id (descent.store.copyKeyed (.incremental id))
  | .reload id => match descent.store.reloadKeyed (.incremental id) with
      | some made => descent.gain id made
      | none => descent

def after (descent : Descent) (passages : List Passage) : Descent :=
  passages.foldl perform descent

/-- The heirs differ from the snapshot in what registration may change only. -/
def Inherits (descent : Descent) (taken : Incremental) : Prop :=
  ∀ id ∈ descent.heirs,
    id.number < descent.store.next ∧ (descent.read id).bare = taken.bare

end Descent

/-! One passage. -/

theorem registerAll_bare (checkpoint : CheckpointId) (composites : List Composite)
    (ledger : Ledger) (id : SnapshotId) :
    ((outcome (registerAll checkpoint composites) ledger).2.store.snapshot id).bare =
      (ledger.store.snapshot id).bare := by
  obtain ⟨reached, passed, _, _, goes, same, _⟩ := registerEach_places checkpoint
    (composites.flatMap Composite.snapshots) [] ledger
  have kept := registerPlaces_keeps (Store.overSnapshots Incremental.bare)
    (fun place _ store slot blob found => store.bare_putSlot place slot blob found) goes
  rw [registerAll_flat]
  have marked := congrArg (fun result => result.2.store.overSnapshots Incremental.bare) same
  have whole := (marked.trans (Store.bare_marked _ reached)).trans kept
  exact congrFun (congrArg Store.snapshot whole) id

theorem perform_bare (ledger : Ledger) (operation : Operation) (id : SnapshotId)
    (made : id.number < ledger.store.next) :
    ((ledger.perform operation).store.snapshot id).bare = (ledger.store.snapshot id).bare := by
  cases operation with
  | register checkpoint composites => exact registerAll_bare checkpoint composites ledger id
  | call call => rfl
  | make snapshot => rw [Ledger.make_snapshot ledger snapshot id made]

/-- A snapshot that can be written comes back, but for its registration. -/
theorem reloadKeyed_incremental (id : SnapshotId) (store : Store) (made : KeyedRef × Store)
    (reloaded : store.reloadKeyed (.incremental id) = some made) :
    made = Store.addKeyed (.incremental (store.snapshot id).unregistered) store := by
  rw [Store.reloadKeyed] at reloaded
  cases written : Codec.keyedState.encode (store.readKeyed (.incremental id)) with
  | error fault => simp [written, Except.toOption] at reloaded
  | ok bytes =>
      have restored := Codec.keyedState_faithful.restores _ bytes written []
      rw [List.append_nil] at restored
      simp only [written, restored, Except.toOption, Option.bind_eq_bind, Option.bind_some,
        Option.pure_def, Option.some.injEq] at reloaded
      exact reloaded.symm

namespace Descent

variable {taken : Incremental}

theorem gain_inherits {descent : Descent} (inherits : descent.Inherits taken)
    (source : SnapshotId) (snapshot : Incremental)
    (like : snapshot.bare = (descent.read source).bare) :
    (descent.gain source (Store.addKeyed (.incremental snapshot) descent.store)).Inherits
      taken := by
  have added := Store.addKeyed_adds (.incremental snapshot) descent.store
  -- The heirs so far have been made before, and stay what they are.
  have older : ∀ id ∈ descent.heirs,
      id.number < (Store.addKeyed (.incremental snapshot) descent.store).2.next ∧
      ((Store.addKeyed (.incremental snapshot) descent.store).2.snapshot id).bare =
        taken.bare := by
    intro id member
    obtain ⟨made, same⟩ := inherits id member
    refine ⟨Nat.lt_of_lt_of_le made added.later.next_le, ?_⟩
    rw [added.later.snapshots id made]
    exact same
  intro id member
  rw [gain] at member ⊢
  split at member
  · rename_i inside
    rcases List.mem_cons.mp member with rfl | old
    · have reads := congrArg (KeyedState.map Incremental.bare) added.reads
      obtain ⟨_, same⟩ := inherits source inside
      exact ⟨added.known _ (List.mem_singleton_self _),
        (KeyedState.incremental.inj reads).trans (like.trans same)⟩
    · exact older id old
  · exact older id member

theorem perform_inherits {descent : Descent} (inherits : descent.Inherits taken)
    (passage : Passage) : (descent.perform passage).Inherits taken := by
  cases passage with
  | operate index operation =>
      intro id member
      obtain ⟨made, same⟩ := inherits id member
      have continues := Ledger.continues_perform
        ⟨descent.store, descent.registries index, []⟩ operation
      exact ⟨Nat.lt_of_lt_of_le made continues.next_le,
        (perform_bare _ operation id made).trans same⟩
  | copy id => exact gain_inherits inherits id (descent.read id) rfl
  | reload id =>
      rw [perform]
      cases reloaded : descent.store.reloadKeyed (.incremental id) with
      | none => exact inherits
      | some made =>
          rw [reloadKeyed_incremental id descent.store made reloaded]
          exact gain_inherits inherits id _ rfl

theorem after_inherits {descent : Descent} (inherits : descent.Inherits taken)
    (passages : List Passage) : (descent.after passages).Inherits taken := by
  induction passages generalizing descent with
  | nil => exact inherits
  | cons passage rest ih => exact ih (perform_inherits inherits passage)

theorem start_inherits (store : Store) (registries : Nat → Registry) :
    (start taken store registries).Inherits taken := by
  intro id member
  cases List.mem_singleton.mp member
  exact ⟨Nat.lt_succ_self _, congrArg Incremental.bare (Store.snapshot_update store _ taken)⟩

/-- No heir is lost. -/
theorem after_heirs (descent : Descent) (passages : List Passage) :
    descent.heirs ⊆ (descent.after passages).heirs := by
  have gained : ∀ (descent : Descent) (source : SnapshotId) (made : KeyedRef × Store),
      descent.heirs ⊆ (descent.gain source made).heirs := by
    intro descent source made id member
    rw [gain]
    split
    · exact List.mem_append_right _ member
    · exact member
  induction passages generalizing descent with
  | nil => exact fun id member => member
  | cons passage rest ih =>
      refine List.Subset.trans ?_ (ih (descent.perform passage))
      cases passage with
      | operate index operation => exact fun id member => member
      | copy id => exact gained descent id _
      | reload id =>
          rw [perform]
          split
          · exact gained descent id _
          · exact fun id member => member

end Descent

/-! What is counted. -/

/-- If the first blob was stored, the second one is at least as large. -/
def Blob.Outweighed (old new : Blob) : Prop := old.isPlaceholder = false → old.bytes ≤ new.bytes

instance (old new : Blob) : Decidable (old.Outweighed new) :=
  inferInstanceAs (Decidable (_ → _))

theorem realBytes_cons (blob : Blob) (rest : List Blob) :
    realBytes (blob :: rest) =
      (if blob.isPlaceholder then 0 else blob.bytes) + realBytes rest := by
  cases placeholder : blob.isPlaceholder <;> simp [realBytes, placeholder]

theorem realBytes_le {before after : List Blob}
    (outweighed : List.Forall₂ Blob.Outweighed before after) :
    realBytes before ≤ (after.map Blob.bytes).sum := by
  induction outweighed with
  | nil => exact Nat.le_refl 0
  | @cons old new _ _ first _ ih =>
      -- What stands for a placeholder may be of any size.
      rw [realBytes_cons, List.map_cons, List.sum_cons]
      refine Nat.add_le_add ?_ ih
      cases placeholder : old.isPlaceholder with
      | false => exact first placeholder
      | true => exact Nat.zero_le _

theorem snapshotBlobs_outweighed {slots later : List Slot} (privateBlobs : List Blob)
    (manifest : Blob)
    (outweighed : List.Forall₂ (fun old new => old.blob.Outweighed new.blob) slots later) :
    List.Forall₂ Blob.Outweighed (snapshotBlobs slots privateBlobs manifest)
      (snapshotBlobs later privateBlobs manifest) := by
  have own : List.Forall₂ Blob.Outweighed (manifest :: privateBlobs) (manifest :: privateBlobs) :=
    List.forall₂_same.mpr fun blob _ _ => Nat.le_refl blob.bytes
  have shared : List.Forall₂ Blob.Outweighed (slots.map Slot.blob) (later.map Slot.blob) :=
    List.forall₂_map_left_iff.mpr (List.forall₂_map_right_iff.mpr outweighed)
  exact List.rel_append own shared

/-- A snapshot that was just taken has recorded what its blobs hold. -/
theorem take_fields {checkpoint : CheckpointId} {range : KeyGroups} {slots : List Slot}
    {privateBlobs : List Blob} {manifest : Blob} {taken : Incremental}
    (possible : Incremental.take? checkpoint range slots privateBlobs manifest = some taken) :
    taken.slots = slots ∧ taken.leaves = snapshotBlobs slots privateBlobs manifest ∧
      taken.recordedSize.toNat = realBytes taken.leaves := by
  have recorded := take_recorded checkpoint range slots privateBlobs manifest
  rw [possible, Option.map_some, eq_comm, Size.ofNat_eq_some] at recorded
  obtain ⟨size, -, made⟩ := Option.bind_eq_some_iff.mp possible
  cases made
  exact ⟨rfl, rfl, recorded⟩

/-- What registration does not change. -/
theorem bare_fields {now taken : Incremental} (same : now.bare = taken.bare) :
    now.slots.map Slot.key = taken.slots.map Slot.key ∧
      now.leaves = snapshotBlobs now.slots taken.privateBlobs taken.manifest ∧
      now.recordedSize = taken.recordedSize := by
  obtain ⟨checkpoint, range, slots, privateBlobs, manifest, recorded, registered⟩ := now
  simp only [Incremental.bare, Incremental.mk.injEq] at same
  obtain ⟨-, -, slots, rfl, rfl, rfl, -⟩ := same
  have keys := congrArg (List.map Slot.key) slots
  rw [List.map_map, List.map_map] at keys
  exact ⟨keys, rfl, rfl⟩

/-- The recorded size is what counts, as far as the size reaches. -/
theorem inherited_size {now taken : Incremental}
    (recorded : taken.recordedSize.toNat = realBytes taken.leaves)
    (same : now.bare = taken.bare) (size : UInt64) (fits : stateSize now = some size) :
    ∃ counted, writtenSize now = some counted ∧
      counted.toNat = min (realBytes taken.leaves) size.toNat ∧
      (List.Forall₂ (fun old new => old.blob.Outweighed new.blob) taken.slots now.slots →
        counted.toNat = realBytes taken.leaves) := by
  obtain ⟨-, leaves, figure⟩ := bare_fields same
  have counted : writtenSize now = some (min taken.recordedSize size) := by
    rw [← figure]
    exact congrArg (Option.map _) fits
  have limited : (min taken.recordedSize size).toNat =
      min (realBytes taken.leaves) size.toNat := by
    rw [← recorded]
    exact UInt64.toNat_min _ _
  have whole : size.toNat = (now.leaves.map Blob.bytes).sum := by
    have sum := keyed_sum (.incremental now)
    rw [blobs_exact] at sum
    exact (Size.ofNat_eq_some _ _).mp (sum.symm.trans fits)
  refine ⟨_, counted, limited, fun outweighed => ?_⟩
  rw [limited, whole, leaves]
  exact Nat.min_eq_left (realBytes_le (snapshotBlobs_outweighed _ _ outweighed))

/-- Whatever becomes of a snapshot, of its copies and of what its stored forms give back, in any
number of registries: what counts as written is the number of bytes that were written when it
was taken, as far as its size reaches. Blobs that registration has put in the place of
placeholders do not count, however large they are. The number is exact as long as no blob that
was stored has given way to a smaller one. -/
theorem reused_bytes_never_count (checkpoint : CheckpointId) (range : KeyGroups)
    (slots : List Slot) (privateBlobs : List Blob) (manifest : Blob) (taken : Incremental)
    (possible : Incremental.take? checkpoint range slots privateBlobs manifest = some taken)
    (store : Store) (registries : Nat → Registry) (passages : List Passage) :
    let written := realBytes (snapshotBlobs slots privateBlobs manifest)
    let last := (Descent.start taken store registries).after passages
    ⟨store.next⟩ ∈ last.heirs ∧ ∀ id ∈ last.heirs,
      let now := last.read id
      now.slots.map Slot.key = slots.map Slot.key ∧
      ∀ size, stateSize now = some size → ∃ counted, writtenSize now = some counted ∧
        counted.toNat = min written size.toNat ∧ counted.toNat ≤ written ∧
        (List.Forall₂ (fun old new => old.blob.Outweighed new.blob) slots now.slots →
          counted.toNat = written) := by
  intro written last
  refine ⟨Descent.after_heirs _ passages (List.mem_singleton_self _), fun id member => ?_⟩
  obtain ⟨-, same⟩ :=
    Descent.after_inherits (Descent.start_inherits store registries) passages id member
  obtain ⟨own, leaves, recorded⟩ := take_fields possible
  obtain ⟨keys, -, -⟩ := bare_fields same
  refine ⟨own ▸ keys, fun size fits => ?_⟩
  obtain ⟨counted, stated, limited, exact⟩ := inherited_size recorded same size fits
  rw [leaves] at limited exact
  rw [own] at exact
  exact ⟨counted, stated, limited, limited ▸ Nat.min_le_left _ _, exact⟩

/-- A copy of the snapshot is registered where another checkpoint has left a larger blob in the
place of its placeholder, and what its stored form gives back is registered where smaller ones
stand. The copy still counts what was written, and the other one as much as it has left. -/
theorem replaced_twice_counted :
    let slots : List Slot :=
      [⟨"x", "a", .placeholder ⟨"x", 9⟩⟩, ⟨"y", "b", .file ⟨⟨[0x79]⟩, 3⟩⟩]
    let manifest : Blob := .inline ⟨"m", [1, 2]⟩
    let taken : Incremental := ⟨1, .empty, slots, [], manifest, 5, false⟩
    let registries : Nat → Registry := fun index =>
      let size : UInt64 := if index = 0 then 100 else 1
      Registry.empty.after
        [.reference "x" (.file ⟨⟨[0x78]⟩, size⟩) 7, .reference "y" (.file ⟨⟨[0x79]⟩, size⟩) 7]
    let passages : List Passage :=
      [.copy ⟨0⟩, .operate 0 (.register 1 [.keyed (.incremental ⟨1⟩)]),
        .operate 0 (.call (.releaseCheckpoint 7)), .reload ⟨1⟩,
        .operate 1 (.register 2 [.keyed (.incremental ⟨2⟩)])]
    let last := (Descent.start taken .empty registries).after passages
    let copied := last.read ⟨1⟩
    let restored := last.read ⟨2⟩
    Incremental.take? 1 .empty slots [] manifest = some taken ∧ last.heirs = [⟨2⟩, ⟨1⟩, ⟨0⟩] ∧
      (stateSize copied = some 202 ∧
        ∃ counted, writtenSize copied = some counted ∧ counted.toNat = 5) ∧
      stateSize restored = some 4 ∧
        ∃ counted, writtenSize restored = some counted ∧ counted.toNat = 4 := by
  intro slots manifest taken registries passages last copied restored
  have possible : Incremental.take? 1 .empty slots [] manifest = some taken := by decide
  have heirs : last.heirs = [⟨2⟩, ⟨1⟩, ⟨0⟩] := by decide +kernel
  have larger : stateSize copied = some 202 := by decide +kernel
  have smaller : stateSize restored = some 4 := by decide +kernel
  have inside : ⟨1⟩ ∈ last.heirs ∧ ⟨2⟩ ∈ last.heirs := by
    rw [heirs]
    decide
  have outweighed :
      List.Forall₂ (fun old new => old.blob.Outweighed new.blob) slots copied.slots := by
    decide +kernel
  obtain ⟨_, inherited⟩ := reused_bytes_never_count 1 .empty slots [] manifest taken possible
    .empty registries passages
  obtain ⟨whole, counted, _, _, exact⟩ := (inherited ⟨1⟩ inside.1).2 202 larger
  obtain ⟨part, left, limited, _⟩ := (inherited ⟨2⟩ inside.2).2 4 smaller
  have written : realBytes (snapshotBlobs slots [] manifest) = 5 := by decide
  rw [written] at exact limited
  exact ⟨possible, heirs, ⟨larger, whole, counted, exact outweighed⟩, smaller, part, left, limited⟩

end CheckpointLedger
