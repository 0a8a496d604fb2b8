import CheckpointLedger.Proofs.Registry.Refinement
import CheckpointLedger.Proofs.Sharing.LedgerRun
import CheckpointLedger.Proofs.Sharing.Repetition
import Mathlib.Data.List.Infix

/-!
What registered state can rely on afterwards. Every slot holds the canonical blob of its
key, and the checkpoint is counted under the keys of the slots and under no others. The
slots stay canonical whatever is registered, released or closed later, for as long as
their key stays in the registry.
-/

namespace CheckpointLedger

open Registry

namespace Store

/-- The slots of all incremental snapshots in the state, in the order of registration. -/
def slotsOf (store : Store) (composite : Composite) : List Slot :=
  composite.snapshots.flatMap fun id => (store.snapshot id).slots

theorem slotsOf_keys (store : Store) (composite : Composite) :
    (store.slotsOf composite).map Slot.key = composite.snapshots.flatMap store.slotKeys := by
  rw [slotsOf, List.map_flatMap]
  rfl

end Store

section Registration

variable (checkpoint : CheckpointId)

theorem served_complete (slots : List Slot) (registry : Registry)
    (complete : (registerSlots checkpoint slots registry).refusal? = none) :
    served checkpoint slots registry = slots := by
  induction slots generalizing registry with
  | nil => rfl
  | cons slot rest ih =>
      rw [registerSlots] at complete
      rw [served]
      cases accepted : registry.reference slot.key slot.blob checkpoint with
      | error violation => simp [accepted] at complete
      | ok made =>
          rw [accepted] at complete
          exact congrArg (List.cons slot) (ih made.registry complete)

/-- A traversal that is not refused settles all snapshots that it goes through. -/
theorem registerEach_settles (ids : List SnapshotId) (ledger next : Ledger)
    (passed : outcome (registerEach checkpoint ids) ledger = (none, next)) :
    ∀ id ∈ ids, next.Settled checkpoint id := by
  induction ids generalizing ledger with
  | nil => exact fun _ member => nomatch member
  | cons first rest ih =>
      rcases result : outcome (first.register checkpoint) ledger with ⟨_ | violation, middle⟩
      · rw [outcome_passed checkpoint first rest ledger middle result] at passed
        intro id member
        rcases List.mem_cons.mp member with here | later
        · subst id
          have settled := settled_registerEach checkpoint rest middle first
            (register_settles checkpoint ledger middle first result)
          rw [passed] at settled
          exact settled
        · exact ih middle passed id later
      · rw [outcome_stopped checkpoint first rest ledger middle violation result] at passed
        cases passed

theorem register_refers (id : SnapshotId) (ledger next : Ledger)
    (passed : outcome (id.register checkpoint) ledger = (none, next)) (key : String)
    (holder : CheckpointId) :
    next.registry.Refers key holder ↔
      ledger.registry.Refers key holder ∨
        (holder = checkpoint ∧ key ∈ ledger.store.slotKeys id) := by
  rw [outcome_register, Prod.mk.injEq] at passed
  obtain ⟨complete, same⟩ := passed
  subst next
  rw [registerSlots_refers, served_complete checkpoint _ _ complete, Store.slotKeys, List.mem_map]

/-- The checkpoint is added under the keys of all slots, and nothing else changes. -/
theorem registerEach_refers (ids : List SnapshotId) (ledger next : Ledger)
    (passed : outcome (registerEach checkpoint ids) ledger = (none, next)) (key : String)
    (holder : CheckpointId) :
    next.registry.Refers key holder ↔
      ledger.registry.Refers key holder ∨
        (holder = checkpoint ∧ key ∈ ids.flatMap ledger.store.slotKeys) := by
  induction ids generalizing ledger with
  | nil =>
      cases passed
      simp
  | cons id rest ih =>
      rcases result : outcome (id.register checkpoint) ledger with ⟨_ | violation, middle⟩
      · rw [outcome_passed checkpoint id rest ledger middle result] at passed
        have sameKeys := register_slotKeys checkpoint id ledger
        rw [result] at sameKeys
        rw [ih middle passed, register_refers checkpoint id ledger middle result, sameKeys,
          List.flatMap_cons, List.mem_append, or_assoc, ← and_or_left]
      · rw [outcome_stopped checkpoint id rest ledger middle violation result] at passed
        cases passed

end Registration

namespace Ledger

/-- The snapshot's slots under the key hold its canonical blob. -/
def Canonical (ledger : Ledger) (id : SnapshotId) (key : String) : Prop :=
  ∀ slot ∈ (ledger.store.snapshot id).slots, slot.key = key →
    ledger.registry.blob? key = some slot.blob

theorem canonical_register (checkpoint : CheckpointId) (id : SnapshotId) (key : String)
    (other : SnapshotId) (ledger : Ledger) (canonical : ledger.Canonical id key) :
    (outcome (other.register checkpoint) ledger).2.Canonical id key := by
  rw [outcome_register]
  have kept : ∀ blob, ledger.registry.blob? key = some blob →
      (registerSlots checkpoint (ledger.store.snapshot other).slots
        ledger.registry).registry.blob? key = some blob :=
    registrations_keep_blob (registerSlots_registrations checkpoint _ _) key
  intro slot member sameKey
  by_cases same : id = other
  · subst id
    rw [Store.snapshot_update] at member
    obtain ⟨old, there, oldKey, source⟩ := registerSlots_slots checkpoint _ _ slot member
    rcases source with unchanged | replaced
    · rw [unchanged]
      exact kept old.blob (canonical old there (oldKey.symm.trans sameKey))
    · exact sameKey ▸ replaced
  · rw [Store.snapshot_update_of_ne _ _ _ id same] at member
    exact kept slot.blob (canonical slot member sameKey)

/-- An operation changes no slot that is canonical, unless it removes the key. -/
theorem canonical_perform (ledger : Ledger) (intact : ledger.registry.status ≠ .poisoned)
    (id : SnapshotId) (made : id.number < ledger.store.next) (key : String)
    (canonical : ledger.Canonical id key) (operation : Operation)
    (present : (ledger.perform operation).registry.blob? key ≠ none) :
    (ledger.perform operation).Canonical id key := by
  cases operation with
  | register checkpoint composites =>
      rw [perform, registerAll_flat]
      exact registerEach_keeps checkpoint (fun ledger => ledger.Canonical id key)
        (canonical_register checkpoint id key) _ ledger canonical
  | call call =>
      intro slot member sameKey
      exact step_keeps_blob (perform_step ledger.registry intact call) key slot.blob
        (canonical slot member sameKey) present
  | make snapshot =>
      intro slot member
      exact canonical slot (make_snapshot ledger snapshot id made ▸ member)

theorem canonical_after (ledger : Ledger) (intact : ledger.registry.status ≠ .poisoned)
    (id : SnapshotId) (made : id.number < ledger.store.next) (key : String)
    (canonical : ledger.Canonical id key) (operations : List Operation)
    (present : ∀ part, part <+: operations → (ledger.after part).registry.blob? key ≠ none) :
    (ledger.after operations).Canonical id key := by
  induction operations generalizing ledger with
  | nil => exact canonical
  | cons operation rest ih =>
      have continues := continues_perform ledger operation
      have first : [operation] <+: operation :: rest :=
        List.cons_prefix_cons.mpr ⟨rfl, List.nil_prefix⟩
      have next := canonical_perform ledger intact id made key canonical operation
        (present [operation] first)
      exact ih _ (continues.intact intact) (Nat.lt_of_lt_of_le made continues.next_le) next
        fun part begun => present (operation :: part) (List.cons_prefix_cons.mpr ⟨rfl, begun⟩)

end Ledger

theorem checkpointsOf_congr (first second : Registry) (intact : first.status ≠ .poisoned)
    (intact' : second.status ≠ .poisoned) (key : String)
    (same : ∀ holder, first.Refers key holder ↔ second.Refers key holder) :
    first.checkpointsOf key = second.checkpointsOf key := by
  obtain ⟨holders, listed, ascending, exact, _⟩ := checkpointsOf_view first intact key
  obtain ⟨others, listed', ascending', exact', _⟩ := checkpointsOf_view second intact' key
  have members : ∀ holder, holder ∈ holders ↔ holder ∈ others := by
    intro holder
    rw [exact, exact', same]
  have perm : holders.Perm others :=
    (List.perm_ext_iff_of_nodup (ascending.imp UInt64.ne_of_lt)
      (ascending'.imp UInt64.ne_of_lt)).mpr members
  have equal : holders = others :=
    perm.eq_of_pairwise (fun _ _ _ _ below above => absurd above (UInt64.lt_asymm below))
      ascending ascending'
  rw [listed, listed', equal]

/-! A registration that has succeeded, and what follows it. -/

section Registered

variable {registry : Registry} {store : Store} {composite : Composite}
  {checkpoint : CheckpointId} {ledger : Ledger}

theorem mem_slotsOf (store : Store) (composite : Composite) (slot : Slot) :
    slot ∈ store.slotsOf composite ↔
      ∃ id ∈ composite.snapshots, slot ∈ (store.snapshot id).slots :=
  List.mem_flatMap

theorem slotsOf_continued {later : Ledger} (continues : ledger.Continues later)
    (held : ledger.store.Holds composite) :
    (later.store.slotsOf composite).map Slot.key =
      (ledger.store.slotsOf composite).map Slot.key := by
  rw [Store.slotsOf_keys, Store.slotsOf_keys, List.flatMap_def, List.flatMap_def]
  congr 1
  exact List.map_congr_left fun id member => continues.slotKeys id (held id member)

variable (passed : outcome (registerEach checkpoint composite.snapshots) ⟨store, registry, []⟩ =
  (none, ledger))
include passed

theorem registered_wellformed (valid : registry.WellFormed) : ledger.registry.WellFormed := by
  obtain ⟨_, _, grown⟩ :=
    registerEach_registrations checkpoint composite.snapshots ⟨store, registry, []⟩
  rw [passed] at grown
  exact registrations_wellformed grown valid

theorem registered_continues : (Ledger.mk store registry []).Continues ledger := by
  have one := Ledger.continues_perform ⟨store, registry, []⟩ (.register checkpoint [composite])
  simp only [Ledger.perform, registerAll_flat, List.flatMap_cons, List.flatMap_nil,
    List.append_nil, passed] at one
  exact one

theorem registered_slot (slot : Slot) (member : slot ∈ ledger.store.slotsOf composite) :
    slot.Settled checkpoint ledger.registry := by
  obtain ⟨id, inside, here⟩ := (mem_slotsOf _ _ _).mp member
  exact (registerEach_settles checkpoint _ _ ledger passed id inside).served slot here

/-- Two slots of one snapshot under one key hold the same blob. -/
theorem registered_snapshot (id : SnapshotId) (inside : id ∈ composite.snapshots) (key : String) :
    ledger.Canonical id key := by
  intro slot member sameKey
  rw [← sameKey]
  exact ((registerEach_settles checkpoint _ _ ledger passed id inside).served slot member).canonical

theorem registered_checkpoints (intact : registry.status ≠ .poisoned) (key : String) :
    ∃ former holders, registry.checkpointsOf key = .ok former ∧
      ledger.registry.checkpointsOf key = .ok holders ∧
      if key ∈ (store.slotsOf composite).map Slot.key
      then ∀ holder, holder ∈ holders ↔ holder = checkpoint ∨ holder ∈ former
      else holders = former := by
  have sound := (registered_continues passed).intact intact
  have refers := registerEach_refers checkpoint _ _ ledger passed key
  simp only [← Store.slotsOf_keys] at refers
  obtain ⟨former, listed, _, exact, _⟩ := checkpointsOf_view registry intact key
  obtain ⟨holders, listed', _, exact', _⟩ := checkpointsOf_view ledger.registry sound key
  refine ⟨former, holders, listed, listed', ?_⟩
  split
  · rename_i own
    intro holder
    rw [exact, exact', refers, or_comm]
    simp [own]
  · rename_i other
    have same := checkpointsOf_congr ledger.registry registry sound intact key
      fun holder => by simp [refers, other]
    rw [listed, listed', Except.ok.injEq] at same
    exact same

theorem registered_after (intact : registry.status ≠ .poisoned) (held : store.Holds composite)
    (operations : List Operation) (slot : Slot)
    (member : slot ∈ (ledger.after operations).store.slotsOf composite)
    (present : ∀ part, part <+: operations →
      (ledger.after part).registry.contains slot.key = .ok true) :
    (ledger.after operations).registry.canonical? slot.key = .ok (some slot.blob) := by
  have continues := registered_continues passed
  have sound := continues.intact intact
  have unbroken : ∀ part, (ledger.after part).registry.status ≠ .poisoned := fun part =>
    (Ledger.continues_after ledger part).intact sound
  obtain ⟨id, inside, here⟩ := (mem_slotsOf _ _ _).mp member
  have canonical := Ledger.canonical_after ledger sound id
    (Nat.lt_of_lt_of_le (held id inside) continues.next_le) slot.key
    (registered_snapshot passed id inside slot.key) operations
    fun part begun => (contains_true_iff _ (unbroken part) _).mp (present part begun)
  rw [canonical?_view _ (unbroken operations), canonical slot here rfl]

end Registered

/-- After a registration that succeeds, each slot of the state holds the real blob that is
canonical for its key. The checkpoint now depends on the keys of the slots, and otherwise
all keys have the checkpoints they had. A slot has the canonical blob of its key as long
as no release removes the key, whatever else is registered, released, closed or made. -/
theorem slots_stay_canonical (registry : Registry) (reachable : registry.Reachable)
    (store : Store) (composite : Composite) (held : store.Holds composite)
    (checkpoint : CheckpointId)
    (accepted : (outcome (composite.register checkpoint) ⟨store, registry, []⟩).1 = none) :
    let ledger := (outcome (composite.register checkpoint) ⟨store, registry, []⟩).2
    let keys := (store.slotsOf composite).map Slot.key
    (∀ slot ∈ ledger.store.slotsOf composite,
      ledger.registry.canonical? slot.key = .ok (some slot.blob) ∧
      slot.blob.isPlaceholder = false) ∧
    (∀ key, ∃ former holders, registry.checkpointsOf key = .ok former ∧
      ledger.registry.checkpointsOf key = .ok holders ∧
      if key ∈ keys then ∀ holder, holder ∈ holders ↔ holder = checkpoint ∨ holder ∈ former
      else holders = former) ∧
    (∀ operations, ((ledger.after operations).store.slotsOf composite).map Slot.key = keys ∧
      ∀ slot ∈ (ledger.after operations).store.slotsOf composite,
        (∀ part, part <+: operations →
          (ledger.after part).registry.contains slot.key = .ok true) →
        (ledger.after operations).registry.canonical? slot.key = .ok (some slot.blob)) := by
  intro ledger keys
  obtain ⟨intact, valid⟩ := reachable_wellformed registry reachable
  have passed : outcome (registerEach checkpoint composite.snapshots) ⟨store, registry, []⟩ =
      (none, ledger) := by
    rw [← composite_register_flat]
    exact Prod.ext accepted rfl
  have continues := registered_continues passed
  refine ⟨?_, registered_checkpoints passed intact, ?_⟩
  · intro slot member
    have settled := registered_slot passed slot member
    rw [canonical?_view _ (continues.intact intact), settled.canonical]
    exact ⟨rfl, (registered_wellformed passed valid).real _ _ settled.canonical⟩
  · intro operations
    constructor
    · exact slotsOf_continued
        (Ledger.continues_trans continues (Ledger.continues_after ledger operations)) held
    · exact registered_after passed intact held operations

/-- The two snapshots have one slot in common. Both are registered again, a third one is
made, and of the three checkpoints that depended on the key the first two are released. -/
theorem adopted_slot_outlives_releases :
    let x : Blob := .file ⟨⟨[0x78]⟩, 1⟩
    let y : Blob := .file ⟨⟨[0x79]⟩, 1⟩
    let registry := empty.after [.reference "x" x 7]
    let first : Incremental :=
      ⟨1, .empty, [⟨"x", "a", .placeholder ⟨"x", 1⟩⟩, ⟨"y", "b", y⟩], [], .inline ⟨"m", []⟩, 1,
        false⟩
    let second : Incremental :=
      ⟨1, .empty, [⟨"x", "c", .placeholder ⟨"x", 1⟩⟩], [], .inline ⟨"m", []⟩, 0, false⟩
    let store := (Store.add second (Store.add first .empty).2).2
    let composite : Composite :=
      .keyedCollection ⟨2, [.incremental ⟨0⟩, .incremental ⟨1⟩, .incremental ⟨0⟩]⟩
    let ledger := (outcome (composite.register 1) ⟨store, registry, []⟩).2
    let operations : List Operation :=
      [.register 2 [.keyed (.incremental ⟨1⟩), .keyed (.incremental ⟨0⟩)], .make first,
        .call (.releaseBelow 2), .call .close, .call (.releaseCheckpoint 7)]
    registry.Reachable ∧ store.Holds composite ∧
      (outcome (composite.register 1) ⟨store, registry, []⟩).1 = none ∧
      (store.slotsOf composite).map Slot.blob =
        [.placeholder ⟨"x", 1⟩, y, .placeholder ⟨"x", 1⟩, .placeholder ⟨"x", 1⟩, y] ∧
      ((ledger.after operations).store.slotsOf composite).map Slot.blob = [x, y, x, x, y] ∧
      (ledger.after operations).registry.checkpointsOf "x" = .ok [2] ∧
      (ledger.after operations).registry.canonical? "x" = .ok (some x) := by
  intro x y registry first second store composite ledger operations
  have reachable : registry.Reachable := ⟨[.reference "x" x 7], rfl⟩
  have held : store.Holds composite := by decide
  have accepted : (outcome (composite.register 1) ⟨store, registry, []⟩).1 = none := by decide
  have present : ∀ part, part <+: operations →
      (ledger.after part).registry.contains "x" = .ok true := by
    intro part begun
    have listed := (List.mem_inits part operations).mpr begun
    have every : ∀ part ∈ operations.inits,
        (ledger.after part).registry.contains "x" = .ok true := by decide
    exact every part listed
  obtain ⟨_, _, later⟩ :=
    slots_stay_canonical registry reachable store composite held 1 accepted
  have canonical := (later operations).2 ⟨"x", "a", x⟩ (by decide) present
  exact ⟨reachable, held, accepted, by decide, by decide, by decide, canonical⟩

end CheckpointLedger
