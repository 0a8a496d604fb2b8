import CheckpointLedger.Proofs.Registry.Run
import CheckpointLedger.Proofs.Sharing.Traversal

/-!
Runs of a registry together with the state around it: state is registered, the registry
is called, other snapshots are made. `Continues` says what every such run keeps.
-/

namespace CheckpointLedger

open Registry

/-- What can happen to a registry and the state around it: state is registered, the
registry is called, or another snapshot is made, be it new or a copy. -/
inductive Operation where
  | register (checkpoint : CheckpointId) (composites : List Composite)
  | call (call : Call)
  | make (snapshot : Incremental)

/-- The checkpoints whose references the operation drops. -/
def Operation.covers : Operation → CheckpointId → Bool
  | .call asked => asked.covers
  | _ => fun _ => false

namespace Ledger

def perform (ledger : Ledger) : Operation → Ledger
  | .register checkpoint composites => (outcome (registerAll checkpoint composites) ledger).2
  | .call call =>
      let next := ledger.registry.perform call
      { ledger with registry := next.1, effects := ledger.effects ++ next.2.effects }
  | .make snapshot => { ledger with store := (Store.add snapshot ledger.store).2 }

def after (ledger : Ledger) (operations : List Operation) : Ledger :=
  operations.foldl perform ledger

@[simp] theorem after_nil (ledger : Ledger) : ledger.after [] = ledger := rfl

@[simp] theorem after_cons (ledger : Ledger) (operation : Operation) (rest : List Operation) :
    ledger.after (operation :: rest) = (ledger.perform operation).after rest := rfl

end Ledger

/-- All that the state refers to has been made. -/
def Store.Holds (store : Store) (composite : Composite) : Prop :=
  ∀ id ∈ composite.snapshots, id.number < store.next

instance (store : Store) (composite : Composite) : Decidable (store.Holds composite) :=
  inferInstanceAs (Decidable (∀ id ∈ composite.snapshots, id.number < store.next))

def Store.slotKeys (store : Store) (id : SnapshotId) : List String :=
  (store.snapshot id).slots.map Slot.key

section Registration

variable (checkpoint : CheckpointId)

theorem registerSlots_keys (slots : List Slot) (registry : Registry) :
    (registerSlots checkpoint slots registry).slots.map Slot.key = slots.map Slot.key := by
  induction slots generalizing registry with
  | nil => rfl
  | cons slot rest ih =>
      rw [registerSlots]
      cases registry.reference slot.key slot.blob checkpoint with
      | error violation => rfl
      | ok made => simp [ih made.registry]

theorem register_next (id : SnapshotId) (ledger : Ledger) :
    (outcome (id.register checkpoint) ledger).2.store.next = ledger.store.next := by
  rw [outcome_register]
  rfl

theorem register_slotKeys (id : SnapshotId) (ledger : Ledger) :
    (outcome (id.register checkpoint) ledger).2.store.slotKeys = ledger.store.slotKeys := by
  funext other
  rw [outcome_register]
  by_cases same : other = id
  · subst other
    simp [Store.slotKeys, registerSlots_keys]
  · simp only [Store.slotKeys]
    rw [Store.snapshot_update_of_ne _ _ _ other same]

/-- What every single registration keeps, a traversal keeps, wherever it breaks off. -/
theorem registerEach_keeps (kept : Ledger → Prop)
    (keeps : ∀ (id : SnapshotId) (ledger : Ledger), kept ledger →
      kept (outcome (id.register checkpoint) ledger).2)
    (ids : List SnapshotId) (ledger : Ledger) (before : kept ledger) :
    kept (outcome (registerEach checkpoint ids) ledger).2 := by
  induction ids generalizing ledger with
  | nil => exact before
  | cons id rest ih =>
      have next := keeps id ledger before
      rcases result : outcome (id.register checkpoint) ledger with ⟨_ | violation, reached⟩ <;>
        rw [result] at next
      · rw [outcome_passed checkpoint id rest ledger reached result]
        exact ih reached next
      · rw [outcome_stopped checkpoint id rest ledger reached violation result]
        exact next

end Registration

namespace Ledger

/-- What is made later is made elsewhere. -/
theorem make_snapshot (ledger : Ledger) (snapshot : Incremental) (id : SnapshotId)
    (made : id.number < ledger.store.next) :
    (ledger.perform (.make snapshot)).store.snapshot id = ledger.store.snapshot id := by
  have older : id ≠ ⟨ledger.store.next⟩ := fun same => by simp [same] at made
  exact Store.snapshot_update_of_ne ledger.store ⟨ledger.store.next⟩ snapshot id older

/-- Operations lose no snapshot, rename no slot, take no mark away and do not break the
registry. -/
structure Continues (before after : Ledger) : Prop where
  intact : before.registry.status ≠ .poisoned → after.registry.status ≠ .poisoned
  next_le : before.store.next ≤ after.store.next
  slotKeys : ∀ id, id.number < before.store.next →
    after.store.slotKeys id = before.store.slotKeys id
  marks : ∀ id, id.number < before.store.next → (before.store.snapshot id).registered = true →
    (after.store.snapshot id).registered = true

theorem continues_refl (ledger : Ledger) : ledger.Continues ledger :=
  ⟨id, Nat.le_refl _, fun _ _ => rfl, fun _ _ marked => marked⟩

theorem continues_trans {first second third : Ledger} (early : first.Continues second)
    (late : second.Continues third) : first.Continues third where
  intact unbroken := late.intact (early.intact unbroken)
  next_le := Nat.le_trans early.next_le late.next_le
  slotKeys id made := by
    rw [late.slotKeys id (Nat.lt_of_lt_of_le made early.next_le), early.slotKeys id made]
  marks id made marked :=
    late.marks id (Nat.lt_of_lt_of_le made early.next_le) (early.marks id made marked)

theorem continues_register (checkpoint : CheckpointId) (id : SnapshotId) (ledger : Ledger) :
    ledger.Continues (outcome (id.register checkpoint) ledger).2 where
  intact unbroken := by
    obtain ⟨_, _, grown⟩ := register_registrations checkpoint id ledger
    rw [registrations_status grown]
    exact unbroken
  next_le := Nat.le_of_eq (register_next checkpoint id ledger).symm
  slotKeys other _ := congrFun (register_slotKeys checkpoint id ledger) other
  marks other _ marked := by
    rw [outcome_register]
    by_cases same : other = id
    · rw [same, Store.snapshot_update]
    · rw [Store.snapshot_update_of_ne _ _ _ other same]
      exact marked

theorem continues_perform (ledger : Ledger) (operation : Operation) :
    ledger.Continues (ledger.perform operation) := by
  cases operation with
  | register checkpoint composites =>
      rw [perform, registerAll_flat]
      exact registerEach_keeps checkpoint ledger.Continues
        (fun id middle before => continues_trans before (continues_register checkpoint id middle))
        _ ledger (continues_refl ledger)
  | call call =>
      constructor
      case intact =>
        intro unbroken
        exact step_intact (perform_step ledger.registry unbroken call) unbroken
      case next_le => exact Nat.le_refl _
      case slotKeys => exact fun _ _ => rfl
      case marks => exact fun _ _ marked => marked
  | make snapshot =>
      constructor
      case intact => exact id
      case next_le => exact Nat.le_succ _
      case slotKeys =>
        intro id made
        simp only [Store.slotKeys, make_snapshot ledger snapshot id made]
      case marks =>
        intro id made marked
        rw [make_snapshot ledger snapshot id made]
        exact marked

theorem continues_after (ledger : Ledger) (operations : List Operation) :
    ledger.Continues (ledger.after operations) := by
  induction operations generalizing ledger with
  | nil => exact continues_refl ledger
  | cons operation rest ih =>
      exact continues_trans (continues_perform ledger operation) (ih (ledger.perform operation))

/-- A checkpoint that is not released keeps what it depends on. -/
theorem perform_keeps_reference (ledger : Ledger) (intact : ledger.registry.status ≠ .poisoned)
    (operation : Operation) (key : String) (holder : CheckpointId)
    (spared : operation.covers holder = false) (refers : ledger.registry.Refers key holder) :
    (ledger.perform operation).registry.Refers key holder := by
  cases operation with
  | register checkpoint composites =>
      obtain ⟨_, _, grown⟩ :=
        registerEach_registrations checkpoint (composites.flatMap Composite.snapshots) ledger
      rw [perform, registerAll_flat]
      exact registrations_keep_reference grown key holder refers
  | call call =>
      have step := perform_step ledger.registry intact call
      refine (step_refers step key holder).mpr (Or.inr ⟨refers, ?_⟩)
      rintro ⟨_, covered⟩
      rw [step_call step] at covered
      exact absurd covered (Bool.eq_false_iff.mp spared)
  | make snapshot => exact refers

end Ledger

end CheckpointLedger
