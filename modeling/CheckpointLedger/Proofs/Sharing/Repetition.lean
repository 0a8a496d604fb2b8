import CheckpointLedger.Proofs.Sharing.Traversal

/-!
State that is registered again for the same checkpoint. A slot that the registry has
served is settled: it holds the registry's blob, and the checkpoint depends on its key.
Later registrations leave it so, and registering it once more does nothing. Hence a
second traversal passes all that the first one passed, and stops where that one stopped.
-/

namespace CheckpointLedger

open Registry

structure Slot.Settled (checkpoint : CheckpointId) (registry : Registry) (slot : Slot) : Prop where
  accepting : registry.status = .accepting
  canonical : registry.blob? slot.key = some slot.blob
  needed : registry.Refers slot.key checkpoint

section Slots

variable {checkpoint : CheckpointId} {registry : Registry} {slot : Slot}

theorem duplicate_self (blob : Blob) : duplicate blob blob = [] := by
  simp [duplicate]

/-- Registering a settled slot changes nothing. -/
theorem reference_unchanged {made : Reference} (settled : slot.Settled checkpoint registry)
    (accepted : registry.reference slot.key slot.blob checkpoint = .ok made) :
    made.registry = registry ∧ made.canonical = slot.blob := by
  have same : made.canonical = slot.blob := by
    rcases reference_canonical accepted with known | ⟨absent, _⟩
    · exact Option.some.inj (known.symm.trans settled.canonical)
    · simp [settled.canonical] at absent
  refine ⟨ext_views _ _ ?_ ?_ ?_, same⟩
  · rw [(reference_cases accepted).2.1, settled.accepting]
  · intro key
    rw [reference_blob? accepted, same]
    by_cases own : key = slot.key
    · rw [if_pos own, own, settled.canonical]
    · rw [if_neg own]
  · intro key holder
    rw [reference_refers accepted]
    apply or_iff_right_of_imp
    rintro ⟨own, holds⟩
    exact own ▸ holds ▸ settled.needed

/-- A settled slot is accepted, and nothing comes of it but a report. -/
theorem reference_settled (settled : slot.Settled checkpoint registry) :
    ∃ event, registry.reference slot.key slot.blob checkpoint =
      .ok ⟨registry, slot.blob, [.report event]⟩ := by
  obtain ⟨made, accepted⟩ := reference_accepted registry slot.key slot.blob checkpoint
    settled.accepting (Or.inl (by simp [settled.canonical]))
  obtain ⟨unchanged, same⟩ := reference_unchanged settled accepted
  rcases reference_effects accepted with ⟨absent, _⟩ | ⟨_, references, reported⟩
  · simp [settled.canonical] at absent
  · rw [same, duplicate_self] at reported
    exact ⟨_, by rw [accepted, ← reported, ← same, ← unchanged]⟩

theorem reference_settles {blob : Blob} {made : Reference}
    (accepted : registry.reference slot.key blob checkpoint = .ok made) :
    Slot.Settled checkpoint made.registry { slot with blob := made.canonical } where
  accepting := (reference_cases accepted).2.1
  canonical := by rw [reference_blob? accepted, if_pos rfl]
  needed := (reference_refers accepted slot.key checkpoint).mpr (Or.inl ⟨rfl, rfl⟩)

theorem settled_grown {covered : CheckpointId → Bool} {effects : List Effect} {after : Registry}
    (grown : Registrations covered registry effects after)
    (settled : slot.Settled checkpoint registry) : slot.Settled checkpoint after where
  accepting := (registrations_status grown).trans settled.accepting
  canonical := registrations_keep_blob grown _ _ settled.canonical
  needed := registrations_keep_reference grown _ _ settled.needed

/-- A run passes a settled slot. -/
theorem registerSlots_pass (settled : slot.Settled checkpoint registry) (rest : List Slot) :
    ∃ event, registerSlots checkpoint (slot :: rest) registry =
      let tail := registerSlots checkpoint rest registry
      { tail with slots := slot :: tail.slots, effects := .report event :: tail.effects } := by
  obtain ⟨event, accepted⟩ := reference_settled settled
  exact ⟨event, by rw [registerSlots, accepted]; rfl⟩

variable (checkpoint) in
theorem registerSlots_settled (slots : List Slot)
    (settled : ∀ slot ∈ slots, slot.Settled checkpoint registry) :
    ∃ reports, disposals reports = [] ∧
      registerSlots checkpoint slots registry = ⟨slots, registry, reports, none⟩ := by
  induction slots with
  | nil => exact ⟨[], rfl, rfl⟩
  | cons slot rest ih =>
      obtain ⟨event, passed⟩ := registerSlots_pass (settled slot List.mem_cons_self) rest
      obtain ⟨reports, quiet, done⟩ :=
        ih fun other member => settled other (List.mem_cons_of_mem slot member)
      exact ⟨.report event :: reports, quiet, by rw [passed, done]⟩

variable (checkpoint)

/-- The first slot of an accepted registration is settled by the end of the run. -/
theorem registerSlots_settles_first {made : Reference} (rest : List Slot)
    (accepted : registry.reference slot.key slot.blob checkpoint = .ok made) :
    Slot.Settled checkpoint (registerSlots checkpoint rest made.registry).registry
      { slot with blob := made.canonical } :=
  settled_grown (registerSlots_registrations checkpoint rest made.registry)
    (reference_settles accepted)

/-- A run that is not refused settles all its slots. -/
theorem registerSlots_settles (slots : List Slot) (registry : Registry)
    (complete : (registerSlots checkpoint slots registry).refusal? = none) :
    ∀ slot ∈ (registerSlots checkpoint slots registry).slots,
      slot.Settled checkpoint (registerSlots checkpoint slots registry).registry := by
  induction slots generalizing registry with
  | nil => exact fun _ member => nomatch member
  | cons first rest ih =>
      rw [registerSlots] at complete ⊢
      cases accepted : registry.reference first.key first.blob checkpoint with
      | error violation => simp [accepted] at complete
      | ok made =>
          rw [accepted] at complete
          intro slot member
          rcases List.mem_cons.mp member with here | later
          · exact here ▸ registerSlots_settles_first checkpoint rest accepted
          · exact ih made.registry complete slot later

/-- A second run over the slots that the first one left goes exactly as far. -/
theorem registerSlots_again (slots : List Slot) (registry : Registry) :
    let run := registerSlots checkpoint slots registry
    ∃ reports, disposals reports = [] ∧
      registerSlots checkpoint run.slots run.registry = { run with effects := reports } := by
  induction slots generalizing registry with
  | nil => exact ⟨[], rfl, rfl⟩
  | cons first rest ih =>
      intro run
      cases result : registry.reference first.key first.blob checkpoint with
      | error violation =>
          -- Nothing has changed, so the same slot is refused for the same reason.
          have refused : run = ⟨first :: rest, registry, [], some violation⟩ := by
            simp only [run, registerSlots, result]
          rw [refused]
          exact ⟨[], rfl, by simp only [registerSlots, result]⟩
      | ok made =>
          obtain ⟨reports, quiet, repeated⟩ := ih made.registry
          obtain ⟨event, passed⟩ :=
            registerSlots_pass (registerSlots_settles_first checkpoint rest result)
              (registerSlots checkpoint rest made.registry).slots
          have done : run = { registerSlots checkpoint rest made.registry with
              slots := { first with blob := made.canonical } ::
                (registerSlots checkpoint rest made.registry).slots
              effects := made.effects ++
                (registerSlots checkpoint rest made.registry).effects } := by
            simp only [run, registerSlots, result]
          rw [done]
          exact ⟨.report event :: reports, quiet, by rw [passed, repeated]⟩

end Slots

/-- The snapshot is registered, and all its slots are settled. -/
structure Ledger.Settled (checkpoint : CheckpointId) (ledger : Ledger) (id : SnapshotId) :
    Prop where
  marked : (ledger.store.snapshot id).registered = true
  served : ∀ slot ∈ (ledger.store.snapshot id).slots, slot.Settled checkpoint ledger.registry

section Snapshots

variable (checkpoint : CheckpointId)

theorem register_settled (ledger : Ledger) (id : SnapshotId)
    (settled : ledger.Settled checkpoint id) :
    ∃ reports, disposals reports = [] ∧ outcome (id.register checkpoint) ledger =
      (none, { ledger with effects := ledger.effects ++ reports }) := by
  obtain ⟨reports, quiet, run⟩ := registerSlots_settled checkpoint _ settled.served
  refine ⟨reports, quiet, ?_⟩
  rw [outcome_register]
  simp only [run]
  rw [← settled.marked, Store.update_snapshot]

theorem register_settles (ledger next : Ledger) (id : SnapshotId)
    (passed : outcome (id.register checkpoint) ledger = (none, next)) :
    next.Settled checkpoint id := by
  rw [outcome_register, Prod.mk.injEq] at passed
  obtain ⟨complete, same⟩ := passed
  subst next
  constructor
  · simp
  · simpa using registerSlots_settles checkpoint _ _ complete

/-- Whatever is registered next, a settled snapshot stays settled. -/
theorem settled_register (ledger : Ledger) (id other : SnapshotId)
    (settled : ledger.Settled checkpoint id) :
    (outcome (other.register checkpoint) ledger).2.Settled checkpoint id := by
  by_cases same : other = id
  · subst other
    obtain ⟨reports, _, unchanged⟩ := register_settled checkpoint ledger id settled
    rw [unchanged]
    exact ⟨settled.marked, settled.served⟩
  · obtain ⟨effects, _, grown⟩ := register_registrations checkpoint other ledger
    have untouched : (outcome (other.register checkpoint) ledger).2.store.snapshot id =
        ledger.store.snapshot id := by
      rw [outcome_register]
      exact Store.snapshot_update_of_ne _ _ _ id (Ne.symm same)
    constructor
    · exact untouched ▸ settled.marked
    · intro slot member
      exact settled_grown grown (settled.served slot (untouched ▸ member))

theorem settled_registerEach (ids : List SnapshotId) (ledger : Ledger) (id : SnapshotId)
    (settled : ledger.Settled checkpoint id) :
    (outcome (registerEach checkpoint ids) ledger).2.Settled checkpoint id := by
  induction ids generalizing ledger with
  | nil => exact settled
  | cons first rest ih =>
      have kept := settled_register checkpoint ledger id first settled
      rcases result : outcome (first.register checkpoint) ledger with ⟨_ | violation, next⟩ <;>
        rw [result] at kept
      · rw [outcome_passed checkpoint first rest ledger next result]
        exact ih next kept
      · rw [outcome_stopped checkpoint first rest ledger next violation result]
        exact kept

/-- One snapshot, registered again where its registration has led. -/
theorem register_again (id : SnapshotId) (ledger : Ledger) (effects : List Effect) :
    let first := outcome (id.register checkpoint) ledger
    ∃ reports, disposals reports = [] ∧
      outcome (id.register checkpoint) { first.2 with effects } =
        (first.1, { first.2 with effects := effects ++ reports }) := by
  intro first
  obtain ⟨reports, quiet, run⟩ :=
    registerSlots_again checkpoint (ledger.store.snapshot id).slots ledger.registry
  refine ⟨reports, quiet, ?_⟩
  simp only [first, outcome_register, Store.snapshot_update, run, Store.update_update]

theorem registerEach_again (ids : List SnapshotId) (ledger : Ledger) (effects : List Effect) :
    let first := outcome (registerEach checkpoint ids) ledger
    ∃ reports, disposals reports = [] ∧
      outcome (registerEach checkpoint ids) { first.2 with effects } =
        (first.1, { first.2 with effects := effects ++ reports }) := by
  induction ids generalizing ledger effects with
  | nil => exact ⟨[], rfl, by rw [List.append_nil]; rfl⟩
  | cons id rest ih =>
      intro first
      rcases result : outcome (id.register checkpoint) ledger with ⟨_ | violation, next⟩
      · -- The rest of the first traversal keeps the snapshot settled, so the second one
        -- passes it and comes to the rest.
        have continued : first = outcome (registerEach checkpoint rest) next :=
          outcome_passed checkpoint id rest ledger next result
        have settled := settled_registerEach checkpoint rest next id
          (register_settles checkpoint ledger next id result)
        rw [continued]
        obtain ⟨reports, quiet, passed⟩ := register_settled checkpoint
          { (outcome (registerEach checkpoint rest) next).2 with effects } id
          ⟨settled.marked, settled.served⟩
        obtain ⟨more, still, repeated⟩ := ih next (effects ++ reports)
        refine ⟨reports ++ more, by rw [disposals_append, quiet, still]; rfl, ?_⟩
        rw [outcome_passed checkpoint id rest _ _ passed, repeated, List.append_assoc]
      · have stopped : first = (some violation, next) :=
          outcome_stopped checkpoint id rest ledger next violation result
        obtain ⟨reports, quiet, repeated⟩ := register_again checkpoint id ledger effects
        rw [result] at repeated
        rw [stopped]
        exact ⟨reports, quiet, outcome_stopped checkpoint id rest _ _ violation repeated⟩

end Snapshots

/-- A second registration for the same checkpoint ends as the first one did, with the same
refusal if there was one. It changes neither the registry nor any snapshot, and hands
nothing out. -/
theorem register_twice (composite : Composite) (checkpoint : CheckpointId) (store : Store)
    (registry : Registry) :
    let first := outcome (composite.register checkpoint) ⟨store, registry, []⟩
    let second := outcome (composite.register checkpoint) ⟨first.2.store, first.2.registry, []⟩
    second.1 = first.1 ∧ second.2.store = first.2.store ∧ second.2.registry = first.2.registry ∧
      disposals second.2.effects = [] := by
  intro first second
  obtain ⟨reports, quiet, repeated⟩ :=
    registerEach_again checkpoint composite.snapshots ⟨store, registry, []⟩ []
  rw [← composite_register_flat] at repeated
  have ended : second = (first.1, { first.2 with effects := reports }) := repeated
  rw [ended]
  exact ⟨rfl, rfl, rfl, quiet⟩

end CheckpointLedger
