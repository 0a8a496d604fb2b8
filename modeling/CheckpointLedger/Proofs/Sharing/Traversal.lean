import CheckpointLedger.Proofs.Sharing.SlotRun

/-!
Composite state of any depth is registered by going through the incremental snapshots
in it, one after the other, up to the first refusal. To the registry the whole traversal
is a row of registrations for one checkpoint, wherever it breaks off.
-/

namespace CheckpointLedger

/-- A traversal of the parts of parts is one of all parts. -/
theorem forM_flatMap {α β : Type} {m : Type → Type} [Monad m] [LawfulMonad m] (action : β → m PUnit)
    (parts : List α) (inner : α → List β) :
    (parts.flatMap inner).forM action = parts.forM fun part => (inner part).forM action := by
  simp only [List.forM_eq_forM]
  induction parts with
  | nil => rfl
  | cons part rest ih => rw [List.flatMap_cons, List.forM_append, ih, List.forM_cons]

namespace Store

section Update

variable (store : Store) (id : SnapshotId) (snapshot : Incremental)

@[simp] theorem snapshot_update : (store.update id snapshot).snapshot id = snapshot :=
  if_pos rfl

theorem snapshot_update_of_ne (other : SnapshotId) (different : other ≠ id) :
    (store.update id snapshot).snapshot other = store.snapshot other :=
  if_neg different

@[simp] theorem update_snapshot : store.update id (store.snapshot id) = store := by
  simp only [update]
  congr
  funext other
  split
  · rename_i same
    rw [same]
  · rfl

@[simp] theorem update_update (first : Incremental) :
    (store.update id first).update id snapshot = store.update id snapshot := by
  simp only [update]
  congr
  funext other
  split <;> rfl

end Update

/-- The snapshot counts as registered. -/
def mark (store : Store) (id : SnapshotId) : Store :=
  store.update id { store.snapshot id with registered := true }

def marked (store : Store) (ids : List SnapshotId) : Store := ids.foldl mark store

/-- A mark changes no slot. -/
theorem mark_slots (store : Store) (id other : SnapshotId) :
    ((store.mark id).snapshot other).slots = (store.snapshot other).slots := by
  by_cases same : other = id
  · rw [same, mark, snapshot_update]
  · rw [mark, snapshot_update_of_ne store id _ other same]

theorem marked_eq (store : Store) (ids : List SnapshotId) :
    store.marked ids = { store with
      snapshot := fun id =>
        let snapshot := store.snapshot id
        { snapshot with registered := snapshot.registered || decide (id ∈ ids) } } := by
  induction ids generalizing store with
  | nil => simp [marked]
  | cons first rest ih =>
      rw [marked, List.foldl_cons, ← marked, ih]
      apply congrArg (Store.mk store.next)
      funext id
      by_cases same : id = first
      · simp [mark, same]
      · simp [mark, same, snapshot_update_of_ne store first _ id same]

theorem marked_slots (store : Store) (ids : List SnapshotId) (other : SnapshotId) :
    ((store.marked ids).snapshot other).slots = (store.snapshot other).slots := by
  rw [marked_eq]

theorem marked_next (store : Store) (ids : List SnapshotId) :
    (store.marked ids).next = store.next := by
  rw [marked_eq]

end Store

/-! The incremental snapshots in the order of registration. State that is shared may
bring one of them in several times. -/

def KeyedState.snapshots : KeyedRef → List SnapshotId
  | .full _ => []
  | .incremental id => [id]

def keyedSnapshots (states : List KeyedRef) : List SnapshotId :=
  states.flatMap KeyedState.snapshots

def SubtaskState.snapshots (state : SubtaskCategories) : List SnapshotId :=
  keyedSnapshots state.managedKeyed.content ++ keyedSnapshots state.rawKeyed.content

def OperatorCheckpoint.snapshots (state : OperatorCheckpoint SubtaskRef) : List SnapshotId :=
  state.subtasks.values.flatMap fun subtask => subtask.content.snapshots

def Composite.snapshots : Composite → List SnapshotId
  | .keyed state => state.snapshots
  | .keyedCollection states => keyedSnapshots states.content
  | .subtask state => state.content.snapshots
  | .operator state => state.snapshots

def registerEach (checkpoint : CheckpointId) (ids : List SnapshotId) : Registering :=
  ids.forM (SnapshotId.register checkpoint)

section Flattening

variable (checkpoint : CheckpointId)

theorem registerEach_cons (id : SnapshotId) (rest : List SnapshotId) :
    registerEach checkpoint (id :: rest) =
      (do id.register checkpoint; registerEach checkpoint rest) := rfl

theorem registerEach_append (ids more : List SnapshotId) :
    registerEach checkpoint (ids ++ more) =
      (do registerEach checkpoint ids; registerEach checkpoint more) :=
  List.forM_append

/-- A traversal part by part is the traversal of what the parts come to. -/
theorem forM_registerEach {α : Type} (parts : List α) (snapshots : α → List SnapshotId) :
    parts.forM (fun part => registerEach checkpoint (snapshots part)) =
      registerEach checkpoint (parts.flatMap snapshots) :=
  (forM_flatMap _ parts snapshots).symm

theorem keyed_register_flat (state : KeyedRef) :
    state.register checkpoint = registerEach checkpoint state.snapshots := by
  cases state with
  | full snapshot => rfl
  | incremental id => exact (bind_pure_unit (x := id.register checkpoint)).symm

theorem registerKeyed_flat (states : List KeyedRef) :
    registerKeyed checkpoint states = registerEach checkpoint (keyedSnapshots states) := by
  rw [keyedSnapshots, ← forM_registerEach, registerKeyed]
  exact congrArg states.forM (funext (keyed_register_flat checkpoint))

theorem subtask_register_flat (state : SubtaskCategories) :
    state.register checkpoint = registerEach checkpoint state.snapshots := by
  rw [SubtaskState.snapshots, registerEach_append, SubtaskState.register, registerKeyed_flat,
    registerKeyed_flat]

theorem operator_register_flat (state : OperatorCheckpoint SubtaskRef) :
    state.register checkpoint = registerEach checkpoint state.snapshots := by
  rw [OperatorCheckpoint.snapshots, ← forM_registerEach, OperatorCheckpoint.register]
  exact congrArg state.subtasks.values.forM
    (funext fun subtask => subtask_register_flat checkpoint subtask.content)

theorem composite_register_flat (composite : Composite) :
    composite.register checkpoint = registerEach checkpoint composite.snapshots := by
  cases composite with
  | keyed state => exact keyed_register_flat checkpoint state
  | keyedCollection states => exact registerKeyed_flat checkpoint states.content
  | subtask state => exact subtask_register_flat checkpoint state.content
  | operator state => exact operator_register_flat checkpoint state

theorem registerAll_flat (composites : List Composite) :
    registerAll checkpoint composites =
      registerEach checkpoint (composites.flatMap Composite.snapshots) := by
  rw [← forM_registerEach, registerAll]
  exact congrArg composites.forM (funext (composite_register_flat checkpoint))

end Flattening

/-- The refusal, if there is one, and what the attempt leaves. -/
def outcome (action : Registering) (ledger : Ledger) : Option Violation × Ledger :=
  match action ledger with
  | .ok _ next => (none, next)
  | .error violation next => (some violation, next)

/-- What comes second is attempted if the first is not refused. -/
theorem outcome_bind (first second : Registering) (ledger : Ledger) :
    outcome (do first; second) ledger = match outcome first ledger with
      | (none, next) => outcome second next
      | (some violation, next) => (some violation, next) := by
  cases result : first ledger <;> simp only [outcome, bind, EStateM.bind, result]

section Outcome

variable (checkpoint : CheckpointId)

theorem outcome_register (id : SnapshotId) (ledger : Ledger) :
    outcome (id.register checkpoint) ledger =
      let snapshot := ledger.store.snapshot id
      let run := registerSlots checkpoint snapshot.slots ledger.registry
      let store := ledger.store.update id
        { snapshot with slots := run.slots, registered := true }
      (run.refusal?, ⟨store, run.registry, ledger.effects ++ run.effects⟩) := by
  simp only [outcome, SnapshotId.register]
  cases (registerSlots checkpoint (ledger.store.snapshot id).slots ledger.registry).refusal? <;>
    rfl

theorem outcome_passed (id : SnapshotId) (rest : List SnapshotId) (ledger next : Ledger)
    (passed : outcome (id.register checkpoint) ledger = (none, next)) :
    outcome (registerEach checkpoint (id :: rest)) ledger =
      outcome (registerEach checkpoint rest) next := by
  rw [registerEach_cons, outcome_bind, passed]

theorem outcome_stopped (id : SnapshotId) (rest : List SnapshotId) (ledger next : Ledger)
    (violation : Violation)
    (stopped : outcome (id.register checkpoint) ledger = (some violation, next)) :
    outcome (registerEach checkpoint (id :: rest)) ledger = (some violation, next) := by
  rw [registerEach_cons, outcome_bind, stopped]

end Outcome

section Registrations

variable (checkpoint : CheckpointId)

theorem register_registrations (id : SnapshotId) (ledger : Ledger) :
    ∃ effects, (outcome (id.register checkpoint) ledger).2.effects = ledger.effects ++ effects ∧
      Registry.Registrations (· == checkpoint) ledger.registry effects
        (outcome (id.register checkpoint) ledger).2.registry := by
  rw [outcome_register]
  exact ⟨_, rfl, registerSlots_registrations checkpoint _ ledger.registry⟩

theorem registerEach_registrations (ids : List SnapshotId) (ledger : Ledger) :
    ∃ effects,
      (outcome (registerEach checkpoint ids) ledger).2.effects = ledger.effects ++ effects ∧
      Registry.Registrations (· == checkpoint) ledger.registry effects
        (outcome (registerEach checkpoint ids) ledger).2.registry := by
  induction ids generalizing ledger with
  | nil => exact ⟨[], (List.append_nil _).symm, .none⟩
  | cons id rest ih =>
      obtain ⟨effects, reported, grown⟩ := register_registrations checkpoint id ledger
      rcases result : outcome (id.register checkpoint) ledger with ⟨_ | violation, next⟩ <;>
        rw [result] at reported grown
      · obtain ⟨more, later, growing⟩ := ih next
        rw [outcome_passed checkpoint id rest ledger next result]
        refine ⟨effects ++ more, ?_, Registry.registrations_trans grown growing⟩
        rw [later, reported, List.append_assoc]
      · rw [outcome_stopped checkpoint id rest ledger next violation result]
        exact ⟨effects, reported, grown⟩

end Registrations

end CheckpointLedger
