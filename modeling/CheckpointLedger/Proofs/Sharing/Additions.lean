import CheckpointLedger.Proofs.Sharing.LedgerRun
import CheckpointLedger.SortedMap.Lemmas

/-!
State that is added to a store. It gets numbers that are new, so that everything that was
there before stays as it is, and it reads back as the value that was added.
-/

namespace CheckpointLedger

namespace Store

/-- Nothing that was in the store has changed. -/
structure Extends (before after : Store) : Prop where
  next_le : before.next ≤ after.next
  snapshots : ∀ id : SnapshotId, id.number < before.next → after.snapshot id = before.snapshot id

theorem extends_refl (store : Store) : store.Extends store :=
  ⟨Nat.le_refl _, fun _ _ => rfl⟩

theorem extends_trans {first second third : Store} (early : first.Extends second)
    (late : second.Extends third) : first.Extends third where
  next_le := Nat.le_trans early.next_le late.next_le
  snapshots id made :=
    (late.snapshots id (Nat.lt_of_lt_of_le made early.next_le)).trans (early.snapshots id made)

theorem extends_add (snapshot : Incremental) (store : Store) :
    store.Extends (add snapshot store).2 where
  next_le := Nat.le_succ _
  snapshots id made := by
    have older : id ≠ ⟨store.next⟩ := fun same => by simp [same] at made
    exact snapshot_update_of_ne store ⟨store.next⟩ snapshot id older

theorem extends_share {α : Type} (content : α) (store : Store) :
    store.Extends (share content store).2 :=
  ⟨Nat.le_succ _, fun _ _ => rfl⟩

/-- The snapshots have all been made. -/
def Knows (store : Store) (ids : List SnapshotId) : Prop := ∀ id ∈ ids, id.number < store.next

instance (store : Store) (ids : List SnapshotId) : Decidable (store.Knows ids) :=
  inferInstanceAs (Decidable (∀ id ∈ ids, id.number < store.next))

/-- What the subtasks of an operator show, by index. -/
def shown (store : Store) (state : OperatorCheckpoint SubtaskRef) :
    SortedMap UInt64 PlainSubtask :=
  state.subtasks.map fun subtask => store.readSubtask subtask.content

/-! Reading looks at known snapshots only. -/

section Reading

variable {before after : Store} (later : before.Extends after)
include later

theorem extends_knows (ids : List SnapshotId) (known : before.Knows ids) : after.Knows ids :=
  fun id member => Nat.lt_of_lt_of_le (known id member) later.next_le

theorem readKeyed_extends (state : KeyedRef) (known : before.Knows state.snapshots) :
    after.readKeyed state = before.readKeyed state := by
  cases state with
  | full snapshot => rfl
  | incremental id =>
      have same := later.snapshots id (known id (List.mem_singleton_self id))
      simp only [readKeyed, KeyedState.map, same]

theorem readKeyedList_extends (states : List KeyedRef)
    (known : before.Knows (keyedSnapshots states)) :
    states.map after.readKeyed = states.map before.readKeyed := by
  apply List.map_congr_left
  intro state member
  apply readKeyed_extends later
  exact fun id inside => known id (List.mem_flatMap.mpr ⟨state, member, inside⟩)

theorem readSubtask_extends (state : SubtaskCategories) (known : before.Knows state.snapshots) :
    after.readSubtask state = before.readSubtask state := by
  have managed := readKeyedList_extends later state.managedKeyed.content
    fun id inside => known id (List.mem_append_left _ inside)
  have raw := readKeyedList_extends later state.rawKeyed.content
    fun id inside => known id (List.mem_append_right _ inside)
  simp only [readSubtask, managed, raw]

theorem shown_extends (state : OperatorCheckpoint SubtaskRef)
    (known : before.Knows state.snapshots) : after.shown state = before.shown state := by
  apply SortedMap.map_congr
  intro subtask member
  apply readSubtask_extends later
  exact fun id inside => known id (List.mem_flatMap.mpr ⟨subtask, member, inside⟩)

end Reading

theorem readSubtask_congr {before after : Store} (same : after.snapshot = before.snapshot) :
    after.readSubtask = before.readSubtask := by
  have keyed : after.readKeyed = before.readKeyed := by
    funext state
    simp only [readKeyed, same]
  funext subtask
  simp only [readSubtask, keyed]

/-- What was made reads as the value, and the store has only been extended for it. -/
structure Adds {α β : Type} (before : Store) (snapshots : β → List SnapshotId)
    (read : Store → β → α) (made : β × Store) (value : α) : Prop where
  later : before.Extends made.2
  known : made.2.Knows (snapshots made.1)
  reads : read made.2 made.1 = value

theorem addKeyed_adds (state : KeyedState Incremental) (store : Store) :
    store.Adds KeyedState.snapshots readKeyed (addKeyed state store) state := by
  cases state with
  | full snapshot => exact ⟨extends_refl store, List.forall_mem_nil _, rfl⟩
  | incremental snapshot =>
      constructor
      case later => exact extends_add snapshot store
      case known => exact List.forall_mem_singleton.mpr (Nat.lt_succ_self _)
      case reads => exact congrArg KeyedState.incremental (snapshot_update store _ snapshot)

/-- What was added first is not changed by the rest. -/
theorem adds_cons {α β : Type} {snapshots : β → List SnapshotId} {read : Store → β → α}
    (steady : ∀ (before after : Store) (made : β), before.Extends after →
      before.Knows (snapshots made) → read after made = read before made)
    {store : Store} {made : β × Store} {rest : List β × Store} {value : α} {values : List α}
    (first : store.Adds snapshots read made value)
    (tail : made.2.Adds (fun states => states.flatMap snapshots)
      (fun store states => states.map (read store)) rest values) :
    store.Adds (fun states => states.flatMap snapshots)
      (fun store states => states.map (read store)) (made.1 :: rest.1, rest.2)
      (value :: values) := by
  constructor
  case later => exact extends_trans first.later tail.later
  case known =>
    intro id member
    rcases List.mem_append.mp member with here | behind
    · exact extends_knows tail.later _ first.known id here
    · exact tail.known id behind
  case reads =>
    have kept := steady _ _ _ tail.later first.known
    exact congrArg₂ List.cons (kept.trans first.reads) tail.reads

theorem addKeyedList_adds (states : List (KeyedState Incremental)) (store : Store) :
    store.Adds keyedSnapshots (fun store states => states.map store.readKeyed)
      (addKeyedList states store) states := by
  induction states generalizing store with
  | nil => exact ⟨extends_refl store, List.forall_mem_nil _, rfl⟩
  | cons state rest ih =>
      exact adds_cons (fun _ _ state later known => readKeyed_extends later state known)
        (addKeyed_adds state store) (ih (addKeyed state store).2)

theorem addKeyedCollection_adds (states : List (KeyedState Incremental)) (store : Store) :
    store.Adds (fun states => keyedSnapshots states.content)
      (fun store states => states.content.map store.readKeyed) (addKeyedCollection states store)
      states := by
  have list := addKeyedList_adds states store
  have shared := extends_share (addKeyedList states store).1 (addKeyedList states store).2
  constructor
  case later => exact extends_trans list.later shared
  case known => exact extends_knows shared _ list.known
  case reads => exact list.reads

theorem addSubtask_adds (state : PlainSubtask) (store : Store) :
    store.Adds (fun subtask => subtask.content.snapshots)
      (fun store subtask => store.readSubtask subtask.content) (addSubtask state store) state := by
  -- The collections that keyed state does not go into only take numbers.
  let first : Store := { store with next := store.next + 2 }
  have managed := addKeyedCollection_adds state.managedKeyed first
  let second := addKeyedCollection state.managedKeyed first
  have raw := addKeyedCollection_adds state.rawKeyed second.2
  let third := addKeyedCollection state.rawKeyed second.2
  have last : third.2.Extends (addSubtask state store).2 := ⟨Nat.le_add_right _ 3, fun _ _ => rfl⟩
  have start : store.Extends first := ⟨Nat.le_add_right _ 2, fun _ _ => rfl⟩
  have rest := extends_trans raw.later last
  constructor
  case later => exact extends_trans start (extends_trans managed.later rest)
  case known =>
    intro id member
    rcases List.mem_append.mp member with here | behind
    · exact extends_knows rest _ managed.known id here
    · exact extends_knows last _ raw.known id behind
  case reads =>
    have keptManaged := (readKeyedList_extends rest _ managed.known).trans managed.reads
    have keptRaw := (readKeyedList_extends last _ raw.known).trans raw.reads
    have whole : (addSubtask state store).2.readSubtask (addSubtask state store).1.content =
        { state with
          managedKeyed := second.1.content.map (addSubtask state store).2.readKeyed
          rawKeyed := third.1.content.map (addSubtask state store).2.readKeyed } := rfl
    rw [whole, keptManaged, keptRaw]

/-! What is added subtask by subtask. -/

theorem thread_adds {α β : Type} {snapshots : β → List SnapshotId} {read : Store → β → α}
    (steady : ∀ (before after : Store) (made : β), before.Extends after →
      before.Knows (snapshots made) → read after made = read before made)
    {add : α → Store → β × Store}
    (adds : ∀ value store, Adds store snapshots read (add value store) value)
    (entries : List (UInt64 × α)) (store : Store) :
    store.Adds (fun made => made.flatMap fun entry => snapshots entry.2)
      (fun store made => made.map fun entry => (entry.1, read store entry.2))
      (SortedMap.thread add entries store) entries := by
  induction entries generalizing store with
  | nil => exact ⟨extends_refl store, List.forall_mem_nil _, rfl⟩
  | cons entry rest ih =>
      have added := adds entry.2 store
      have first : store.Adds (fun entry => snapshots entry.2)
          (fun store entry => (entry.1, read store entry.2))
          ((entry.1, (add entry.2 store).1), (add entry.2 store).2) entry :=
        ⟨added.later, added.known, Prod.ext rfl added.reads⟩
      exact adds_cons (fun _ _ _ later known => Prod.ext rfl (steady _ _ _ later known))
        first (ih (add entry.2 store).2)

theorem addOperator_adds (state : OperatorCheckpoint PlainSubtask) (store : Store) :
    store.Adds OperatorCheckpoint.snapshots shown (addOperator state store) state.subtasks := by
  have entries := thread_adds
    (fun _ _ (subtask : SubtaskRef) later known => readSubtask_extends later subtask.content known)
    addSubtask_adds state.subtasks.entries store
  constructor
  case later => exact entries.later
  case known =>
    rw [OperatorCheckpoint.snapshots, SortedMap.values, List.flatMap_map]
    exact entries.known
  case reads => exact SortedMap.ext_entries _ _ entries.reads

end Store

end CheckpointLedger
