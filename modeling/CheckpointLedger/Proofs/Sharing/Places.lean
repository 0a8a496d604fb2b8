import CheckpointLedger.Proofs.Sharing.LedgerRun
import CheckpointLedger.Sharing.Kind

/-!
Registration of composite state, slot by slot. All that its nested traversals do is to register
one slot after the other, in a fixed order of places, and to put into each slot what the registry
returns. State may be shared, so that one place comes up several times; it is then met as it was
left. Snapshots are marked as far as the registration gets.
-/

namespace CheckpointLedger

open Registry

/-- Where a slot stands. -/
structure Place where
  snapshot : SnapshotId
  position : Nat
  deriving DecidableEq

namespace Store

variable (store : Store)

def slot? (place : Place) : Option Slot :=
  (store.snapshot place.snapshot).slots[place.position]?

def putSlots (id : SnapshotId) (slots : List Slot) : Store :=
  store.update id { store.snapshot id with slots }

def putSlot (place : Place) (slot : Slot) : Store :=
  store.putSlots place.snapshot
    ((store.snapshot place.snapshot).slots.set place.position slot)

@[simp] theorem slots_putSlots (id : SnapshotId) (slots : List Slot) :
    ((store.putSlots id slots).snapshot id).slots = slots := by
  rw [putSlots, snapshot_update]

theorem putSlots_putSlots (id : SnapshotId) (first slots : List Slot) :
    (store.putSlots id first).putSlots id slots = store.putSlots id slots := by
  simp only [putSlots, snapshot_update, update_update]

theorem putSlots_self (id : SnapshotId) :
    store.putSlots id (store.snapshot id).slots = store :=
  update_snapshot store id

theorem slot?_putSlot_of_ne (place : Place) (slot : Slot) (other : Place) (apart : other ≠ place) :
    (store.putSlot place slot).slot? other = store.slot? other := by
  by_cases same : other.snapshot = place.snapshot
  · have moved : place.position ≠ other.position := by
      intro there
      obtain ⟨id, position⟩ := place
      obtain ⟨other, position'⟩ := other
      cases same
      cases there
      exact apart rfl
    rw [slot?, slot?, same, putSlot, slots_putSlots]
    exact List.getElem?_set_ne moved
  · simp only [slot?, putSlot, putSlots, snapshot_update_of_ne _ _ _ _ same]

def placesOf (id : SnapshotId) : List Place :=
  (List.range (store.snapshot id).slots.length).map (Place.mk id)

/-- The places of all slots, snapshot by snapshot. -/
def places (ids : List SnapshotId) : List Place := ids.flatMap store.placesOf

theorem placesOf_marked (ids : List SnapshotId) : (store.marked ids).placesOf = store.placesOf := by
  funext id
  rw [placesOf, placesOf, marked_slots]

/-- A snapshot that is registered with new slots is one of those that are marked. -/
theorem marked_putSlots (seen : List SnapshotId) (id : SnapshotId) (slots : List Slot) :
    (store.marked seen).update id
        { (store.marked seen).snapshot id with slots, registered := true } =
      (store.putSlots id slots).marked (seen ++ [id]) := by
  rw [marked_eq, marked_eq]
  apply congrArg (Store.mk store.next)
  funext other
  by_cases same : other = id
  · simp [putSlots, update, same]
  · simp [putSlots, update, same]

end Store

def Ledger.marked (ledger : Ledger) (ids : List SnapshotId) : Ledger :=
  { ledger with store := ledger.store.marked ids }

/-- The slot at the place is registered as it stands and takes over the blob that is returned. -/
def Place.register (checkpoint : CheckpointId) (place : Place) : Registering := fun ledger =>
  match ledger.store.slot? place with
  | none => .ok () ledger
  | some slot => match ledger.registry.reference slot.key slot.blob checkpoint with
    | .error violation => .error violation ledger
    | .ok made => .ok () {
        store := ledger.store.putSlot place { slot with blob := made.canonical }
        registry := made.registry
        effects := ledger.effects ++ made.effects }

def registerPlaces (checkpoint : CheckpointId) (places : List Place) : Registering :=
  places.forM (Place.register checkpoint)

section Places

variable {checkpoint : CheckpointId}

theorem registerPlaces_cons (place : Place) (rest : List Place) :
    registerPlaces checkpoint (place :: rest) =
      (do place.register checkpoint; registerPlaces checkpoint rest) := rfl

theorem registerPlaces_append (places more : List Place) :
    registerPlaces checkpoint (places ++ more) =
      (do registerPlaces checkpoint places; registerPlaces checkpoint more) :=
  List.forM_append

theorem registerPlaces_passed {places : List Place} {ledger next : Ledger}
    (passed : registerPlaces checkpoint places ledger = .ok () next) (more : List Place) :
    registerPlaces checkpoint (places ++ more) ledger = registerPlaces checkpoint more next := by
  rw [registerPlaces_append]
  simp only [bind, EStateM.bind, passed]

theorem registerPlaces_stopped {places : List Place} {ledger next : Ledger} {violation : Violation}
    (stopped : outcome (registerPlaces checkpoint places) ledger = (some violation, next))
    (more : List Place) :
    outcome (registerPlaces checkpoint (places ++ more)) ledger = (some violation, next) := by
  rw [registerPlaces_append, outcome_bind, stopped]

/-- The slot at the place is refused as it stands. -/
def Ledger.Refuses (ledger : Ledger) (checkpoint : CheckpointId) (place : Place)
    (violation : Violation) : Prop :=
  ∃ slot, ledger.store.slot? place = some slot ∧
    ledger.registry.reference slot.key slot.blob checkpoint = .error violation

/-- Nothing is refused, or the place that the registration got to is. -/
def StopsAt (checkpoint : CheckpointId) (result : Option Violation × Ledger) :
    Option Place → Prop
  | none => result.1 = none
  | some place =>
      ∃ violation, result.2.Refuses checkpoint place violation ∧ result.1 = some violation

/-- A refused slot changes nothing. -/
theorem place_refused {place : Place} {ledger next : Ledger} {violation : Violation}
    (refused : place.register checkpoint ledger = .error violation next) :
    next = ledger ∧ ledger.Refuses checkpoint place violation := by
  rw [Place.register] at refused
  split at refused
  · cases refused
  rename_i slot found
  split at refused
  · rename_i reason unregistered
    cases refused
    exact ⟨rfl, slot, found, unregistered⟩
  · cases refused

/-- Either all slots are registered, or those before the first one that is refused. -/
theorem registerPlaces_cases (checkpoint : CheckpointId) (places : List Place) (ledger : Ledger) :
    let result := outcome (registerPlaces checkpoint places) ledger
    (registerPlaces checkpoint places ledger = .ok () result.2 ∧ StopsAt checkpoint result none) ∨
      ∃ earlier place later, places = earlier ++ place :: later ∧
        registerPlaces checkpoint earlier ledger = .ok () result.2 ∧
        StopsAt checkpoint result (some place) := by
  induction places generalizing ledger with
  | nil => exact Or.inl ⟨rfl, rfl⟩
  | cons place rest ih =>
      intro result
      cases first : place.register checkpoint ledger with
      | error violation next =>
          obtain ⟨rfl, refuses⟩ := place_refused first
          have stopped : result = (some violation, next) := by
            simp only [result, outcome, registerPlaces_cons, bind, EStateM.bind, first]
          rw [stopped]
          exact Or.inr ⟨[], place, rest, rfl, rfl, violation, refuses, rfl⟩
      | ok done next =>
          have head : registerPlaces checkpoint [place] ledger = .ok () next := by
            simp only [registerPlaces_cons, bind, EStateM.bind, first]
            rfl
          have tail : ∀ places, registerPlaces checkpoint (place :: places) ledger =
              registerPlaces checkpoint places next :=
            fun places => registerPlaces_passed head places
          have later : result = outcome (registerPlaces checkpoint rest) next := by
            simp only [result, outcome, tail]
          rw [later]
          rcases ih next with ⟨passed, none⟩ |
            ⟨earlier, stop, others, split, passed, refused⟩
          · exact Or.inl ⟨(tail rest).trans passed, none⟩
          · exact Or.inr ⟨place :: earlier, stop, others, congrArg (place :: ·) split,
              (tail earlier).trans passed, refused⟩

/-- A registered slot differs in its blob, and all else is kept. -/
theorem place_passed {place : Place} {ledger next : Ledger}
    (passed : place.register checkpoint ledger = .ok () next) :
    next.store = ledger.store ∨ ∃ slot blob, ledger.store.slot? place = some slot ∧
      next.store = ledger.store.putSlot place { slot with blob } := by
  rw [Place.register] at passed
  split at passed
  · cases passed
    exact Or.inl rfl
  rename_i slot found
  split at passed
  · cases passed
  · rename_i made _
    cases passed
    exact Or.inr ⟨slot, made.canonical, found, rfl⟩

/-- What no slot's registration changes is as it was. -/
theorem registerPlaces_keeps {α : Type} (view : Store → α) {places : List Place}
    {ledger next : Ledger}
    (keeps : ∀ place ∈ places, ∀ (store : Store) (slot : Slot) (blob : Blob),
      store.slot? place = some slot → view (store.putSlot place { slot with blob }) = view store)
    (passed : registerPlaces checkpoint places ledger = .ok () next) :
    view next.store = view ledger.store := by
  induction places generalizing ledger with
  | nil =>
      cases passed
      rfl
  | cons place rest ih =>
      rw [registerPlaces_cons] at passed
      cases first : place.register checkpoint ledger with
      | error violation stopped => simp [bind, EStateM.bind, first] at passed
      | ok done middle =>
          simp only [bind, EStateM.bind, first] at passed
          rw [ih (fun other member => keeps other (List.mem_cons_of_mem place member)) passed]
          rcases place_passed first with same | ⟨slot, blob, found, same⟩
          · rw [same]
          · rw [same]
            exact keeps place List.mem_cons_self ledger.store slot blob found

end Places

/-! A snapshot's slots are the places that it has, in order. -/

section Snapshot

variable (checkpoint : CheckpointId)

/-- The last slots of a snapshot, behind those that come before. -/
theorem registerSlots_places (id : SnapshotId) (rest before : List Slot) (ledger : Ledger)
    (slots : (ledger.store.snapshot id).slots = before ++ rest) :
    let run := registerSlots checkpoint rest ledger.registry
    outcome (registerPlaces checkpoint
        ((List.range' before.length rest.length).map (Place.mk id))) ledger =
      (run.refusal?, ⟨ledger.store.putSlots id (before ++ run.slots), run.registry,
        ledger.effects ++ run.effects⟩) := by
  induction rest generalizing before ledger with
  | nil =>
      simp only [registerSlots, ← slots, Store.putSlots_self, List.append_nil]
      rfl
  | cons slot rest ih =>
      have found : ledger.store.slot? ⟨id, before.length⟩ = some slot := by
        rw [Store.slot?, slots]
        simp
      rw [registerSlots, List.length_cons, List.range'_succ, List.map_cons, registerPlaces_cons]
      cases result : ledger.registry.reference slot.key slot.blob checkpoint with
      | error violation =>
          simp only [outcome, bind, EStateM.bind, Place.register, found, result, ← slots,
            Store.putSlots_self, List.append_nil]
      | ok made =>
          let taken : Slot := { slot with blob := made.canonical }
          let next : Ledger := ⟨ledger.store.putSlots id ((before ++ [taken]) ++ rest),
            made.registry, ledger.effects ++ made.effects⟩
          have first : Place.register checkpoint ⟨id, before.length⟩ ledger = .ok () next := by
            have slots' : (ledger.store.snapshot id).slots.set before.length taken =
                (before ++ [taken]) ++ rest := by
              rw [slots]
              simp
            simp only [Place.register, found, result, Store.putSlot, slots', taken, next]
          have tail := ih (before ++ [taken]) next (Store.slots_putSlots ledger.store id _)
          rw [List.length_append, List.length_singleton] at tail
          simp only [outcome, bind, EStateM.bind, first] at tail ⊢
          rw [tail]
          simp only [next, taken, Store.putSlots_putSlots, List.append_assoc,
            List.singleton_append]

theorem register_places (id : SnapshotId) (seen : List SnapshotId) (ledger : Ledger) :
    let flat := outcome (registerPlaces checkpoint (ledger.store.placesOf id)) ledger
    outcome (id.register checkpoint) (ledger.marked seen) =
      (flat.1, flat.2.marked (seen ++ [id])) := by
  have flat := registerSlots_places checkpoint id (ledger.store.snapshot id).slots [] ledger rfl
  rw [List.length_nil, ← List.range_eq_range'] at flat
  rw [Store.placesOf, flat, outcome_register]
  simp only [Ledger.marked, Store.marked_slots, List.nil_append, ← Store.marked_putSlots]

end Snapshot

/-! How far the places of a row of snapshots are reached. -/

/-- The snapshots that are reached and the places that are passed, up to the place where the
row is stopped, if it is. A snapshot without slots is reached when all before it is passed. -/
inductive Reaches (placesOf : SnapshotId → List Place) :
    List SnapshotId → List SnapshotId → List Place → Option Place → Prop where
  | all (ids : List SnapshotId) : Reaches placesOf ids ids (ids.flatMap placesOf) none
  | within (before after : List SnapshotId) (id : SnapshotId) (earlier later : List Place)
      (place : Place) (split : placesOf id = earlier ++ place :: later) :
      Reaches placesOf (before ++ id :: after) (before ++ [id])
        (before.flatMap placesOf ++ earlier) (some place)

theorem reaches_cons {placesOf : SnapshotId → List Place} {rest reached : List SnapshotId}
    {passed : List Place} {stop : Option Place} (id : SnapshotId)
    (later : Reaches placesOf rest reached passed stop) :
    Reaches placesOf (id :: rest) (id :: reached) (placesOf id ++ passed) stop := by
  cases later with
  | all => exact .all (id :: rest)
  | within before after other earlier later place split =>
      rw [← List.append_assoc]
      exact .within (id :: before) after other earlier later place split

section Flat

variable (checkpoint : CheckpointId)

/-- Registration neither adds slots nor drops them. -/
theorem register_placesOf (id : SnapshotId) (ledger : Ledger) :
    (outcome (id.register checkpoint) ledger).2.store.placesOf = ledger.store.placesOf := by
  funext other
  have keys := congrArg List.length (congrFun (register_slotKeys checkpoint id ledger) other)
  rw [Store.slotKeys, Store.slotKeys, List.length_map, List.length_map] at keys
  rw [Store.placesOf, Store.placesOf, keys]

/-- Registering the snapshots is registering the places of their slots, and marking what is
reached. -/
theorem registerEach_places (ids seen : List SnapshotId) (ledger : Ledger) :
    let flat := outcome (registerPlaces checkpoint (ledger.store.places ids)) ledger
    ∃ reached passed stop, Reaches ledger.store.placesOf ids reached passed stop ∧
      registerPlaces checkpoint passed ledger = .ok () flat.2 ∧
      outcome (registerEach checkpoint ids) (ledger.marked seen) =
        (flat.1, flat.2.marked (seen ++ reached)) ∧
      StopsAt checkpoint flat stop := by
  induction ids generalizing seen ledger with
  | nil =>
      refine ⟨[], [], none, .all [], rfl, ?_, rfl⟩
      rw [List.append_nil]
      rfl
  | cons id rest ih =>
      intro flat
      have first := register_places checkpoint id seen ledger
      have places : ledger.store.places (id :: rest) =
          ledger.store.placesOf id ++ ledger.store.places rest := List.flatMap_cons
      rcases registerPlaces_cases checkpoint (ledger.store.placesOf id) ledger with
        ⟨passed, none⟩ | ⟨earlier, place, later, split, passed, violation, refuses, refused⟩
      · rcases result : outcome (registerPlaces checkpoint (ledger.store.placesOf id)) ledger with
          ⟨refusal?, next⟩
        simp only [result] at passed none first
        subst none
        have still : next.store.placesOf = ledger.store.placesOf := by
          have kept := register_placesOf checkpoint id (ledger.marked seen)
          rw [first] at kept
          simp only [Ledger.marked, Store.placesOf_marked] at kept
          exact kept
        have tail : flat = outcome (registerPlaces checkpoint (next.store.places rest)) next := by
          have whole := registerPlaces_passed passed (ledger.store.places rest)
          rw [← places] at whole
          simp only [flat, outcome, whole]
          rw [Store.places, Store.places, still]
        obtain ⟨reached, more, stop, reaches, goes, same, refusal⟩ := ih (seen ++ [id]) next
        rw [still] at reaches
        rw [tail]
        refine ⟨id :: reached, ledger.store.placesOf id ++ more, stop, reaches_cons id reaches,
          ?_, ?_, refusal⟩
        · rw [registerPlaces_passed passed, goes]
        · rw [outcome_passed checkpoint id rest _ _ first, same, List.append_assoc]
          rfl
      · rcases result : outcome (registerPlaces checkpoint (ledger.store.placesOf id)) ledger with
          ⟨refusal?, next⟩
        simp only [result] at passed refuses refused first
        subst refused
        have stopped : flat = (some violation, next) := by
          rw [← registerPlaces_stopped result (ledger.store.places rest), ← places]
        rw [stopped]
        exact ⟨[id], earlier, some place, .within [] rest id earlier later place split, passed,
          outcome_stopped checkpoint id rest _ _ violation first, violation, refuses, rfl⟩

end Flat

/-! What registration does not touch. -/

def Slot.bare (slot : Slot) : Slot := { slot with blob := .placeholder ⟨slot.key, 0⟩ }

/-- The snapshot without what registration may change: the blobs in its slots, and its mark. -/
def Incremental.bare (snapshot : Incremental) : Incremental :=
  { snapshot with slots := snapshot.slots.map Slot.bare, registered := false }

def SubtaskState.overSnapshots (f : Incremental → Incremental) (state : PlainSubtask) :
    PlainSubtask :=
  { state with
    managedKeyed := state.managedKeyed.map (KeyedState.map f)
    rawKeyed := state.rawKeyed.map (KeyedState.map f) }

/-- The state with its incremental snapshots replaced, and all else as it is. -/
def StateKind.overSnapshots (f : Incremental → Incremental) :
    (kind : StateKind) → kind.Content → kind.Content
  | .blob => id
  | .keyed => KeyedState.map f
  | .partitioned => id
  | .channel => id
  | .keyedCollection => List.map (KeyedState.map f)
  | .partitionedCollection => id
  | .channelCollection => id
  | .subtask => SubtaskState.overSnapshots f
  | .operator => OperatorCheckpoint.mapSubtasks (SubtaskState.overSnapshots f)

namespace Store

def overSnapshots (f : Incremental → Incremental) (store : Store) : Store :=
  { store with snapshot := fun id => f (store.snapshot id) }

section Reading

variable (f : Incremental → Incremental) (store : Store)

theorem readKeyed_over (state : KeyedRef) :
    (store.readKeyed state).map f = (store.overSnapshots f).readKeyed state := by
  cases state <;> rfl

theorem readSubtask_over (state : SubtaskCategories) :
    (store.readSubtask state).overSnapshots f = (store.overSnapshots f).readSubtask state := by
  simp only [readSubtask, SubtaskState.overSnapshots, List.map_map, Function.comp_def,
    readKeyed_over]

theorem readState_over (kind : StateKind) (state : kind.Ref) :
    kind.overSnapshots f (store.readState kind state) =
      (store.overSnapshots f).readState kind state := by
  cases kind with
  | blob => rfl
  | keyed => exact readKeyed_over f store state
  | partitioned => rfl
  | channel => rfl
  | keyedCollection =>
      simp only [StateKind.overSnapshots, readState, List.map_map, Function.comp_def,
        readKeyed_over]
  | partitionedCollection => rfl
  | channelCollection => rfl
  | subtask => exact readSubtask_over f store state.content
  | operator =>
      simp only [StateKind.overSnapshots, readState, readOperator, OperatorCheckpoint.mapSubtasks,
        SortedMap.map_map, readSubtask_over]

end Reading

theorem bare_marked (store : Store) (ids : List SnapshotId) :
    (store.marked ids).overSnapshots Incremental.bare = store.overSnapshots Incremental.bare := by
  rw [marked_eq]
  rfl

/-- Putting a blob into a slot changes nothing else of any snapshot. -/
theorem snapshot_putSlot {α : Type} (view : Incremental → α) (store : Store) (place : Place)
    (slot : Slot)
    (same : view { store.snapshot place.snapshot with
      slots := (store.snapshot place.snapshot).slots.set place.position slot } =
        view (store.snapshot place.snapshot)) (id : SnapshotId) :
    view ((store.putSlot place slot).snapshot id) = view (store.snapshot id) := by
  by_cases here : id = place.snapshot
  · rw [here, putSlot, putSlots, snapshot_update]
    exact same
  · rw [putSlot, putSlots, snapshot_update_of_ne _ _ _ _ here]

theorem bare_putSlot (store : Store) (place : Place) (slot : Slot) (blob : Blob)
    (found : store.slot? place = some slot) :
    (store.putSlot place { slot with blob }).overSnapshots Incremental.bare =
      store.overSnapshots Incremental.bare := by
  obtain ⟨bound, rfl⟩ := List.getElem?_eq_some_iff.mp found
  have slots : ((store.snapshot place.snapshot).slots.set place.position
      { (store.snapshot place.snapshot).slots[place.position] with blob }).map Slot.bare =
        (store.snapshot place.snapshot).slots.map Slot.bare := by
    rw [List.map_set]
    have bound' : place.position <
        ((store.snapshot place.snapshot).slots.map Slot.bare).length := by simpa using bound
    have unchanged : Slot.bare { (store.snapshot place.snapshot).slots[place.position] with blob } =
        ((store.snapshot place.snapshot).slots.map Slot.bare)[place.position] := by
      rw [List.getElem_map]
      rfl
    rw [unchanged, List.set_getElem_self]
  exact congrArg (Store.mk store.next) (funext fun id =>
    snapshot_putSlot Incremental.bare store place _ (by simp only [Incremental.bare, slots]) id)

end Store

/-! The bundles of an aggregate. -/

/-- The indices that have a bundle, in ascending order, give the order of the snapshots. -/
structure OperatorCheckpoint.Ascends (state : OperatorCheckpoint SubtaskRef)
    (indices : List UInt64) : Prop where
  ascending : indices.Pairwise (· < ·)
  complete : ∀ index, index ∈ indices ↔ (state.subtasks.find? index).isSome = true
  snapshots : state.snapshots = indices.flatMap fun index =>
    (state.subtasks.find? index).elim [] fun subtask => subtask.content.snapshots

theorem operator_ascends (state : OperatorCheckpoint SubtaskRef) :
    state.Ascends state.subtasks.keys where
  ascending := state.subtasks.ascending.imp Std.compare_eq_lt.mp
  complete := SortedMap.mem_keys_iff state.subtasks
  snapshots := by
    rw [OperatorCheckpoint.snapshots, SortedMap.values, SortedMap.keys, List.flatMap_map,
      List.flatMap_map]
    apply List.flatMap_congr
    intro entry member
    rw [(SortedMap.mem_entries_iff state.subtasks entry.1 entry.2).mp member]
    rfl

/-- Registering composite state is registering its slots one after the other, in the order of
the places, up to the first refusal. What is reached is marked, and nothing else changes. -/
theorem registerAll_place_by_place (checkpoint : CheckpointId) (composites : List Composite)
    (ledger : Ledger) :
    let ids := composites.flatMap Composite.snapshots
    let flat := outcome (registerPlaces checkpoint (ledger.store.places ids)) ledger
    let result := outcome (registerAll checkpoint composites) ledger
    (∃ reached passed stop, Reaches ledger.store.placesOf ids reached passed stop ∧
      registerPlaces checkpoint passed ledger = .ok () flat.2 ∧
      StopsAt checkpoint flat stop ∧
      result = (flat.1, flat.2.marked reached) ∧
      (∀ id, (result.2.store.snapshot id).registered =
        ((ledger.store.snapshot id).registered || decide (id ∈ reached))) ∧
      ∀ place ∉ passed, result.2.store.slot? place = ledger.store.slot? place) ∧
    (∀ (kind : StateKind) (state : kind.Ref),
      kind.overSnapshots Incremental.bare (result.2.store.readState kind state) =
        kind.overSnapshots Incremental.bare (ledger.store.readState kind state)) ∧
    ∀ state, Composite.operator state ∈ composites → ∃ indices, state.Ascends indices := by
  intro ids flat result
  obtain ⟨reached, passed, stop, reaches, goes, same, refusal⟩ :=
    registerEach_places checkpoint ids [] ledger
  have whole : result = (flat.1, flat.2.marked reached) := by
    simp only [result, registerAll_flat]
    exact same
  have store : result.2.store = flat.2.store.marked reached := by
    rw [whole]
    rfl
  refine ⟨⟨reached, passed, stop, reaches, goes, refusal, whole, ?_, ?_⟩, ?_, ?_⟩
  · intro id
    have kept : (flat.2.store.snapshot id).registered = (ledger.store.snapshot id).registered :=
      registerPlaces_keeps (fun store => (store.snapshot id).registered)
        (fun place _ store slot blob _ =>
          Store.snapshot_putSlot Incremental.registered store place _ rfl id) goes
    rw [store, Store.marked_eq, ← kept]
  · intro other elsewhere
    have kept : flat.2.store.slot? other = ledger.store.slot? other :=
      registerPlaces_keeps (fun store => store.slot? other)
        (fun place member store slot blob _ => store.slot?_putSlot_of_ne place _ other
          fun same => elsewhere (same ▸ member)) goes
    rw [store, ← kept, Store.slot?, Store.slot?, Store.marked_slots]
  · intro kind state
    have kept : flat.2.store.overSnapshots Incremental.bare =
        ledger.store.overSnapshots Incremental.bare :=
      registerPlaces_keeps (Store.overSnapshots Incremental.bare)
        (fun place _ store slot blob found => store.bare_putSlot place slot blob found) goes
    rw [Store.readState_over, Store.readState_over, store, Store.bare_marked, kept]
  · exact fun state _ => ⟨_, operator_ascends state⟩

end CheckpointLedger
