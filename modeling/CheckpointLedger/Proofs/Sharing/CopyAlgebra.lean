import CheckpointLedger.Proofs.Sharing.Copies
import CheckpointLedger.Proofs.Snapshot.ExactSizes

/-!
Copies of copies of an operator's checkpoint. Up to the identity of the bundles and of the
collections of channels, a copy is given by the last name in its row and by whether anything
in it drops the buffers in flight. These are what the sizes lose with it.
-/

namespace CheckpointLedger

variable {ω κ χ : Type}

/-! The buffers in flight. -/

def SubtaskState.inFlight (state : SubtaskState ω κ (List χ)) : List χ :=
  state.inputChannel ++ state.resultSubpartition

def SubtaskState.drained (state : SubtaskState ω κ (List χ)) : SubtaskState ω κ (List χ) :=
  state.withChannels [] []

abbrev SubtaskFace := SubtaskState PartitionedCollection KeyedCollection (List ChannelState)

/-- A bundle up to its identity and that of its collections of channels. -/
def SubtaskState.face (state : SubtaskCategories) : SubtaskFace where
  managedOperator := state.managedOperator
  rawOperator := state.rawOperator
  managedKeyed := state.managedKeyed
  rawKeyed := state.rawKeyed
  inputChannel := state.inputChannel.content
  resultSubpartition := state.resultSubpartition.content

namespace OperatorCheckpoint

def inFlight (state : OperatorCheckpoint (SubtaskState ω κ (List χ))) : List χ :=
  state.subtasks.values.flatMap SubtaskState.inFlight

def drained (state : OperatorCheckpoint (SubtaskState ω κ (List χ))) :
    OperatorCheckpoint (SubtaskState ω κ (List χ)) :=
  state.mapSubtasks SubtaskState.drained

def face (state : OperatorCheckpoint SubtaskRef) : OperatorCheckpoint SubtaskFace :=
  state.mapSubtasks fun subtask => subtask.content.face

section Mapping

variable {β γ δ σ : Type}

theorem mapSubtasks_mapSubtasks (f : β → γ) (g : γ → δ) (state : OperatorCheckpoint β) :
    (state.mapSubtasks f).mapSubtasks g = state.mapSubtasks fun subtask => g (f subtask) := by
  apply ext_record
  exact congrArg (fun subtasks => OperatorRecord.mk state.operator state.parallelism
    state.maxParallelism subtasks state.coordinator) (SortedMap.map_map f g state.subtasks)

/-- What does not depend on the store can be read off the original. -/
theorem threadSubtasks_mapSubtasks (f : β → σ → γ × σ) (g : γ → δ) (g' : β → δ)
    (same : ∀ subtask store, g (f subtask store).1 = g' subtask) (state : OperatorCheckpoint β)
    (store : σ) : (state.threadSubtasks f store).1.mapSubtasks g = state.mapSubtasks g' := by
  apply ext_record
  exact congrArg (fun subtasks => OperatorRecord.mk state.operator state.parallelism
    state.maxParallelism subtasks state.coordinator)
    (SortedMap.mapThread_map f g g' same state.subtasks store)

end Mapping

theorem drained_drained (state : OperatorCheckpoint (SubtaskState ω κ (List χ))) :
    state.drained.drained = state.drained :=
  mapSubtasks_mapSubtasks _ _ state

/-- The copy has a bundle under each index of the original, with the very same collections but
for those of the buffers in flight, which are empty. -/
structure Strips (state copy : OperatorCheckpoint SubtaskRef) : Prop where
  operator : copy.operator = state.operator
  parallelism : copy.parallelism = state.parallelism
  maxParallelism : copy.maxParallelism = state.maxParallelism
  coordinator : copy.coordinator = state.coordinator
  indices : copy.subtasks.keys = state.subtasks.keys
  bundles : ∀ index original, state.subtasks.find? index = some original →
    ∃ bundle, copy.subtasks.find? index = some bundle ∧
      bundle.content.managedOperator = original.content.managedOperator ∧
      bundle.content.rawOperator = original.content.rawOperator ∧
      bundle.content.managedKeyed = original.content.managedKeyed ∧
      bundle.content.rawKeyed = original.content.rawKeyed ∧
      bundle.content.inputChannel.content = [] ∧
      bundle.content.resultSubpartition.content = []

theorem strips_of_face {state copy : OperatorCheckpoint SubtaskRef}
    (drained : copy.face = state.face.drained) : state.Strips copy := by
  have bundles : copy.face.subtasks =
      state.subtasks.map fun subtask => subtask.content.face.drained := by
    rw [drained]
    exact SortedMap.map_map _ _ state.subtasks
  constructor
  case operator => exact congrArg (fun face => face.operator) drained
  case parallelism => exact congrArg (fun face => face.parallelism) drained
  case maxParallelism => exact congrArg (fun face => face.maxParallelism) drained
  case coordinator => exact congrArg (fun face => face.coordinator) drained
  case indices =>
    have keys := congrArg SortedMap.keys bundles
    simpa [face, mapSubtasks, SortedMap.keys, SortedMap.map, Function.comp_def] using keys
  case bundles =>
    intro index original found
    have shown := congrArg (SortedMap.find? · index) bundles
    simp only [face, mapSubtasks, SortedMap.find?_map, found, Option.map_some,
      Option.map_eq_some_iff] at shown
    obtain ⟨bundle, there, same⟩ := shown
    simp only [SubtaskState.face, SubtaskState.drained, SubtaskState.withChannels,
      SubtaskState.mk.injEq] at same
    exact ⟨bundle, there, same⟩

end OperatorCheckpoint

/-! Rows of copies. -/

namespace Copying

def strips : Copying → Bool
  | .withoutInFlight => true
  | _ => false

/-- The name that a copy of this operator goes by. -/
def operator : OperatorId → Copying → OperatorId
  | _, .rename other => other
  | operator, _ => operator

end Copying

namespace Store

/-- Copies of copies, one after the other. -/
def copyEach : List Copying → OperatorCheckpoint SubtaskRef → Store →
    OperatorCheckpoint SubtaskRef × Store
  | [], state, store => (state, store)
  | how :: rest, state, store =>
      let made := store.copyOperator how state
      copyEach rest made.1 made.2

theorem withoutInFlight_face (state : OperatorCheckpoint SubtaskRef) (store : Store) :
    (store.copyOperator .withoutInFlight state).1.face = state.face.drained := by
  have fresh := OperatorCheckpoint.threadSubtasks_mapSubtasks withoutInFlight
    (fun subtask => subtask.content.face) (fun subtask => subtask.content.face.drained)
    (fun _ _ => rfl) state store
  exact fresh.trans (OperatorCheckpoint.mapSubtasks_mapSubtasks _ _ state).symm

/-- All that a row of copies comes down to. -/
theorem copyEach_face (row : List Copying) (state : OperatorCheckpoint SubtaskRef)
    (store : Store) :
    (store.copyEach row state).1.face =
      (if row.any Copying.strips then state.face.drained else state.face).rename
        (row.foldl Copying.operator state.operator) := by
  induction row generalizing state store with
  | nil => rfl
  | cons how rest ih =>
      rw [copyEach, ih]
      cases how with
      | clone => rfl
      | rename operator =>
          simp only [List.any_cons, Copying.strips, Bool.false_or]
          split <;> rfl
      | withoutInFlight =>
          -- There is nothing left that a later copy could drop.
          rw [withoutInFlight_face, OperatorCheckpoint.drained_drained, ite_self]
          rfl

/-- Names are changed for the same bundles. -/
theorem copyEach_kept (row : List Copying) (state : OperatorCheckpoint SubtaskRef)
    (store : Store) (kept : row.any Copying.strips = false) :
    store.copyEach row state =
      (state.rename (row.foldl Copying.operator state.operator), store) := by
  induction row generalizing state with
  | nil => rfl
  | cons how rest ih =>
      rw [List.any_cons, Bool.or_eq_false_iff] at kept
      cases how with
      | clone => exact ih state kept.2
      | rename operator => exact ih (state.rename operator) kept.2
      | withoutInFlight => cases kept.1

/-! What a copy shows is decided by its face. -/

def readFace (store : Store) (face : SubtaskFace) : PlainSubtask where
  managedOperator := face.managedOperator.content
  rawOperator := face.rawOperator.content
  managedKeyed := face.managedKeyed.content.map store.readKeyed
  rawKeyed := face.rawKeyed.content.map store.readKeyed
  inputChannel := face.inputChannel
  resultSubpartition := face.resultSubpartition

theorem readOperator_face (state : OperatorCheckpoint SubtaskRef) (store : Store) :
    store.readOperator state = state.face.mapSubtasks store.readFace :=
  (OperatorCheckpoint.mapSubtasks_mapSubtasks (fun subtask : SubtaskRef => subtask.content.face)
    store.readFace state).symm

theorem readOperator_drained {state copy : OperatorCheckpoint SubtaskRef}
    (drained : copy.face = state.face.drained) (store : Store) :
    store.readOperator copy = (store.readOperator state).drained := by
  rw [readOperator_face, readOperator_face, drained]
  exact (OperatorCheckpoint.mapSubtasks_mapSubtasks _ _ state.face).trans
    (OperatorCheckpoint.mapSubtasks_mapSubtasks store.readFace SubtaskState.drained
      state.face).symm

end Store

/-! The sizes of what is kept and of what is dropped. -/

namespace Size

/-- The whole and its two parts fit, and it is the sum of them. -/
def Splits (whole kept rest : Size) : Prop :=
  ∃ a b c, whole = some a ∧ kept = some b ∧ rest = some c ∧ a.toNat = b.toNat + c.toNat

theorem splits_of_add {whole kept rest : Size} (sum : whole = add kept rest) (size : UInt64)
    (fits : whole = some size) : Splits whole kept rest := by
  rw [sum] at fits ⊢
  obtain ⟨b, c, isKept, isRest, exact⟩ := (add_eq_some kept rest size).mp fits
  exact ⟨size, b, c, fits, isKept, isRest, exact⟩

theorem total_categories (a b c d input result : Size) :
    total [a, b, c, d, input, result] =
      add (total [a, b, c, d, some 0, some 0]) (add input result) := by
  simp only [total_cons, total_nil, add_zero, add_assoc]

/-- What each object loses, all of them together lose. -/
theorem total_split {α β : Type} (whole kept : α → Size) (parts : α → List β) (size : β → Size)
    (each : ∀ object, whole object = add (kept object) (total ((parts object).map size)))
    (objects : List α) :
    total (objects.map whole) =
      add (total (objects.map kept)) (total ((objects.flatMap parts).map size)) := by
  induction objects with
  | nil => rfl
  | cons object rest ih =>
      rw [List.map_cons, List.map_cons, List.flatMap_cons, List.map_append, total_cons,
        total_cons, total_append, each, ih]
      ac_rfl

end Size

namespace OperatorCheckpoint

/-- What the bundles lose of their sizes, the operator loses. -/
theorem counted_split (measure : PlainSubtask → Size) (size : ChannelState → Size)
    (each : ∀ subtask, measure subtask = Size.add (measure subtask.drained)
      (Size.add (Size.total (subtask.inputChannel.map size))
        (Size.total (subtask.resultSubpartition.map size))))
    (state : OperatorCheckpoint PlainSubtask) :
    Size.add state.coordinatorSize (Size.total (state.counted.map measure)) =
      Size.add (Size.add state.drained.coordinatorSize
        (Size.total (state.drained.counted.map measure)))
        (Size.total (state.inFlight.map size)) := by
  have bundles : ∀ subtask, measure subtask =
      Size.add (measure subtask.drained) (Size.total (subtask.inFlight.map size)) := by
    intro subtask
    rw [each, SubtaskState.inFlight, List.map_append, Size.total_append]
  have values : state.drained.counted = state.counted.map SubtaskState.drained := by
    rw [counted_eq, counted_eq]
    exact SortedMap.values_map _ state.subtasks
  have coordinator : state.drained.coordinatorSize = state.coordinatorSize := rfl
  rw [values, coordinator, List.map_map, inFlight, ← counted_eq, Size.add_assoc]
  exact congrArg _ (Size.total_split measure _ SubtaskState.inFlight size bundles state.counted)

theorem stateSize_split (state : OperatorCheckpoint PlainSubtask) :
    stateSize state = Size.add (stateSize state.drained) (stateSize state.inFlight) :=
  counted_split stateSize stateSize (fun _ => Size.total_categories _ _ _ _ _ _) state

theorem writtenSize_split (state : OperatorCheckpoint PlainSubtask) :
    writtenSize state = Size.add (writtenSize state.drained) (writtenSize state.inFlight) :=
  counted_split writtenSize writtenSize (fun _ => Size.total_categories _ _ _ _ _ _) state

end OperatorCheckpoint

/-- A copy under another name has the very same bundles, and a copy without buffers in flight
shares all other collections; both keep the coordinator's cell as it is. Rows of copies come
down to the last name in them and to whether any of them drops the buffers, in whatever order
and however often: without such a copy up to nothing, with one up to the identity of new
bundles and of their empty collections. Whenever the size fits, it is that of the copy without
buffers in flight and of these buffers, and so is the size that was written. -/
theorem restore_copies_form_algebra (state : OperatorCheckpoint SubtaskRef) (store : Store) :
    let renamed := fun operator => store.copyOperator (.rename operator) state
    let stripped := store.copyOperator .withoutInFlight state
    (∀ operator,
      (renamed operator).1.toOperatorRecord = { state.toOperatorRecord with operator } ∧
      ∀ later : Store,
        stateSize (later.readOperator (renamed operator).1) =
          stateSize (later.readOperator state) ∧
        writtenSize (later.readOperator (renamed operator).1) =
          writtenSize (later.readOperator state)) ∧
    state.Strips stripped.1 ∧
    (∀ (later : Store) (size : UInt64),
      let whole := later.readOperator state
      let kept := later.readOperator stripped.1
      stateSize whole = some size →
        (stateSize whole).Splits (stateSize kept) (stateSize whole.inFlight) ∧
        (writtenSize whole).Splits (writtenSize kept) (writtenSize whole.inFlight)) ∧
    (store.copyEach [.withoutInFlight, .withoutInFlight] state).1.face =
      (store.copyEach [.withoutInFlight] state).1.face ∧
    (∀ first second, store.copyEach [.rename first, .rename second] state =
      store.copyEach [.rename second] state) ∧
    (∀ operator, (store.copyEach [.rename operator, .withoutInFlight] state).1.face =
      (store.copyEach [.withoutInFlight, .rename operator] state).1.face) ∧
    ∀ (row : List Copying) (name : OperatorId),
      row.foldl Copying.operator state.operator = name →
        (row.any Copying.strips = false → store.copyEach row state = (state.rename name, store)) ∧
        (row.any Copying.strips = true →
          (store.copyEach row state).1.face = state.face.drained.rename name) := by
  intro renamed stripped
  have drained := store.withoutInFlight_face state
  refine ⟨fun operator => ⟨rfl, fun later => ⟨rfl, rfl⟩⟩,
    OperatorCheckpoint.strips_of_face drained, ?_, ?_, fun _ _ => rfl, ?_, ?_⟩
  · intro later size whole kept fits
    have shown : kept = whole.drained := Store.readOperator_drained drained later
    obtain ⟨written, counted, -⟩ := kind_within .operator whole size fits
    rw [shown]
    exact ⟨Size.splits_of_add whole.stateSize_split size fits,
      Size.splits_of_add whole.writtenSize_split written counted⟩
  · rw [Store.copyEach_face, Store.copyEach_face]
    rfl
  · intro operator
    rw [Store.copyEach_face, Store.copyEach_face]
    rfl
  · rintro row _ rfl
    refine ⟨store.copyEach_kept row state, fun strips => ?_⟩
    rw [Store.copyEach_face, if_pos strips]

/-- One of three subtasks has acknowledged, and the coordinator has no state. -/
theorem partial_checkpoint_splits :
    let own : PartitionedState := ⟨∅, .file ⟨⟨[0x78]⟩, 4⟩⟩
    let input : ChannelState := ⟨0, [], .file ⟨⟨[0x79]⟩, 2⟩⟩
    let result : ChannelState := ⟨1, [], .inline ⟨"r", [1, 2, 3]⟩⟩
    let made := Store.addSubtask ⟨[own], [], [], [], [input], [result]⟩ .empty
    let state : OperatorCheckpoint SubtaskRef :=
      { operator := .ofNat 7, parallelism := 3, maxParallelism := 4
        subtasks := SortedMap.empty.insert 1 made.1, coordinator := ⟨some none⟩
        parallelism_le := by decide
        index_lt := List.forall_mem_singleton.mpr (by decide) }
    let copy := made.2.copyOperator .withoutInFlight state
    let row : List Copying := [.rename (.ofNat 8), .withoutInFlight, .clone, .rename (.ofNat 9)]
    let whole := made.2.readOperator state
    let kept := made.2.readOperator copy.1
    stateSize whole = some 9 ∧ whole.inFlight = [input, result] ∧
      (stateSize whole).Splits (stateSize kept) (stateSize whole.inFlight) ∧
      (writtenSize whole).Splits (writtenSize kept) (writtenSize whole.inFlight) ∧
      (made.2.copyEach row state).1.face = state.face.drained.rename (.ofNat 9) := by
  intro own input result made state copy row whole kept
  have size : stateSize whole = some 9 := by decide
  obtain ⟨_, _, splits, _, _, _, rows⟩ := restore_copies_form_algebra state made.2
  obtain ⟨stored, written⟩ := splits made.2 9 size
  exact ⟨size, rfl, stored, written, (rows row (.ofNat 9) rfl).2 rfl⟩

end CheckpointLedger
