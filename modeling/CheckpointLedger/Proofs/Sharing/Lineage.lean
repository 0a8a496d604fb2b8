import CheckpointLedger.Proofs.Binary.RoundTrip
import CheckpointLedger.Proofs.Sharing.Additions
import CheckpointLedger.Proofs.Sharing.Copies

/-!
An operator's checkpoint through everything that can happen to it: subtasks acknowledge,
the coordinator's state is set, copies are made of it, and it is written and read back.
Whichever copies one goes on with, it is a map below the parallelism, from each subtask to
what that put last, and a cell that is set once.
-/

namespace CheckpointLedger

/-- What one goes on with when there are two. -/
inductive Side where
  | source
  | copy

inductive Edit where
  | make (subtask : PlainSubtask)
  | put (index : UInt64) (subtask : SubtaskRef)
  | setCoordinator (blob : Option InlineBlob)
  | copy (how : Copying) (side : Side)
  | reload (side : Side)

inductive Obstacle where
  | refused (violation : Violation)
  | unwritten (fault : EncodeFault)
  | unread (fault : DecodeFault)
  deriving DecidableEq

namespace Edit

def index? : Edit → Option UInt64
  | .put index _ => some index
  | _ => none

def coordinator? : Edit → Option (Option InlineBlob)
  | .setCoordinator blob => some blob
  | _ => none

def strips : Edit → Bool
  | .copy .withoutInFlight .copy => true
  | _ => false

def reloads : Edit → Bool
  | .reload .copy => true
  | _ => false

end Edit

/-- The indices under which bundles are put, those out of bounds among them. -/
def putIndices (edits : List Edit) : List UInt64 := edits.filterMap Edit.index?

theorem mem_putIndices_cons (edit : Edit) (rest : List Edit) (index : UInt64) :
    index ∈ putIndices (edit :: rest) ↔ edit.index? = some index ∨ index ∈ putIndices rest := by
  cases found : edit.index? <;> simp [putIndices, found, eq_comm]

theorem spared_cons {edit : Edit} {rest : List Edit} {index : UInt64}
    (spared : index ∉ putIndices (edit :: rest)) :
    edit.index? ≠ some index ∧ index ∉ putIndices rest :=
  not_or.mp (mt (mem_putIndices_cons edit rest index).mpr spared)

/-! Copies without buffers in flight lose these, and what is read back has yet to be
registered. It makes no difference which comes first, or how often. -/

def SubtaskState.reduced (stripped reloaded : Bool) (written : PlainSubtask) : PlainSubtask :=
  let kept := if stripped then written.withChannels [] [] else written
  if reloaded then kept.unregistered else kept

theorem unregistered_twice (written : PlainSubtask) :
    written.unregistered.unregistered = written.unregistered := by
  have keyed : ∀ state : KeyedState Incremental, state.unregistered.unregistered =
      state.unregistered := by
    intro state
    cases state <;> rfl
  simp only [SubtaskState.unregistered, List.map_map]
  congr 1 <;> exact List.map_congr_left fun state _ => keyed state

theorem reduced_reduced (stripped reloaded stripped' reloaded' : Bool) (written : PlainSubtask) :
    (written.reduced stripped reloaded).reduced stripped' reloaded' =
      written.reduced (stripped || stripped') (reloaded || reloaded') := by
  cases reloaded <;> cases reloaded' <;> cases stripped <;> cases stripped' <;>
    first
    | rfl
    | exact unregistered_twice written
    | exact unregistered_twice (written.withChannels [] [])

/-- What becomes of a bundle that is there already. -/
def Edit.change (edit : Edit) : PlainSubtask → PlainSubtask :=
  SubtaskState.reduced edit.strips edit.reloads

def shownAfter (edits : List Edit) : PlainSubtask → PlainSubtask :=
  SubtaskState.reduced (edits.any Edit.strips) (edits.any Edit.reloads)

theorem shownAfter_cons (edit : Edit) (rest : List Edit) (written : PlainSubtask) :
    shownAfter rest (edit.change written) = shownAfter (edit :: rest) written := by
  simp only [shownAfter, Edit.change, reduced_reduced, List.any_cons]

/-- A checkpoint and the store that its subtasks are in. -/
structure Lineage where
  store : Store
  state : OperatorCheckpoint SubtaskRef

namespace Lineage

def read (lineage : Lineage) : OperatorCheckpoint PlainSubtask :=
  lineage.store.readOperator lineage.state

def shown (lineage : Lineage) : SortedMap UInt64 PlainSubtask := lineage.store.shown lineage.state

theorem shown_isSome (lineage : Lineage) (index : UInt64) :
    (lineage.shown.find? index).isSome = true ↔ index ∈ lineage.state.subtasks.keys := by
  rw [shown, Store.shown, SortedMap.find?_map, Option.isSome_map, SortedMap.mem_keys_iff]

def goOn (lineage : Lineage) (side : Side) (made : OperatorCheckpoint SubtaskRef × Store) :
    Lineage where
  store := made.2
  state := match side with
    | .source => lineage.state
    | .copy => made.1

def perform (lineage : Lineage) : Edit → Lineage × Option Obstacle
  | .make subtask => ({ lineage with store := (Store.addSubtask subtask lineage.store).2 }, none)
  | .put index subtask => match lineage.state.put index subtask with
      | .ok state => ({ lineage with state }, none)
      | .error violation => (lineage, some (.refused violation))
  | .setCoordinator blob => match lineage.state.setCoordinator blob with
      | .ok state => ({ lineage with state }, none)
      | .error violation => (lineage, some (.refused violation))
  | .copy how side => (lineage.goOn side (lineage.store.copyOperator how lineage.state), none)
  | .reload side => match Codec.operatorCheckpoint.encode lineage.read with
      | .error fault => (lineage, some (.unwritten fault))
      | .ok bytes => match Codec.operatorCheckpoint.decode bytes with
        | .error fault => (lineage, some (.unread fault))
        | .ok (plain, _) => (lineage.goOn side (Store.addOperator plain lineage.store), none)

def after (lineage : Lineage) (edits : List Edit) : Lineage :=
  edits.foldl (fun lineage edit => (lineage.perform edit).1) lineage

@[simp] theorem after_nil (lineage : Lineage) : lineage.after [] = lineage := rfl

@[simp] theorem after_cons (lineage : Lineage) (edit : Edit) (rest : List Edit) :
    lineage.after (edit :: rest) = (lineage.perform edit).1.after rest := rfl

theorem after_append (lineage : Lineage) (edits more : List Edit) :
    lineage.after (edits ++ more) = (lineage.after edits).after more :=
  List.foldl_append

/-- A bundle that is put has been made. What is written has text for its paths, and its
lengths are those of things in memory. -/
def Allows (lineage : Lineage) : Edit → Prop
  | .put _ subtask => lineage.store.Knows subtask.content.snapshots
  | .reload _ => Textual lineage.read ∧ Fits lineage.read
  | _ => True

def Sound : Lineage → List Edit → Prop
  | _, [] => True
  | lineage, edit :: rest => lineage.Allows edit ∧ (lineage.perform edit).1.Sound rest

instance (lineage : Lineage) (edit : Edit) : Decidable (lineage.Allows edit) :=
  match edit with
  | .put _ subtask => inferInstanceAs (Decidable (lineage.store.Knows subtask.content.snapshots))
  | .reload _ => inferInstanceAs (Decidable (Textual lineage.read ∧ Fits lineage.read))
  | .make _ | .setCoordinator _ | .copy _ _ => inferInstanceAs (Decidable True)

instance decidableSound :
    (lineage : Lineage) → (edits : List Edit) → Decidable (lineage.Sound edits)
  | _, [] => inferInstanceAs (Decidable True)
  | lineage, edit :: rest =>
      have := decidableSound (lineage.perform edit).1 rest
      inferInstanceAs (Decidable (lineage.Allows edit ∧ (lineage.perform edit).1.Sound rest))

theorem sound_append (lineage : Lineage) (edits more : List Edit) :
    lineage.Sound (edits ++ more) ↔ lineage.Sound edits ∧ (lineage.after edits).Sound more := by
  induction edits generalizing lineage with
  | nil => simp [Sound]
  | cons edit rest ih => simp [Sound, ih, and_assoc]

/-- The subtasks of the checkpoint are all in the store. -/
def Known (lineage : Lineage) : Prop := lineage.store.Knows lineage.state.snapshots

/-! What a single edit does. -/

/-- The checkpoint is another one or in another store, with all that was in it, up to what
the edit takes away. -/
structure Remakes (lineage : Lineage) (edit : Edit) (next : Lineage) : Prop where
  known : lineage.Known → next.Known
  parallelism : next.state.parallelism = lineage.state.parallelism
  maxParallelism : next.state.maxParallelism = lineage.state.maxParallelism
  coordinator : next.state.coordinator = lineage.state.coordinator
  shown : lineage.Known → next.shown = lineage.shown.map edit.change
  same : edit.strips = false → edit.reloads = false →
    next.state.subtasks = lineage.state.subtasks

inductive Step (lineage : Lineage) : Edit → Lineage × Option Obstacle → Prop where
  | put {index : UInt64} {subtask : SubtaskRef} {state : OperatorCheckpoint SubtaskRef}
      (below : index < lineage.state.parallelism)
      (fields : state.toOperatorRecord = { lineage.state.toOperatorRecord with
        subtasks := lineage.state.subtasks.insert index subtask }) :
      Step lineage (.put index subtask) (⟨lineage.store, state⟩, none)
  | beyond {index : UInt64} {subtask : SubtaskRef} (beyond : lineage.state.parallelism ≤ index) :
      Step lineage (.put index subtask)
        (lineage, some (.refused (lineage.state.outOfBounds index)))
  | set {blob : Option InlineBlob} {state : OperatorCheckpoint SubtaskRef}
      (unset : lineage.state.coordinator.value? = none)
      (fields : state.toOperatorRecord = { lineage.state.toOperatorRecord with
        coordinator := ⟨some blob⟩ }) :
      Step lineage (.setCoordinator blob) (⟨lineage.store, state⟩, none)
  | setBefore {blob : Option InlineBlob} (isSet : lineage.state.coordinator.value? ≠ none) :
      Step lineage (.setCoordinator blob) (lineage, some (.refused .coordinatorAlreadySet))
  | remade {edit : Edit} {next : Lineage} (unindexed : edit.index? = none)
      (unset : edit.coordinator? = none) (remakes : lineage.Remakes edit next) :
      Step lineage edit (next, none)

section Edits

variable (lineage : Lineage)

/-- Whatever the reason for a failure, nothing has happened. -/
theorem perform_refused (edit : Edit) (refused : (lineage.perform edit).2 ≠ none) :
    (lineage.perform edit).1 = lineage := by
  revert refused
  cases edit with
  | make subtask => exact fun refused => absurd rfl refused
  | copy how side => exact fun refused => absurd rfl refused
  | put index subtask =>
      simp only [perform]
      cases lineage.state.put index subtask with
      | ok state => exact fun refused => absurd rfl refused
      | error violation => exact fun _ => rfl
  | setCoordinator blob =>
      simp only [perform]
      cases lineage.state.setCoordinator blob with
      | ok state => exact fun refused => absurd rfl refused
      | error violation => exact fun _ => rfl
  | reload side =>
      simp only [perform]
      split
      · exact fun _ => rfl
      · split
        · exact fun _ => rfl
        · exact fun refused => absurd rfl refused

theorem put_step (index : UInt64) (subtask : SubtaskRef) :
    lineage.Step (.put index subtask) (lineage.perform (.put index subtask)) := by
  by_cases below : index < lineage.state.parallelism
  · simp only [perform, OperatorCheckpoint.put, below, ↓reduceDIte]
    exact .put below rfl
  · simp only [perform, OperatorCheckpoint.put, below, ↓reduceDIte]
    exact .beyond (UInt64.not_lt.mp below)

theorem setCoordinator_step (blob : Option InlineBlob) :
    lineage.Step (.setCoordinator blob) (lineage.perform (.setCoordinator blob)) := by
  cases value : lineage.state.coordinator.value? with
  | none =>
      simp only [perform, OperatorCheckpoint.setCoordinator, SetOnce.set, value]
      exact .set value rfl
  | some kept =>
      simp only [perform, OperatorCheckpoint.setCoordinator, SetOnce.set, value]
      exact .setBefore (by simp [value])

theorem remakes_unchanged (edit : Edit) (next : Lineage) (keeps : edit.strips = false)
    (keeps' : edit.reloads = false) (later : lineage.store.Extends next.store)
    (fields : next.state.toOperatorRecord =
      { lineage.state.toOperatorRecord with operator := next.state.operator }) :
    lineage.Remakes edit next := by
  have subtasks : next.state.subtasks = lineage.state.subtasks := by rw [fields]
  have snapshots : next.state.snapshots = lineage.state.snapshots := by
    simp only [OperatorCheckpoint.snapshots, subtasks]
  have plain : edit.change = id := by
    funext written
    simp only [Edit.change, keeps, keeps']
    rfl
  constructor
  case known =>
    intro known
    rw [Known, snapshots]
    exact Store.extends_knows later _ known
  case parallelism => rw [fields]
  case maxParallelism => rw [fields]
  case coordinator => rw [fields]
  case shown =>
    intro known
    rw [plain, SortedMap.map_id, shown, shown, ← Store.shown_extends later _ known]
    simp only [Store.shown, subtasks]
  case same => exact fun _ _ => subtasks

theorem copyOperator_later (how : Copying) :
    lineage.store.Extends (lineage.store.copyOperator how lineage.state).2 where
  next_le := (copyOperator_store how lineage.state lineage.store).2
  snapshots _ _ := by rw [(copyOperator_store how lineage.state lineage.store).1]

theorem copy_remakes (how : Copying) :
    lineage.Remakes (.copy how .copy) (lineage.perform (.copy how .copy)).1 := by
  have later := copyOperator_later lineage how
  cases how with
  | clone => exact remakes_unchanged lineage _ _ rfl rfl later rfl
  | rename operator => exact remakes_unchanged lineage _ _ rfl rfl later rfl
  | withoutInFlight =>
      constructor
      case known =>
        intro known
        have snapshots := snapshots_of_keyed
          (copyOperator_keyed .withoutInFlight lineage.state lineage.store)
        exact Store.extends_knows later _ (snapshots.symm ▸ known)
      case parallelism => rfl
      case maxParallelism => rfl
      case coordinator => rfl
      case shown =>
        intro _
        -- The copy makes no snapshot, so it can be read in the store it was made from.
        have reading := (copyOperator_store .withoutInFlight lineage.state lineage.store).1
        have stripped := SortedMap.mapThread_map Store.withoutInFlight
          (fun subtask => lineage.store.readSubtask subtask.content)
          (fun subtask => (lineage.store.readSubtask subtask.content).withChannels [] [])
          (fun _ _ => rfl) lineage.state.subtasks lineage.store
        simp only [shown, Store.shown, perform, goOn, Store.readSubtask_congr reading,
          SortedMap.map_map]
        exact stripped
      case same => exact fun keeps => nomatch keeps

theorem reload_remakes :
    lineage.Remakes (.reload .copy)
      (lineage.goOn .copy (Store.addOperator lineage.read.unregistered lineage.store)) := by
  have adds := Store.addOperator_adds lineage.read.unregistered lineage.store
  constructor
  case known => exact fun _ => adds.known
  case parallelism => rfl
  case maxParallelism => rfl
  case coordinator => rfl
  case shown =>
    intro _
    exact adds.reads
  case same => exact fun _ keeps => nomatch keeps

theorem perform_reload (side : Side) (allowed : lineage.Allows (.reload side)) :
    lineage.perform (.reload side) =
      (lineage.goOn side (Store.addOperator lineage.read.unregistered lineage.store), none) := by
  have faithful := Codec.operatorCheckpoint_faithful
  have judged := faithful.judges lineage.read
  simp only [perform]
  cases written : Codec.operatorCheckpoint.encode lineage.read with
  | ok bytes =>
      have restored := faithful.restores lineage.read bytes written []
      rw [List.append_nil] at restored
      simp only [restored]
  | error fault =>
      -- The two ways in which writing fails are those that the edit is not allowed.
      rw [written] at judged
      cases fault with
      | pathNotUtf8 => exact absurd allowed.1 judged
      | tooLong => exact absurd allowed.2 judged

theorem perform_step (edit : Edit) (allowed : lineage.Allows edit) :
    lineage.Step edit (lineage.perform edit) := by
  cases edit with
  | put index subtask => exact put_step lineage index subtask
  | setCoordinator blob => exact setCoordinator_step lineage blob
  | make subtask =>
      have later := (Store.addSubtask_adds subtask lineage.store).later
      exact .remade rfl rfl (remakes_unchanged lineage _ _ rfl rfl later rfl)
  | copy how side =>
      cases side with
      | source =>
          have keeps : (Edit.copy how .source).strips = false := by cases how <;> rfl
          exact .remade rfl rfl
            (remakes_unchanged lineage _ _ keeps rfl (copyOperator_later lineage how) rfl)
      | copy => exact .remade rfl rfl (copy_remakes lineage how)
  | reload side =>
      rw [perform_reload lineage side allowed]
      cases side with
      | source =>
          have later := (Store.addOperator_adds lineage.read.unregistered lineage.store).later
          exact .remade rfl rfl (remakes_unchanged lineage _ _ rfl rfl later rfl)
      | copy => exact .remade rfl rfl (reload_remakes lineage)

theorem put_answer (index : UInt64) (subtask : SubtaskRef) :
    (lineage.perform (.put index subtask)).2 = if index < lineage.state.parallelism then none
      else some (.refused (lineage.state.outOfBounds index)) := by
  have step := put_step lineage index subtask
  generalize lineage.perform (.put index subtask) = next at step
  cases step with
  | put below => rw [if_pos below]
  | beyond beyond => rw [if_neg (UInt64.not_lt.mpr beyond)]
  | remade unindexed => cases unindexed

theorem setCoordinator_answer (blob : Option InlineBlob) :
    (lineage.perform (.setCoordinator blob)).2 =
      if lineage.state.coordinator.value? = none then none
      else some (.refused .coordinatorAlreadySet) := by
  have step := setCoordinator_step lineage blob
  generalize lineage.perform (.setCoordinator blob) = next at step
  cases step with
  | set unset => rw [if_pos unset]
  | setBefore isSet => rw [if_neg isSet]
  | remade _ unset => cases unset

theorem remake_answer (edit : Edit) (allowed : lineage.Allows edit) (unindexed : edit.index? = none)
    (unset : edit.coordinator? = none) : (lineage.perform edit).2 = none := by
  have step := perform_step lineage edit allowed
  generalize lineage.perform edit = next at step
  cases step with
  | put => rfl
  | set => rfl
  | remade => rfl
  | beyond => cases unindexed
  | setBefore => cases unset

end Edits

section Steps

variable {lineage : Lineage} {edit : Edit} {next : Lineage × Option Obstacle}
  (step : lineage.Step edit next)
include step

theorem step_known (allowed : lineage.Allows edit) (known : lineage.Known) : next.1.Known := by
  cases step with
  | beyond => exact known
  | setBefore => exact known
  | set unset fields =>
      simp only [Known, OperatorCheckpoint.snapshots, fields]
      exact known
  | remade _ _ remakes => exact remakes.known known
  | put below fields =>
      intro id member
      simp only [OperatorCheckpoint.snapshots, fields, List.mem_flatMap] at member
      obtain ⟨subtask, value, inside⟩ := member
      rcases SortedMap.mem_values_insert _ _ _ _ value with same | older
      · exact allowed id (same ▸ inside)
      · exact known id (List.mem_flatMap.mpr ⟨subtask, older, inside⟩)

theorem step_extent : next.1.state.parallelism = lineage.state.parallelism ∧
    next.1.state.maxParallelism = lineage.state.maxParallelism := by
  cases step with
  | beyond => exact ⟨rfl, rfl⟩
  | setBefore => exact ⟨rfl, rfl⟩
  | set unset fields => simp only [fields, and_self]
  | put below fields => simp only [fields, and_self]
  | remade _ _ remakes => exact ⟨remakes.parallelism, remakes.maxParallelism⟩

/-- The first value stays. -/
theorem step_coordinator : next.1.state.coordinator.value? =
    lineage.state.coordinator.value?.or edit.coordinator? := by
  cases step with
  | beyond => exact Option.or_none.symm
  | put below fields => simp only [fields, Edit.coordinator?, Option.or_none]
  | set unset fields => simp only [fields, unset, Edit.coordinator?, Option.none_or]
  | setBefore isSet =>
      obtain ⟨value, found⟩ := Option.ne_none_iff_exists'.mp isSet
      rw [found, Option.some_or]
  | remade _ unset remakes => rw [remakes.coordinator, unset, Option.or_none]

/-- A bundle that is not replaced shows what the edit leaves of it. -/
theorem step_shown (known : lineage.Known) (index : UInt64) (spared : edit.index? ≠ some index) :
    next.1.shown.find? index = (lineage.shown.find? index).map edit.change := by
  cases step with
  | beyond => exact Option.map_id_apply.symm
  | setBefore => exact Option.map_id_apply.symm
  | set unset fields =>
      simp only [shown, Store.shown, fields]
      exact Option.map_id_apply.symm
  | @put placed subtask state below fields =>
      have other : index ≠ placed := fun same => spared (congrArg some same.symm)
      simp only [shown, Store.shown, fields, SortedMap.find?_map,
        SortedMap.find?_insert_of_ne _ _ _ _ other]
      exact Option.map_id_apply.symm
  | remade _ _ remakes => rw [remakes.shown known, SortedMap.find?_map]

/-- Without such a loss it is the very same bundle. -/
theorem step_same (index : UInt64) (spared : edit.index? ≠ some index)
    (keeps : edit.strips = false) (keeps' : edit.reloads = false) :
    next.1.state.subtasks.find? index = lineage.state.subtasks.find? index := by
  cases step with
  | beyond => rfl
  | setBefore => rfl
  | set unset fields => simp only [fields]
  | @put placed subtask state below fields =>
      have other : index ≠ placed := fun same => spared (congrArg some same.symm)
      simp only [fields, SortedMap.find?_insert_of_ne _ _ _ _ other]
  | remade _ _ remakes => rw [remakes.same keeps keeps']

theorem step_keys (known : lineage.Known) (index : UInt64) :
    index ∈ next.1.state.subtasks.keys ↔ index ∈ lineage.state.subtasks.keys ∨
      (edit.index? = some index ∧ index < lineage.state.parallelism) := by
  by_cases spared : edit.index? = some index
  · cases step with
    | set => cases spared
    | setBefore => cases spared
    | remade unindexed _ _ => exact absurd spared (by simp [unindexed])
    | beyond beyond =>
        cases spared
        simp [UInt64.not_lt.mpr beyond]
    | put below fields =>
        cases spared
        simp [fields, SortedMap.mem_keys_iff, SortedMap.find?_insert_self, below, Edit.index?]
  · -- Nothing that is shown comes or goes under an index that is not put.
    simp only [← shown_isSome, step_shown step known index spared, Option.isSome_map, spared,
      false_and, or_false]

end Steps

/-! Runs. -/

section Runs

variable (lineage : Lineage) (edits : List Edit)

section

variable (sound : lineage.Sound edits)
include sound

theorem after_extent : (lineage.after edits).state.parallelism = lineage.state.parallelism ∧
    (lineage.after edits).state.maxParallelism = lineage.state.maxParallelism := by
  induction edits generalizing lineage with
  | nil => exact ⟨rfl, rfl⟩
  | cons edit rest ih =>
      have first := step_extent (perform_step lineage edit sound.1)
      have later := ih _ sound.2
      exact ⟨later.1.trans first.1, later.2.trans first.2⟩

theorem after_coordinator : (lineage.after edits).state.coordinator.value? =
    lineage.state.coordinator.value?.or (edits.filterMap Edit.coordinator?).head? := by
  induction edits generalizing lineage with
  | nil => exact Option.or_none.symm
  | cons edit rest ih =>
      rw [after_cons, ih _ sound.2, step_coordinator (perform_step lineage edit sound.1),
        Option.or_assoc, List.filterMap_cons]
      cases edit.coordinator? <;> rfl

variable (known : lineage.Known)
include known

theorem after_known : (lineage.after edits).Known := by
  induction edits generalizing lineage with
  | nil => exact known
  | cons edit rest ih =>
      exact ih _ sound.2 (step_known (perform_step lineage edit sound.1) sound.1 known)

theorem after_keys (index : UInt64) : index ∈ (lineage.after edits).state.subtasks.keys ↔
    index ∈ lineage.state.subtasks.keys ∨
      (index ∈ putIndices edits ∧ index < lineage.state.parallelism) := by
  induction edits generalizing lineage with
  | nil => simp [putIndices]
  | cons edit rest ih =>
      have step := perform_step lineage edit sound.1
      rw [after_cons, ih _ sound.2 (step_known step sound.1 known), step_keys step known,
        (step_extent step).1, mem_putIndices_cons, or_and_right, or_assoc]

/-- A bundle that is not replaced any more shows what all the edits leave of it. -/
theorem after_shown (index : UInt64) (spared : index ∉ putIndices edits) :
    (lineage.after edits).shown.find? index =
      (lineage.shown.find? index).map (shownAfter edits) := by
  induction edits generalizing lineage with
  | nil => exact Option.map_id_apply.symm
  | cons edit rest ih =>
      have step := perform_step lineage edit sound.1
      obtain ⟨here, behind⟩ := spared_cons spared
      rw [after_cons, ih _ sound.2 (step_known step sound.1 known) behind,
        step_shown step known index here, Option.map_map]
      -- What is lost does not come back, so the losses of the edits add up.
      exact Option.map_congr fun written _ => shownAfter_cons edit rest written

omit known in
theorem after_same (index : UInt64) (spared : index ∉ putIndices edits)
    (keeps : edits.any Edit.strips = false) (keeps' : edits.any Edit.reloads = false) :
    (lineage.after edits).state.subtasks.find? index = lineage.state.subtasks.find? index := by
  induction edits generalizing lineage with
  | nil => rfl
  | cons edit rest ih =>
      have step := perform_step lineage edit sound.1
      obtain ⟨here, behind⟩ := spared_cons spared
      rw [List.any_cons, Bool.or_eq_false_iff] at keeps keeps'
      rw [after_cons, ih _ sound.2 behind keeps.2 keeps'.2]
      exact step_same step index here keeps.1 keeps'.1

end

/-- The bundle that is put last is there in the end, as the later edits leave it. -/
theorem after_put (index : UInt64) (subtask : SubtaskRef) (later : List Edit)
    (sound : lineage.Sound (.put index subtask :: later)) (known : lineage.Known)
    (below : index < lineage.state.parallelism) (latest : index ∉ putIndices later) :
    ∃ last,
      (lineage.after (.put index subtask :: later)).state.subtasks.find? index = some last ∧
      (lineage.after (.put index subtask :: later)).store.readSubtask last.content =
        shownAfter later (lineage.store.readSubtask subtask.content) ∧
      (later.any Edit.strips = false → later.any Edit.reloads = false → last = subtask) := by
  have step := put_step lineage index subtask
  have rest := sound.2
  have allKnown := step_known step sound.1 known
  rw [after_cons]
  generalize lineage.perform (.put index subtask) = next at step rest allKnown ⊢
  cases step with
  | beyond beyond => exact absurd below (UInt64.not_lt.mpr beyond)
  | remade unindexed => cases unindexed
  | @put _ _ state _ fields =>
      have placed : state.subtasks.find? index = some subtask := by
        rw [fields]
        exact SortedMap.find?_insert_self lineage.state.subtasks index subtask
      have shows := after_shown ⟨lineage.store, state⟩ later rest allKnown index latest
      simp only [shown, Store.shown, SortedMap.find?_map, placed, Option.map_some,
        Option.map_eq_some_iff] at shows
      obtain ⟨last, found, reads⟩ := shows
      refine ⟨last, found, reads, ?_⟩
      intro keeps keeps'
      have same := after_same ⟨lineage.store, state⟩ later rest index latest keeps keeps'
      rw [found, placed, Option.some.injEq] at same
      exact same

end Runs

end Lineage

end CheckpointLedger
