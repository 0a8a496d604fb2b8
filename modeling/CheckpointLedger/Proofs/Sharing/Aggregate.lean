import CheckpointLedger.Proofs.Sharing.Lineage
import Mathlib.Data.List.Dedup

/-!
The functional description of an operator's checkpoint. What its subtasks put and what was
first set for its coordinator can be told from the edits alone, whichever copies they went
through and however often it was written and read back.
-/

namespace CheckpointLedger

namespace Lineage

/-- The distinct indices below the parallelism under which bundles were put. -/
def recorded (parallelism : UInt64) (edits : List Edit) : List UInt64 :=
  ((putIndices edits).filter (· < parallelism)).dedup

/-- A checkpoint that was empty, as it is after the edits: told from these alone. -/
structure Described (parallelism maxParallelism : UInt64) (start : Lineage) (edits : List Edit) :
    Prop where
  extent : (start.after edits).state.parallelism = parallelism ∧
    (start.after edits).state.maxParallelism = maxParallelism ∧ parallelism ≤ maxParallelism
  bounded : ∀ index ∈ (start.after edits).state.subtasks.keys, index < parallelism
  keys : ∀ index, index ∈ (start.after edits).state.subtasks.keys ↔
    index ∈ recorded parallelism edits
  collected : (start.after edits).state.collected = (recorded parallelism edits).length
  missing : ∀ index, index < parallelism → index ∉ putIndices edits →
    (start.after edits).state.get index = .ok none
  last : ∀ index, index < parallelism → ∀ before subtask later,
    edits = before ++ .put index subtask :: later → index ∉ putIndices later →
    ∃ last, (start.after edits).state.get index = .ok (some last) ∧
      (start.after edits).store.readSubtask last.content =
        shownAfter later ((start.after before).store.readSubtask subtask.content) ∧
      (later.any Edit.strips = false → later.any Edit.reloads = false → last = subtask)
  beyond : ∀ index, parallelism ≤ index → (start.after edits).state.get index =
    .error (.subtaskOutOfBounds index parallelism (recorded parallelism edits).length)
  coordinator : (start.after edits).state.coordinator.value? =
    (edits.filterMap Edit.coordinator?).head?
  put : ∀ index subtask, ((start.after edits).perform (.put index subtask)).2 =
    if index < parallelism then none
    else some (.refused
      (.subtaskOutOfBounds index parallelism (recorded parallelism edits).length))
  set : ∀ blob, ((start.after edits).perform (.setCoordinator blob)).2 =
    if edits.filterMap Edit.coordinator? = [] then none
    else some (.refused .coordinatorAlreadySet)
  passes : ∀ edit, (start.after edits).Allows edit → edit.index? = none →
    edit.coordinator? = none → ((start.after edits).perform edit).2 = none
  refused : ∀ edit, ((start.after edits).perform edit).2 ≠ none →
    ((start.after edits).perform edit).1 = start.after edits

section Blank

variable {start : Lineage} {operator : OperatorId} {parallelism maxParallelism : UInt64}
  (blank : start.state.toOperatorRecord = ⟨operator, parallelism, maxParallelism, ∅, .unset⟩)
  (edits : List Edit) (sound : start.Sound edits)
include blank

theorem blank_known : start.Known := by
  simp only [Known, OperatorCheckpoint.snapshots, blank]
  exact List.forall_mem_nil _

include sound

theorem blank_extent : (start.after edits).state.parallelism = parallelism ∧
    (start.after edits).state.maxParallelism = maxParallelism := by
  have kept := after_extent start edits sound
  rw [blank] at kept
  exact kept

theorem blank_keys (index : UInt64) : index ∈ (start.after edits).state.subtasks.keys ↔
    index ∈ recorded parallelism edits := by
  rw [after_keys start edits sound (blank_known blank), blank, recorded, List.mem_dedup,
    List.mem_filter, decide_eq_true_eq]
  exact or_iff_right List.not_mem_nil

theorem blank_collected :
    (start.after edits).state.collected = (recorded parallelism edits).length := by
  -- Neither the keys nor the distinct indices repeat, so the same members are equally many.
  have same := (List.perm_ext_iff_of_nodup
    (SortedMap.keys_nodup (start.after edits).state.subtasks) (List.nodup_dedup _)).mpr
    (blank_keys blank edits sound)
  rw [OperatorCheckpoint.collected, SortedMap.size, ← List.length_map Prod.fst]
  exact same.length_eq

theorem blank_outOfBounds (index : UInt64) : (start.after edits).state.outOfBounds index =
    .subtaskOutOfBounds index parallelism (recorded parallelism edits).length := by
  rw [OperatorCheckpoint.outOfBounds, (blank_extent blank edits sound).1,
    blank_collected blank edits sound]

theorem blank_get (index : UInt64) (below : index < parallelism) :
    (start.after edits).state.get index =
      .ok ((start.after edits).state.subtasks.find? index) := by
  rw [OperatorCheckpoint.get, (blank_extent blank edits sound).1, if_pos below]

theorem blank_last (index : UInt64) (below : index < parallelism) (before : List Edit)
    (subtask : SubtaskRef) (later : List Edit)
    (split : edits = before ++ .put index subtask :: later) (latest : index ∉ putIndices later) :
    ∃ last, (start.after edits).state.get index = .ok (some last) ∧
      (start.after edits).store.readSubtask last.content =
        shownAfter later ((start.after before).store.readSubtask subtask.content) ∧
      (later.any Edit.strips = false → later.any Edit.reloads = false → last = subtask) := by
  rw [blank_get blank edits sound index below]
  -- The checkpoint that the bundle is put into is the one left by the edits before.
  subst split
  obtain ⟨earlier, rest⟩ := (sound_append start before _).mp sound
  have known := after_known start before earlier (blank_known blank)
  rw [← (blank_extent blank before earlier).1] at below
  obtain ⟨last, found, shows⟩ :=
    after_put (start.after before) index subtask later rest known below latest
  rw [after_append]
  exact ⟨last, congrArg Except.ok found, shows⟩

end Blank

end Lineage

open Lineage

/-- An empty checkpoint within its bounds can be made. Whatever bundles are put into it, the
coordinator's state set, copies made and written forms read back, and whichever side one
goes on with, the edits describe what there is in the end. -/
theorem aggregate_refines_map (operator : OperatorId) (parallelism maxParallelism : UInt64)
    (within : parallelism ≤ maxParallelism) (store : Store) :
    ∃ blank, OperatorCheckpoint.create operator parallelism maxParallelism = .ok blank ∧
      ∀ edits, (Lineage.mk store blank).Sound edits →
        Described parallelism maxParallelism ⟨store, blank⟩ edits := by
  obtain ⟨blank, created, fields⟩ := create_blank operator parallelism maxParallelism within
  refine ⟨blank, created, ?_⟩
  intro edits sound
  let start : Lineage := ⟨store, blank⟩
  have isBlank : start.state.toOperatorRecord =
    ⟨operator, parallelism, maxParallelism, ∅, .unset⟩ := fields
  have extent := blank_extent isBlank edits sound
  have keys := blank_keys isBlank edits sound
  have violation := blank_outOfBounds isBlank edits sound
  have coordinator := after_coordinator start edits sound
  rw [isBlank] at coordinator
  simp only [SetOnce.unset, Option.none_or] at coordinator
  constructor
  case extent => exact ⟨extent.1, extent.2, within⟩
  case bounded =>
    intro index member
    have below := (start.after edits).state.index_lt index member
    rw [extent.1] at below
    exact below
  case keys => exact keys
  case collected => exact blank_collected isBlank edits sound
  case missing =>
    intro index below absent
    have unbound : index ∉ (start.after edits).state.subtasks.keys := fun member =>
      absent (List.mem_filter.mp (List.mem_dedup.mp ((keys index).mp member))).1
    rw [SortedMap.mem_keys_iff, Option.not_isSome_iff_eq_none] at unbound
    rw [blank_get isBlank edits sound index below, unbound]
  case last => exact blank_last isBlank edits sound
  case beyond =>
    intro index beyond
    rw [OperatorCheckpoint.get, extent.1, if_neg (UInt64.not_lt.mpr beyond), violation]
  case coordinator => exact coordinator
  case put =>
    intro index subtask
    rw [put_answer, extent.1, violation]
  case set =>
    intro blob
    have unset : (start.after edits).state.coordinator.value? = none ↔
        edits.filterMap Edit.coordinator? = [] := by
      rw [coordinator, List.head?_eq_none_iff]
    exact (setCoordinator_answer _ blob).trans (if_congr unset rfl rfl)
  case passes => exact remake_answer _
  case refused => exact perform_refused _

/-- A registered snapshot and a buffer in flight are put, once more out of bounds, and no
coordinator's state is set. Nothing else can be set after a copy and a written form. -/
theorem stripped_and_reloaded :
    let snapshot : Incremental := ⟨1, .empty, [], [], .inline ⟨"m", [1]⟩, 1, true⟩
    let bundle : PlainSubtask :=
      ⟨[], [], [.incremental snapshot], [], [⟨0, [], .inline ⟨"c", []⟩⟩], []⟩
    let made := Store.addSubtask bundle .empty
    let edits : List Edit := [.make bundle, .put 0 made.1, .put 5 made.1, .setCoordinator none,
      .setCoordinator (some ⟨"s", [1]⟩), .copy .withoutInFlight .copy, .reload .copy]
    ∃ blank, OperatorCheckpoint.create (.ofNat 7) 2 3 = .ok blank ∧
      (Lineage.mk .empty blank).Sound edits ∧
      let now := (Lineage.mk .empty blank).after edits
      now.state.collected = 1 ∧ now.state.coordinator.value? = some none ∧
      (now.perform (.setCoordinator none)).2 = some (.refused .coordinatorAlreadySet) ∧
      ∃ last, now.state.get 0 = .ok (some last) ∧ now.store.readSubtask last.content =
        ⟨[], [], [.incremental { snapshot with registered := false }], [], [], []⟩ := by
  intro snapshot bundle made edits
  obtain ⟨blank, created, described⟩ :=
    aggregate_refines_map (.ofNat 7) 2 3 (by decide) Store.empty
  have sound : (Lineage.mk .empty blank).Sound edits := by
    cases created
    decide
  have now := described edits sound
  obtain ⟨last, found, shows, _⟩ :=
    now.last 0 (by decide) [.make bundle] made.1 (edits.drop 2) rfl (by decide)
  refine ⟨blank, created, sound, now.collected, now.coordinator, now.set none, last, found, ?_⟩
  rw [shows]
  rfl

end CheckpointLedger
