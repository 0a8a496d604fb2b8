import CheckpointLedger.Snapshot.OperatorCheckpoint
import CheckpointLedger.SortedMap.Lemmas

/-!
The check of an operator's fields when they are read. Subtasks below the parallelism are
all taken, so that the fields of a checkpoint give it back. The first one beyond is refused.
-/

namespace CheckpointLedger

variable {β : Type}

theorem create_blank (operator : OperatorId) (parallelism maxParallelism : UInt64)
    (within : parallelism ≤ maxParallelism) :
    ∃ blank : OperatorCheckpoint β,
      OperatorCheckpoint.create operator parallelism maxParallelism = .ok blank ∧
        blank.toOperatorRecord = ⟨operator, parallelism, maxParallelism, ∅, .unset⟩ := by
  simp only [OperatorCheckpoint.create, within, ↓reduceDIte]
  exact ⟨_, rfl, rfl⟩

namespace OperatorCheckpoint

theorem ext_record (first second : OperatorCheckpoint β)
    (same : first.toOperatorRecord = second.toOperatorRecord) : first = second := by
  obtain ⟨record, _, _⟩ := first
  obtain ⟨other, _, _⟩ := second
  have same : record = other := same
  subst same
  rfl

/-- No subtask is beyond the parallelism, so that all of them count. -/
theorem counted_eq (state : OperatorCheckpoint β) : state.counted = state.subtasks.values := by
  have whole : state.subtasks.below state.parallelism = state.subtasks :=
    SortedMap.below_eq_self _ _ fun index member =>
      Std.compare_eq_lt.mpr (state.index_lt index member)
  rw [counted, whole]

theorem putAll_of_below (entries : List (UInt64 × β)) (state : OperatorCheckpoint β)
    (below : ∀ index ∈ entries.map Prod.fst, index < state.parallelism) :
    ∃ filled, state.putAll entries = .ok filled ∧ filled.toOperatorRecord =
      { state.toOperatorRecord with
        subtasks :=
          entries.foldl (fun map entry => map.insert entry.1 entry.2) state.subtasks } := by
  induction entries generalizing state with
  | nil => exact ⟨state, rfl, rfl⟩
  | cons entry rest ih =>
      obtain ⟨index, subtask⟩ := entry
      have first : index < state.parallelism := below index (by simp)
      have placed : ∃ next, state.put index subtask = .ok next ∧ next.toOperatorRecord =
          { state.toOperatorRecord with subtasks := state.subtasks.insert index subtask } := by
        simp [put, first]
      obtain ⟨next, recorded, fields⟩ := placed
      have parallelism : next.parallelism = state.parallelism := by rw [fields]
      obtain ⟨filled, all, record⟩ := ih next fun other member => by
        rw [parallelism]
        exact below other (List.mem_cons_of_mem _ member)
      refine ⟨filled, by simpa [putAll, recorded] using all, ?_⟩
      rw [record, fields]
      rfl

/-- The fields of a checkpoint pass the check, which gives it back. -/
theorem ofRecord_toOperatorRecord (state : OperatorCheckpoint β) :
    ofRecord state.toOperatorRecord = .ok state := by
  obtain ⟨blank, created, fields⟩ : ∃ blank : OperatorCheckpoint β, _ :=
    create_blank state.operator state.parallelism state.maxParallelism state.parallelism_le
  have parallelism : blank.parallelism = state.parallelism := by rw [fields]
  have below : ∀ index ∈ state.subtasks.keys, index < blank.parallelism := by
    rw [parallelism]
    exact state.index_lt
  obtain ⟨filled, all, record⟩ := putAll_of_below state.subtasks.entries blank below
  have built : filled.toOperatorRecord =
      { state.toOperatorRecord with coordinator := .unset } := by
    rw [record, fields]
    have whole := SortedMap.ofList_entries state.subtasks
    exact congrArg (fun subtasks => { state.toOperatorRecord with
      subtasks := subtasks, coordinator := .unset }) whole
  have checked : ofRecord state.toOperatorRecord =
      .ok { filled with coordinator := state.coordinator } := by
    simp only [ofRecord, created, bind, Except.bind, all]
    rfl
  rw [checked]
  refine congrArg Except.ok (ext_record _ _ ?_)
  show ({ filled.toOperatorRecord with coordinator := state.coordinator } : OperatorRecord β) = _
  rw [built]

/-! Fields that do not pass the check. -/

theorem ofRecord_inverted (record : OperatorRecord β)
    (inverted : record.maxParallelism < record.parallelism) :
    ofRecord record = .error (.invalidParallelism record.parallelism record.maxParallelism) := by
  have beyond : ¬ record.parallelism ≤ record.maxParallelism := UInt64.not_le.mpr inverted
  simp [ofRecord, create, beyond, bind, Except.bind]

theorem putAll_append (earlier later : List (UInt64 × β)) (state filled : OperatorCheckpoint β)
    (all : state.putAll earlier = .ok filled) :
    state.putAll (earlier ++ later) = filled.putAll later := by
  induction earlier generalizing state with
  | nil =>
      cases all
      rfl
  | cons entry rest ih =>
      rw [putAll] at all
      rw [List.cons_append, putAll]
      cases placed : state.put entry.1 entry.2 with
      | error violation => simp [placed] at all
      | ok next =>
          simp only [placed] at all
          exact ih next all

/-- The first subtask out of bounds is reported, with those that were counted before it. -/
theorem ofRecord_beyond (record : OperatorRecord β)
    (within : record.parallelism ≤ record.maxParallelism) (earlier later : List (UInt64 × β))
    (index : UInt64) (subtask : β)
    (split : record.subtasks.entries = earlier ++ (index, subtask) :: later)
    (below : ∀ index ∈ earlier.map Prod.fst, index < record.parallelism)
    (beyond : record.parallelism ≤ index) :
    ofRecord record =
      .error (.subtaskOutOfBounds index record.parallelism earlier.length) := by
  obtain ⟨blank, created, fields⟩ : ∃ blank : OperatorCheckpoint β, _ :=
    create_blank record.operator record.parallelism record.maxParallelism within
  have parallelism : blank.parallelism = record.parallelism := by rw [fields]
  rw [← parallelism] at below
  obtain ⟨filled, all, counted⟩ := putAll_of_below earlier blank below
  have same : filled.parallelism = record.parallelism := by rw [counted, parallelism]
  have collected : filled.collected = earlier.length := by
    have ascending : (earlier.map Prod.fst).Pairwise fun a b => compare a b = .lt := by
      have whole := record.subtasks.ascending
      rw [split, List.map_append] at whole
      exact (List.pairwise_append.mp whole).1
    have entries := SortedMap.entries_insert_all earlier ∅ ascending
    have subtasks : filled.subtasks =
        earlier.foldl (fun map entry => map.insert entry.1 entry.2) ∅ := by rw [counted, fields]
    rw [OperatorCheckpoint.collected, SortedMap.size, subtasks, entries]
    rfl
  have refused : filled.put index subtask =
      .error (.subtaskOutOfBounds index record.parallelism earlier.length) := by
    simp [put, outOfBounds, same, collected, UInt64.not_lt.mpr beyond]
  simp only [ofRecord, created, bind, Except.bind, split,
    putAll_append earlier _ blank filled all, putAll, refused]

end OperatorCheckpoint

end CheckpointLedger
