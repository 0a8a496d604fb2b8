import CheckpointLedger.Binary.Kind
import CheckpointLedger.Json.Kind
import CheckpointLedger.Proofs.Binary.Reading
import CheckpointLedger.Proofs.Snapshot.OperatorRecord
import Mathlib.Data.List.Dedup
import Mathlib.Data.List.Perm.Basic

/-!
Operators are checked when they are read from storage, where their subtasks may stand in any
order and some of them several times. In either form the check is complete: it says what was
wrong with the first subtask out of bounds, in the order of the indices, and lets nothing
through.
-/

namespace CheckpointLedger

variable {β : Type}

/-- What the check of an operator's fields comes to, if its subtasks are read from these
entries. -/
structure Verdict (record : OperatorRecord β) (entries : List (UInt64 × β))
    (outcome : Except Violation (OperatorCheckpoint β)) : Prop where
  accepted : (∃ state, outcome = .ok state) ↔
    record.parallelism ≤ record.maxParallelism ∧
      ∀ index ∈ entries.map Prod.fst, index < record.parallelism
  unchanged : ∀ state, outcome = .ok state → state.toOperatorRecord = record ∧
    ∀ index, state.subtasks.find? index = entries.reverse.lookup index
  inverted : record.maxParallelism < record.parallelism →
    outcome = .error (.invalidParallelism record.parallelism record.maxParallelism)
  beyond : record.parallelism ≤ record.maxParallelism →
    (∃ index ∈ entries.map Prod.fst, record.parallelism ≤ index) →
      ∃ first ∈ entries.map Prod.fst, record.parallelism ≤ first ∧
        (∀ index ∈ entries.map Prod.fst, record.parallelism ≤ index → first ≤ index) ∧
        outcome = .error (.subtaskOutOfBounds first record.parallelism
          ((entries.map Prod.fst).filter (· < record.parallelism)).dedup.length)

section Check

variable {record : OperatorRecord β} {entries : List (UInt64 × β)}

theorem mem_indices (same : record.subtasks = SortedMap.ofList entries) (index : UInt64) :
    index ∈ record.subtasks.keys ↔ index ∈ entries.map Prod.fst := by
  rw [same]
  exact SortedMap.mem_keys_ofList entries index

/-- The indices are counted once each. -/
theorem count_indices (same : record.subtasks = SortedMap.ofList entries)
    (chosen : UInt64 → Bool) :
    (record.subtasks.keys.filter chosen).length =
      ((entries.map Prod.fst).filter chosen).dedup.length := by
  apply List.Perm.length_eq
  apply (List.perm_ext_iff_of_nodup ((SortedMap.keys_nodup _).filter _) (List.nodup_dedup _)).mpr
  intro index
  rw [List.mem_dedup, List.mem_filter, List.mem_filter, mem_indices same]

/-- A row of indices that ascends, cut where it first reaches the bound. -/
theorem ascending_cut {earlier later : List UInt64} {first bound : UInt64}
    (ascending : (earlier ++ first :: later).Pairwise (· < ·))
    (below : ∀ index ∈ earlier, index < bound) (reached : bound ≤ first) :
    (∀ index ∈ earlier ++ first :: later, bound ≤ index → first ≤ index) ∧
      (earlier ++ first :: later).filter (· < bound) = earlier := by
  have above : ∀ index ∈ first :: later, first ≤ index := by
    intro index member
    rcases List.mem_cons.mp member with rfl | after
    · exact UInt64.le_refl _
    · have tail := (List.pairwise_append.mp ascending).2.1
      exact UInt64.le_of_lt ((List.pairwise_cons.mp tail).1 index after)
  constructor
  · intro index member outside
    rcases List.mem_append.mp member with before | here
    · exact absurd (below index before) (UInt64.not_lt.mpr outside)
    · exact above index here
  · have all : earlier.filter (· < bound) = earlier :=
      List.filter_eq_self.mpr fun index member => decide_eq_true (below index member)
    have none : (first :: later).filter (· < bound) = [] :=
      List.filter_eq_nil_iff.mpr fun index member => by
        simpa using UInt64.le_trans reached (above index member)
    rw [List.filter_append, all, none, List.append_nil]

/-- The first subtask out of bounds, with those that come before it. -/
theorem split_beyond (record : OperatorRecord β)
    (beyond : ∃ index ∈ record.subtasks.keys, record.parallelism ≤ index) :
    ∃ earlier first subtask later,
      record.subtasks.entries = earlier ++ (first, subtask) :: later ∧
      (∀ index ∈ earlier.map Prod.fst, index < record.parallelism) ∧
      record.parallelism ≤ first ∧
      (∀ index ∈ record.subtasks.keys, record.parallelism ≤ index → first ≤ index) ∧
      record.subtasks.keys.filter (· < record.parallelism) = earlier.map Prod.fst := by
  obtain ⟨index, listed, outside⟩ := beyond
  obtain ⟨entry, member, rfl⟩ := List.mem_map.mp listed
  -- The map is gone through in the order of its indices, not in that of the input.
  have found : (record.subtasks.entries.find? fun entry => record.parallelism ≤ entry.1).isSome :=
    List.find?_isSome.mpr ⟨entry, member, decide_eq_true outside⟩
  obtain ⟨⟨first, subtask⟩, found⟩ := Option.isSome_iff_exists.mp found
  obtain ⟨reached, earlier, later, split, passed⟩ := List.find?_eq_some_iff_append.mp found
  have below : ∀ index ∈ earlier.map Prod.fst, index < record.parallelism :=
    List.forall_mem_map.mpr fun entry member => by simpa using passed entry member
  have reached : record.parallelism ≤ first := by simpa using reached
  have keys : record.subtasks.keys = earlier.map Prod.fst ++ first :: later.map Prod.fst := by
    rw [SortedMap.keys, split, List.map_append, List.map_cons]
  have ascending : record.subtasks.keys.Pairwise (· < ·) :=
    record.subtasks.ascending.imp Std.compare_eq_lt.mp
  rw [keys] at ascending ⊢
  exact ⟨earlier, first, subtask, later, split, below, reached,
    ascending_cut ascending below reached⟩

theorem ofRecord_verdict (same : record.subtasks = SortedMap.ofList entries) :
    Verdict record entries (OperatorCheckpoint.ofRecord record) := by
  have passed : ∀ (within : record.parallelism ≤ record.maxParallelism)
      (below : ∀ index ∈ record.subtasks.keys, index < record.parallelism),
      OperatorCheckpoint.ofRecord record = .ok ⟨record, within, below⟩ :=
    fun within below => OperatorCheckpoint.ofRecord_toOperatorRecord ⟨record, within, below⟩
  have beyond : record.parallelism ≤ record.maxParallelism →
      (∃ index ∈ entries.map Prod.fst, record.parallelism ≤ index) →
      ∃ first ∈ entries.map Prod.fst, record.parallelism ≤ first ∧
        (∀ index ∈ entries.map Prod.fst, record.parallelism ≤ index → first ≤ index) ∧
        OperatorCheckpoint.ofRecord record = .error (.subtaskOutOfBounds first record.parallelism
          ((entries.map Prod.fst).filter (· < record.parallelism)).dedup.length) := by
    intro within outside
    simp only [← mem_indices same, ← count_indices same] at outside ⊢
    obtain ⟨earlier, first, subtask, later, split, below, reached, least, count⟩ :=
      split_beyond record outside
    have listed : first ∈ record.subtasks.keys := by simp [SortedMap.keys, split]
    rw [count, List.length_map]
    exact ⟨first, listed, reached, least, OperatorCheckpoint.ofRecord_beyond record within earlier
      later first subtask split below reached⟩
  have accepted : (∃ state, OperatorCheckpoint.ofRecord record = .ok state) ↔
      record.parallelism ≤ record.maxParallelism ∧
        ∀ index ∈ entries.map Prod.fst, index < record.parallelism := by
    constructor
    · rintro ⟨state, checked⟩
      have within : record.parallelism ≤ record.maxParallelism := by
        by_contra inverted
        rw [OperatorCheckpoint.ofRecord_inverted record (UInt64.not_le.mp inverted)] at checked
        cases checked
      refine ⟨within, fun index member => ?_⟩
      by_contra outside
      obtain ⟨_, _, _, _, refused⟩ := beyond within ⟨index, member, UInt64.not_lt.mp outside⟩
      rw [refused] at checked
      cases checked
    · rintro ⟨within, below⟩
      exact ⟨_, passed within fun index member => below index ((mem_indices same index).mp member)⟩
  constructor
  case accepted => exact accepted
  case unchanged =>
    intro state checked
    obtain ⟨within, below⟩ := accepted.mp ⟨state, checked⟩
    rw [passed within fun index member => below index ((mem_indices same index).mp member)]
      at checked
    cases checked
    exact ⟨rfl, fun index => by rw [same, SortedMap.find?_ofList]⟩
  case inverted => exact OperatorCheckpoint.ofRecord_inverted record
  case beyond => exact beyond

theorem ofRecord_accepts (same : record.subtasks = SortedMap.ofList entries)
    {state : OperatorCheckpoint β} (checked : OperatorCheckpoint.ofRecord record = .ok state) :
    record = state.toOperatorRecord ∧ state.parallelism ≤ state.maxParallelism ∧
      (∀ index ∈ entries.map Prod.fst, index < state.parallelism) ∧
      ∀ index ∈ state.subtasks.keys, index < state.parallelism := by
  have verdict := ofRecord_verdict same
  obtain ⟨rfl, -⟩ := verdict.unchanged state checked
  obtain ⟨within, below⟩ := verdict.accepted.mp ⟨state, checked⟩
  exact ⟨rfl, within, below, state.index_lt⟩

end Check

/-! The binary form. -/

namespace Codec

/-- The subtasks as they stand in the bytes of an operator. -/
def subtaskEntries (bytes : Bytes) : Except DecodeFault (List (UInt64 × PlainSubtask)) :=
  ((pair operatorId (pair word64 (pair word64 (list (pair word64 subtask))))).decode bytes).map
    fun found => found.1.2.2.2

theorem record_subtasks {bytes rest : Bytes} {record : OperatorRecord PlainSubtask}
    (decoded : operatorRecord.decode bytes = .ok (record, rest)) :
    ∃ entries, subtaskEntries bytes = .ok entries ∧
      record.subtasks = SortedMap.ofList entries := by
  obtain ⟨⟨operator, parallelism, maximum, subtasks, coordinator⟩, whole, rfl⟩ :=
    decodeAs_ok decoded
  obtain ⟨_, atOperator, whole⟩ := pair_decode_ok.mp whole
  obtain ⟨_, atParallelism, whole⟩ := pair_decode_ok.mp whole
  obtain ⟨_, atMaximum, whole⟩ := pair_decode_ok.mp whole
  obtain ⟨_, atSubtasks, -⟩ := pair_decode_ok.mp whole
  obtain ⟨entries, listed, same⟩ := decodeAs_ok atSubtasks
  have front := pair_decode_ok.mpr ⟨_, atOperator, pair_decode_ok.mpr ⟨_, atParallelism,
    pair_decode_ok.mpr ⟨_, atMaximum, listed⟩⟩⟩
  exact ⟨entries, by rw [subtaskEntries, front]; rfl, same.symm⟩

/-- What becomes of a record is decided by the check. -/
theorem operatorCheckpoint_decode {bytes rest : Bytes} {record : OperatorRecord PlainSubtask}
    (decoded : operatorRecord.decode bytes = .ok (record, rest)) :
    operatorCheckpoint.decode bytes =
      ((OperatorCheckpoint.ofRecord record).map (·, rest)).mapError .rejected := by
  simp only [operatorCheckpoint, checked, decoded]
  cases OperatorCheckpoint.ofRecord record <;> rfl

theorem operatorCheckpoint_record {bytes rest : Bytes} {state : OperatorCheckpoint PlainSubtask}
    (decoded : operatorCheckpoint.decode bytes = .ok (state, rest)) :
    ∃ record, operatorRecord.decode bytes = .ok (record, rest) ∧
      OperatorCheckpoint.ofRecord record = .ok state :=
  checked_ok.mp decoded

end Codec

/-! The JSON form. -/

namespace Schema

theorem bind_ok {ε α γ : Type} {first : Except ε α} {next : α → Except ε γ} {value : γ} :
    (do let found ← first; next found) = .ok value ↔
      ∃ found, first = .ok found ∧ next found = .ok value := by
  cases first with
  | error fault => simp [bind, Except.bind]
  | ok found => simp [bind, Except.bind]

/-- A text holds one value and nothing else. -/
theorem decode_ok {α : Type} {schema : Schema α} {written : String} {value : α} :
    schema.decode written = .ok value ↔
      ∃ json, Parser.parse? (Lexer.tokens written.toList) = some (json, []) ∧
        schema.read json = .ok value := by
  rw [decode]
  cases parsed : Parser.parse? (Lexer.tokens written.toList) with
  | none => simp
  | some found =>
      obtain ⟨json, after⟩ := found
      by_cases ended : after = []
      · simp [bind_ok, ended, pure, Except.pure]
      · simp [bind_ok, ended, throw, throwThe, MonadExceptOf.throw]

theorem sortedMap_read {key : Key UInt64} {schema : Schema β} {json : Json}
    {map : SortedMap UInt64 β} (read : (sortedMap key schema).read json = .ok map) :
    ∃ members entries, json = .object members ∧ readMembers key schema members = .ok entries ∧
      map = SortedMap.ofList entries := by
  cases json with
  | object members =>
      obtain ⟨entries, listed, made⟩ := bind_ok.mp read
      cases made
      exact ⟨members, entries, rfl, listed, rfl⟩
  | array items => cases read
  | scalar token => cases read

/-- The subtasks as they stand in the text of an operator. -/
def subtaskEntries (written : String) : Except JsonFault (List (UInt64 × PlainSubtask)) := do
  let (json, _) ← required (Parser.parse? (Lexer.tokens written.toList))
  match ← fields ["operator_id", "parallelism", "max_parallelism", "subtask_states",
      "coordinator_state"] 5 json with
  | [_, _, _, some (.object members), _] => readMembers word64Key subtask members
  | _ => throw .malformed

theorem record_subtasks {written : String} {record : OperatorRecord PlainSubtask}
    (decoded : operatorRecord.decode written = .ok record) :
    ∃ entries, subtaskEntries written = .ok entries ∧
      record.subtasks = SortedMap.ofList entries := by
  obtain ⟨json, parsed, read⟩ := decode_ok.mp decoded
  simp only [operatorRecord] at read
  obtain ⟨values, found, read⟩ := bind_ok.mp read
  split at read
  · rename_i operator parallelism maximum subtasks coordinator
    obtain ⟨_, -, read⟩ := bind_ok.mp read
    obtain ⟨_, -, read⟩ := bind_ok.mp read
    obtain ⟨_, -, read⟩ := bind_ok.mp read
    obtain ⟨map, listed, read⟩ := bind_ok.mp read
    obtain ⟨_, -, read⟩ := bind_ok.mp read
    cases read
    obtain ⟨members, entries, rfl, same, rfl⟩ := sortedMap_read listed
    refine ⟨entries, ?_, rfl⟩
    rw [subtaskEntries, parsed]
    exact bind_ok.mpr ⟨_, rfl, bind_ok.mpr ⟨_, found, same⟩⟩
  · cases read

theorem operatorCheckpoint_decode {written : String} {record : OperatorRecord PlainSubtask}
    (decoded : operatorRecord.decode written = .ok record) :
    operatorCheckpoint.decode written =
      (OperatorCheckpoint.ofRecord record).mapError .rejected := by
  obtain ⟨json, parsed, read⟩ := decode_ok.mp decoded
  simp only [decode, parsed, operatorCheckpoint, read, bind, Except.bind]
  cases OperatorCheckpoint.ofRecord record <;> rfl

theorem operatorCheckpoint_record {written : String} {state : OperatorCheckpoint PlainSubtask}
    (decoded : operatorCheckpoint.decode written = .ok state) :
    ∃ record, operatorRecord.decode written = .ok record ∧
      OperatorCheckpoint.ofRecord record = .ok state := by
  obtain ⟨json, parsed, read⟩ := decode_ok.mp decoded
  obtain ⟨record, found, checked⟩ := bind_ok.mp read
  refine ⟨record, decode_ok.mpr ⟨json, parsed, found⟩, ?_⟩
  cases outcome : OperatorCheckpoint.ofRecord record with
  | error violation => simp [outcome, throw, throwThe, MonadExceptOf.throw] at checked
  | ok accepted => simpa [outcome, pure, Except.pure] using checked

end Schema

/-- Bytes or a text that hold the fields of an operator, with its subtasks in any order and
the last of several under one index counting: they are accepted as they are exactly if the
parallelism is within its maximum and all indices are within the parallelism. Otherwise the
parallelism is refused if it is too large, and if it is not, the smallest index out of bounds,
along with the number of different indices within bounds. In neither form does anything else
give an operator. -/
theorem decoding_checks_operator :
    (∀ (bytes rest : Bytes) (record : OperatorRecord PlainSubtask),
      Codec.operatorRecord.decode bytes = .ok (record, rest) →
        ∃ entries outcome, Codec.subtaskEntries bytes = .ok entries ∧
          Verdict record entries outcome ∧
          Codec.operatorCheckpoint.decode bytes = (outcome.map (·, rest)).mapError .rejected) ∧
    (∀ (written : String) (record : OperatorRecord PlainSubtask),
      Schema.operatorRecord.decode written = .ok record →
        ∃ entries outcome, Schema.subtaskEntries written = .ok entries ∧
          Verdict record entries outcome ∧
          Schema.operatorCheckpoint.decode written = outcome.mapError .rejected) ∧
    (∀ (bytes rest : Bytes) (state : OperatorCheckpoint PlainSubtask),
      Codec.operatorCheckpoint.decode bytes = .ok (state, rest) →
        ∃ entries, Codec.operatorRecord.decode bytes = .ok (state.toOperatorRecord, rest) ∧
          Codec.subtaskEntries bytes = .ok entries ∧
          state.parallelism ≤ state.maxParallelism ∧
          (∀ index ∈ entries.map Prod.fst, index < state.parallelism) ∧
          ∀ index ∈ state.subtasks.keys, index < state.parallelism) ∧
    ∀ (written : String) (state : OperatorCheckpoint PlainSubtask),
      Schema.operatorCheckpoint.decode written = .ok state →
        ∃ entries, Schema.operatorRecord.decode written = .ok state.toOperatorRecord ∧
          Schema.subtaskEntries written = .ok entries ∧
          state.parallelism ≤ state.maxParallelism ∧
          (∀ index ∈ entries.map Prod.fst, index < state.parallelism) ∧
          ∀ index ∈ state.subtasks.keys, index < state.parallelism := by
  refine ⟨?_, ?_, ?_, ?_⟩
  · intro bytes rest record decoded
    obtain ⟨entries, listed, same⟩ := Codec.record_subtasks decoded
    exact ⟨entries, _, listed, ofRecord_verdict same, Codec.operatorCheckpoint_decode decoded⟩
  · intro written record decoded
    obtain ⟨entries, listed, same⟩ := Schema.record_subtasks decoded
    exact ⟨entries, _, listed, ofRecord_verdict same, Schema.operatorCheckpoint_decode decoded⟩
  · intro bytes rest state decoded
    obtain ⟨record, found, checked⟩ := Codec.operatorCheckpoint_record decoded
    obtain ⟨entries, listed, same⟩ := Codec.record_subtasks found
    obtain ⟨rfl, bounds⟩ := ofRecord_accepts same checked
    exact ⟨entries, found, listed, bounds⟩
  · intro written state decoded
    obtain ⟨record, found, checked⟩ := Schema.operatorCheckpoint_record decoded
    obtain ⟨entries, listed, same⟩ := Schema.record_subtasks found
    obtain ⟨rfl, bounds⟩ := ofRecord_accepts same checked
    exact ⟨entries, found, listed, bounds⟩

/-- Subtasks stand under the indices 3, 0, 2 and once more 0. They are accepted for a
parallelism of four; for one of two, index 2 is refused and not 3, which stands first. A
parallelism that is too large is refused whatever the indices are. -/
theorem unordered_subtasks_checked :
    let bundle : Nat → Bytes := fun index => Codec.littleEndian 8 index ++ List.replicate 48 0
    let bytes : Nat → Bytes := fun parallelism =>
      Codec.littleEndian 16 7 ++ Codec.littleEndian 8 parallelism ++ Codec.littleEndian 8 4 ++
        Codec.littleEndian 8 4 ++ (bundle 3 ++ bundle 0 ++ bundle 2 ++ bundle 0) ++ [0]
    let inverted := "[7,5,4,\x7b\"9\":[[],[],[],[],[],[]]\x7d,null]"
    let blank := "[7,1,4,\x7b\x7d,null]"
    (∃ state, Codec.operatorCheckpoint.decode (bytes 4) = .ok (state, []) ∧
      state.parallelism ≤ state.maxParallelism) ∧
    Codec.operatorCheckpoint.decode (bytes 2) = .error (.rejected (.subtaskOutOfBounds 2 2 1)) ∧
    Schema.operatorCheckpoint.decode inverted = .error (.rejected (.invalidParallelism 5 4)) ∧
    ∃ state, Schema.operatorCheckpoint.decode blank = .ok state ∧
      state.parallelism ≤ state.maxParallelism := by
  intro bundle bytes inverted blank
  obtain ⟨binary, json, binaryState, jsonState⟩ := decoding_checks_operator
  let written : List (UInt64 × PlainSubtask) := [(3, .empty), (0, .empty), (2, .empty), (0, .empty)]
  let record : UInt64 → UInt64 → List (UInt64 × PlainSubtask) → OperatorRecord PlainSubtask :=
    fun parallelism maximum entries =>
      ⟨.ofNat 7, parallelism, maximum, .ofList entries, .unset⟩
  have accepted : ∃ state, Codec.operatorCheckpoint.decode (bytes 4) = .ok (state, []) := by
    have fields : Codec.operatorRecord.decode (bytes 4) = .ok (record 4 4 written, []) :=
      ok_of_toOption (by decide +kernel)
    have known : Codec.subtaskEntries (bytes 4) = .ok written := ok_of_toOption (by decide +kernel)
    obtain ⟨entries, outcome, listed, verdict, decoded⟩ := binary _ _ _ fields
    cases known.symm.trans listed
    obtain ⟨state, rfl⟩ := verdict.accepted.mpr ⟨by decide, by simp [written, record]⟩
    exact ⟨state, decoded⟩
  have refused : Codec.operatorCheckpoint.decode (bytes 2) =
      .error (.rejected (.subtaskOutOfBounds 2 2 1)) := by
    have fields : Codec.operatorRecord.decode (bytes 2) = .ok (record 2 4 written, []) :=
      ok_of_toOption (by decide +kernel)
    have known : Codec.subtaskEntries (bytes 2) = .ok written := ok_of_toOption (by decide +kernel)
    obtain ⟨entries, outcome, listed, verdict, decoded⟩ := binary _ _ _ fields
    cases known.symm.trans listed
    obtain ⟨first, _, reached, least, rfl⟩ :=
      verdict.beyond (by decide) ⟨3, by decide, by decide⟩
    have second : first = 2 := UInt64.le_antisymm (least 2 (by decide) (by decide)) reached
    rw [decoded, second]
    rfl
  have tooLarge : Schema.operatorCheckpoint.decode inverted =
      .error (.rejected (.invalidParallelism 5 4)) := by
    have fields : Schema.operatorRecord.decode inverted = .ok (record 5 4 [(9, .empty)]) :=
      ok_of_toOption (by decide +kernel)
    obtain ⟨_, outcome, _, verdict, decoded⟩ := json _ _ fields
    rw [decoded, verdict.inverted (by decide)]
    rfl
  have bare : ∃ state, Schema.operatorCheckpoint.decode blank = .ok state :=
    ⟨⟨record 1 4 [], by decide, List.forall_mem_nil _⟩, ok_of_toOption (by decide +kernel)⟩
  obtain ⟨state, decoded⟩ := accepted
  obtain ⟨_, _, _, within, _⟩ := binaryState _ _ state decoded
  obtain ⟨other, decoded'⟩ := bare
  obtain ⟨_, _, _, within', _⟩ := jsonState _ other decoded'
  exact ⟨⟨state, decoded, within⟩, refused, tooLarge, other, decoded', within'⟩

end CheckpointLedger
