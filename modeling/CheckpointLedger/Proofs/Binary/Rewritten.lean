import CheckpointLedger.Proofs.Binary.Drafting
import CheckpointLedger.Proofs.Binary.RoundTrip
import CheckpointLedger.Proofs.Snapshot.Validation

/-!
What becomes of bytes that are read and written again. Whatever is accepted can be written.
Bytes of kinds without maps are written as they were, and those of other kinds with the entries
of their maps in order.
-/

namespace CheckpointLedger

namespace Drafting

def partitionedState : Drafting Codec.partitionedState :=
  ((sortedMap Codec.text (plain Codec.offsets)).pair (plain Codec.blob)).recast _
    fun state => (state.partitions, state.delegate)

def subtask : Drafting Codec.subtask :=
  (partitionedState.list.pair (partitionedState.list.pair
    ((plain Codec.keyedState.list).pair ((plain Codec.keyedState.list).pair
      ((plain Codec.channelState.list).pair (plain Codec.channelState.list)))))).recast _
    fun state => (state.managedOperator, state.rawOperator, state.managedKeyed, state.rawKeyed,
      state.inputChannel, state.resultSubpartition)

def operatorRecord : Drafting Codec.operatorRecord :=
  ((plain Codec.operatorId).pair ((plain Codec.word64).pair ((plain Codec.word64).pair
    ((sortedMap Codec.word64 subtask).pair
      (plain (Codec.setOnce (Codec.option Codec.inlineBlob))))))).recast _
    fun record => (record.operator, record.parallelism, record.maxParallelism, record.subtasks,
      record.coordinator)

def operatorCheckpoint : Drafting Codec.operatorCheckpoint :=
  operatorRecord.recast _ OperatorCheckpoint.toOperatorRecord

end Drafting

def StateKind.drafting : (kind : StateKind) → Drafting kind.codec
  | .blob => .plain Codec.blob
  | .keyed => .plain Codec.keyedState
  | .partitioned => .partitionedState
  | .channel => .plain Codec.channelState
  | .keyedCollection => .plain Codec.keyedState.list
  | .partitionedCollection => .list .partitionedState
  | .channelCollection => .plain Codec.channelState.list
  | .subtask => .subtask
  | .operator => .operatorCheckpoint

def Kind.drafting : (kind : Kind) → Drafting kind.codec
  | .state kind => kind.drafting
  | .datum kind => .plain kind.codec

/-- Whether the values of the kind have maps in them. -/
def Kind.hasMaps : Kind → Bool
  | .state .partitioned => true
  | .state .partitionedCollection => true
  | .state .subtask => true
  | .state .operator => true
  | _ => false

/-- Without maps there is nothing to be put in order. -/
theorem inOrder_of_plain (kind : Kind) (plain : kind.hasMaps = false)
    (draft : kind.drafting.Draft) : kind.drafting.InOrder draft := by
  rcases kind with kind | kind
  · cases kind <;> first | exact trivial | cases plain
  · exact trivial

namespace Drafting

open Codec

/-- A codec is plain if it is canonical and what it writes can be read. -/
theorem faithful_lawful {α : Type} [Contents α] {codec : Codec α} {stored : α → α}
    (canonical : Canonical codec) (faithful : Faithful codec stored) : (plain codec).Lawful :=
  plain_lawful canonical (rereads_of_faithful faithful)

theorem partitionedState_lawful : partitionedState.Lawful :=
  imap_lawful (pair_lawful
    (sortedMap_lawful text_canonical (rereads_of_faithful text_faithful)
      (faithful_lawful offsets_canonical offsets_faithful))
    (faithful_lawful blob_canonical blob_faithful)) _ fun _ => rfl

theorem keyedStates_lawful : (plain keyedState.list).Lawful :=
  faithful_lawful (list_canonical keyedState_canonical) keyedStates_faithful

theorem channelStates_lawful : (plain channelState.list).Lawful :=
  faithful_lawful (list_canonical channelState_canonical) channelStates_faithful

theorem subtask_lawful : subtask.Lawful :=
  imap_lawful (pair_lawful (list_lawful partitionedState_lawful) (pair_lawful
    (list_lawful partitionedState_lawful) (pair_lawful keyedStates_lawful (pair_lawful
      keyedStates_lawful (pair_lawful channelStates_lawful channelStates_lawful)))))
    _ fun _ => rfl

theorem operatorRecord_lawful : operatorRecord.Lawful :=
  imap_lawful (pair_lawful (faithful_lawful operatorId_canonical operatorId_faithful) (pair_lawful
    (faithful_lawful word64_canonical word64_faithful) (pair_lawful
      (faithful_lawful word64_canonical word64_faithful) (pair_lawful
        (sortedMap_lawful word64_canonical (rereads_of_faithful word64_faithful) subtask_lawful)
        (faithful_lawful coordinator_canonical coordinator_faithful))))) _ fun _ => rfl

theorem operatorCheckpoint_lawful : operatorCheckpoint.Lawful :=
  checked_lawful operatorRecord_lawful _ fun record _ checked =>
    (ofRecord_accepts (SortedMap.ofList_entries record.subtasks).symm checked).1.symm

theorem stateKind_lawful (kind : StateKind) : kind.drafting.Lawful :=
  match kind with
  | .blob => faithful_lawful blob_canonical blob_faithful
  | .keyed => faithful_lawful keyedState_canonical keyedState_faithful
  | .partitioned => partitionedState_lawful
  | .channel => faithful_lawful channelState_canonical channelState_faithful
  | .keyedCollection => keyedStates_lawful
  | .partitionedCollection => list_lawful partitionedState_lawful
  | .channelCollection => channelStates_lawful
  | .subtask => subtask_lawful
  | .operator => operatorCheckpoint_lawful

theorem datumKind_lawful (kind : DatumKind) : (plain kind.codec).Lawful :=
  match kind with
  | .cell => faithful_lawful cell_canonical cell_faithful
  | .registryConfig => faithful_lawful registryConfig_canonical registryConfig_faithful
  | .operatorId => faithful_lawful operatorId_canonical operatorId_faithful
  | .keyGroups => faithful_lawful keyGroups_canonical keyGroups_faithful

theorem kind_lawful (kind : Kind) : kind.drafting.Lawful :=
  match kind with
  | .state kind => stateKind_lawful kind
  | .datum kind => datumKind_lawful kind

end Drafting

/-- A value that is read from some bytes can be written. Without maps it is written as exactly
the bytes that it was read from. With maps it is so exactly if the entries of all of them stood
in order, each key once, and else it is written as those bytes say, but with each map sorted and
with the last entry of each key. -/
theorem decoding_is_canonical (kind : Kind) (bytes rest : Bytes) (value : kind.Content)
    (decoded : kind.codec.decode bytes = .ok (value, rest)) :
    ∃ front written draft, bytes = front ++ rest ∧ kind.codec.encode value = .ok written ∧
      (kind.hasMaps = false → written = front) ∧
      kind.drafting.form.decode bytes = .ok (draft, rest) ∧
      kind.drafting.form.encode draft = .ok front ∧
      (written = front ↔ kind.drafting.InOrder draft) ∧
      kind.drafting.Sorts draft (kind.drafting.lay value) ∧
      kind.drafting.form.encode (kind.drafting.lay value) = .ok written := by
  obtain ⟨front, written, draft, split, whole, read, drafted, same, sorted⟩ :=
    (Drafting.kind_lawful kind).rewritten decoded
  have unchanged : kind.hasMaps = false → written = front :=
    fun plain => same.mpr (inOrder_of_plain kind plain draft)
  exact ⟨front, written, draft, split, whole, unchanged, read, drafted, same, sorted⟩

/-- Partition names out of order, one of them twice: the bytes are accepted, and written in
another way. -/
theorem unsorted_names_rewritten :
    let entry : UInt8 → UInt8 → Bytes := fun name offset =>
      [1, 0, 0, 0, 0, 0, 0, 0, name, 1, 0, 0, 0, 0, 0, 0, 0, offset, 0, 0, 0, 0, 0, 0, 0]
    let delegate : Bytes := [2, 0, 0, 0, 1, 0, 0, 0, 0, 0, 0, 0, 0x78, 5, 0, 0, 0, 0, 0, 0, 0]
    let bytes := Codec.littleEndian 8 3 ++ entry 0x62 1 ++ entry 0x61 2 ++ entry 0x62 3 ++ delegate
    let state : PartitionedState := ⟨.ofList [("a", [2]), ("b", [3])], .placeholder ⟨"x", 5⟩⟩
    Codec.partitionedState.decode bytes = .ok (state, []) ∧
      ∃ written, Codec.partitionedState.encode state = .ok written ∧ written ≠ bytes := by
  intro entry delegate bytes state
  have decoded : Codec.partitionedState.decode bytes = .ok (state, []) :=
    ok_of_toOption (by decide +kernel)
  let row : List (String × List UInt64) := [("b", [1]), ("a", [2]), ("b", [3])]
  have entries : (Codec.pair (Codec.list (Codec.pair Codec.text Codec.offsets)) Codec.blob).decode
      bytes = .ok ((row, state.delegate), []) :=
    ok_of_toOption (by decide +kernel)
  obtain ⟨front, written, draft, split, whole, -, read, -, same, -⟩ :=
    decoding_is_canonical (.state .partitioned) bytes [] state decoded
  cases entries.symm.trans read
  have unsorted : ¬ (row.map Prod.fst).Pairwise fun a b => compare a b = .lt := by decide
  refine ⟨decoded, written, whole, ?_⟩
  rw [split, List.append_nil]
  exact fun unchanged => unsorted (same.mp unchanged).1.1

end CheckpointLedger
