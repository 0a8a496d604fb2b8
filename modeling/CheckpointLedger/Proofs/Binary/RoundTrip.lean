import CheckpointLedger.Binary.Kind
import CheckpointLedger.Proofs.Binary.Faithful
import CheckpointLedger.Proofs.Snapshot.OperatorRecord

/-!
The binary form of every kind of value gives the value back, up to the registration of its
incremental snapshots, and takes exactly its own bytes from whatever it stands in front of.
-/

namespace CheckpointLedger.Codec

/-! Plain data. -/

theorem operatorId_faithful : Faithful operatorId id :=
  imap_faithful (word_faithful 16) _ _ _ fun operator => by
    have small : operator.toNat < 256 ^ 16 := operator.value.isLt
    show OperatorId.ofNat (operator.toNat % 256 ^ 16) = operator
    rw [Nat.mod_eq_of_lt small]
    simp [OperatorId.ofNat, OperatorId.toNat]

theorem keyGroups_faithful : Faithful keyGroups id :=
  imap_faithful (pair_faithful word32_faithful word32_faithful) _ _ _ fun _ => rfl

theorem setOnce_faithful {α : Type} [Contents α] {codec : Codec α} (faithful : Faithful codec id) :
    Faithful (setOnce codec) id :=
  imap_faithful (option_faithful faithful) _ _ _ fun cell => by simp

theorem cell_faithful : Faithful cell id :=
  setOnce_faithful ((option_faithful word64_faithful).congr _ fun _ => Option.map_id_apply)

theorem disposalMode_faithful : Faithful disposalMode id where
  restores := by
    intro mode bytes written rest
    cases mode <;> (cases written; rfl)
  judges mode := by
    have paths : Textual mode := textual_of_none mode rfl
    have lengths : Fits mode := fits_of_none mode rfl
    cases mode <;> exact ⟨paths, lengths⟩

theorem registryConfig_faithful : Faithful registryConfig id :=
  imap_faithful (pair_faithful disposalMode_faithful word64_faithful) _ _ _ fun _ => rfl

/-! Blobs, and the lists of them and of numbers. -/

/-- A list is stored as it is when its members are. -/
theorem plain_list_faithful {α : Type} [Contents α] {codec : Codec α}
    (faithful : Faithful codec id) : Faithful (list codec) id :=
  (list_faithful faithful).congr _ fun values => values.map_id

theorem inlineBlob_faithful : Faithful inlineBlob id :=
  imap_faithful (pair_faithful text_faithful (plain_list_faithful byte_faithful)) _ _ _ fun _ => rfl

theorem fileBlob_faithful : Faithful fileBlob id :=
  imap_faithful (pair_faithful path_faithful word64_faithful) _ _ _ fun _ => rfl

theorem placeholder_faithful : Faithful placeholder id :=
  imap_faithful (pair_faithful text_faithful word64_faithful) _ _ _ fun _ => rfl

theorem blob_faithful : Faithful blob id where
  restores := by
    intro value bytes written rest
    cases value with
    | «inline» value =>
        exact variant_restores inlineBlob_faithful Blob.inline _ 0 rfl (by decide) value bytes
          written rest
    | file value =>
        exact variant_restores fileBlob_faithful Blob.file _ 1 rfl (by decide) value bytes
          written rest
    | placeholder value =>
        exact variant_restores placeholder_faithful Blob.placeholder _ 2 rfl (by decide) value bytes
          written rest
  judges value := by
    cases value with
    | «inline» value => exact tagged_judges 0 (inlineBlob_faithful.judges value)
    | file value => exact tagged_judges 1 (fileBlob_faithful.judges value)
    | placeholder value => exact tagged_judges 2 (placeholder_faithful.judges value)

theorem offsets_faithful : Faithful offsets id := plain_list_faithful word64_faithful

theorem slot_faithful : Faithful slot id :=
  imap_faithful (pair_faithful text_faithful (pair_faithful text_faithful blob_faithful))
    _ _ _ fun _ => rfl

/-! The handles of state. -/

theorem fullSnapshot_faithful : Faithful fullSnapshot id :=
  imap_faithful (pair_faithful keyGroups_faithful (pair_faithful offsets_faithful blob_faithful))
    _ _ _ fun _ => rfl

theorem incremental_faithful : Faithful incremental Incremental.unregistered :=
  imap_faithful (pair_faithful word64_faithful (pair_faithful keyGroups_faithful
    (pair_faithful (plain_list_faithful slot_faithful) (pair_faithful
      (plain_list_faithful blob_faithful) (pair_faithful blob_faithful word64_faithful)))))
    _ _ _ fun _ => rfl

theorem keyedState_faithful : Faithful keyedState KeyedState.unregistered where
  restores := by
    intro state bytes written rest
    cases state with
    | full snapshot =>
        exact variant_restores fullSnapshot_faithful KeyedState.full _ 0 rfl (by decide) snapshot
          bytes written rest
    | incremental snapshot =>
        exact variant_restores incremental_faithful KeyedState.incremental _ 1 rfl (by decide)
          snapshot bytes written rest
  judges state := by
    cases state with
    | full snapshot => exact tagged_judges 0 (fullSnapshot_faithful.judges snapshot)
    | incremental snapshot => exact tagged_judges 1 (incremental_faithful.judges snapshot)

theorem partitionedState_faithful : Faithful partitionedState id :=
  imap_faithful (pair_faithful (sortedMap_faithful text_faithful offsets_faithful) blob_faithful)
    _ _ _ fun state => by simp [SortedMap.map_id]

theorem channelState_faithful : Faithful channelState id :=
  imap_faithful (pair_faithful word32_faithful (pair_faithful offsets_faithful blob_faithful))
    _ _ _ fun _ => rfl

/-! All state of a subtask and of an operator. -/

theorem partitionedStates_faithful : Faithful (list partitionedState) id :=
  plain_list_faithful partitionedState_faithful

theorem keyedStates_faithful : Faithful (list keyedState) (List.map KeyedState.unregistered) :=
  list_faithful keyedState_faithful

theorem channelStates_faithful : Faithful (list channelState) id :=
  plain_list_faithful channelState_faithful

theorem subtask_faithful : Faithful subtask SubtaskState.unregistered :=
  imap_faithful (pair_faithful partitionedStates_faithful (pair_faithful
    partitionedStates_faithful (pair_faithful keyedStates_faithful (pair_faithful
      keyedStates_faithful (pair_faithful channelStates_faithful channelStates_faithful)))))
    _ _ _ fun _ => rfl

theorem coordinator_faithful : Faithful (setOnce (option inlineBlob)) id :=
  setOnce_faithful ((option_faithful inlineBlob_faithful).congr _ fun _ => Option.map_id_apply)

theorem operatorRecord_faithful : Faithful operatorRecord fun record =>
    { record with subtasks := record.subtasks.map SubtaskState.unregistered } :=
  imap_faithful (pair_faithful operatorId_faithful (pair_faithful word64_faithful (pair_faithful
    word64_faithful (pair_faithful (sortedMap_faithful word64_faithful subtask_faithful)
      coordinator_faithful)))) _ _ _ fun _ => rfl

theorem operatorCheckpoint_faithful :
    Faithful operatorCheckpoint OperatorCheckpoint.unregistered :=
  checked_faithful operatorRecord_faithful _ _ _ fun state =>
    OperatorCheckpoint.ofRecord_toOperatorRecord state.unregistered

/-! Every kind. -/

theorem stateKind_faithful (kind : StateKind) : Faithful kind.codec kind.unregistered :=
  match kind with
  | .blob => blob_faithful
  | .keyed => keyedState_faithful
  | .partitioned => partitionedState_faithful
  | .channel => channelState_faithful
  | .keyedCollection => keyedStates_faithful
  | .partitionedCollection => partitionedStates_faithful
  | .channelCollection => channelStates_faithful
  | .subtask => subtask_faithful
  | .operator => operatorCheckpoint_faithful

theorem datumKind_faithful (kind : DatumKind) : Faithful kind.codec id :=
  match kind with
  | .cell => cell_faithful
  | .registryConfig => registryConfig_faithful
  | .operatorId => operatorId_faithful
  | .keyGroups => keyGroups_faithful

theorem kind_faithful (kind : Kind) : Faithful kind.codec kind.unregistered :=
  match kind with
  | .state kind => stateKind_faithful kind
  | .datum kind => datumKind_faithful kind

end CheckpointLedger.Codec

namespace CheckpointLedger

/-- What was written is read back, whatever follows its bytes. Every value of text paths is
written, as long as its lengths are 64-bit numbers, and nothing but a path that is no text
keeps such a value from being written. -/
theorem binary_form_restores (kind : Kind) (value : kind.Content) :
    (∀ bytes, kind.codec.encode value = .ok bytes →
      ∀ rest, kind.codec.decode (bytes ++ rest) = .ok (kind.unregistered value, rest)) ∧
    ((∃ bytes, kind.codec.encode value = .ok bytes) ↔ Textual value ∧ Fits value) ∧
    (Fits value → ∀ fault, kind.codec.encode value = .error fault ↔
      fault = .pathNotUtf8 ∧ ∃ path ∈ paths value, path.text? = none) := by
  have faithful := Codec.kind_faithful kind
  have judged := faithful.judges value
  refine ⟨faithful.restores value, ?_⟩
  cases written : kind.codec.encode value with
  | ok bytes =>
      rw [written] at judged
      refine ⟨iff_of_true ⟨bytes, rfl⟩ judged, fun _ fault => iff_of_false (by simp) ?_⟩
      exact fun refused => (not_textual_iff value).mpr refused.2 judged.1
  | error fault =>
      rw [written] at judged
      cases fault with
      | pathNotUtf8 =>
          have refused : ¬ Textual value := judged
          refine ⟨iff_of_false (by simp) fun whole => refused whole.1, fun _ fault => ?_⟩
          rw [← not_textual_iff]
          simp [refused, eq_comm]
      | tooLong =>
          exact ⟨iff_of_false (by simp) fun whole => judged whole.2, fun fits => absurd fits judged⟩

/-- A registered snapshot with an empty range, in front of other bytes. -/
theorem registered_snapshot_restores :
    let snapshot : Incremental :=
      { checkpoint := 7, range := ⟨3, 1⟩, manifest := .inline ⟨"MANIFEST", [1, 2]⟩
        slots := [⟨"a", "000001.sst", .file ⟨.ofText "/shared/a", 5⟩⟩]
        privateBlobs := [.placeholder ⟨"b", 4⟩], recordedSize := 1, registered := true }
    ∃ bytes, Codec.keyedState.encode (.incremental snapshot) = .ok bytes ∧
      Codec.keyedState.decode (bytes ++ [9]) =
        .ok (.incremental { snapshot with registered := false }, [9]) := by
  intro snapshot
  obtain ⟨restores, written, -⟩ :=
    binary_form_restores (.state .keyed) (.incremental snapshot)
  have textual : Textual (KeyedState.incremental snapshot) := by
    decide
  have fits : Fits (KeyedState.incremental snapshot) := by decide
  obtain ⟨bytes, encoded⟩ := written.mpr ⟨textual, fits⟩
  exact ⟨bytes, encoded, restores bytes encoded [9]⟩

end CheckpointLedger
