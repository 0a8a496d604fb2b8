import CheckpointLedger.Proofs.Sharing.LedgerRun
import CheckpointLedger.Proofs.Snapshot.Sums
import CheckpointLedger.Sharing.Kind

/-!
The bytes that a checkpoint wrote against the bytes that its state has. Of two sizes one is
within the other if it fits whenever the other does, and is not larger then. Sums keep
this, however they are grouped, and the size that a snapshot recorded is cut down to it.
-/

namespace CheckpointLedger

namespace Size

/-- The part fits whenever the whole does, and is not larger. -/
def Within (part whole : Size) : Prop :=
  ∀ size, whole = some size → ∃ smaller, part = some smaller ∧ smaller ≤ size

theorem within_self (whole : Size) : Within whole whole := by
  intro size fits
  exact ⟨size, fits, UInt64.le_refl size⟩

theorem within_add {part whole part' whole' : Size} (first : part.Within whole)
    (second : part'.Within whole') : (add part part').Within (add whole whole') := by
  intro size fits
  obtain ⟨a, b, isFirst, isSecond, sum⟩ := (add_eq_some whole whole' size).mp fits
  obtain ⟨x, isPart, below⟩ := first a isFirst
  obtain ⟨y, isPart', below'⟩ := second b isSecond
  have bound := size.toNat_lt
  rw [UInt64.le_iff_toNat_le] at below below'
  -- The parts together are no more than a number that fits.
  have inside : x.toNat + y.toNat < UInt64.size := by
    rw [UInt64.size]
    omega
  have exact : (UInt64.ofNat (x.toNat + y.toNat)).toNat = x.toNat + y.toNat :=
    UInt64.toNat_ofNat_of_lt inside
  refine ⟨UInt64.ofNat (x.toNat + y.toNat), ?_, ?_⟩
  · exact (add_eq_some part part' _).mpr ⟨x, y, isPart, isPart', exact⟩
  · rw [UInt64.le_iff_toNat_le, exact, sum]
    exact Nat.add_le_add below below'

theorem within_total {α : Type} (part whole : α → Size)
    (each : ∀ object, (part object).Within (whole object)) (objects : List α) :
    (total (objects.map part)).Within (total (objects.map whole)) := by
  induction objects with
  | nil => exact within_self _
  | cons object rest ih =>
      simp only [List.map_cons, total_cons]
      exact within_add (each object) ih

theorem within_min (recorded : UInt64) (whole : Size) :
    Within (whole.map (min recorded ·)) whole := by
  intro size fits
  refine ⟨min recorded size, ?_, ?_⟩
  · rw [fits]
    rfl
  · exact Std.min_le_right

end Size

open Size

/-! Every kind of state, from the blobs up. -/

theorem blob_within (blob : Blob) : (writtenSize blob).Within (stateSize blob) := by
  cases blob with
  | placeholder placeholder =>
      intro size _
      exact ⟨0, rfl, UInt64.zero_le⟩
  | inline stored => exact within_self _
  | file stored => exact within_self _

theorem incremental_within (snapshot : Incremental) :
    (writtenSize snapshot).Within (stateSize snapshot) :=
  within_min snapshot.recordedSize snapshot.stateSize

theorem keyed_within (state : KeyedState Incremental) :
    (writtenSize state).Within (stateSize state) := by
  cases state with
  | full snapshot => exact blob_within snapshot.delegate
  | incremental snapshot => exact incremental_within snapshot

theorem partitioned_within (state : PartitionedState) :
    (writtenSize state).Within (stateSize state) :=
  blob_within state.delegate

theorem channel_within (state : ChannelState) : (writtenSize state).Within (stateSize state) :=
  blob_within state.delegate

theorem list_within {α : Type} [Stored α]
    (each : ∀ object : α, (writtenSize object).Within (stateSize object)) (objects : List α) :
    (writtenSize objects).Within (stateSize objects) :=
  within_total writtenSize stateSize each objects

section Categories

variable {ω κ χ : Type} [Stored ω] [Stored κ] [Stored χ] (state : SubtaskState ω κ χ)

theorem subtask_stateSize : stateSize state = total [stateSize state.managedOperator,
    stateSize state.rawOperator, stateSize state.managedKeyed, stateSize state.rawKeyed,
    stateSize state.inputChannel, stateSize state.resultSubpartition] := rfl

theorem subtask_writtenSize : writtenSize state = total [writtenSize state.managedOperator,
    writtenSize state.rawOperator, writtenSize state.managedKeyed, writtenSize state.rawKeyed,
    writtenSize state.inputChannel, writtenSize state.resultSubpartition] := rfl

end Categories

theorem subtask_within (state : PlainSubtask) :
    (writtenSize state).Within (stateSize state) := by
  have operators := list_within partitioned_within
  have keyed := list_within keyed_within
  have channels := list_within channel_within
  rw [subtask_stateSize, subtask_writtenSize]
  simp only [total_cons]
  apply within_add (operators state.managedOperator)
  apply within_add (operators state.rawOperator)
  apply within_add (keyed state.managedKeyed)
  apply within_add (keyed state.rawKeyed)
  apply within_add (channels state.inputChannel)
  apply within_add (channels state.resultSubpartition)
  exact within_self _

theorem operator_within (state : OperatorCheckpoint PlainSubtask) :
    (writtenSize state).Within (stateSize state) :=
  within_add (within_self state.coordinatorSize)
    (list_within subtask_within state.counted)

theorem kind_within (kind : StateKind) (value : kind.Content) :
    (writtenSize value).Within (stateSize value) :=
  match kind with
  | .blob => blob_within value
  | .keyed => keyed_within value
  | .partitioned => partitioned_within value
  | .channel => channel_within value
  | .keyedCollection => list_within keyed_within value
  | .partitionedCollection => list_within partitioned_within value
  | .channelCollection => list_within channel_within value
  | .subtask => subtask_within value
  | .operator => operator_within value

/-- State of any kind whose size fits has written bytes that fit too, and no more of them.
It makes no difference how the state came about: the recorded size of a snapshot is any
number, as storage may give it, and the blobs in its slots are those that any operations
have put there. -/
theorem written_within_state (kind : StateKind) :
    (∀ (value : kind.Content) (size : UInt64), stateSize value = some size →
      ∃ written, writtenSize value = some written ∧ written ≤ size) ∧
    (∀ (ledger : Ledger) (operations : List Operation) (state : kind.Ref) (size : UInt64),
      let value := (ledger.after operations).store.readState kind state
      stateSize value = some size →
        ∃ written, writtenSize value = some written ∧ written ≤ size) := by
  constructor
  · exact kind_within kind
  · intro ledger operations state
    exact kind_within kind _

/-- The placeholder in the slot gives way to a larger blob, and a recorded size that was
more than the whole snapshot now counts. -/
theorem replaced_placeholder_counted :
    let x : Blob := .file ⟨⟨[0x78]⟩, 100⟩
    let registry := Registry.empty.after [.reference "x" x 7]
    let snapshot : Incremental :=
      ⟨1, .empty, [⟨"x", "a", .placeholder ⟨"x", 1⟩⟩], [], .inline ⟨"m", [1, 2]⟩, 50, false⟩
    let made := Store.add snapshot .empty
    let ledger : Ledger := ⟨made.2, registry, []⟩
    let operations : List Operation := [.register 1 [.keyed (.incremental made.1)]]
    let states : KeyedCollection := ⟨1, [.incremental made.1, .incremental made.1]⟩
    let before := ledger.store.readState .keyedCollection states
    let value := (ledger.after operations).store.readState .keyedCollection states
    stateSize before = some 6 ∧ writtenSize before = some 6 ∧ stateSize value = some 204 ∧
      ∃ written, writtenSize value = some written ∧ written ≤ 204 ∧ written = 100 := by
  intro x registry snapshot made ledger operations states before value
  have size : stateSize value = some 204 := by decide
  obtain ⟨written, counted, below⟩ :=
    (written_within_state .keyedCollection).2 ledger operations states 204 size
  have known : writtenSize value = some 100 := by decide
  have same : written = 100 := Option.some.inj (counted.symm.trans known)
  exact ⟨by decide, by decide, size, written, counted, below, same⟩

end CheckpointLedger
