import CheckpointLedger.Proofs.Binary.Reading
import CheckpointLedger.Proofs.Binary.RoundTrip

/-!
Truncated forms. When more bytes follow, no reader revises what it said of the bytes so far,
unless it said that they ended too early. A form that is cut off can therefore be refused for
nothing else: its whole is read without a fault, to its last byte.
-/

namespace CheckpointLedger.Codec

variable {α β : Type}

/-- What a reader says of bytes, it says of them whatever follows. -/
structure Steady (read : Reader α) : Prop where
  takes : ∀ bytes value rest, read bytes = .ok (value, rest) →
    ∀ more, read (bytes ++ more) = .ok (value, rest ++ more)
  refuses : ∀ bytes fault, read bytes = .error fault → fault ≠ .endOfInput →
    ∀ more, read (bytes ++ more) = .error fault

theorem steady_done (value : α) : Steady fun rest => .ok (value, rest) where
  takes := by
    intro bytes found rest decoded more
    cases decoded
    rfl
  refuses := by
    intro bytes fault decoded
    cases decoded

theorem steady_refused (fault : DecodeFault) : Steady fun _ : Bytes => (.error fault :
    Except DecodeFault (α × Bytes)) where
  takes := by
    intro bytes value rest decoded
    cases decoded
  refuses := by
    intro bytes other decoded _ more
    exact decoded

theorem steady_following {first : Reader α} {next : α → Reader β} (steady : Steady first)
    (later : ∀ value, Steady (next value)) : Steady (following first next) where
  takes := by
    intro bytes value rest decoded more
    obtain ⟨found, middle, front, back⟩ := following_ok.mp decoded
    exact following_ok.mpr ⟨found, middle ++ more, steady.takes _ _ _ front more,
      (later found).takes _ _ _ back more⟩
  refuses := by
    intro bytes fault decoded other more
    cases following_error.mp decoded with
    | inl stopped => exact following_error.mpr (.inl (steady.refuses _ _ stopped other more))
    | inr behind =>
        obtain ⟨found, middle, front, back⟩ := behind
        exact following_error.mpr (.inr ⟨found, middle ++ more, steady.takes _ _ _ front more,
          (later found).refuses _ _ back other more⟩)

/-! Numbers. -/

theorem steady_digit : Steady (readLittleEndian 1) where
  takes := by
    intro bytes value rest decoded more
    cases bytes with
    | nil => cases decoded
    | cons byte bytes =>
        cases decoded
        rfl
  refuses := by
    intro bytes fault decoded other
    cases bytes with
    | nil =>
        cases decoded
        exact absurd rfl other
    | cons byte bytes => cases decoded

theorem steady_littleEndian (width : Nat) : Steady (readLittleEndian width) := by
  induction width with
  | zero => exact steady_done 0
  | succ width ih =>
      rw [readLittleEndian_following]
      exact steady_following steady_digit fun low =>
        steady_following ih fun high => steady_done (high * 256 + low)

/-! Building blocks. -/

theorem steady_decodeAs {codec : Codec α} (steady : Steady codec.decode) (wrap : α → β) :
    Steady (codec.decodeAs wrap) := by
  rw [decodeAs_following]
  exact steady_following steady fun value => steady_done (wrap value)

theorem steady_word (width : Nat) : Steady (word width).decode := steady_littleEndian width

theorem steady_word32 : Steady word32.decode := steady_decodeAs (steady_word 4) _

theorem steady_word64 : Steady word64.decode := steady_decodeAs (steady_word 8) _

/-- A value is only checked once all of it has been read. -/
theorem steady_checked {codec : Codec α} (steady : Steady codec.decode)
    (check : α → Except Violation β) (unwrap : β → α) :
    Steady (codec.checked check unwrap).decode := by
  rw [checked_following]
  refine steady_following steady fun value => ?_
  cases check value with
  | ok accepted => exact steady_done accepted
  | error violation => exact steady_refused (.rejected violation)

theorem steady_pair {first : Codec α} {second : Codec β} (left : Steady first.decode)
    (right : Steady second.decode) : Steady (pair first second).decode := by
  rw [pair_following]
  exact steady_following left fun value => steady_decodeAs right (value, ·)

theorem steady_decodeEach {codec : Codec α} (steady : Steady codec.decode) (count : Nat) :
    Steady (codec.decodeEach count) := by
  induction count with
  | zero => exact steady_done []
  | succ count ih =>
      rw [decodeEach_following]
      exact steady_following steady fun value =>
        steady_following ih fun values => steady_done (value :: values)

theorem steady_list {codec : Codec α} (steady : Steady codec.decode) :
    Steady (list codec).decode := by
  rw [list_following]
  exact steady_following (steady_littleEndian 8) (steady_decodeEach steady)

/-- A text is looked at only if none of its bytes is missing. -/
theorem steady_text : Steady text.decode := by
  rw [text_following]
  refine steady_following (steady_littleEndian 8) fun count => ?_
  have whole : ∀ bytes more : Bytes, ¬ bytes.length < count →
      ¬ (bytes ++ more).length < count ∧ (bytes ++ more).take count = bytes.take count ∧
        (bytes ++ more).drop count = bytes.drop count ++ more := by
    intro bytes more present
    have enough : count ≤ bytes.length := Nat.not_lt.mp present
    refine ⟨?_, List.take_append_of_le_length enough, List.drop_append_of_le_length enough⟩
    rw [List.length_append]
    omega
  constructor
  · intro bytes value rest decoded more
    by_cases missing : bytes.length < count
    · simp [missing] at decoded
    · obtain ⟨present, front, back⟩ := whole bytes more missing
      simp only [missing, ↓reduceIte] at decoded
      simp only [present, ↓reduceIte, front, back]
      cases found : Utf8.decode? (bytes.take count) with
      | none => simp [found] at decoded
      | some text =>
          simp only [found, Except.ok.injEq, Prod.mk.injEq] at decoded
          rw [decoded.1, decoded.2]
  · intro bytes fault decoded other more
    by_cases missing : bytes.length < count
    · simp only [missing, ↓reduceIte, Except.error.injEq] at decoded
      exact absurd decoded.symm other
    · obtain ⟨present, front, -⟩ := whole bytes more missing
      simp only [missing, ↓reduceIte] at decoded
      simp only [present, ↓reduceIte, front]
      cases found : Utf8.decode? (bytes.take count) with
      | none => simpa [found] using decoded
      | some text => simp [found] at decoded

theorem steady_path : Steady path.decode := steady_decodeAs steady_text Path.ofText

theorem steady_option {codec : Codec α} (steady : Steady codec.decode) :
    Steady (option codec).decode := by
  -- The tag is a digit that stands before the value.
  have tagged : (option codec).decode = following (readLittleEndian 1) fun tag rest =>
      if tag = 0 then .ok (none, rest)
      else if tag = 1 then codec.decodeAs some rest
      else .error (.optionTag (UInt8.ofNat tag)) := by
    funext bytes
    cases bytes with
    | nil => rfl
    | cons tag rest =>
        have none : tag.toNat = 0 ↔ tag = 0 := UInt8.toNat_inj (b := 0)
        have one : tag.toNat = 1 ↔ tag = 1 := UInt8.toNat_inj (b := 1)
        simp only [option, decodeAs, following, readLittleEndian, Nat.zero_mul, Nat.zero_add,
          none, one, UInt8.ofNat_toNat]
  rw [tagged]
  refine steady_following steady_digit fun tag => ?_
  by_cases none : tag = 0
  · simpa [none] using steady_done Option.none
  · by_cases one : tag = 1
    · simpa [one] using steady_decodeAs steady some
    · simpa [none, one] using steady_refused (.optionTag (UInt8.ofNat tag))

theorem steady_choose {readers : List (Reader α)} (steady : ∀ read ∈ readers, Steady read) :
    Steady (choose readers) := by
  rw [choose_following]
  refine steady_following steady_word32 fun tag => ?_
  cases known : readers[tag.toNat]? with
  | some read => exact steady read (List.mem_of_getElem? known)
  | none => exact steady_refused (.unknownVariant tag readers.length)

theorem steady_sortedMap [Ord α] [Std.TransOrd α] [Std.LawfulEqOrd α] {key : Codec α}
    {value : Codec β} (keys : Steady key.decode) (values : Steady value.decode) :
    Steady (sortedMap key value).decode :=
  steady_decodeAs (steady_list (steady_pair keys values)) SortedMap.ofList

/-! Plain data. -/

theorem steady_operatorId : Steady operatorId.decode := steady_decodeAs (steady_word 16) _

theorem steady_keyGroups : Steady keyGroups.decode :=
  steady_decodeAs (steady_pair steady_word32 steady_word32) _

theorem steady_setOnce {codec : Codec α} (steady : Steady codec.decode) :
    Steady (setOnce codec).decode :=
  steady_decodeAs (steady_option steady) SetOnce.mk

theorem steady_cell : Steady cell.decode := steady_setOnce (steady_option steady_word64)

theorem steady_disposalMode : Steady disposalMode.decode := by
  apply steady_choose
  intro read member
  simp only [List.mem_cons, List.not_mem_nil, or_false] at member
  cases member with
  | inl first => exact first ▸ steady_done DisposalMode.immediate
  | inr second => exact second ▸ steady_done DisposalMode.background

theorem steady_registryConfig : Steady registryConfig.decode :=
  steady_decodeAs (steady_pair steady_disposalMode steady_word64) _

/-! State. -/

theorem steady_inlineBlob : Steady inlineBlob.decode :=
  steady_decodeAs (steady_pair steady_text (steady_list (steady_decodeAs (steady_word 1) _))) _

theorem steady_fileBlob : Steady fileBlob.decode :=
  steady_decodeAs (steady_pair steady_path steady_word64) _

theorem steady_placeholder : Steady placeholder.decode :=
  steady_decodeAs (steady_pair steady_text steady_word64) _

theorem steady_blob : Steady blob.decode := by
  apply steady_choose
  intro read member
  simp only [List.mem_cons, List.not_mem_nil, or_false] at member
  rcases member with rfl | rfl | rfl
  · exact steady_decodeAs steady_inlineBlob Blob.inline
  · exact steady_decodeAs steady_fileBlob Blob.file
  · exact steady_decodeAs steady_placeholder Blob.placeholder

theorem steady_offsets : Steady offsets.decode := steady_list steady_word64

theorem steady_fullSnapshot : Steady fullSnapshot.decode :=
  steady_decodeAs (steady_pair steady_keyGroups (steady_pair steady_offsets steady_blob)) _

theorem steady_slot : Steady slot.decode :=
  steady_decodeAs (steady_pair steady_text (steady_pair steady_text steady_blob)) _

theorem steady_incremental : Steady incremental.decode :=
  steady_decodeAs (steady_pair steady_word64 (steady_pair steady_keyGroups (steady_pair
    (steady_list steady_slot) (steady_pair (steady_list steady_blob) (steady_pair steady_blob
      steady_word64))))) _

theorem steady_keyedState : Steady keyedState.decode := by
  apply steady_choose
  intro read member
  simp only [List.mem_cons, List.not_mem_nil, or_false] at member
  rcases member with rfl | rfl
  · exact steady_decodeAs steady_fullSnapshot KeyedState.full
  · exact steady_decodeAs steady_incremental KeyedState.incremental

theorem steady_partitionedState : Steady partitionedState.decode :=
  steady_decodeAs (steady_pair (steady_sortedMap steady_text steady_offsets) steady_blob) _

theorem steady_channelState : Steady channelState.decode :=
  steady_decodeAs (steady_pair steady_word32 (steady_pair steady_offsets steady_blob)) _

theorem steady_subtask : Steady subtask.decode :=
  steady_decodeAs (steady_pair (steady_list steady_partitionedState) (steady_pair
    (steady_list steady_partitionedState) (steady_pair (steady_list steady_keyedState)
      (steady_pair (steady_list steady_keyedState) (steady_pair (steady_list steady_channelState)
        (steady_list steady_channelState)))))) _

theorem steady_operatorRecord : Steady operatorRecord.decode :=
  steady_decodeAs (steady_pair steady_operatorId (steady_pair steady_word64 (steady_pair
    steady_word64 (steady_pair (steady_sortedMap steady_word64 steady_subtask)
      (steady_setOnce (steady_option steady_inlineBlob)))))) _

theorem steady_operatorCheckpoint : Steady operatorCheckpoint.decode :=
  steady_checked steady_operatorRecord _ _

/-! Every kind. -/

theorem steady_stateKind (kind : StateKind) : Steady kind.codec.decode :=
  match kind with
  | .blob => steady_blob
  | .keyed => steady_keyedState
  | .partitioned => steady_partitionedState
  | .channel => steady_channelState
  | .keyedCollection => steady_list steady_keyedState
  | .partitionedCollection => steady_list steady_partitionedState
  | .channelCollection => steady_list steady_channelState
  | .subtask => steady_subtask
  | .operator => steady_operatorCheckpoint

theorem steady_datumKind (kind : DatumKind) : Steady kind.codec.decode :=
  match kind with
  | .cell => steady_cell
  | .registryConfig => steady_registryConfig
  | .operatorId => steady_operatorId
  | .keyGroups => steady_keyGroups

theorem steady_kind (kind : Kind) : Steady kind.codec.decode :=
  match kind with
  | .state kind => steady_stateKind kind
  | .datum kind => steady_datumKind kind

end CheckpointLedger.Codec

namespace CheckpointLedger

/-- A form that is cut off anywhere is found to end too early, and nothing else is found wrong
with it. -/
theorem truncated_form_recognised (kind : Kind) (value : kind.Content) (bytes front : Bytes)
    (written : kind.codec.encode value = .ok bytes) (cut : front <+: bytes)
    (shorter : front.length < bytes.length) :
    kind.codec.decode front = .error .endOfInput := by
  have steady := Codec.steady_kind kind
  have restored := (Codec.kind_faithful kind).restores value bytes written []
  obtain ⟨back, whole⟩ := cut
  rw [List.append_nil, ← whole] at restored
  have missing : back ≠ [] := by
    rintro rfl
    rw [← whole, List.append_nil] at shorter
    exact absurd shorter (Nat.lt_irrefl _)
  cases decoded : kind.codec.decode front with
  | ok found =>
      obtain ⟨early, rest⟩ := found
      have continued := steady.takes front early rest decoded back
      rw [continued, Except.ok.injEq, Prod.mk.injEq] at restored
      exact absurd (List.append_eq_nil_iff.mp restored.2).2 missing
  | error fault =>
      by_cases ended : fault = .endOfInput
      · rw [ended]
      · have refused := steady.refuses front fault decoded ended back
        rw [refused] at restored
        cases restored

/-- The name of a partition, cut between the two bytes of its one character. -/
theorem split_character_recognised :
    let state : PartitionedState := ⟨.ofList [("é", [1])], .placeholder ⟨"é", 5⟩⟩
    let front : Bytes := [1, 0, 0, 0, 0, 0, 0, 0, 2, 0, 0, 0, 0, 0, 0, 0, 0xC3]
    ∃ bytes, Codec.partitionedState.encode state = .ok bytes ∧ front <+: bytes ∧
      front.length < bytes.length ∧
      Codec.partitionedState.decode front = .error .endOfInput := by
  intro state front
  let back : Bytes := [0xA9, 1, 0, 0, 0, 0, 0, 0, 0, 1, 0, 0, 0, 0, 0, 0, 0, 2, 0, 0, 0,
    2, 0, 0, 0, 0, 0, 0, 0, 0xC3, 0xA9, 5, 0, 0, 0, 0, 0, 0, 0]
  have written : Codec.partitionedState.encode state = .ok (front ++ back) :=
    ok_of_toOption (by decide +kernel)
  have cut : front <+: front ++ back := List.prefix_append front back
  have shorter : front.length < (front ++ back).length := by decide
  exact ⟨front ++ back, written, cut, shorter,
    truncated_form_recognised (.state .partitioned) state _ front written cut shorter⟩

end CheckpointLedger
