import CheckpointLedger.Proofs.Binary.Reading
import CheckpointLedger.Proofs.Snapshot.Contents
import CheckpointLedger.SortedMap.Lemmas
import Mathlib.Algebra.Group.Nat.Defs
import Mathlib.Data.List.Forall2

/-!
Codecs that lose nothing but what they are said to lose. Reading takes exactly the bytes
that were written, whatever follows them, and writing fails only on a path that is no text
or on a length beyond 64 bits. Each building block keeps both properties of its parts.
-/

namespace CheckpointLedger.Codec

variable {α β : Type}

/-- The outcome of writing a value whose paths are text and whose lengths fit as given. -/
def Judged (textual fits : Prop) : Except EncodeFault Bytes → Prop
  | .ok _ => textual ∧ fits
  | .error .pathNotUtf8 => ¬ textual
  | .error .tooLong => ¬ fits

/-- What is read is what was written, up to the part that is not stored. -/
structure Faithful [Contents α] (codec : Codec α) (stored : α → α) : Prop where
  restores : ∀ value bytes, codec.encode value = .ok bytes →
    ∀ rest, codec.decode (bytes ++ rest) = .ok (stored value, rest)
  judges : ∀ value, Judged (Textual value) (Fits value) (codec.encode value)

/-- What is written is read as something like it, whatever follows. -/
def Rereads (codec : Codec α) (alike : α → α → Prop) : Prop :=
  ∀ value bytes, codec.encode value = .ok bytes →
    ∀ rest, ∃ again, codec.decode (bytes ++ rest) = .ok (again, rest) ∧ alike value again

theorem rereads_of_faithful [Contents α] {codec : Codec α} {stored : α → α}
    (faithful : Faithful codec stored) : Rereads codec fun value again => stored value = again :=
  fun value bytes written rest => ⟨_, faithful.restores value bytes written rest, rfl⟩

theorem rereads_mono {codec : Codec α} {alike other : α → α → Prop} (rereads : Rereads codec alike)
    (weaker : ∀ value again, alike value again → other value again) : Rereads codec other := by
  intro value bytes written rest
  obtain ⟨again, read, same⟩ := rereads value bytes written rest
  exact ⟨again, read, weaker value again same⟩

theorem judged_congr {textual textual' fits fits' : Prop} {outcome : Except EncodeFault Bytes}
    (judged : Judged textual fits outcome) (texts : textual ↔ textual') (lengths : fits ↔ fits') :
    Judged textual' fits' outcome := by
  rw [← propext texts, ← propext lengths]
  exact judged

theorem judged_map {textual fits : Prop} {outcome : Except EncodeFault Bytes}
    (judged : Judged textual fits outcome) (extend : Bytes → Bytes) :
    Judged textual fits (outcome.map extend) := by
  rcases outcome with (_ | _) | bytes <;> exact judged

/-- One part after the other. -/
def both (first second : Except EncodeFault Bytes) : Except EncodeFault Bytes :=
  match first with
  | .error fault => .error fault
  | .ok front => match second with
    | .error fault => .error fault
    | .ok back => .ok (front ++ back)

theorem judged_both {textual textual' fits fits' : Prop} {first second : Except EncodeFault Bytes}
    (left : Judged textual fits first) (right : Judged textual' fits' second) :
    Judged (textual ∧ textual') (fits ∧ fits') (both first second) := by
  cases first with
  | error fault => cases fault <;> exact fun whole => left whole.1
  | ok front => cases second with
    | error fault => cases fault <;> exact fun whole => right whole.2
    | ok back => exact ⟨⟨left.1, right.1⟩, left.2, right.2⟩

theorem both_ok {first second : Except EncodeFault Bytes} {bytes : Bytes}
    (written : both first second = .ok bytes) :
    ∃ front back, first = .ok front ∧ second = .ok back ∧ bytes = front ++ back := by
  cases first with
  | error fault => cases written
  | ok front => cases second with
    | error fault => cases written
    | ok back =>
        cases written
        exact ⟨front, back, rfl, rfl, rfl⟩

theorem counted_ok {length : Nat} {body bytes : Bytes} (written : counted length body = .ok bytes) :
    length < UInt64.size ∧ bytes = littleEndian 8 length ++ body := by
  simp only [counted] at written
  split at written
  · cases written
    exact ⟨‹_›, rfl⟩
  · cases written

/-! Numbers. -/

theorem readLittleEndian_append (width value : Nat) (rest : Bytes) :
    readLittleEndian width (littleEndian width value ++ rest) =
      .ok (value % 256 ^ width, rest) := by
  induction width generalizing value with
  | zero => simp [readLittleEndian, littleEndian, Nat.mod_one]
  | succ width ih =>
      have digits : value / 256 % 256 ^ width * 256 + value % 256 = value % 256 ^ (width + 1) := by
        rw [Nat.pow_succ', Nat.mod_mul]
        omega
      simp [readLittleEndian, littleEndian, ih, digits]

/-- A number that fits is read back as it is. -/
theorem readLittleEndian_of_lt (width value : Nat) (fits : value < 256 ^ width) (rest : Bytes) :
    readLittleEndian width (littleEndian width value ++ rest) = .ok (value, rest) := by
  rw [readLittleEndian_append, Nat.mod_eq_of_lt fits]

theorem word_faithful (width : Nat) : Faithful (word width) (· % 256 ^ width) where
  restores := by
    intro value bytes written rest
    cases written
    exact readLittleEndian_append width value rest
  judges value := ⟨textual_of_none value rfl, fits_of_none value rfl⟩

/-! Values in another form. -/

section Imap

variable [Contents α] {codec : Codec α} {stored : α → α}

theorem decodeAs_append (faithful : Faithful codec stored) (wrap : α → β) (value : α)
    (bytes : Bytes) (written : codec.encode value = .ok bytes) (rest : Bytes) :
    codec.decodeAs wrap (bytes ++ rest) = .ok (wrap (stored value), rest) := by
  simp [decodeAs, faithful.restores value bytes written rest]

/-- A value is written as its fields are, and what is stored of it is put together from
what is stored of them. -/
theorem imap_faithful (faithful : Faithful codec stored) (wrap : α → β) (unwrap : β → α)
    (stored' : β → β) (same : ∀ value, wrap (stored (unwrap value)) = stored' value) :
    @Faithful β (Contents.of unwrap) (codec.imap wrap unwrap) stored' := by
  let _ : Contents β := .of unwrap
  constructor
  · intro value bytes written rest
    rw [← same]
    exact decodeAs_append faithful wrap (unwrap value) bytes written rest
  · exact fun value => faithful.judges (unwrap value)

theorem checked_faithful (faithful : Faithful codec stored) (check : α → Except Violation β)
    (unwrap : β → α) (stored' : β → β)
    (passes : ∀ value, check (stored (unwrap value)) = .ok (stored' value)) :
    @Faithful β (Contents.of unwrap) (codec.checked check unwrap) stored' := by
  let _ : Contents β := .of unwrap
  constructor
  · intro value bytes written rest
    have read := faithful.restores (unwrap value) bytes written rest
    simp [checked, read, passes]
  · exact fun value => faithful.judges (unwrap value)

theorem Faithful.congr (faithful : Faithful codec stored) (stored' : α → α)
    (same : ∀ value, stored value = stored' value) : Faithful codec stored' := by
  rw [← funext same]
  exact faithful

end Imap

theorem byte_faithful : Faithful byte id :=
  imap_faithful (word_faithful 1) _ _ _ fun value => by
    simp [Nat.mod_eq_of_lt value.toNat_lt]

theorem word32_faithful : Faithful word32 id :=
  imap_faithful (word_faithful 4) _ _ _ fun value => by
    simp [Nat.mod_eq_of_lt value.toNat_lt]

theorem word64_faithful : Faithful word64 id :=
  imap_faithful (word_faithful 8) _ _ _ fun value => by
    simp [Nat.mod_eq_of_lt value.toNat_lt]

/-! Sequences. -/

section Rereading

variable {first : Codec α} {second : Codec β}

theorem pair_rereads {alike : α → α → Prop} {alike' : β → β → Prop}
    (left : Rereads first alike) (right : Rereads second alike') :
    Rereads (pair first second) fun value again =>
      alike value.1 again.1 ∧ alike' value.2 again.2 := by
  intro value bytes written rest
  obtain ⟨front, back, there, later, rfl⟩ := both_ok written
  obtain ⟨a, read, same⟩ := left value.1 front there (back ++ rest)
  obtain ⟨b, read', same'⟩ := right value.2 back later rest
  rw [List.append_assoc]
  exact ⟨(a, b), pair_decode_ok.mpr ⟨back ++ rest, read, read'⟩, same, same'⟩

theorem encodeEach_rereads {alike : α → α → Prop} (rereads : Rereads first alike)
    (values : List α) (body : Bytes) (written : encodeEach first values = .ok body)
    (rest : Bytes) :
    ∃ again, decodeEach first values.length (body ++ rest) = .ok (again, rest) ∧
      List.Forall₂ alike values again := by
  induction values generalizing body with
  | nil =>
      cases written
      exact ⟨[], rfl, .nil⟩
  | cons value values ih =>
      obtain ⟨front, back, there, later, rfl⟩ := both_ok written
      obtain ⟨head, read, same⟩ := rereads value front there (back ++ rest)
      obtain ⟨tail, others, alike⟩ := ih back later
      refine ⟨head :: tail, ?_, .cons same alike⟩
      simp only [List.length_cons, decodeEach, List.append_assoc, read, others]

theorem list_rereads {alike : α → α → Prop} (rereads : Rereads first alike) :
    Rereads (list first) (List.Forall₂ alike) := by
  intro values bytes written rest
  cases each : encodeEach first values with
  | error fault => simp [list, each] at written
  | ok body =>
      simp only [list, each] at written
      obtain ⟨within, rfl⟩ := counted_ok written
      obtain ⟨again, read, same⟩ := encodeEach_rereads rereads values body each rest
      have count := readLittleEndian_of_lt 8 values.length within (body ++ rest)
      refine ⟨again, ?_, same⟩
      simp only [list, List.append_assoc, count, read]

end Rereading

section Sequences

variable [Contents α] [Contents β] {first : Codec α} {second : Codec β} {stored₁ : α → α}
  {stored₂ : β → β}

theorem pair_faithful (left : Faithful first stored₁) (right : Faithful second stored₂) :
    Faithful (pair first second) (Prod.map stored₁ stored₂) where
  restores := by
    intro value bytes written rest
    obtain ⟨front, back, there, later, rfl⟩ := both_ok written
    simp [pair, left.restores _ _ there, right.restores _ _ later, Prod.map]
  judges value :=
    judged_congr (judged_both (left.judges value.1) (right.judges value.2))
      (textual_pair value).symm (fits_pair value).symm

theorem encodeEach_judges (faithful : Faithful first stored₁) (values : List α) :
    Judged (∀ value ∈ values, Textual value) (∀ value ∈ values, Fits value)
      (encodeEach first values) := by
  induction values with
  | nil => exact ⟨by simp, by simp⟩
  | cons value values ih =>
      exact judged_congr (judged_both (faithful.judges value) ih)
        List.forall_mem_cons.symm List.forall_mem_cons.symm

theorem counted_judges {textual fits : Prop} (length : Nat) (body : Bytes)
    (holds : textual ∧ fits) :
    Judged textual (length < UInt64.size ∧ fits) (counted length body) := by
  simp only [counted]
  split
  · exact ⟨holds.1, ‹_›, holds.2⟩
  · exact fun within => absurd within.1 ‹_›

theorem list_faithful (faithful : Faithful first stored₁) :
    Faithful (list first) (List.map stored₁) where
  restores := by
    intro values bytes written rest
    obtain ⟨again, read, each⟩ :=
      list_rereads (rereads_of_faithful faithful) values bytes written rest
    have all : List.Forall₂ Eq (values.map stored₁) again := List.forall₂_map_left_iff.mpr each
    rw [List.forall₂_eq_eq_eq] at all
    rw [read, all]
  judges values := by
    have each := encodeEach_judges faithful values
    refine judged_congr ?_ (textual_list values).symm (fits_list values).symm
    simp only [list]
    cases written : encodeEach first values with
    | error fault =>
        rw [written] at each
        cases fault with
        | pathNotUtf8 => exact each
        | tooLong => exact fun within => each within.2
    | ok body =>
        rw [written] at each
        exact counted_judges values.length body each

end Sequences

/-! Texts and paths. -/

theorem text_restores (value : String) (bytes : Bytes) (written : text.encode value = .ok bytes)
    (rest : Bytes) : text.decode (bytes ++ rest) = .ok (value, rest) := by
  obtain ⟨within, rfl⟩ := counted_ok written
  have count := readLittleEndian_of_lt 8 (Utf8.encode value).length within
    (Utf8.encode value ++ rest)
  simp only [text, List.append_assoc, count]
  simp [Utf8.decode?_encode]

theorem text_faithful : Faithful text id where
  restores := text_restores
  judges value := by
    have judged : Judged True ((Utf8.encode value).length < UInt64.size ∧ True)
        (text.encode value) := counted_judges _ _ ⟨trivial, trivial⟩
    refine judged_congr judged (iff_of_true trivial (textual_of_none value rfl)) ?_
    simp [Fits, lengths]

theorem path_faithful : Faithful path id where
  restores := by
    intro value bytes written rest
    cases named : value.text? with
    | none => simp [path, named] at written
    | some name =>
        simp only [path, named] at written
        have same : Path.ofText name = value :=
          congrArg Path.mk (Utf8.encode_of_decode? value.bytes name named)
        simp [path, decodeAs, text_restores name bytes written, same]
  judges value := by
    cases named : value.text? with
    | none => simp [path, named, Judged, Textual, paths]
    | some name =>
        have same : Utf8.encode name = value.bytes :=
          Utf8.encode_of_decode? value.bytes name named
        have written : path.encode value = text.encode name := by simp [path, named]
        rw [written]
        refine judged_congr (text_faithful.judges name) ?_ ?_
        · exact iff_of_true (textual_of_none name rfl) (by simp [Textual, paths, named])
        · simp [Fits, lengths, same]

/-! Choices. -/

theorem option_faithful [Contents α] {codec : Codec α} {stored : α → α}
    (faithful : Faithful codec stored) : Faithful (option codec) (Option.map stored) where
  restores := by
    intro value bytes written rest
    cases value with
    | none =>
        cases written
        rfl
    | some value =>
        cases inner : codec.encode value with
        | error fault => simp [option, inner] at written
        | ok body =>
            simp only [option, inner, Except.ok.injEq] at written
            subst written
            simp [option, faithful.restores value body inner rest]
  judges value := by
    cases value with
    | none => exact ⟨textual_of_none _ rfl, fits_of_none _ rfl⟩
    | some value =>
        have same : (option codec).encode (some value) = (codec.encode value).map (1 :: ·) := by
          simp only [option]
          cases codec.encode value <;> rfl
        rw [same]
        exact judged_map (faithful.judges value) _

theorem sortedMap_faithful [Contents α] [Contents β] [Ord α] [Std.TransOrd α] [Std.LawfulEqOrd α]
    {key : Codec α} {value : Codec β} {stored : β → β} (keys : Faithful key id)
    (values : Faithful value stored) :
    Faithful (sortedMap key value) (SortedMap.map stored) :=
  imap_faithful (list_faithful (pair_faithful keys values)) _ _ _ fun map => by
    rw [← SortedMap.ofList_entries (map.map stored)]
    rfl

theorem tagged_map (tag : Nat) (body : Except EncodeFault Bytes) :
    tagged tag body = body.map (littleEndian 4 tag ++ ·) := by
  cases body <;> rfl

theorem tagged_judges {textual fits : Prop} {body : Except EncodeFault Bytes} (tag : Nat)
    (judged : Judged textual fits body) : Judged textual fits (tagged tag body) := by
  rw [tagged_map]
  exact judged_map judged _

theorem word32_decode (tag : Nat) (small : tag < 256) (rest : Bytes) :
    word32.decode (littleEndian 4 tag ++ rest) = .ok (UInt32.ofNat tag, rest) := by
  have number := readLittleEndian_of_lt 4 tag (by omega) rest
  simp only [word32, imap, decodeAs, word, number]

/-- A reader with the tag's number reads what was written behind the tag. -/
theorem choose_append (readers : List (Bytes → Except DecodeFault (β × Bytes))) (tag : Nat)
    (reader : Bytes → Except DecodeFault (β × Bytes)) (known : readers[tag]? = some reader)
    (small : tag < 256) (body : Except EncodeFault Bytes) (bytes : Bytes)
    (written : tagged tag body = .ok bytes) (rest : Bytes) :
    ∃ inner, body = .ok inner ∧ choose readers (bytes ++ rest) = reader (inner ++ rest) := by
  cases body with
  | error fault => cases written
  | ok inner =>
      cases written
      have number : (UInt32.ofNat tag).toNat = tag := Nat.mod_eq_of_lt (by omega)
      refine ⟨inner, rfl, ?_⟩
      rw [List.append_assoc]
      simp only [choose, word32_decode tag small, number, known]

theorem variant_restores [Contents α] {codec : Codec α} {stored : α → α}
    (faithful : Faithful codec stored) (wrap : α → β)
    (readers : List (Bytes → Except DecodeFault (β × Bytes))) (tag : Nat)
    (known : readers[tag]? = some (codec.decodeAs wrap)) (small : tag < 256) (value : α)
    (bytes : Bytes) (written : tagged tag (codec.encode value) = .ok bytes) (rest : Bytes) :
    choose readers (bytes ++ rest) = .ok (wrap (stored value), rest) := by
  obtain ⟨inner, encoded, chosen⟩ := choose_append readers tag _ known small _ bytes written rest
  rw [chosen]
  exact decodeAs_append faithful wrap value inner encoded rest

end CheckpointLedger.Codec
