import CheckpointLedger.Binary.Kind
import CheckpointLedger.Proofs.Binary.Faithful
import CheckpointLedger.Proofs.Binary.Reading

/-!
Codecs that read nothing but what they write. Every number, count, tag and text has one
accepted form, so that the bytes of a value can be told from the value. This holds of all
building blocks but maps, whose entries are accepted in any order.
-/

namespace CheckpointLedger.Codec

variable {α β : Type}

/-- The bytes that a value was read from are those that it is written as. -/
def Canonical (codec : Codec α) : Prop :=
  ∀ bytes value rest, codec.decode bytes = .ok (value, rest) →
    ∃ front, codec.encode value = .ok front ∧ bytes = front ++ rest

/-! Numbers. -/

theorem readLittleEndian_written (width : Nat) (bytes : Bytes) (value : Nat) (rest : Bytes)
    (decoded : readLittleEndian width bytes = .ok (value, rest)) :
    value < 256 ^ width ∧ bytes = littleEndian width value ++ rest := by
  induction width generalizing bytes value with
  | zero =>
      cases decoded
      exact ⟨Nat.one_pos, rfl⟩
  | succ width ih =>
      cases bytes with
      | nil => cases decoded
      | cons byte bytes =>
          rw [readLittleEndian] at decoded
          cases later : readLittleEndian width bytes with
          | error fault => simp [later] at decoded
          | ok found =>
              obtain ⟨high, left⟩ := found
              simp only [later, Except.ok.injEq, Prod.mk.injEq] at decoded
              obtain ⟨rfl, rfl⟩ := decoded
              obtain ⟨bound, same⟩ := ih bytes high later
              have low := byte.toNat_lt
              have shift : (high * 256 + byte.toNat) / 256 = high := by omega
              have digit : UInt8.ofNat (high * 256 + byte.toNat) = byte := by
                apply UInt8.toNat_inj.mp
                rw [UInt8.toNat_ofNat']
                omega
              rw [littleEndian, shift, digit, List.cons_append, ← same, Nat.pow_succ]
              exact ⟨by omega, rfl⟩

/-- Only the digits that are written count. -/
theorem littleEndian_mod (width value : Nat) :
    littleEndian width (value % 256 ^ width) = littleEndian width value := by
  induction width generalizing value with
  | zero => rfl
  | succ width ih =>
      have high : value % 256 ^ (width + 1) / 256 = value / 256 % 256 ^ width := by
        rw [Nat.pow_succ', Nat.mod_mul_right_div_self]
      have low : UInt8.ofNat (value % 256 ^ (width + 1)) = UInt8.ofNat value := by
        apply UInt8.toNat_inj.mp
        rw [UInt8.toNat_ofNat', UInt8.toNat_ofNat', Nat.pow_succ']
        exact Nat.mod_mul_right_mod value 256 (256 ^ width)
      rw [littleEndian, littleEndian, high, low, ih]

theorem word_canonical (width : Nat) : Canonical (word width) := by
  intro bytes value rest decoded
  exact ⟨_, rfl, (readLittleEndian_written width bytes value rest decoded).2⟩

/-! Values in another form. -/

/-- The other form may forget something, as long as it is nothing that is written. -/
theorem imap_canonical {codec : Codec α} (canonical : Canonical codec) (wrap : α → β)
    (unwrap : β → α) (same : ∀ value, codec.encode (unwrap (wrap value)) = codec.encode value) :
    Canonical (codec.imap wrap unwrap) := by
  intro bytes value rest decoded
  obtain ⟨inner, found, rfl⟩ := decodeAs_ok decoded
  obtain ⟨front, written, split⟩ := canonical bytes inner rest found
  exact ⟨front, (same inner).trans written, split⟩

theorem byte_canonical : Canonical byte :=
  imap_canonical (word_canonical 1) _ _ fun value =>
    congrArg Except.ok (by rw [UInt8.toNat_ofNat']; exact littleEndian_mod 1 value)

theorem word32_canonical : Canonical word32 :=
  imap_canonical (word_canonical 4) _ _ fun value =>
    congrArg Except.ok (by rw [UInt32.toNat_ofNat']; exact littleEndian_mod 4 value)

theorem word64_canonical : Canonical word64 :=
  imap_canonical (word_canonical 8) _ _ fun value =>
    congrArg Except.ok (by rw [UInt64.toNat_ofNat']; exact littleEndian_mod 8 value)

/-! Sequences. -/

theorem pair_canonical {first : Codec α} {second : Codec β} (left : Canonical first)
    (right : Canonical second) : Canonical (pair first second) := by
  intro bytes value rest decoded
  obtain ⟨a, b⟩ := value
  obtain ⟨middle, front, back⟩ := pair_decode_ok.mp decoded
  obtain ⟨written, there, rfl⟩ := left bytes a middle front
  obtain ⟨written', later, rfl⟩ := right middle b rest back
  refine ⟨written ++ written', ?_, (List.append_assoc ..).symm⟩
  simp only [pair, there, later]

theorem decodeEach_written {codec : Codec α} (canonical : Canonical codec) (count : Nat)
    (bytes : Bytes) (values : List α) (rest : Bytes)
    (decoded : decodeEach codec count bytes = .ok (values, rest)) :
    values.length = count ∧ ∃ body, encodeEach codec values = .ok body ∧ bytes = body ++ rest := by
  induction count generalizing bytes values with
  | zero =>
      cases decoded
      exact ⟨rfl, [], rfl, rfl⟩
  | succ count ih =>
      rw [decodeEach_following] at decoded
      obtain ⟨value, middle, first, others⟩ := following_ok.mp decoded
      obtain ⟨tail, left, later, done⟩ := following_ok.mp others
      cases done
      obtain ⟨front, written, rfl⟩ := canonical bytes value middle first
      obtain ⟨length, body, each, rfl⟩ := ih middle tail later
      refine ⟨congrArg (· + 1) length, front ++ body, ?_, (List.append_assoc ..).symm⟩
      simp only [encodeEach, written, each]

theorem counted_of_lt {length : Nat} (bound : length < 256 ^ 8) (body : Bytes) :
    counted length body = .ok (littleEndian 8 length ++ body) :=
  if_pos bound

theorem list_canonical {codec : Codec α} (canonical : Canonical codec) :
    Canonical (list codec) := by
  intro bytes values rest decoded
  rw [list_following] at decoded
  obtain ⟨count, middle, counted, each⟩ := following_ok.mp decoded
  obtain ⟨bound, rfl⟩ := readLittleEndian_written 8 bytes count middle counted
  obtain ⟨rfl, body, written, rfl⟩ := decodeEach_written canonical count middle values rest each
  refine ⟨littleEndian 8 values.length ++ body, ?_, (List.append_assoc ..).symm⟩
  simp only [list, written, counted_of_lt bound]

/-! Texts and paths. -/

theorem text_canonical : Canonical text := by
  intro bytes value rest decoded
  rw [text_following] at decoded
  obtain ⟨count, middle, counted, named⟩ := following_ok.mp decoded
  obtain ⟨bound, rfl⟩ := readLittleEndian_written 8 bytes count middle counted
  by_cases missing : middle.length < count
  · simp [missing] at named
  · simp only [missing, ↓reduceIte] at named
    cases found : Utf8.decode? (middle.take count) with
    | none => simp [found] at named
    | some name =>
        simp only [found, Except.ok.injEq, Prod.mk.injEq] at named
        obtain ⟨rfl, rfl⟩ := named
        have letters : Utf8.encode name = middle.take count :=
          Utf8.encode_of_decode? _ name found
        have length : (middle.take count).length = count := by
          rw [List.length_take, Nat.min_eq_left (Nat.not_lt.mp missing)]
        refine ⟨littleEndian 8 count ++ middle.take count, ?_, ?_⟩
        · simp only [text, letters, length, counted_of_lt bound]
        · rw [List.append_assoc, List.take_append_drop]

theorem path_canonical : Canonical path := by
  intro bytes value rest decoded
  obtain ⟨name, found, rfl⟩ := decodeAs_ok decoded
  have named : (Path.ofText name).text? = some name := Utf8.decode?_encode name
  obtain ⟨front, written, split⟩ := text_canonical bytes name rest found
  exact ⟨front, by simp only [path, named, written], split⟩

/-! Choices. -/

theorem option_canonical {codec : Codec α} (canonical : Canonical codec) :
    Canonical (option codec) := by
  intro bytes value rest decoded
  cases bytes with
  | nil => cases decoded
  | cons tag bytes =>
      by_cases none : tag = 0
      · subst none
        cases decoded
        exact ⟨[0], rfl, rfl⟩
      · by_cases one : tag = 1
        · subst one
          have inner : codec.decodeAs some bytes = .ok (value, rest) := by
            simpa [option, decodeAs] using decoded
          obtain ⟨found, read, rfl⟩ := decodeAs_ok inner
          obtain ⟨front, written, rfl⟩ := canonical bytes found rest read
          exact ⟨1 :: front, by simp only [option, written], rfl⟩
        · simp [option, none, one] at decoded

theorem setOnce_canonical {codec : Codec α} (canonical : Canonical codec) :
    Canonical (setOnce codec) :=
  imap_canonical (option_canonical canonical) _ _ fun _ => rfl

/-- A choice is canonical if what stands behind each tag is. -/
theorem choose_canonical {encode : β → Except EncodeFault Bytes} {readers : List (Reader β)}
    (each : ∀ tag read, readers[tag]? = some read → ∀ body value rest,
      read body = .ok (value, rest) →
        ∃ front, encode value = .ok front ∧ littleEndian 4 tag ++ body = front ++ rest) :
    Canonical ⟨encode, choose readers⟩ := by
  intro bytes value rest decoded
  simp only [choose_following] at decoded
  obtain ⟨tag, body, front, chosen⟩ := following_ok.mp decoded
  obtain ⟨written, there, rfl⟩ := word32_canonical bytes tag body front
  cases there
  cases known : readers[tag.toNat]? with
  | none => simp [known] at chosen
  | some read =>
      simp only [known] at chosen
      exact each tag.toNat read known body value rest chosen

/-- A variant is written as its tag and its body. -/
theorem variant_written {codec : Codec α} (canonical : Canonical codec) (wrap : α → β)
    (tag : Nat) {body rest : Bytes} {value : β}
    (decoded : codec.decodeAs wrap body = .ok (value, rest)) :
    ∃ inner front, wrap inner = value ∧ tagged tag (codec.encode inner) = .ok front ∧
      littleEndian 4 tag ++ body = front ++ rest := by
  obtain ⟨inner, read, wrapped⟩ := decodeAs_ok decoded
  obtain ⟨front, written, rfl⟩ := canonical body inner rest read
  exact ⟨inner, littleEndian 4 tag ++ front, wrapped, by simp only [tagged, written],
    (List.append_assoc ..).symm⟩

/-! Plain data. -/

theorem operatorId_canonical : Canonical operatorId :=
  imap_canonical (word_canonical 16) _ _ fun value =>
    congrArg Except.ok (by
      show littleEndian 16 (BitVec.ofNat 128 value).toNat = littleEndian 16 value
      rw [BitVec.toNat_ofNat]
      exact littleEndian_mod 16 value)

theorem keyGroups_canonical : Canonical keyGroups :=
  imap_canonical (pair_canonical word32_canonical word32_canonical) _ _ fun _ => rfl

theorem cell_canonical : Canonical cell := setOnce_canonical (option_canonical word64_canonical)

theorem disposalMode_canonical : Canonical disposalMode := by
  apply choose_canonical
  intro tag read known body mode rest chosen
  match tag with
  | 0 =>
      cases known
      cases chosen
      exact ⟨_, rfl, rfl⟩
  | 1 =>
      cases known
      cases chosen
      exact ⟨_, rfl, rfl⟩
  | _ + 2 => cases known

theorem registryConfig_canonical : Canonical registryConfig :=
  imap_canonical (pair_canonical disposalMode_canonical word64_canonical) _ _ fun _ => rfl

/-! State without maps. -/

theorem inlineBlob_canonical : Canonical inlineBlob :=
  imap_canonical (pair_canonical text_canonical (list_canonical byte_canonical)) _ _ fun _ => rfl

theorem fileBlob_canonical : Canonical fileBlob :=
  imap_canonical (pair_canonical path_canonical word64_canonical) _ _ fun _ => rfl

theorem placeholder_canonical : Canonical placeholder :=
  imap_canonical (pair_canonical text_canonical word64_canonical) _ _ fun _ => rfl

theorem blob_canonical : Canonical blob := by
  apply choose_canonical
  intro tag read known body value rest chosen
  match tag with
  | 0 =>
      cases known
      obtain ⟨inner, front, rfl, written⟩ := variant_written inlineBlob_canonical _ 0 chosen
      exact ⟨front, written⟩
  | 1 =>
      cases known
      obtain ⟨inner, front, rfl, written⟩ := variant_written fileBlob_canonical _ 1 chosen
      exact ⟨front, written⟩
  | 2 =>
      cases known
      obtain ⟨inner, front, rfl, written⟩ := variant_written placeholder_canonical _ 2 chosen
      exact ⟨front, written⟩
  | _ + 3 => cases known

theorem offsets_canonical : Canonical offsets := list_canonical word64_canonical

theorem fullSnapshot_canonical : Canonical fullSnapshot :=
  imap_canonical (pair_canonical keyGroups_canonical
    (pair_canonical offsets_canonical blob_canonical)) _ _ fun _ => rfl

theorem slot_canonical : Canonical slot :=
  imap_canonical (pair_canonical text_canonical (pair_canonical text_canonical blob_canonical))
    _ _ fun _ => rfl

theorem incremental_canonical : Canonical incremental :=
  imap_canonical (pair_canonical word64_canonical (pair_canonical keyGroups_canonical
    (pair_canonical (list_canonical slot_canonical) (pair_canonical
      (list_canonical blob_canonical) (pair_canonical blob_canonical word64_canonical)))))
    _ _ fun _ => rfl

theorem keyedState_canonical : Canonical keyedState := by
  apply choose_canonical
  intro tag read known body value rest chosen
  match tag with
  | 0 =>
      cases known
      obtain ⟨inner, front, rfl, written⟩ := variant_written fullSnapshot_canonical _ 0 chosen
      exact ⟨front, written⟩
  | 1 =>
      cases known
      obtain ⟨inner, front, rfl, written⟩ := variant_written incremental_canonical _ 1 chosen
      exact ⟨front, written⟩
  | _ + 2 => cases known

theorem channelState_canonical : Canonical channelState :=
  imap_canonical (pair_canonical word32_canonical
    (pair_canonical offsets_canonical blob_canonical)) _ _ fun _ => rfl

theorem coordinator_canonical : Canonical (setOnce (option inlineBlob)) :=
  setOnce_canonical (option_canonical inlineBlob_canonical)

end CheckpointLedger.Codec
