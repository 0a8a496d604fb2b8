import CheckpointLedger.Binary.Codec

/-!
Readers of the binary form in steps. Each takes a value from the front of the bytes and goes
on with what is left, in a way that the value decides.
-/

namespace CheckpointLedger

theorem ok_of_toOption {ε α : Type} {outcome : Except ε α} {value : α}
    (found : outcome.toOption = some value) : outcome = .ok value := by
  cases outcome with
  | error fault => cases found
  | ok other => exact congrArg Except.ok (Option.some.inj found)

namespace Codec

variable {α β γ : Type}

abbrev Reader (α : Type) := Bytes → Except DecodeFault (α × Bytes)

/-- One reading after the other. A fault of the first ends both. -/
def following (first : Reader α) (next : α → Reader β) : Reader β := fun bytes =>
  match first bytes with
  | .error fault => .error fault
  | .ok (value, middle) => next value middle

theorem following_ok {first : Reader α} {next : α → Reader β} {bytes rest : Bytes} {value : β} :
    following first next bytes = .ok (value, rest) ↔
      ∃ found middle, first bytes = .ok (found, middle) ∧
        next found middle = .ok (value, rest) := by
  rw [following]
  cases front : first bytes with
  | error fault => simp
  | ok found =>
      obtain ⟨found, middle⟩ := found
      constructor
      · exact fun later => ⟨found, middle, rfl, later⟩
      · rintro ⟨_, _, same, later⟩
        cases same
        exact later

theorem following_error {first : Reader α} {next : α → Reader β} {bytes : Bytes}
    {fault : DecodeFault} :
    following first next bytes = .error fault ↔
      first bytes = .error fault ∨
        ∃ found middle, first bytes = .ok (found, middle) ∧ next found middle = .error fault := by
  rw [following]
  cases front : first bytes with
  | error fault => simp
  | ok found =>
      obtain ⟨found, middle⟩ := found
      constructor
      · exact fun later => .inr ⟨found, middle, rfl, later⟩
      · rintro (stopped | ⟨_, _, same, later⟩)
        · cases stopped
        · cases same
          exact later

/-! The readers of the building blocks as such steps. -/

theorem readLittleEndian_following (width : Nat) :
    readLittleEndian (width + 1) = following (readLittleEndian 1) fun low =>
      following (readLittleEndian width) fun high rest => .ok (high * 256 + low, rest) := by
  funext bytes
  cases bytes with
  | nil => rfl
  | cons byte rest =>
      simp only [following, readLittleEndian, Nat.zero_mul, Nat.zero_add]
      cases readLittleEndian width rest <;> rfl

theorem decodeAs_following (codec : Codec α) (wrap : α → β) :
    codec.decodeAs wrap = following codec.decode fun value rest => .ok (wrap value, rest) := by
  funext bytes
  rw [decodeAs, following]
  cases codec.decode bytes <;> rfl

theorem checked_following (codec : Codec α) (check : α → Except Violation β) (unwrap : β → α) :
    (codec.checked check unwrap).decode = following codec.decode fun value rest =>
      match check value with
      | .ok accepted => .ok (accepted, rest)
      | .error violation => .error (.rejected violation) := rfl

theorem pair_following (first : Codec α) (second : Codec β) :
    (first.pair second).decode =
      following first.decode fun value => second.decodeAs (value, ·) := by
  funext bytes
  simp only [pair, following, decodeAs]
  cases first.decode bytes with
  | error fault => rfl
  | ok found =>
      obtain ⟨found, middle⟩ := found
      simp only
      cases second.decode middle <;> rfl

theorem decodeEach_following (codec : Codec α) (count : Nat) :
    codec.decodeEach (count + 1) = following codec.decode fun value =>
      following (codec.decodeEach count) fun values rest => .ok (value :: values, rest) := by
  funext bytes
  simp only [decodeEach, following]
  cases codec.decode bytes with
  | error fault => rfl
  | ok found =>
      obtain ⟨found, middle⟩ := found
      simp only
      cases codec.decodeEach count middle <;> rfl

theorem list_following (codec : Codec α) :
    codec.list.decode = following (readLittleEndian 8) codec.decodeEach := by
  funext bytes
  simp only [list, following]
  cases readLittleEndian 8 bytes <;> rfl

theorem text_following :
    text.decode = following (readLittleEndian 8) fun count rest =>
      if rest.length < count then .error .endOfInput
      else match Utf8.decode? (rest.take count) with
        | some value => .ok (value, rest.drop count)
        | none => .error .notUtf8 := by
  funext bytes
  simp only [text, following]
  cases readLittleEndian 8 bytes <;> rfl

theorem choose_following (readers : List (Reader α)) :
    choose readers = following word32.decode fun tag rest => match readers[tag.toNat]? with
      | some reader => reader rest
      | none => .error (.unknownVariant tag readers.length) := by
  funext bytes
  simp only [choose, following]
  cases word32.decode bytes <;> rfl

/-! What a reading that succeeded found. -/

section Decoding

variable {first : Codec α} {second : Codec γ} {bytes rest : Bytes}

theorem decodeAs_ok {wrap : α → γ} {value : γ}
    (decoded : first.decodeAs wrap bytes = .ok (value, rest)) :
    ∃ inner, first.decode bytes = .ok (inner, rest) ∧ wrap inner = value := by
  rw [decodeAs_following] at decoded
  obtain ⟨inner, middle, found, wrapped⟩ := following_ok.mp decoded
  cases wrapped
  exact ⟨inner, found, rfl⟩

theorem pair_decode_ok {a : α} {b : γ} :
    (pair first second).decode bytes = .ok ((a, b), rest) ↔
      ∃ middle, first.decode bytes = .ok (a, middle) ∧ second.decode middle = .ok (b, rest) := by
  rw [pair_following, following_ok]
  constructor
  · rintro ⟨found, middle, front, back⟩
    obtain ⟨other, later, same⟩ := decodeAs_ok back
    cases same
    exact ⟨middle, front, later⟩
  · rintro ⟨middle, front, back⟩
    exact ⟨a, middle, front, by rw [decodeAs, back]⟩

theorem checked_ok {check : α → Except Violation β} {unwrap : β → α} {accepted : β} :
    (first.checked check unwrap).decode bytes = .ok (accepted, rest) ↔
      ∃ value, first.decode bytes = .ok (value, rest) ∧ check value = .ok accepted := by
  rw [checked_following, following_ok]
  constructor
  · rintro ⟨value, middle, found, passed⟩
    cases outcome : check value with
    | error violation => simp [outcome] at passed
    | ok other =>
        simp only [outcome, Except.ok.injEq, Prod.mk.injEq] at passed
        obtain ⟨rfl, rfl⟩ := passed
        exact ⟨value, found, outcome⟩
  · rintro ⟨value, found, passed⟩
    exact ⟨value, rest, found, by rw [passed]⟩

end Decoding

end Codec

end CheckpointLedger
