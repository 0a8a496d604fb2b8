import CheckpointLedger.Basic
import CheckpointLedger.Proofs.Text.Numeral
import Mathlib.Data.String.Basic
import Mathlib.Tactic.TFAE

/-!
Operator identifiers as numbers, as texts and as pairs of halves. All three tell identifiers
apart and order them alike.
-/

namespace CheckpointLedger.OperatorId

theorem eq_of_toNat {a b : OperatorId} (same : a.toNat = b.toNat) : a = b := by
  cases a
  cases b
  exact congrArg mk (BitVec.eq_of_toNat_eq same)

theorem toNat_upper (id : OperatorId) : id.upper.toNat = id.toNat / UInt64.size := by
  have bound : id.value.toNat < 2 ^ 128 := id.value.isLt
  have small : id.value.toNat / 2 ^ 64 < 2 ^ 64 := by omega
  simp only [upper, UInt64.toNat_ofBitVec, BitVec.toNat_setWidth, BitVec.toNat_ushiftRight,
    Nat.shiftRight_eq_div_pow, Nat.mod_eq_of_lt small]
  rfl

theorem toNat_lower (id : OperatorId) : id.lower.toNat = id.toNat % UInt64.size := by
  simp only [lower, UInt64.toNat_ofBitVec, BitVec.toNat_setWidth]
  rfl

theorem toNat_ofParts (upper lower : UInt64) :
    (ofParts upper lower).toNat = upper.toNat * UInt64.size + lower.toNat := by
  have high : upper.toNat < 2 ^ 64 := upper.toNat_lt
  have low : lower.toNat < 2 ^ 64 := lower.toNat_lt
  have shifted : upper.toNat * 2 ^ 64 < 2 ^ 128 := by omega
  calc (ofParts upper lower).toNat
    _ = (upper.toNat % 2 ^ 128) <<< 64 % 2 ^ 128 ||| lower.toNat % 2 ^ 128 := by
        simp only [ofParts, toNat, BitVec.toNat_or, BitVec.toNat_shiftLeft,
          BitVec.toNat_setWidth, UInt64.toNat_toBitVec]
    _ = upper.toNat <<< 64 ||| lower.toNat := by
        rw [Nat.mod_eq_of_lt (by omega : upper.toNat < 2 ^ 128),
          Nat.mod_eq_of_lt (by omega : lower.toNat < 2 ^ 128), Nat.shiftLeft_eq,
          Nat.mod_eq_of_lt shifted]
    -- The shifted upper half and the lower half have no bit in common.
    _ = upper.toNat <<< 64 + lower.toNat := (Nat.shiftLeft_add_eq_or_of_lt low _).symm
    _ = upper.toNat * UInt64.size + lower.toNat := by rw [Nat.shiftLeft_eq]

theorem ofParts_halves (id : OperatorId) : ofParts id.upper id.lower = id := by
  apply eq_of_toNat
  rw [toNat_ofParts, toNat_upper, toNat_lower, Nat.div_add_mod']

theorem upper_ofParts (upper lower : UInt64) : (ofParts upper lower).upper = upper := by
  have low : lower.toNat < UInt64.size := lower.toNat_lt
  apply UInt64.toNat_inj.mp
  rw [toNat_upper, toNat_ofParts, Nat.mul_comm, Nat.mul_add_div (by decide),
    Nat.div_eq_of_lt low, Nat.add_zero]

theorem lower_ofParts (upper lower : UInt64) : (ofParts upper lower).lower = lower := by
  have low : lower.toNat < UInt64.size := lower.toNat_lt
  apply UInt64.toNat_inj.mp
  rw [toNat_lower, toNat_ofParts, Nat.mul_comm, Nat.mul_add_mod, Nat.mod_eq_of_lt low]

theorem halves_lt_iff (a b : OperatorId) :
    Prod.Lex (· < ·) (· < ·) (a.upper, a.lower) (b.upper, b.lower) ↔ a.toNat < b.toNat := by
  rw [Prod.lex_def, UInt64.lt_iff_toNat_lt, UInt64.lt_iff_toNat_lt, ← UInt64.toNat_inj,
    toNat_upper, toNat_upper, toNat_lower, toNat_lower,
    ← Numeral.lt_iff_quotient_remainder UInt64.size]

/-- All digits of an identifier fit into its text. -/
theorem toNat_lt (id : OperatorId) : id.toNat < 16 ^ 32 := id.value.isLt

theorem text_lt_iff (a b : OperatorId) : a.text < b.text ↔ a.toNat < b.toNat := by
  rw [String.lt_iff_toList_lt, text, text, String.toList_ofList, String.toList_ofList,
    Numeral.hexadecimal_lt_iff, Nat.mod_eq_of_lt a.toNat_lt, Nat.mod_eq_of_lt b.toNat_lt]

theorem read_text (id : OperatorId) :
    Numeral.readHexadecimal? id.text.toList = some id.toNat := by
  rw [text, String.toList_ofList, Numeral.readHexadecimal?_hexadecimal,
    Nat.mod_eq_of_lt id.toNat_lt]

/-- The text of an identifier has 32 lower-case hexadecimal digits and is read as its number.
One identifier is below another exactly if its text is, and exactly if its upper half is or,
where these agree, its lower half. An identifier is made up of its halves, and two words are
the halves of what they make up. -/
theorem text_faithful_in_order (a b : OperatorId) (upper lower : UInt64) :
    (a.text.length = 32 ∧ (∀ digit ∈ a.text.toList, Numeral.IsLowerHex digit) ∧
      Numeral.readHexadecimal? a.text.toList = some a.toNat) ∧
    [a.toNat < b.toNat, a.compare b = .lt, a.text < b.text,
      Prod.Lex (· < ·) (· < ·) (a.upper, a.lower) (b.upper, b.lower)].TFAE ∧
    ofParts a.upper a.lower = a ∧
    (ofParts upper lower).upper = upper ∧ (ofParts upper lower).lower = lower := by
  refine ⟨⟨?_, ?_, a.read_text⟩, ?_, a.ofParts_halves, upper_ofParts upper lower,
    lower_ofParts upper lower⟩
  · rw [text, String.length_ofList, Numeral.hexadecimal_length]
  · rw [text, String.toList_ofList]
    exact Numeral.hexadecimal_isLowerHex 32 a.toNat
  · tfae_have 1 ↔ 2 := Nat.compare_eq_lt.symm
    tfae_have 1 ↔ 3 := (text_lt_iff a b).symm
    tfae_have 1 ↔ 4 := (halves_lt_iff a b).symm
    tfae_finish

example : (ofParts 0xDEADBEEF 42).text = "00000000deadbeef000000000000002a" := by decide

end CheckpointLedger.OperatorId
