import CheckpointLedger.Basic
import Mathlib.Order.Interval.Finset.Nat
import Mathlib.SetTheory.Cardinal.Finite

/-!
Ranges of key groups as sets. The size of a range is the number of its members, and no range
but that of all groups has more of them than 32 bits can tell.
-/

namespace CheckpointLedger.KeyGroups

/-- All key groups that there are. -/
def whole : KeyGroups := ⟨0, 0xFFFFFFFF⟩

/-- The number of key groups in the range. -/
noncomputable def count (range : KeyGroups) : Nat :=
  Nat.card {group : UInt32 // range.contains group = true}

theorem contains_iff (range : KeyGroups) (group : UInt32) :
    range.contains group = true ↔
      range.first.toNat ≤ group.toNat ∧ group.toNat ≤ range.last.toNat := by
  simp [contains, UInt32.le_iff_toNat_le]

/-- The members of a range are the numbers between its bounds. -/
def members (range : KeyGroups) :
    {group : UInt32 // range.contains group = true} ≃
      {number : Nat // number ∈ Finset.Icc range.first.toNat range.last.toNat} where
  toFun member := ⟨member.1.toNat, Finset.mem_Icc.mpr ((range.contains_iff _).mp member.2)⟩
  invFun number := ⟨UInt32.ofNat number.1, by
    have bounds := Finset.mem_Icc.mp number.2
    have small : number.1 < UInt32.size := Nat.lt_of_le_of_lt bounds.2 range.last.toNat_lt
    rw [contains_iff, UInt32.toNat_ofNat_of_lt' small]
    exact bounds⟩
  left_inv member := by simp
  right_inv number := by
    have bounds := Finset.mem_Icc.mp number.2
    have small : number.1 < UInt32.size := Nat.lt_of_le_of_lt bounds.2 range.last.toNat_lt
    exact Subtype.ext (UInt32.toNat_ofNat_of_lt' small)

theorem count_eq (range : KeyGroups) :
    range.count = range.last.toNat + 1 - range.first.toNat := by
  rw [count, Nat.card_congr range.members, Nat.card_eq_fintype_card, Fintype.card_coe,
    Nat.card_Icc]

theorem count_eq_zero_iff (range : KeyGroups) :
    range.count = 0 ↔ ∀ group, range.contains group = false := by
  constructor
  · intro none group
    by_contra listed
    have bounds := (range.contains_iff group).mp (Bool.eq_true_of_not_eq_false listed)
    rw [count_eq] at none
    omega
  · intro none
    have : IsEmpty {group : UInt32 // range.contains group = true} :=
      ⟨fun member => Bool.false_ne_true ((none member.1).symm.trans member.2)⟩
    exact Nat.card_of_isEmpty

/-- Only the range of all groups has as many members as there are words. -/
theorem count_lt_iff (range : KeyGroups) : range.count < UInt32.size ↔ range ≠ whole := by
  have first := range.first.toNat_lt
  have last := range.last.toNat_lt
  have words : UInt32.size = 4294967296 := rfl
  rw [count_eq]
  constructor
  · rintro small rfl
    exact absurd small (by decide)
  · intro proper
    by_contra large
    have bounds : range.first.toNat = 0 ∧ range.last.toNat = 0xFFFFFFFF := by
      omega
    have begins : range.first = 0 := UInt32.toNat_inj.mp bounds.1
    have ends : range.last = 0xFFFFFFFF := UInt32.toNat_inj.mp bounds.2
    exact proper (congrArg₂ KeyGroups.mk begins ends)

/-- The size is the number of members, as far as 32 bits hold it. -/
theorem size?_eq (range : KeyGroups) :
    range.size? = if range.count < UInt32.size then some (UInt32.ofNat range.count) else none := by
  rw [count_eq]
  by_cases reversed : range.last < range.first
  · have bounds := UInt32.lt_iff_toNat_lt.mp reversed
    have none : range.last.toNat + 1 - range.first.toNat = 0 := by omega
    simp [size?, reversed, none]
  · have ordered : range.first ≤ range.last := UInt32.not_lt.mp reversed
    have bounds := UInt32.le_iff_toNat_le.mp ordered
    have steps : (range.last - range.first).toNat = range.last.toNat - range.first.toNat :=
      UInt32.toNat_sub_of_le _ _ ordered
    have total : range.last.toNat - range.first.toNat + 1 =
        range.last.toNat + 1 - range.first.toNat := by omega
    simp only [size?, reversed, ↓reduceIte, steps, total]
    by_cases small : range.last.toNat + 1 - range.first.toNat < UInt32.size
    · have sum : range.last - range.first + 1 =
          UInt32.ofNat (range.last.toNat + 1 - range.first.toNat) := by
        rw [← total, ← steps, UInt32.ofNat_add, UInt32.ofNat_toNat]
        rfl
      simp [small, sum]
    · simp [small]

theorem of_contains (first last group : UInt32) :
    (of first last).contains group = true ↔ first ≤ group ∧ group ≤ last := by
  by_cases reversed : last < first
  · have bounds := UInt32.lt_iff_toNat_lt.mp reversed
    simp only [of, reversed, ↓reduceIte, contains_iff, UInt32.le_iff_toNat_le]
    simp only [empty]
    constructor
    · intro within
      have none : (1 : UInt32).toNat ≤ (0 : UInt32).toNat := Nat.le_trans within.1 within.2
      exact absurd none (by decide)
    · omega
  · simp [of, reversed, contains]

/-- For a range of any bounds, reversed ones included, the size is told and is the number of
members exactly if the range is not that of all groups, and so is whether the range is empty.
What `of` makes of two bounds has the groups between them. -/
theorem operations_agree (range : KeyGroups) :
    ((∃ size, range.size? = some size ∧ size.toNat = range.count) ↔ range ≠ whole) ∧
    ((∃ empty, range.isEmpty? = some empty ∧
      (empty = true ↔ ∀ group, range.contains group = false)) ↔ range ≠ whole) ∧
    (whole.count = UInt32.size ∧ whole.size? = none ∧ whole.isEmpty? = none) ∧
    ∀ first last group, (of first last).contains group = true ↔ first ≤ group ∧ group ≤ last := by
  have large : ¬ whole.count < UInt32.size := by simp [count_lt_iff]
  have untold : whole.size? = none := by rw [size?_eq, if_neg large]
  have silent : whole.isEmpty? = none := by rw [isEmpty?, untold, Option.map_none]
  refine ⟨?_, ?_, ⟨by rw [count_eq]; rfl, untold, silent⟩, of_contains⟩
  · constructor
    · rintro ⟨size, told, _⟩ rfl
      rw [untold] at told
      cases told
    · intro proper
      have small := range.count_lt_iff.mpr proper
      exact ⟨_, by rw [size?_eq, if_pos small], UInt32.toNat_ofNat_of_lt' small⟩
  · constructor
    · rintro ⟨empty, told, _⟩ rfl
      rw [silent] at told
      cases told
    · intro proper
      have small := range.count_lt_iff.mpr proper
      have number : (UInt32.ofNat range.count).toNat = range.count :=
        UInt32.toNat_ofNat_of_lt' small
      refine ⟨UInt32.ofNat range.count == 0, by rw [isEmpty?, size?_eq, if_pos small]; rfl, ?_⟩
      rw [← count_eq_zero_iff, beq_iff_eq, ← UInt32.toNat_inj, number]
      rfl

/-- The range of all groups has members, but tells neither how many nor that it has any. -/
theorem whole_range_untold :
    (of 0 0xFFFFFFFF).contains 0 = true ∧
      ¬ (∃ size, (of 0 0xFFFFFFFF).size? = some size ∧
        size.toNat = (of 0 0xFFFFFFFF).count) ∧
      ¬ ∃ empty, (of 0 0xFFFFFFFF).isEmpty? = some empty := by
  have untold : (of 0 0xFFFFFFFF).size? = none := by decide
  have silent : (of 0 0xFFFFFFFF).isEmpty? = none := by decide
  simp [untold, silent, of_contains]

end CheckpointLedger.KeyGroups
