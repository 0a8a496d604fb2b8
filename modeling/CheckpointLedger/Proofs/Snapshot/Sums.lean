import CheckpointLedger.Snapshot.Stored
import Mathlib.Algebra.GroupWithZero.Nat

/-!
Sums of sizes. A sum is that of the exact numbers of bytes, or absent when it does not fit,
so that neither the grouping of its parts nor their order makes a difference.
-/

namespace CheckpointLedger.Size

theorem ofNat_eq_some (bytes : Nat) (size : UInt64) :
    ofNat bytes = some size ↔ size.toNat = bytes := by
  have bound := size.toNat_lt
  by_cases fits : bytes < UInt64.size
  · simp only [ofNat, fits, ↓reduceIte, Option.some.injEq]
    constructor
    · intro same
      rw [← same]
      exact UInt64.toNat_ofNat_of_lt fits
    · intro same
      rw [← same, UInt64.ofNat_toNat]
  · simp only [ofNat, fits, ↓reduceIte, reduceCtorEq, false_iff]
    intro same
    exact fits (same ▸ bound)

theorem ofNat_eq_none (bytes : Nat) : ofNat bytes = none ↔ UInt64.size ≤ bytes := by
  simp [ofNat]

theorem ofNat_of_lt (bytes : Nat) (fits : bytes < UInt64.size) :
    ∃ size, ofNat bytes = some size ∧ size.toNat = bytes :=
  ⟨UInt64.ofNat bytes, if_pos fits, UInt64.toNat_ofNat_of_lt fits⟩

theorem ofNat_toNat (size : UInt64) : ofNat size.toNat = some size :=
  (ofNat_eq_some _ _).mpr rfl

/-- A sum fits if both parts do and their bytes together do. -/
theorem add_eq_some (first second : Size) (size : UInt64) :
    add first second = some size ↔
      ∃ a b, first = some a ∧ second = some b ∧ size.toNat = a.toNat + b.toNat := by
  cases first with
  | none => simp [add]
  | some a =>
      cases second with
      | none => simp [add]
      | some b => simp [add, ofNat_eq_some]

theorem add_ofNat (a b : Nat) : add (ofNat a) (ofNat b) = ofNat (a + b) := by
  apply Option.ext
  intro size
  simp only [add_eq_some, ofNat_eq_some]
  constructor
  · rintro ⟨x, y, rfl, rfl, sum⟩
    exact sum
  · intro sum
    -- Parts of a sum that fits are within its range.
    have bound := size.toNat_lt
    obtain ⟨x, -, first⟩ := ofNat_of_lt a (by rw [UInt64.size]; omega)
    obtain ⟨y, -, second⟩ := ofNat_of_lt b (by rw [UInt64.size]; omega)
    exact ⟨x, y, first, second, by rw [first, second, sum]⟩

/-- Every size is that of some number of bytes: an absent one is that of too many. -/
theorem exists_ofNat (size : Size) : ∃ bytes, size = ofNat bytes := by
  cases size with
  | none => exact ⟨UInt64.size, rfl⟩
  | some size => exact ⟨size.toNat, (ofNat_toNat size).symm⟩

theorem add_assoc (a b c : Size) : add (add a b) c = add a (add b c) := by
  obtain ⟨x, rfl⟩ := exists_ofNat a
  obtain ⟨y, rfl⟩ := exists_ofNat b
  obtain ⟨z, rfl⟩ := exists_ofNat c
  simp only [add_ofNat, Nat.add_assoc]

theorem add_comm (a b : Size) : add a b = add b a := by
  obtain ⟨x, rfl⟩ := exists_ofNat a
  obtain ⟨y, rfl⟩ := exists_ofNat b
  simp only [add_ofNat, Nat.add_comm]

instance : Std.Associative add := ⟨add_assoc⟩

instance : Std.Commutative add := ⟨add_comm⟩

@[simp] theorem add_zero (size : Size) : add size (some 0) = size := by
  obtain ⟨x, rfl⟩ := exists_ofNat size
  exact add_ofNat x 0

@[simp] theorem total_nil : total [] = some 0 := rfl

theorem foldl_add (sizes : List Size) (start : Size) :
    sizes.foldl add start = add start (total sizes) := by
  induction sizes generalizing start with
  | nil => exact (add_zero start).symm
  | cons size rest ih =>
      have running : total (size :: rest) = rest.foldl add (add (some 0) size) := rfl
      rw [List.foldl_cons, ih, running, ih, add_comm (some 0), add_zero, add_assoc]

@[simp] theorem total_cons (size : Size) (rest : List Size) :
    total (size :: rest) = add size (total rest) := by
  rw [total, List.foldl_cons, foldl_add, add_comm (some 0), add_zero]

theorem total_append (sizes more : List Size) :
    total (sizes ++ more) = add (total sizes) (total more) := by
  rw [total, List.foldl_append, foldl_add]
  rfl

/-- The sum of exact numbers is exact. -/
theorem total_ofNat {α : Type} (bytes : α → Nat) (objects : List α) :
    total (objects.map fun object => ofNat (bytes object)) = ofNat (objects.map bytes).sum := by
  induction objects with
  | nil => rfl
  | cons object rest ih => simp only [List.map_cons, total_cons, ih, add_ofNat, List.sum_cons]

end CheckpointLedger.Size
