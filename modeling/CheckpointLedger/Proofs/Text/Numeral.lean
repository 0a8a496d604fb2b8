import CheckpointLedger.Text.Numeral
import Mathlib.Algebra.Group.Nat.Defs

/-!
Numerals are read as the numbers that they write. A number has one decimal form, with
digits only and without leading zeros. Hexadecimal numerals of one width are ordered as texts
as they are as numbers.
-/

namespace CheckpointLedger.Numeral

inductive IsDecimal : List Char → Prop where
  | zero : IsDecimal ['0']
  | digits (first : Char) (rest : List Char) (nonzero : first ≠ '0')
      (each : ∀ digit ∈ first :: rest, digit.isDigit = true) : IsDecimal (first :: rest)

theorem decimal_head (value : Nat) (positive : 0 < value) :
    ∃ first rest, decimal value = first :: rest ∧ first ≠ '0' := by
  induction value using Nat.strongRecOn with
  | ind value ih =>
      by_cases small : value < 10
      · refine ⟨value.digitChar, [], Nat.toDigits_of_lt_base small, ?_⟩
        have nonzero : ∀ digit : Fin 10, digit ≠ 0 → digit.val.digitChar ≠ '0' := by decide
        exact nonzero ⟨value, small⟩ (by simpa [Fin.ext_iff] using Nat.ne_of_gt positive)
      · obtain ⟨first, rest, written, nonzero⟩ := ih (value / 10) (by omega) (by omega)
        refine ⟨first, rest ++ [(value % 10).digitChar], ?_, nonzero⟩
        rw [decimal, Nat.toDigits_of_base_le (by decide) (by omega), ← decimal, written,
          List.cons_append]

theorem decimal_isDecimal (value : Nat) : IsDecimal (decimal value) := by
  have each : ∀ digit ∈ decimal value, digit.isDigit = true := fun digit member =>
    Nat.isDigit_of_mem_toDigits (by decide) (by decide) member
  rcases Nat.eq_zero_or_pos value with rfl | positive
  · exact .zero
  · obtain ⟨first, rest, written, nonzero⟩ := decimal_head value positive
    rw [written] at each ⊢
    exact .digits first rest nonzero each

theorem digit_bounds (digit : Char) (isDigit : digit.isDigit = true) :
    '0' ≤ digit ∧ digit ≤ '9' := by
  simpa [Char.isDigit, Char.le_def] using isDigit

theorem digitValue?_of_isDigit (digit : Char) (isDigit : digit.isDigit = true) :
    digitValue? digit = some (digit.toNat - '0'.toNat) := by
  simp [digitValue?, digit_bounds digit isDigit]

theorem readDigits_of_isDigit (value : Nat) (digits : List Char)
    (each : ∀ digit ∈ digits, digit.isDigit = true) :
    readDigits value digits = some (Nat.ofDigitChars 10 digits value) := by
  induction digits generalizing value with
  | nil => simp [readDigits]
  | cons digit rest ih =>
      have first := digitValue?_of_isDigit digit (each digit List.mem_cons_self)
      have later := ih (value * 10 + (digit.toNat - '0'.toNat)) fun other member =>
        each other (List.mem_cons_of_mem _ member)
      have step : readDigits value (digit :: rest) =
          readDigits (value * 10 + (digit.toNat - '0'.toNat)) rest := by
        simp [readDigits, first]
      rw [step, later]
      simp [Nat.ofDigitChars_eq_foldl, Nat.mul_comm]

theorem readDecimal?_of_isDecimal (digits : List Char) (form : IsDecimal digits) :
    readDecimal? digits = some (Nat.ofDigitChars 10 digits 0) := by
  cases form with
  | zero => rfl
  | digits first rest nonzero each =>
      rw [← readDigits_of_isDigit 0 _ each]
      simp [readDecimal?, nonzero]

/-- The decimal form of a number is read as the number. -/
theorem readDecimal?_decimal (value : Nat) : readDecimal? (decimal value) = some value := by
  rw [readDecimal?_of_isDecimal _ (decimal_isDecimal value), decimal, Nat.ofDigitChars_ten_toDigits]

theorem hexValue?_hexDigit (value : Nat) : hexValue? (hexDigit value) = some (value % 16) := by
  have each : ∀ digit : Fin 16, hexValue? digit.val.digitChar = some digit.val := by decide
  exact each ⟨value % 16, Nat.mod_lt _ (by decide)⟩

theorem readHexadecimal?_append (digits : List Char) (last : Char) :
    readHexadecimal? (digits ++ [last]) = do
      return (← readHexadecimal? digits) * 16 + (← hexValue? last) := by
  simp [readHexadecimal?]

/-- The lowest digits are read as the number that they write. -/
theorem readHexadecimal?_hexadecimal (width value : Nat) :
    readHexadecimal? (hexadecimal width value) = some (value % 16 ^ width) := by
  induction width generalizing value with
  | zero => simp [hexadecimal, readHexadecimal?, Nat.mod_one]
  | succ width ih =>
      have digits : value / 16 % 16 ^ width * 16 + value % 16 = value % 16 ^ (width + 1) := by
        rw [Nat.pow_succ', Nat.mod_mul]
        omega
      simp [hexadecimal, readHexadecimal?_append, ih, hexValue?_hexDigit, digits]

theorem hexDigit_eq_iff (a b : Nat) : hexDigit a = hexDigit b ↔ a % 16 = b % 16 := by
  constructor
  · intro same
    simpa [hexValue?_hexDigit] using congrArg hexValue? same
  · intro same
    rw [hexDigit, same, hexDigit]

theorem hexDigit_lt_iff (a b : Nat) : hexDigit a < hexDigit b ↔ a % 16 < b % 16 := by
  have each : ∀ first second : Fin 16,
      first.val.digitChar < second.val.digitChar ↔ first.val < second.val := by decide
  exact each ⟨a % 16, Nat.mod_lt _ (by decide)⟩ ⟨b % 16, Nat.mod_lt _ (by decide)⟩

/-- The digits that hexadecimal numerals are written with. -/
def IsLowerHex (digit : Char) : Prop := '0' ≤ digit ∧ digit ≤ '9' ∨ 'a' ≤ digit ∧ digit ≤ 'f'

instance (digit : Char) : Decidable (IsLowerHex digit) :=
  inferInstanceAs (Decidable (_ ∨ _))

theorem hexDigit_isLowerHex (value : Nat) : IsLowerHex (hexDigit value) := by
  have each : ∀ digit : Fin 16, IsLowerHex digit.val.digitChar := by decide
  exact each ⟨value % 16, Nat.mod_lt _ (by decide)⟩

theorem hexadecimal_length (width value : Nat) : (hexadecimal width value).length = width := by
  induction width generalizing value with
  | zero => rfl
  | succ width ih => simp [hexadecimal, ih]

theorem hexadecimal_isLowerHex (width value : Nat) :
    ∀ digit ∈ hexadecimal width value, IsLowerHex digit := by
  induction width generalizing value with
  | zero => simp [hexadecimal]
  | succ width ih =>
      intro digit member
      rcases List.mem_append.mp member with higher | lowest
      · exact ih (value / 16) digit higher
      · rw [List.mem_singleton.mp lowest]
        exact hexDigit_isLowerHex value

/-- A numeral starts with its highest digit. -/
theorem hexadecimal_succ (width value : Nat) :
    hexadecimal (width + 1) value = hexDigit (value / 16 ^ width) :: hexadecimal width value := by
  induction width generalizing value with
  | zero => simp [hexadecimal]
  | succ width ih =>
      calc hexadecimal (width + 1 + 1) value
        _ = hexadecimal (width + 1) (value / 16) ++ [hexDigit value] := rfl
        _ = hexDigit (value / 16 / 16 ^ width) :: hexadecimal (width + 1) value := by
            rw [ih]
            rfl
        _ = hexDigit (value / 16 ^ (width + 1)) :: hexadecimal (width + 1) value := by
            rw [Nat.div_div_eq_div_mul, Nat.pow_succ']

/-- Numbers are ordered by their quotients, and by their remainders where these agree. -/
theorem lt_iff_quotient_remainder (base a b : Nat) :
    a < b ↔ a / base < b / base ∨ a / base = b / base ∧ a % base < b % base := by
  have first := Nat.div_add_mod a base
  have second := Nat.div_add_mod b base
  rcases Nat.lt_trichotomy (a / base) (b / base) with below | same | above
  · simp [below, Nat.lt_of_div_lt_div below]
  · rw [same] at first
    omega
  · have later := Nat.lt_of_div_lt_div above
    omega

/-- Numerals of one width are ordered, from the highest digit on, as the numbers that they
write. -/
theorem hexadecimal_lt_iff (width a b : Nat) :
    hexadecimal width a < hexadecimal width b ↔ a % 16 ^ width < b % 16 ^ width := by
  induction width with
  | zero => simp [hexadecimal, Nat.mod_one]
  | succ width ih =>
      rw [hexadecimal_succ, hexadecimal_succ, List.cons_lt_cons_iff, hexDigit_lt_iff,
        hexDigit_eq_iff, ih, lt_iff_quotient_remainder (16 ^ width) (a % 16 ^ (width + 1)),
        Nat.pow_succ]
      simp only [Nat.mod_mul_right_div_self, Nat.mod_mul_right_mod]

end CheckpointLedger.Numeral
