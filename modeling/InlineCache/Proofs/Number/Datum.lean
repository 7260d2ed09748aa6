import InlineCache.Proofs.Code.Double
import Mathlib.Algebra.Order.Field.Power
import Mathlib.Data.Rat.Floor
import Mathlib.Tactic.FieldSimp
import Mathlib.Tactic.Linarith
import Mathlib.Tactic.NormNum
import Mathlib.Tactic.Ring

/-!
What a pattern stands for: a NaN, an infinity, or a rational number, read off sign, exponent and fraction.
The count of smallest positive numbers that conversions work with is that rational number times a power of
two, so what they compare and divide can be said of the rational number.
-/

namespace InlineCache

inductive Datum
  | nan
  | infinite (negative : Bool)
  | finite (value : ℚ)
  deriving DecidableEq

/-- The integer next to a rational number on the side of zero. -/
def towardZero (x : ℚ) : ℤ :=
  if 0 ≤ x then ⌊x⌋ else ⌈x⌉

theorem towardZero_intCast (n : ℤ) : towardZero n = n := by
  rw [towardZero, Int.floor_intCast, Int.ceil_intCast, ite_self]

theorem towardZero_neg {x : ℚ} (nonneg : 0 ≤ x) : towardZero (-x) = -⌊x⌋ := by
  rcases eq_or_lt_of_le nonneg with rfl | positive
  · rw [neg_zero, Int.floor_zero, neg_zero]
    exact towardZero_intCast 0
  · rw [towardZero, if_neg (by linarith), Int.ceil_neg]

namespace Double

/-- The absolute value of a finite number: a power of two times one and a fraction.  Next to zero, where the
exponent goes no further down, the one is missing. -/
def absolute (d : Double) : ℚ :=
  if d.exponentField = 0 then d.fraction / 2 ^ 52 * 2 ^ (-1022 : ℤ)
  else (1 + d.fraction / 2 ^ 52) * 2 ^ ((d.exponentField : ℤ) - 1023)

/-- The exact value of a finite number. -/
def value (d : Double) : ℚ :=
  if d.isNegative then -d.absolute else d.absolute

def datum (d : Double) : Datum :=
  if d.exponentField = 2047 then
    if d.fraction = 0 then .infinite d.isNegative else .nan
  else .finite d.value

variable {d : Double}

theorem cast_unit : (unit : ℚ) = 2 ^ (1074 : ℤ) := by
  have power (n : ℕ) : ((1 <<< n : ℕ) : ℚ) = 2 ^ (n : ℤ) := by
    rw [Nat.one_shiftLeft, Nat.cast_pow, zpow_natCast, Nat.cast_ofNat]
  exact power 1074

theorem cast_unit_pos : (0 : ℚ) < unit :=
  Nat.cast_pos.mpr unit_pos

theorem cast_magnitude (d : Double) : (d.magnitude : ℚ) = d.absolute * unit := by
  rw [magnitude, significand, absolute, Nat.shiftLeft_eq, cast_unit]
  split
  · rename_i least
    rw [least, mul_assoc, ← zpow_add₀ two_ne_zero]
    norm_num
  · rename_i normal
    obtain ⟨e, exponent⟩ := Nat.exists_eq_succ_of_ne_zero normal
    have power : (2 : ℚ) ^ ((d.exponentField : ℤ) - 1023) * 2 ^ (1074 : ℤ) = 2 ^ e * 2 ^ 52 := by
      rw [← zpow_add₀ two_ne_zero, ← pow_add, ← zpow_natCast, exponent]
      congr 1
      push_cast
      ring
    rw [mul_assoc, power, exponent, Nat.succ_sub_one]
    push_cast
    ring

/-- The count of smallest positive numbers is the value, in that unit. -/
theorem cast_scaled (d : Double) : (d.scaled : ℚ) = d.value * unit := by
  rw [scaled, value]
  split
  · rw [Int.cast_neg, Int.cast_natCast, cast_magnitude, neg_mul]
  · rw [Int.cast_natCast, cast_magnitude]

theorem le_scaled_iff {n : ℤ} : n * unit ≤ d.scaled ↔ (n : ℚ) ≤ d.value := by
  rw [← Int.cast_le (R := ℚ), cast_scaled, Int.cast_mul, Int.cast_natCast,
    mul_le_mul_iff_left₀ cast_unit_pos]

theorem scaled_lt_iff {n : ℤ} : d.scaled < n * unit ↔ d.value < n := by
  rw [← not_le, le_scaled_iff, not_le]

theorem scaled_le_iff {n : ℤ} : d.scaled ≤ n * unit ↔ d.value ≤ n := by
  rw [← Int.cast_le (R := ℚ), cast_scaled, Int.cast_mul, Int.cast_natCast,
    mul_le_mul_iff_left₀ cast_unit_pos]

theorem scaled_eq_iff {n : ℤ} : d.scaled = n * unit ↔ d.value = n := by
  rw [← Int.cast_inj (α := ℚ), cast_scaled, Int.cast_mul, Int.cast_natCast,
    mul_left_inj' cast_unit_pos.ne']

theorem absolute_eq (d : Double) : d.absolute = d.magnitude / unit := by
  rw [cast_magnitude, mul_div_cancel_right₀ _ cast_unit_pos.ne']

theorem absolute_nonneg (d : Double) : 0 ≤ d.absolute := by
  rw [absolute_eq]
  exact div_nonneg (Nat.cast_nonneg _) cast_unit_pos.le

/-- The integer part is rounded toward zero. -/
theorem truncate_eq_towardZero (d : Double) : d.truncate = towardZero d.value := by
  have part : ⌊d.absolute⌋ = (d.magnitude / unit : Nat) := by
    rw [absolute_eq, ← Int.cast_natCast (R := ℚ) d.magnitude, Rat.floor_intCast_div_natCast]
    rfl
  rw [truncate, value]
  split
  · rw [towardZero_neg d.absolute_nonneg, part]
  · rw [towardZero, if_pos d.absolute_nonneg, part]

theorem datum_eq_finite {x : ℚ} : d.datum = .finite x ↔ d.isFinite = true ∧ d.value = x := by
  rw [datum, isFinite, decide_eq_true_eq]
  split
  · rename_i infinite
    split <;> simp [infinite]
  · rename_i finite
    simp [finite]

theorem isNaN_eq_true : d.isNaN = true ↔ d.datum = .nan := by
  rw [isNaN, datum, Bool.and_eq_true, decide_eq_true_eq, decide_eq_true_eq]
  split
  · rename_i infinite
    split <;> simp_all
  · rename_i finite
    simp [finite]

/-- A number is an integer when it is its own integer part. -/
theorem isIntegral_iff {n : ℤ} :
    d.isIntegral = true ∧ d.truncate = n ↔ d.datum = .finite n := by
  rw [datum_eq_finite]
  constructor
  · rintro ⟨integral, rfl⟩
    obtain ⟨-, value⟩ := scaled_of_isIntegral integral
    rw [isIntegral, Bool.and_eq_true] at integral
    exact ⟨integral.1, scaled_eq_iff.mp value⟩
  · rintro ⟨finite, value⟩
    have part : d.truncate = n := by
      rw [truncate_eq_towardZero, value, towardZero_intCast]
    refine ⟨?_, part⟩
    rw [← numEq_truncate finite, part, numEq, not_isNaN_of_isFinite finite, ← part,
      (truncate_exact finite).2, (truncate_exact finite).1, part, scaled_eq_iff.mpr value]
    exact decide_eq_true rfl

end Double

end InlineCache
