import InlineCache.Proofs.Code.Double

/-!
Integers among the numbers.  Sign and magnitude tell a number, so an integral number is the one that is made
of its integer part, but for the sign of a zero.  What stores a number as an int32 where it can, and what
boxes an int64, come to the same.
-/

namespace InlineCache

namespace Double

variable {d : Double}

theorem toNat_bits (d : Double) :
    d.bits.toNat =
      (if d.isNegative then 0x8000000000000000 else 0) + d.exponentField * 0x10000000000000 +
        d.fraction := by
  have bound := d.bits.toNat_lt
  rw [isNegative, exponentField, fraction]
  by_cases negative : 0x8000000000000000 ≤ d.bits.toNat
  · rw [decide_eq_true negative, if_pos rfl]
    omega
  · rw [decide_eq_false negative, if_neg Bool.false_ne_true]
    omega

theorem fraction_lt (d : Double) : d.fraction < 0x10000000000000 :=
  Nat.mod_lt _ (by decide)

/-- Of two numbers the one with the greater exponent is the greater. -/
theorem magnitude_lt_of_exponentField {a b : Double} (below : a.exponentField < b.exponentField) :
    a.magnitude < b.magnitude := by
  have narrow := a.fraction_lt
  have powers : 2 ^ (a.exponentField - 1) * (if a.exponentField = 0 then 1 else 2) ≤
      2 ^ (b.exponentField - 1) := by
    split
    · rename_i least
      rw [least]
      exact Nat.one_le_two_pow
    · rw [← Nat.pow_succ]
      exact Nat.pow_le_pow_right (by decide) (by omega)
  have small : a.significand < 0x10000000000000 * (if a.exponentField = 0 then 1 else 2) := by
    rw [significand]
    split <;> omega
  have large : 0x10000000000000 ≤ b.significand := by
    rw [significand, if_neg (by omega)]
    omega
  rw [magnitude, magnitude, Nat.shiftLeft_eq, Nat.shiftLeft_eq]
  calc a.significand * 2 ^ (a.exponentField - 1)
      < 0x10000000000000 * (if a.exponentField = 0 then 1 else 2) * 2 ^ (a.exponentField - 1) :=
        Nat.mul_lt_mul_of_pos_right small (Nat.two_pow_pos _)
    _ = 0x10000000000000 * (2 ^ (a.exponentField - 1) * (if a.exponentField = 0 then 1 else 2)) := by
        rw [Nat.mul_assoc, Nat.mul_comm (if a.exponentField = 0 then 1 else 2)]
    _ ≤ b.significand * 2 ^ (b.exponentField - 1) := Nat.mul_le_mul large powers

/-- Sign and magnitude tell a number. -/
theorem eq_of_magnitude {a b : Double} (sign : a.isNegative = b.isNegative)
    (same : a.magnitude = b.magnitude) : a = b := by
  have exponent : a.exponentField = b.exponentField := by
    rcases Nat.lt_trichotomy a.exponentField b.exponentField with below | equal | above
    · exact absurd same (Nat.ne_of_lt (magnitude_lt_of_exponentField below))
    · exact equal
    · exact absurd same.symm (Nat.ne_of_lt (magnitude_lt_of_exponentField above))
  have significand : a.significand = b.significand := by
    rw [magnitude, magnitude, exponent, Nat.shiftLeft_eq, Nat.shiftLeft_eq] at same
    exact Nat.eq_of_mul_eq_mul_right (Nat.two_pow_pos _) same
  have fraction : a.fraction = b.fraction := by
    rw [Double.significand, Double.significand, exponent] at significand
    split at significand <;> omega
  have bits : a.bits = b.bits := by
    rw [← UInt64.toNat_inj, a.toNat_bits, b.toNat_bits, sign, exponent, fraction]
  obtain ⟨_⟩ := a
  exact congrArg Double.mk bits

theorem eq_negativeZero_iff :
    d = .negativeZero ↔ d.isNegative = true ∧ d.magnitude = 0 := by
  have zero : negativeZero.isNegative = true ∧ negativeZero.magnitude = 0 := by decide
  constructor
  · rintro rfl
    exact zero
  · rintro ⟨negative, nothing⟩
    exact eq_of_magnitude (negative.trans zero.1.symm) (nothing.trans zero.2.symm)

theorem scaled_eq_zero_iff : d.scaled = 0 ↔ d.magnitude = 0 := by
  rw [scaled]
  split <;> omega

/-- Two numbers that count alike are the same, but for the zeros. -/
theorem eq_of_scaled {a b : Double} (same : a.scaled = b.scaled) (first : a ≠ .negativeZero)
    (second : b ≠ .negativeZero) : a = b := by
  rw [ne_eq, eq_negativeZero_iff, not_and] at first second
  have equal := same
  rw [scaled, scaled] at equal
  cases left : a.isNegative <;> cases right : b.isNegative <;>
    simp only [left, right, if_true, Bool.false_eq_true, if_false] at equal
  · exact eq_of_magnitude (left.trans right.symm) (by omega)
  · exact absurd (show b.magnitude = 0 by omega) (second right)
  · exact absurd (show a.magnitude = 0 by omega) (first left)
  · exact eq_of_magnitude (left.trans right.symm) (by omega)

theorem ofInt_ne_negativeZero {n : Int} (fits : Fits n.natAbs) : ofInt n ≠ .negativeZero := by
  obtain ⟨magnitude, negative, -⟩ := withSign_patternOfNat (decide (n < 0)) fits
  rw [ne_eq, eq_negativeZero_iff, ofInt, negative, magnitude, decide_eq_true_eq]
  rintro ⟨below, nothing⟩
  have zero := (Nat.mul_eq_zero.mp nothing).resolve_right (Nat.pos_iff_ne_zero.mp unit_pos)
  omega

/-- An integral number comes back from its integer part bit for bit. -/
theorem ofInt_truncate (integral : d.isIntegral = true) (signed : d ≠ .negativeZero) :
    ofInt d.truncate = d := by
  have finite : d.isFinite = true := by
    rw [isIntegral, Bool.and_eq_true] at integral
    exact integral.1
  have fits : Fits d.truncate.natAbs := by
    rw [natAbs_truncate]
    exact fits_whole finite
  refine eq_of_scaled ?_ (ofInt_ne_negativeZero fits) signed
  rw [(truncate_exact finite).1, (scaled_of_isIntegral integral).2]

/-- The number with a zero without sign. -/
def plain (d : Double) : Double :=
  if d = .negativeZero then .zero else d

theorem plain_ne (d : Double) : d.plain ≠ .negativeZero := by
  rw [plain]
  split
  · decide
  · assumption

theorem plain_integral (d : Double) :
    d.plain.isIntegral = d.isIntegral ∧ d.plain.truncate = d.truncate := by
  rw [plain]
  split
  · rename_i zero
    rw [zero]
    decide
  · exact ⟨rfl, rfl⟩

theorem plain_isNaN (d : Double) : d.plain.isNaN = d.isNaN := by
  rw [plain]
  split
  · rename_i zero
    rw [zero]
    decide
  · rfl

/-- The zeros are equal numbers. -/
theorem plain_numEq (number : d.isNaN = false) : d.plain.numEq d = true := by
  have zeros : Double.zero.numEq .negativeZero = true := by decide
  rw [plain]
  split
  · rename_i zero
    rw [zero, zeros]
  · simp [numEq, number]

end Double

namespace Value

open Double

variable {d : Double}

/-- A number is stored as the int32 that it is, unless it is the negative zero. -/
theorem ofNumber_eq (d : Double) :
    ofNumber d =
      match d.int32? with
      | some n => if d = .negativeZero then ofDouble d else ofInt32 n
      | none => ofDouble d := by
  have unsigned (number : d.isNaN = false) :
      (!d.numEq .zero || !d.isNegative) = decide (d ≠ .negativeZero) := by
    have zero : Double.zero.isNaN = false ∧ Double.zero.scaled = 0 := by decide
    rw [numEq, number, zero.1, zero.2, Bool.eq_iff_iff, decide_eq_true_eq, ne_eq, eq_negativeZero_iff,
      ← scaled_eq_zero_iff]
    cases d.isNegative <;> simp
  rw [ofNumber, Double.int32?]
  by_cases inside : d.within (-0x80000000) 0x7FFFFFFF = true
  · obtain ⟨saturated, finite, -⟩ := saturate_int32 inside
    rw [unsigned (not_isNaN_of_isFinite finite), inside, saturated, numEq_truncate finite]
    cases d.isIntegral with
    | false => simp
    | true => by_cases zero : d = .negativeZero <;> simp [zero]
  · simp [inside]

end Value

end InlineCache
