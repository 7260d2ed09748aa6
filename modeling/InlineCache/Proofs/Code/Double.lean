import InlineCache.Code.Machine

/-!
Which integers are numbers exactly, and what the conversions of code come to.  A number is compared with
an integer by its magnitude, which is a quotient by the unit and a rest below it.
-/

namespace InlineCache

namespace Double

theorem unit_pos : 0 < unit := by
  rw [unit, Nat.one_shiftLeft]
  exact Nat.two_pow_pos 1074

/-- A natural number whose significant bits fit into a significand, and which is no larger than the
largest number. -/
def Fits (n : Nat) : Prop :=
  n.log2 < 1024 ∧ (n.log2 ≤ 52 ∨ 1 <<< (n.log2 - 52) ∣ n)

instance (n : Nat) : Decidable (Fits n) :=
  inferInstanceAs (Decidable (_ ∧ _))

theorem roundQuotient_of_dvd {n m : Nat} (positive : 0 < m) (divides : m ∣ n) :
    roundQuotient n m = n / m := by
  have rest : n % m = 0 := Nat.mod_eq_zero_of_dvd divides
  rw [roundQuotient, rest, if_neg]
  omega

theorem patternOfNat_of_fits {n : Nat} (nonzero : n ≠ 0) (fits : Fits n) :
    ∃ f, f < 0x10000000000000 ∧
      patternOfNat n = (n.log2 + 1023) * 0x10000000000000 + f ∧
      (0x10000000000000 + f) <<< n.log2 = n <<< 52 := by
  have low := Nat.log2_self_le nonzero
  have high : n < 2 ^ (n.log2 + 1) := Nat.lt_log2_self
  simp only [Nat.shiftLeft_eq]
  by_cases small : n.log2 ≤ 52
  · have split : 2 ^ n.log2 * 2 ^ (52 - n.log2) = 2 ^ 52 := by
      rw [← Nat.pow_add]
      congr 1
      omega
    have below := Nat.mul_le_mul_right (2 ^ (52 - n.log2)) low
    have above := Nat.mul_lt_mul_of_pos_right high (Nat.two_pow_pos (52 - n.log2))
    rw [Nat.pow_succ, Nat.mul_right_comm] at above
    rw [split] at below above
    have whole : 0x10000000000000 + (n * 2 ^ (52 - n.log2) - 0x10000000000000) =
        n * 2 ^ (52 - n.log2) := by omega
    refine ⟨n * 2 ^ (52 - n.log2) - 0x10000000000000, by omega, ?_, ?_⟩
    · rw [patternOfNat, if_neg nonzero, if_pos small, Nat.shiftLeft_eq]
    · rw [whole, Nat.mul_assoc, Nat.mul_comm (2 ^ (52 - n.log2)), split]
  · have divides : 2 ^ (n.log2 - 52) ∣ n := by
      rw [← Nat.one_shiftLeft]
      exact fits.2.resolve_left small
    have exact : n / 2 ^ (n.log2 - 52) * 2 ^ (n.log2 - 52) = n := Nat.div_mul_cancel divides
    have split : 2 ^ (n.log2 - 52) * 2 ^ 52 = 2 ^ n.log2 := by
      rw [← Nat.pow_add]
      congr 1
      omega
    have positive := Nat.two_pow_pos (n.log2 - 52)
    have below : 2 ^ 52 ≤ n / 2 ^ (n.log2 - 52) := by
      rw [Nat.le_div_iff_mul_le positive, Nat.mul_comm, split]
      exact low
    have above : n / 2 ^ (n.log2 - 52) < 2 ^ 53 := by
      rw [Nat.div_lt_iff_lt_mul positive, Nat.pow_succ, Nat.mul_comm, ← Nat.mul_assoc, split]
      exact high
    have whole : 0x10000000000000 + (n / 2 ^ (n.log2 - 52) - 0x10000000000000) =
        n / 2 ^ (n.log2 - 52) := by omega
    refine ⟨n / 2 ^ (n.log2 - 52) - 0x10000000000000, by omega, ?_, ?_⟩
    · rw [patternOfNat, if_neg nonzero, if_neg small, Nat.one_shiftLeft,
        roundQuotient_of_dvd positive divides]
    · rw [whole, ← split, ← Nat.mul_assoc, exact]

/-- An integer that fits is a number of its own value. -/
theorem withSign_patternOfNat {n : Nat} (negative : Bool) (fits : Fits n) :
    (withSign negative (patternOfNat n)).magnitude = n * unit ∧
      (withSign negative (patternOfNat n)).isNegative = negative ∧
      (withSign negative (patternOfNat n)).isFinite = true := by
  by_cases zero : n = 0
  · subst zero
    cases negative <;> decide
  · obtain ⟨f, below, pattern, value⟩ := patternOfNat_of_fits zero fits
    have bound := fits.1
    have fields : (withSign negative (patternOfNat n)).bits.toNat =
        (if negative then 0x8000000000000000 else 0) + (n.log2 + 1023) * 0x10000000000000 + f := by
      rw [pattern, withSign, UInt64.toNat_ofNat']
      cases negative <;> simp only [Bool.false_eq_true, if_false, if_true] <;> omega
    have exponent : (withSign negative (patternOfNat n)).exponentField = n.log2 + 1023 := by
      rw [exponentField, fields]
      cases negative <;> simp only [Bool.false_eq_true, if_false, if_true] <;> omega
    have fraction : (withSign negative (patternOfNat n)).fraction = f := by
      rw [Double.fraction, fields]
      cases negative <;> simp only [Bool.false_eq_true, if_false, if_true] <;> omega
    refine ⟨?_, ?_, ?_⟩
    · rw [magnitude, significand, exponent, fraction, if_neg (by omega), unit, Nat.one_shiftLeft,
        show n.log2 + 1023 - 1 = n.log2 + 1022 by omega, Nat.shiftLeft_add, value,
        Nat.shiftLeft_eq, Nat.shiftLeft_eq, Nat.mul_assoc, ← Nat.pow_add]
    · rw [isNegative, fields]
      cases negative <;> simp only [Bool.false_eq_true, if_false, if_true, decide_eq_true_eq,
        decide_eq_false_iff_not] <;> omega
    · rw [isFinite, exponent, decide_eq_true_eq]
      omega

theorem not_isNaN_of_isFinite {d : Double} (finite : d.isFinite = true) : d.isNaN = false := by
  rw [isFinite, decide_eq_true_eq] at finite
  rw [isNaN, decide_eq_false finite, Bool.false_and]

/-- An integer is exact when its absolute value fits. -/
theorem ofInt_exact {n : Int} (fits : Fits n.natAbs) :
    (ofInt n).scaled = n * unit ∧ (ofInt n).isNaN = false := by
  obtain ⟨magnitude, negative, finite⟩ := withSign_patternOfNat (decide (n < 0)) fits
  refine ⟨?_, not_isNaN_of_isFinite finite⟩
  rw [ofInt, scaled, negative, magnitude, Int.natCast_mul]
  by_cases below : n < 0
  · rw [if_pos (decide_eq_true below), ← Int.neg_mul, Int.ofNat_natAbs_of_nonpos (by omega),
      Int.neg_neg]
  · rw [if_neg (by rwa [decide_eq_true_eq]), Int.natAbs_of_nonneg (by omega)]

/-- The absolute value of the integer part. -/
def whole (d : Double) : Nat :=
  d.magnitude / unit

theorem significand_lt (d : Double) : d.significand < 0x20000000000000 := by
  have below : d.fraction < 0x10000000000000 := Nat.mod_lt _ (by decide)
  rw [significand]
  split <;> omega

theorem exponentField_lt (d : Double) : d.exponentField < 2048 :=
  Nat.mod_lt _ (by decide)

/-- A finite number is an integer, or it lies below the first power of two past which all are. -/
theorem magnitude_cases {d : Double} (finite : d.isFinite = true) :
    (∃ k, k < 972 ∧ d.magnitude = d.significand <<< k * unit) ∨
      d.magnitude < 0x20000000000000 * unit := by
  rw [isFinite, decide_eq_true_eq] at finite
  have bound := d.exponentField_lt
  have narrow := d.significand_lt
  rw [magnitude, unit, Nat.one_shiftLeft]
  simp only [Nat.shiftLeft_eq]
  by_cases large : 1074 ≤ d.exponentField - 1
  · refine .inl ⟨d.exponentField - 1 - 1074, by omega, ?_⟩
    rw [Nat.mul_assoc, ← Nat.pow_add]
    congr 2
    omega
  · refine .inr (Nat.lt_of_lt_of_le (Nat.mul_lt_mul_of_pos_right narrow (Nat.two_pow_pos _)) ?_)
    exact Nat.mul_le_mul_left _ (Nat.pow_le_pow_right (by decide) (by omega))

theorem fits_of_lt {n : Nat} (small : n ≤ 0x20000000000000) : Fits n := by
  by_cases zero : n = 0
  · subst zero
    decide
  · have low := Nat.log2_self_le zero
    rcases Nat.lt_or_ge n 0x20000000000000 with below | above
    · have narrow : n.log2 ≤ 52 := by
        rw [← Nat.lt_succ_iff, Nat.log2_lt zero]
        exact below
      exact ⟨by omega, .inl narrow⟩
    · rw [show n = 0x20000000000000 by omega]
      decide

theorem fits_shiftLeft {s k : Nat} (narrow : s < 0x20000000000000) (bound : k < 972) :
    Fits (s <<< k) := by
  by_cases zero : s = 0
  · subst zero
    rw [Nat.zero_shiftLeft]
    decide
  · have small : s.log2 ≤ 52 := by
      rw [← Nat.lt_succ_iff, Nat.log2_lt zero]
      exact narrow
    have shifted : (s <<< k).log2 = s.log2 + k := by
      rw [Nat.log2_eq_iff (by
        rw [Nat.shiftLeft_eq]
        exact Nat.mul_ne_zero zero (Nat.pos_iff_ne_zero.mp (Nat.two_pow_pos k)))]
      rw [Nat.shiftLeft_eq]
      constructor
      · rw [Nat.pow_add]
        exact Nat.mul_le_mul_right _ (Nat.log2_self_le zero)
      · rw [Nat.add_right_comm, Nat.pow_add]
        exact Nat.mul_lt_mul_of_pos_right Nat.lt_log2_self (Nat.two_pow_pos k)
    refine ⟨by omega, ?_⟩
    by_cases low : s.log2 + k ≤ 52
    · exact .inl (shifted ▸ low)
    · right
      rw [shifted, Nat.one_shiftLeft, Nat.shiftLeft_eq]
      exact Nat.dvd_trans (Nat.pow_dvd_pow 2 (by omega)) (Nat.dvd_mul_left _ _)

theorem fits_whole {d : Double} (finite : d.isFinite = true) : Fits d.whole := by
  rcases magnitude_cases finite with ⟨k, bound, value⟩ | small
  · rw [whole, value, Nat.mul_div_cancel _ unit_pos]
    exact fits_shiftLeft d.significand_lt bound
  · exact fits_of_lt (Nat.le_of_lt ((Nat.div_lt_iff_lt_mul unit_pos).mpr small))

/-- A number that is rounded to an integer fits, as it is one already or small. -/
theorem fits_roundQuotient {d : Double} (finite : d.isFinite = true) :
    Fits (roundQuotient d.magnitude unit) := by
  rcases magnitude_cases finite with ⟨k, bound, value⟩ | small
  · rw [roundQuotient_of_dvd unit_pos (value ▸ Nat.dvd_mul_left _ _)]
    exact fits_whole finite
  · have below : d.magnitude / unit < 0x20000000000000 :=
      (Nat.div_lt_iff_lt_mul unit_pos).mpr small
    refine fits_of_lt ?_
    rw [roundQuotient]
    split <;> omega

theorem truncate_eq (d : Double) :
    d.truncate = if d.isNegative then -(d.whole : Int) else d.whole := rfl

theorem magnitude_eq (d : Double) : d.magnitude = d.whole * unit + d.magnitude % unit := by
  rw [whole, Nat.mul_comm, Nat.div_add_mod]

theorem natAbs_truncate (d : Double) : d.truncate.natAbs = d.whole := by
  rw [truncate_eq]
  split <;> omega

/-- The integer part is a number of its own value. -/
theorem truncate_exact {d : Double} (finite : d.isFinite = true) :
    (ofInt d.truncate).scaled = d.truncate * unit ∧ (ofInt d.truncate).isNaN = false :=
  ofInt_exact (by
    rw [natAbs_truncate]
    exact fits_whole finite)

/-- A number is the integer that is its integer part when it is integral. -/
theorem numEq_truncate {d : Double} (finite : d.isFinite = true) :
    (ofInt d.truncate).numEq d = d.isIntegral := by
  obtain ⟨value, number⟩ := truncate_exact finite
  have split := d.magnitude_eq
  rw [numEq, number, not_isNaN_of_isFinite finite, value, isIntegral, finite, scaled, truncate_eq,
    Bool.not_false, Bool.true_and, Bool.true_and, Bool.true_and, decide_eq_decide]
  cases d.isNegative with
  | true =>
      rw [if_pos rfl, if_pos rfl, Int.neg_mul, Int.neg_inj]
      omega
  | false =>
      rw [if_neg Bool.false_ne_true, if_neg Bool.false_ne_true]
      omega

theorem isFinite_of_whole {d : Double} (number : d.isNaN = false)
    (small : d.whole < 0x8000000000000001) : d.isFinite = true := by
  rw [isFinite, decide_eq_true_eq]
  intro infinite
  have clear : d.fraction = 0 := by
    simpa only [isNaN, infinite, decide_true, Bool.true_and, decide_eq_false_iff_not,
      Decidable.not_not] using number
  rw [whole, magnitude, significand, infinite, clear] at small
  exact absurd small (by decide)

theorem within_iff {d : Double} {lo hi : Int} (low : Fits lo.natAbs) (high : Fits hi.natAbs) :
    d.within lo hi = true ↔
      d.isNaN = false ∧ lo * unit ≤ d.scaled ∧ d.scaled ≤ hi * unit := by
  obtain ⟨lowValue, lowNumber⟩ := ofInt_exact low
  obtain ⟨highValue, highNumber⟩ := ofInt_exact high
  simp only [within, le, lowValue, lowNumber, highValue, highNumber, Bool.not_false, Bool.true_and,
    Bool.and_true, Bool.and_eq_true, Bool.not_eq_true', decide_eq_true_eq]
  constructor
  · rintro ⟨⟨number, below⟩, -, above⟩
    exact ⟨number, below, above⟩
  · rintro ⟨number, below, above⟩
    exact ⟨⟨number, below⟩, number, above⟩

theorem withinBelow_iff {d : Double} {lo hi : Int} (low : Fits lo.natAbs) (high : Fits hi.natAbs) :
    d.withinBelow lo hi = true ↔
      d.isNaN = false ∧ lo * unit ≤ d.scaled ∧ d.scaled < hi * unit := by
  obtain ⟨lowValue, lowNumber⟩ := ofInt_exact low
  obtain ⟨highValue, highNumber⟩ := ofInt_exact high
  simp only [withinBelow, le, lt, lowValue, lowNumber, highValue, highNumber, Bool.not_false,
    Bool.true_and, Bool.and_true, Bool.and_eq_true, Bool.not_eq_true', decide_eq_true_eq]
  constructor
  · rintro ⟨⟨number, below⟩, -, above⟩
    exact ⟨number, below, above⟩
  · rintro ⟨number, below, above⟩
    exact ⟨⟨number, below⟩, number, above⟩

/-- A number at least a negative integer has an integer part that is. -/
theorem le_truncate {d : Double} {a : Nat} (below : -(a : Int) * unit ≤ d.scaled) :
    -(a : Int) ≤ d.truncate := by
  rw [scaled] at below
  rw [truncate_eq]
  split
  · rename_i negative
    rw [if_pos negative, Int.neg_mul, Int.neg_le_neg_iff] at below
    have part : d.whole ≤ a := by
      rw [whole]
      refine Nat.div_le_of_le_mul ?_
      rw [Nat.mul_comm]
      exact_mod_cast below
    omega
  · omega

/-- A number below a positive integer has an integer part that is. -/
theorem truncate_lt {d : Double} {b : Nat} (positive : 0 < b) (above : d.scaled < (b : Int) * unit) :
    d.truncate < b := by
  rw [scaled] at above
  rw [truncate_eq]
  split
  · omega
  · rename_i negative
    rw [if_neg negative] at above
    have part : d.whole < b := by
      rw [whole, Nat.div_lt_iff_lt_mul unit_pos]
      exact_mod_cast above
    exact_mod_cast part

theorem saturate_eq {d : Double} {lo hi : Int} (number : d.isNaN = false) (below : lo ≤ d.truncate)
    (above : d.truncate ≤ hi) : d.saturate lo hi = d.truncate := by
  rw [saturate, number, if_neg Bool.false_ne_true]
  omega

theorem isFinite_of_truncate {d : Double} (number : d.isNaN = false)
    (below : -0x8000000000000000 ≤ d.truncate) (above : d.truncate ≤ 0x8000000000000000) :
    d.isFinite = true := by
  have part := d.natAbs_truncate
  exact isFinite_of_whole number (by omega)

/-- An integral number is its integer part. -/
theorem scaled_of_isIntegral {d : Double} (integral : d.isIntegral = true) :
    d.isNaN = false ∧ d.scaled = d.truncate * unit := by
  rw [isIntegral, Bool.and_eq_true, decide_eq_true_eq] at integral
  refine ⟨not_isNaN_of_isFinite integral.1, ?_⟩
  have split := d.magnitude_eq
  rw [integral.2, Nat.add_zero] at split
  rw [scaled, truncate_eq, split]
  cases d.isNegative with
  | true => rw [if_pos rfl, if_pos rfl, Int.neg_mul, Int.natCast_mul]
  | false => rw [if_neg Bool.false_ne_true, if_neg Bool.false_ne_true, Int.natCast_mul]

theorem within_int32 (d : Double) :
    d.within (-0x80000000) 0x7FFFFFFF = true ↔
      d.isNaN = false ∧ -0x80000000 * (unit : Int) ≤ d.scaled ∧
        d.scaled ≤ 0x7FFFFFFF * (unit : Int) :=
  within_iff (by decide) (by decide)

/-- In the int32 range the conversion gives the integer part. -/
theorem saturate_int32 {d : Double} (inside : d.within (-0x80000000) 0x7FFFFFFF = true) :
    d.saturate (-0x80000000) 0x7FFFFFFF = d.truncate ∧ d.isFinite = true ∧
      -0x80000000 ≤ d.truncate ∧ d.truncate < 0x80000000 := by
  obtain ⟨number, below, above⟩ := d.within_int32.mp inside
  have low : -(0x80000000 : Nat) ≤ d.truncate := le_truncate below
  have high : d.truncate < (0x80000000 : Nat) := by
    refine truncate_lt (by decide) (Int.lt_of_le_of_lt above ?_)
    exact Int.mul_lt_mul_of_pos_right (by decide) (Int.natCast_pos.mpr unit_pos)
  exact ⟨saturate_eq number low (by omega), isFinite_of_truncate number (by omega) (by omega), low,
    high⟩

/-- A number is found to be an int32 exactly when it is an integer and its integer part is that int32. -/
theorem int32?_eq_some_iff {d : Double} {n : Int32} :
    d.int32? = some n ↔ d.isIntegral = true ∧ d.truncate = n.toInt := by
  rw [int32?]
  constructor
  · intro found
    obtain ⟨⟨inside, equal⟩, same⟩ := Option.ite_none_right_eq_some.mp found
    obtain ⟨saturated, finite, low, high⟩ := saturate_int32 inside
    rw [saturated, numEq_truncate finite] at equal
    rw [saturated] at same
    cases same
    exact ⟨equal, (Int32.toInt_ofInt_of_le low high).symm⟩
  · rintro ⟨integral, part⟩
    obtain ⟨number, value⟩ := scaled_of_isIntegral integral
    have low := n.le_toInt
    have high := n.toInt_lt
    have inside : d.within (-0x80000000) 0x7FFFFFFF = true := by
      refine d.within_int32.mpr ⟨number, ?_, ?_⟩ <;> rw [value] <;>
        exact Int.mul_le_mul_of_nonneg_right (by omega) (Int.natCast_nonneg _)
    obtain ⟨saturated, finite, -⟩ := saturate_int32 inside
    rw [saturated, numEq_truncate finite, if_pos ⟨inside, integral⟩, part, Int32.ofInt_toInt]

/-- In the int64 range the integer part is what code gets. -/
theorem withinBelow_int64 (d : Double) :
    d.withinBelow (-0x8000000000000000) 0x8000000000000000 = true ↔
      d.isNaN = false ∧ -0x8000000000000000 * (unit : Int) ≤ d.scaled ∧
        d.scaled < 0x8000000000000000 * (unit : Int) :=
  withinBelow_iff (by decide) (by decide)

theorem saturate_int64 {d : Double}
    (inside : d.withinBelow (-0x8000000000000000) 0x8000000000000000 = true) :
    d.saturate (-0x8000000000000000) 0x7FFFFFFFFFFFFFFF = d.truncate ∧ d.isFinite = true ∧
      -0x8000000000000000 ≤ d.truncate ∧ d.truncate < 0x8000000000000000 := by
  obtain ⟨number, below, above⟩ := d.withinBelow_int64.mp inside
  have low : -(0x8000000000000000 : Nat) ≤ d.truncate := le_truncate below
  have high : d.truncate < (0x8000000000000000 : Nat) := truncate_lt (by decide) above
  exact ⟨saturate_eq number low (by omega), isFinite_of_truncate number low (by omega), low, high⟩

theorem int64?_eq_some_iff {d : Double} {n : Int64} :
    d.int64? = some n ↔ d.isIntegral = true ∧ d.truncate = n.toInt := by
  rw [int64?]
  constructor
  · intro found
    obtain ⟨⟨inside, equal⟩, same⟩ := Option.ite_none_right_eq_some.mp found
    obtain ⟨saturated, finite, low, high⟩ := saturate_int64 inside
    rw [saturated, numEq_truncate finite] at equal
    rw [saturated] at same
    cases same
    exact ⟨equal, (Int64.toInt_ofInt_of_le low high).symm⟩
  · rintro ⟨integral, part⟩
    obtain ⟨number, value⟩ := scaled_of_isIntegral integral
    have low := n.le_toInt
    have high := n.toInt_lt
    have inside : d.withinBelow (-0x8000000000000000) 0x8000000000000000 = true := by
      refine d.withinBelow_int64.mpr ⟨number, ?_, ?_⟩ <;> rw [value]
      · exact Int.mul_le_mul_of_nonneg_right (by omega) (Int.natCast_nonneg _)
      · exact Int.mul_lt_mul_of_pos_right (by omega) (Int.natCast_pos.mpr unit_pos)
    obtain ⟨saturated, finite, -⟩ := saturate_int64 inside
    rw [saturated, numEq_truncate finite, if_pos ⟨inside, integral⟩, part, Int64.ofInt_toInt]

theorem truncateInt64?_eq_some_iff {d : Double} {n : Int64} :
    d.truncateInt64? = some n ↔
      d.withinBelow (-0x8000000000000000) 0x8000000000000000 = true ∧ d.truncate = n.toInt := by
  rw [truncateInt64?, Option.ite_none_right_eq_some]
  refine and_congr_right fun inside => ?_
  obtain ⟨saturated, -, low, high⟩ := saturate_int64 inside
  rw [saturated, Option.some.injEq]
  constructor
  · rintro rfl
    exact (Int64.toInt_ofInt_of_le low high).symm
  · intro part
    rw [part, Int64.ofInt_toInt]

/-- An int32 that is made a number is the number of an int64. -/
theorem int64?_ofInt (n : Int32) : (ofInt n.toInt).int64? = some n.toInt64 := by
  have small := n.toInt_lt
  have large := n.le_toInt
  obtain ⟨magnitude, negative, finite⟩ :=
    withSign_patternOfNat (decide (n.toInt < 0)) (fits_of_lt (n := n.toInt.natAbs) (by omega))
  have part : (ofInt n.toInt).whole = n.toInt.natAbs := by
    rw [whole, ofInt, magnitude, Nat.mul_div_cancel _ unit_pos]
  refine int64?_eq_some_iff.mpr ⟨?_, ?_⟩
  · rw [isIntegral, ofInt, finite, magnitude, Nat.mul_mod_left]
    rfl
  · rw [truncate_eq, part, ofInt, negative, Int32.toInt_toInt64]
    by_cases below : n.toInt < 0
    · rw [if_pos (decide_eq_true below)]
      omega
    · rw [if_neg (by rwa [decide_eq_true_eq])]
      omega

/-- What a magnitude that is an integer makes of a number. -/
theorem truncate_of_magnitude {d : Double} {q : Nat} (value : d.magnitude = q * unit) :
    d.truncate = (if d.isNegative then -(q : Int) else q) ∧ d.scaled = d.truncate * unit := by
  have part : d.whole = q := by
    rw [whole, value, Nat.mul_div_cancel _ unit_pos]
  rw [truncate_eq, scaled, value, part]
  refine ⟨rfl, ?_⟩
  cases d.isNegative with
  | true => rw [if_pos rfl, if_pos rfl, Int.neg_mul, Int.natCast_mul]
  | false => rw [if_neg Bool.false_ne_true, if_neg Bool.false_ne_true, Int.natCast_mul]

theorem roundEven_truncate {d : Double} (number : d.isNaN = false) :
    d.roundEven.isNaN = false ∧ d.roundEven.scaled = d.roundEven.truncate * unit ∧
      d.roundEven.truncate =
        if d.isNegative then -(roundQuotient d.magnitude unit : Int)
        else roundQuotient d.magnitude unit := by
  rw [roundEven]
  split
  · rename_i finite
    obtain ⟨magnitude, negative, rounded⟩ :=
      withSign_patternOfNat d.isNegative (fits_roundQuotient finite)
    obtain ⟨part, value⟩ := truncate_of_magnitude magnitude
    rw [negative] at part
    exact ⟨not_isNaN_of_isFinite rounded, value, part⟩
  · rename_i infinite
    rw [isFinite, decide_eq_true_eq, Decidable.not_not] at infinite
    have clear : d.fraction = 0 := by
      simpa only [isNaN, infinite, decide_true, Bool.true_and, decide_eq_false_iff_not,
        Decidable.not_not] using number
    have magnitude : d.magnitude = 1 <<< 1024 * unit := by
      rw [Double.magnitude, significand, infinite, clear]
      decide
    obtain ⟨part, value⟩ := truncate_of_magnitude magnitude
    rw [roundQuotient_of_dvd unit_pos (magnitude ▸ Nat.dvd_mul_left _ _), magnitude,
      Nat.mul_div_cancel _ unit_pos]
    exact ⟨number, value, part⟩

/-- Clamping an integer, one end after the other. -/
theorem saturate_clamped {d : Double} (number : d.isNaN = false)
    (value : d.scaled = d.truncate * unit) :
    ((d.max .zero).min (.ofInt 255)).saturate (-0x80000000) 0x7FFFFFFF =
      Max.max 0 (Min.min 255 d.truncate) := by
  have positive : (0 : Int) < unit := Int.natCast_pos.mpr unit_pos
  have order (n : Int) : d.scaled < n * unit ↔ d.truncate < n := by
    rw [value]
    exact Int.mul_lt_mul_right positive
  have order' (n : Int) : n * unit < d.scaled ↔ n < d.truncate := by
    rw [value]
    exact Int.mul_lt_mul_right positive
  have zero : zero.isNaN = false ∧ zero.scaled = 0 * (unit : Int) ∧ zero.truncate = 0 ∧
      zero.isNegative = false := by decide
  have byte : (ofInt 255).isNaN = false ∧ (ofInt 255).scaled = 255 * (unit : Int) ∧
      (ofInt 255).truncate = 255 := by decide
  have least : (Double.zero.min (.ofInt 255)) = .zero := by decide
  have small : Double.zero.saturate (-0x80000000) 0x7FFFFFFF = 0 := by decide
  rw [max, number, zero.1, zero.2.1, if_neg Bool.false_ne_true, if_neg Bool.false_ne_true]
  simp only [order, order']
  rcases Int.lt_trichotomy d.truncate 0 with below | same | above
  · rw [if_pos below, least, small]
    omega
  · have still : (d.min (.ofInt 255)).saturate (-0x80000000) 0x7FFFFFFF = 0 := by
      rw [min, number, byte.1, byte.2.1, if_neg Bool.false_ne_true, if_neg Bool.false_ne_true,
        if_pos ((order 255).mpr (by omega)), saturate_eq number (by omega) (by omega), same]
    rw [if_neg (by omega), if_neg (by omega)]
    split
    · rw [least, small]
      omega
    · rw [still]
      omega
  · rw [if_neg (by omega), if_pos above, min, number, byte.1, byte.2.1, if_neg Bool.false_ne_true,
      if_neg Bool.false_ne_true]
    simp only [order, order']
    have high : (ofInt 255).saturate (-0x80000000) 0x7FFFFFFF = 255 := by decide
    rcases Int.lt_trichotomy d.truncate 255 with low | equal | large
    · rw [if_pos low, saturate_eq number (by omega) (by omega)]
      omega
    · rw [if_neg (by omega), if_neg (by omega)]
      split
      · rw [saturate_eq number (by omega) (by omega)]
        omega
      · rw [high]
        omega
    · rw [if_neg (by omega), if_pos large, high]
      omega

/-- Clamping first and rounding then, on the magnitude. -/
theorem clampByte_eq (d : Double) :
    d.clampByte =
      if d.isNaN ∨ d.scaled ≤ 0 then 0
      else if 255 * (unit : Int) ≤ d.scaled then 255
      else Int32.ofNat (roundQuotient d.magnitude unit) := by
  cases number : d.isNaN with
  | true => rw [clampByte, number, if_pos (.inl rfl), if_pos (.inl rfl)]
  | false =>
      have zero : zero.isNaN = false ∧ zero.scaled = 0 := by decide
      have byte : (ofInt 255).isNaN = false ∧ (ofInt 255).scaled = 255 * (unit : Int) := by decide
      simp only [clampByte, le, number, zero, byte, Bool.not_false, Bool.true_and, decide_eq_true_eq,
        Bool.false_eq_true, false_or]
      split
      · rfl
      · rename_i positive
        split
        · rfl
        · rename_i below
          obtain ⟨rounded, -, part⟩ := roundEven_truncate number
          have sign : d.isNegative = false := by
            rw [scaled] at positive
            cases negative : d.isNegative with
            | true =>
                rw [negative, if_pos rfl] at positive
                omega
            | false => rfl
          rw [scaled, sign, if_neg Bool.false_ne_true] at below
          have whole : d.magnitude / unit < 255 :=
            (Nat.div_lt_iff_lt_mul unit_pos).mpr (by
              rw [← Int.ofNat_lt, Int.natCast_mul]
              exact Int.not_le.mp below)
          have small : roundQuotient d.magnitude unit ≤ 255 := by
            rw [roundQuotient]
            split <;> omega
          rw [sign, if_neg Bool.false_ne_true] at part
          rw [saturate_eq rounded (by omega) (by omega), part, Int32.ofInt_eq_ofNat]

/-- Code clamps a number as the byte range asks for. -/
theorem roundClampByte_eq (d : Double) : d.roundClampByte = d.clampByte := by
  cases number : d.isNaN with
  | true =>
      have infinite : d.isFinite = false := by
        rw [isNaN, Bool.and_eq_true, decide_eq_true_eq] at number
        rw [isFinite, number.1]
        rfl
      rw [roundClampByte, clampByte_eq, roundEven, infinite, if_neg Bool.false_ne_true, max, number,
        if_pos rfl, min, number, if_pos rfl, saturate, number, if_pos rfl, if_pos (.inl rfl)]
      rfl
  | false =>
      obtain ⟨rounded, value, part⟩ := roundEven_truncate number
      have split := d.magnitude_eq
      have rest := Nat.mod_lt d.magnitude unit_pos
      rw [roundClampByte, saturate_clamped rounded value, part, clampByte_eq, number, scaled]
      cases d.isNegative with
      | true =>
          rw [if_pos rfl, if_pos rfl, if_pos (.inr (by omega))]
          rw [show Max.max 0 (Min.min 255 (-(roundQuotient d.magnitude unit : Int))) = 0 by omega]
          rfl
      | false =>
          rw [if_neg Bool.false_ne_true, if_neg Bool.false_ne_true]
          by_cases nothing : d.magnitude = 0
          · rw [nothing, if_pos (.inr (by omega))]
            decide
          · rw [if_neg (by
              rintro (impossible | nonpositive)
              · cases impossible
              · omega)]
            by_cases large : 255 * (unit : Int) ≤ d.magnitude
            · have atLeast : 255 ≤ d.magnitude / unit :=
                (Nat.le_div_iff_mul_le unit_pos).mpr (by
                  rw [← Int.ofNat_le, Int.natCast_mul]
                  exact large)
              have high : 255 ≤ roundQuotient d.magnitude unit := by
                rw [roundQuotient]
                split <;> omega
              rw [if_pos large, show Max.max 0
                (Min.min 255 (roundQuotient d.magnitude unit : Int)) = 255 by omega]
              rfl
            · have below : d.magnitude / unit < 255 :=
                (Nat.div_lt_iff_lt_mul unit_pos).mpr (by
                  rw [← Int.ofNat_lt, Int.natCast_mul]
                  exact Int.not_le.mp large)
              have low : roundQuotient d.magnitude unit ≤ 255 := by
                rw [roundQuotient]
                split <;> omega
              rw [if_neg large, show Max.max 0
                (Min.min 255 (roundQuotient d.magnitude unit : Int)) =
                  roundQuotient d.magnitude unit by omega]
              exact Int32.ofInt_eq_ofNat

end Double

end InlineCache
