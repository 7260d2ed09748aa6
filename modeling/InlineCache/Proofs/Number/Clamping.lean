import InlineCache.Proofs.Number.Datum
import Mathlib.Algebra.Order.Group.Unbundled.Abs
import Mathlib.Algebra.Group.Int.Even

/-!
Clamping to the byte range.  An evaluation clamps and then rounds; compiled code rounds and then clamps, and
relies on a NaN going through the clamping to be converted to zero.  Both give the integer that is nearest
to the clamped value, the even one of two.
-/

namespace InlineCache

/-- No integer is nearer to the number, and if another one is as near, this one is even. -/
structure NearestEven (x : ℚ) (n : ℤ) : Prop where
  nearest : ∀ m : ℤ, |x - n| ≤ |x - m|
  even : ∀ m : ℤ, m ≠ n → |x - m| = |x - n| → Even n

namespace NearestEven

variable {x : ℚ} {m n : ℤ}

theorem one_le_abs_add_abs (x : ℚ) (distinct : m ≠ n) : 1 ≤ |x - m| + |x - n| := by
  have apart : (1 : ℚ) ≤ |(m : ℚ) - n| := by
    rw [← Int.cast_sub, ← Int.cast_abs, ← Int.cast_one (R := ℚ), Int.cast_le]
    exact Int.one_le_abs (sub_ne_zero.mpr distinct)
  calc (1 : ℚ) ≤ |(m : ℚ) - n| := apart
    _ = |(m - x) + (x - n)| := by rw [sub_add_sub_cancel]
    _ ≤ |m - x| + |x - n| := abs_add_le _ _
    _ = |x - m| + |x - n| := by rw [abs_sub_comm]

theorem of_half (close : |x - n| ≤ 1 / 2) (tie : |x - n| = 1 / 2 → Even n) : NearestEven x n where
  nearest m := by
    by_cases same : m = n
    · rw [same]
    · linarith [one_le_abs_add_abs x same]
  even m distinct equal := tie (by linarith [one_le_abs_add_abs x distinct])

theorem intCast (n : ℤ) : NearestEven n n := by
  have none : |(n : ℚ) - n| = 0 := by rw [sub_self, abs_zero]
  exact .of_half (by linarith) fun half => by linarith

theorem down {t : ℚ} (nonneg : 0 ≤ t) (small : t ≤ 1 / 2) (tie : t = 1 / 2 → Even n) :
    NearestEven (n + t) n := by
  have distance : |n + t - n| = t := by rw [add_sub_cancel_left, abs_of_nonneg nonneg]
  exact .of_half (by rwa [distance]) fun half => tie (distance.symm.trans half)

theorem up {t : ℚ} (large : 1 / 2 ≤ t) (below : t ≤ 1) (tie : t = 1 / 2 → Even (n + 1)) :
    NearestEven (n + t) (n + 1 : ℤ) := by
  have distance : |n + t - (n + 1 : ℤ)| = 1 - t := by
    rw [Int.cast_add, Int.cast_one, add_sub_add_left_eq_sub, abs_of_nonpos (by linarith), neg_sub]
  exact .of_half (by linarith) fun half => tie (by linarith)

/-- Two even integers that are as near have a nearer one between them. -/
theorem unique (first : NearestEven x m) (second : NearestEven x n) : m = n := by
  by_contra distinct
  have equal : |x - m| = |x - n| := le_antisymm (first.nearest n) (second.nearest m)
  have evenSecond := second.even m distinct equal
  obtain ⟨a, rfl⟩ := first.even n (Ne.symm distinct) equal.symm
  obtain ⟨b, rfl⟩ := evenSecond
  push_cast at equal
  have middle : x = (a + b : ℤ) := by
    push_cast
    rcases abs_eq_abs.mp equal with same | opposite
    · exact absurd (by exact_mod_cast (sub_right_inj.mp same)) distinct
    · linarith
  have zero := first.nearest (a + b)
  rw [middle, sub_self, abs_zero, abs_nonpos_iff, sub_eq_zero, Int.cast_inj] at zero
  omega

end NearestEven

namespace Double

/-- The rest of a division is compared with half of the divisor. -/
theorem nearestEven_roundQuotient (n : ℕ) {m : ℕ} (positive : 0 < m) :
    NearestEven ((n : ℚ) / m) (roundQuotient n m) := by
  have cast : (0 : ℚ) < m := Nat.cast_pos.mpr positive
  have quotient : (n : ℚ) / m = ((n / m : ℕ) : ℤ) + ((n % m : ℕ) : ℚ) / m := by
    rw [Int.cast_natCast, div_eq_iff cast.ne', add_mul, div_mul_cancel₀ _ cast.ne', mul_comm]
    exact_mod_cast (Nat.div_add_mod n m).symm
  have half : ((n % m : ℕ) : ℚ) / m ≤ 1 / 2 ↔ 2 * (n % m) ≤ m := by
    rw [div_le_div_iff₀ cast two_pos, one_mul, mul_comm]
    exact_mod_cast Iff.rfl
  have tie : ((n % m : ℕ) : ℚ) / m = 1 / 2 ↔ 2 * (n % m) = m := by
    rw [div_eq_div_iff cast.ne' two_ne_zero, one_mul, mul_comm]
    exact_mod_cast Iff.rfl
  rw [quotient, roundQuotient]
  split
  · rename_i above
    refine .up ?_ ?_ fun exactly => ?_
    · rcases above with more | same
      · exact (not_le.mp (mt half.mp (by omega))).le
      · exact (tie.mpr same.1).ge
    · rw [div_le_one cast, Nat.cast_le]
      exact (Nat.mod_lt n positive).le
    · have rest := tie.mp exactly
      rw [Int.even_iff]
      omega
  · rename_i below
    refine .down (by positivity) (half.mpr (by omega)) fun exactly => ?_
    have rest := tie.mp exactly
    rw [Int.even_iff]
    omega

end Double

/-- The value brought into a range; a NaN has none. -/
def Datum.clamped (lo hi : ℚ) : Datum → Option ℚ
  | .nan => none
  | .infinite negative => some (if negative then lo else hi)
  | .finite x => some (max lo (min hi x))

variable {d : Double}

/-- An infinity counts as the power of two behind the largest numbers. -/
theorem Double.le_absolute_of_infinite (infinite : d.exponentField = 2047) : 255 ≤ d.absolute := by
  have power : (2 : ℚ) ^ (8 : ℤ) ≤ 2 ^ ((d.exponentField : ℤ) - 1023) :=
    zpow_le_zpow_right₀ one_le_two (by omega)
  have fraction : (0 : ℚ) ≤ d.fraction / 2 ^ 52 := by positivity
  rw [absolute, if_neg (by omega)]
  calc (255 : ℚ) ≤ 1 * 2 ^ (8 : ℤ) := by norm_num
    _ ≤ (1 + d.fraction / 2 ^ 52) * 2 ^ ((d.exponentField : ℤ) - 1023) := by gcongr; linarith

theorem Datum.clamped_datum (number : d.isNaN = false) :
    d.datum.clamped 0 255 = some (max 0 (min 255 d.value)) := by
  rw [Double.datum, Double.value]
  split
  · rename_i infinite
    have large := Double.le_absolute_of_infinite infinite
    have clear : d.fraction = 0 := by
      simpa only [Double.isNaN, infinite, decide_true, Bool.true_and, decide_eq_false_iff_not,
        Decidable.not_not] using number
    rw [if_pos clear, clamped]
    split
    · rw [min_eq_right (by linarith), max_eq_left (by linarith)]
    · rw [min_eq_left large, max_eq_right (by norm_num)]
  · rfl

theorem NearestEven.roundQuotient (positive : 0 < d.value) (small : d.value < 255) :
    NearestEven d.value (Int32.ofNat (Double.roundQuotient d.magnitude Double.unit)).toInt := by
  have plain : d.isNegative = false := by
    by_contra negative
    rw [Double.value, if_pos (by simpa using negative)] at positive
    linarith [d.absolute_nonneg]
  rw [Double.value, plain, if_neg Bool.false_ne_true] at small ⊢
  have whole : d.magnitude / Double.unit < 255 := by
    rw [Nat.div_lt_iff_lt_mul Double.unit_pos, ← Nat.cast_lt (α := ℚ), d.cast_magnitude,
      Nat.cast_mul]
    exact mul_lt_mul_of_pos_right small Double.cast_unit_pos
  have rounded : Double.roundQuotient d.magnitude Double.unit ≤ 255 := by
    rw [Double.roundQuotient]
    split <;> omega
  rw [d.absolute_eq, Int32.toInt_ofNat_of_lt (by omega)]
  exact Double.nearestEven_roundQuotient _ Double.unit_pos

theorem NearestEven.clampByte (number : d.isNaN = false) :
    NearestEven (max 0 (min 255 d.value)) d.clampByte.toInt := by
  have low : d.scaled ≤ 0 ↔ d.value ≤ 0 := by
    rw [← zero_mul (Double.unit : ℤ), Double.scaled_le_iff, Int.cast_zero]
  have high : 255 * (Double.unit : ℤ) ≤ d.scaled ↔ 255 ≤ d.value := by
    rw [Double.le_scaled_iff, Int.cast_ofNat]
  rw [Double.clampByte_eq, number]
  simp only [Bool.false_eq_true, false_or]
  split
  · rename_i below
    rw [max_eq_left (min_le_of_right_le (low.mp below))]
    exact_mod_cast intCast 0
  · rename_i positive
    rw [low, not_le] at positive
    split
    · rename_i large
      rw [min_eq_left (high.mp large), max_eq_right (by norm_num)]
      exact_mod_cast intCast 255
    · rename_i small
      rw [high, not_le] at small
      rw [min_eq_right small.le, max_eq_right positive.le]
      exact roundQuotient positive small

/-- A byte is clamped as its definition asks, of every pattern, and compiled code leaves the same int32,
with its sign extended. -/
theorem byte_clamping_rounds_half_to_even :
    (∀ d : Double, match d.datum.clamped 0 255 with
      | none => d.clampByte = 0
      | some x => ∀ n : ℤ, NearestEven x n ↔ n = d.clampByte.toInt) ∧
    ∀ (entry : Entry) (machine : Machine) (src : FloatRegister) (dst : Register),
      Inst.exec entry machine (.clampDoubleToUint8 src dst) =
        .next (machine.setReg dst (machine.floats src).clampByte.toInt64.toUInt64) := by
  constructor
  · intro d
    cases number : d.isNaN with
    | true =>
        rw [Double.isNaN_eq_true.mp number]
        exact if_pos (.inl number)
    | false =>
        rw [Datum.clamped_datum number]
        have clamped := NearestEven.clampByte number
        refine fun n => ⟨fun nearest => nearest.unique clamped, ?_⟩
        rintro rfl
        exact clamped
  · intro entry machine src dst
    rw [Inst.exec, Double.roundClampByte_eq]
    rfl

/-- Halves between bytes go to the even one, and one unit in the last place away they do not. -/
example :
    [0x3FE0000000000000, 0x3FF8000000000000, 0x3FF7FFFFFFFFFFFF, 0x406FD00000000000].map
      (fun bits => (⟨bits⟩ : Double).clampByte) = [0, 2, 1, 254] := by
  decide

end InlineCache
