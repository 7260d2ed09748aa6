import InlineCache.Proofs.Eval.Kinds
import InlineCache.Proofs.Number.Datum
import InlineCache.Proofs.Sim.Convert
import Mathlib.Data.Int.ModEq

/-!
Which numbers the numeric guards let through.  The range tests, the saturating conversions and the
comparison with what was converted back come to this: the number is an integer of the range, or it has an
integer part there.
-/

namespace InlineCache

namespace Double

/-- The number lies in the int64 range, and the integer is its part on the side of zero. -/
def TruncatesTo (d : Double) (n : ℤ) : Prop :=
  ∃ x, d.datum = .finite x ∧ -2 ^ 63 ≤ x ∧ x < 2 ^ 63 ∧ n = towardZero x

variable {d : Double} {n : ℤ}

theorem toInt_int32?_eq_some_iff :
    d.int32?.map Int32.toInt = some n ↔ d.datum = .finite n ∧ -2 ^ 31 ≤ n ∧ n < 2 ^ 31 := by
  simp only [Option.map_eq_some_iff, int32?_eq_some_iff, isIntegral_iff]
  constructor
  · rintro ⟨m, value, rfl⟩
    exact ⟨value, m.le_toInt, m.toInt_lt⟩
  · rintro ⟨value, low, high⟩
    have same := Int32.toInt_ofInt_of_le low high
    exact ⟨Int32.ofInt n, by rwa [same], same⟩

theorem toInt_int64?_eq_some_iff :
    d.int64?.map Int64.toInt = some n ↔ d.datum = .finite n ∧ -2 ^ 63 ≤ n ∧ n < 2 ^ 63 := by
  simp only [Option.map_eq_some_iff, int64?_eq_some_iff, isIntegral_iff]
  constructor
  · rintro ⟨m, value, rfl⟩
    exact ⟨value, m.le_toInt, m.toInt_lt⟩
  · rintro ⟨value, low, high⟩
    have same := Int64.toInt_ofInt_of_le low high
    exact ⟨Int64.ofInt n, by rwa [same], same⟩

theorem withinBelow_int64_iff :
    d.withinBelow (-0x8000000000000000) 0x8000000000000000 = true ↔
      ∃ x, d.datum = .finite x ∧ -2 ^ 63 ≤ x ∧ x < 2 ^ 63 := by
  have low : -0x8000000000000000 * (unit : ℤ) ≤ d.scaled ↔ -2 ^ 63 ≤ d.value := by
    rw [le_scaled_iff]
    norm_num
  have high : d.scaled < 0x8000000000000000 * (unit : ℤ) ↔ d.value < 2 ^ 63 := by
    rw [scaled_lt_iff]
    norm_num
  constructor
  · intro inside
    obtain ⟨-, below, above⟩ := d.withinBelow_int64.mp inside
    exact ⟨d.value, datum_eq_finite.mpr ⟨(saturate_int64 inside).2.1, rfl⟩, low.mp below,
      high.mp above⟩
  · rintro ⟨x, real, below, above⟩
    obtain ⟨finite, rfl⟩ := datum_eq_finite.mp real
    exact d.withinBelow_int64.mpr ⟨not_isNaN_of_isFinite finite, low.mpr below, high.mpr above⟩

theorem toInt_truncateInt64?_eq_some_iff :
    d.truncateInt64?.map Int64.toInt = some n ↔ d.TruncatesTo n := by
  simp only [Option.map_eq_some_iff, truncateInt64?_eq_some_iff]
  constructor
  · rintro ⟨m, ⟨inside, part⟩, rfl⟩
    obtain ⟨x, finite, below, above⟩ := withinBelow_int64_iff.mp inside
    refine ⟨x, finite, below, above, ?_⟩
    rw [← part, truncate_eq_towardZero, (datum_eq_finite.mp finite).2]
  · rintro ⟨x, finite, below, above, rfl⟩
    have inside := withinBelow_int64_iff.mpr ⟨x, finite, below, above⟩
    obtain ⟨-, -, low, high⟩ := saturate_int64 inside
    have part : d.truncate = towardZero x := by
      rw [truncate_eq_towardZero, (datum_eq_finite.mp finite).2]
    have same := Int64.toInt_ofInt_of_le low high
    exact ⟨Int64.ofInt d.truncate, ⟨inside, same.symm⟩, same.trans part⟩

end Double

/-- The low half of an int64 is the one int32 that is congruent to it. -/
theorem Int32.toInt_modEq_iff {n : Int64} {k : Int32} :
    k.toInt ≡ n.toInt [ZMOD 2 ^ 32] ↔ k = n.toInt32 := by
  have low := k.le_toInt
  have high := k.toInt_lt
  rw [← Int32.toInt_inj, n.toInt_toInt32, Int.bmod_def, Int.ModEq]
  split <;> omega

namespace Value

variable {v : Value} {d : Double}

theorem modUInt32?_of_double (double : v.double? = some d) :
    v.modUInt32? = d.truncateInt64?.map Int64.toInt32 := by
  have type : v.valueType = .double := by
    by_contra other
    cases double.symm.trans (double?_of_other other)
  rw [modUInt32?, int32?_of_other (by rw [type]; decide), double]
  rfl

end Value

theorem Op.eval_guardToInt32ModUint32 {data : StubData} {s : EvalState} {input result : OperandId}
    {v : Value} {d : Double} (stores : s.Stores input.toNat (.boxed v)) (double : v.double? = some d)
    (empty : s.operands.slots[result.toNat]? = some none) :
    eval data ⟨.guardToInt32ModUint32, input, result, ()⟩ s =
      match d.truncateInt64? with
      | some n => (.ok (), { s with
          operands := ⟨s.operands.slots.set result.toNat (some (.int32 n.toInt32))⟩ })
      | none => (.error (.outcome .bailout), s) := by
  have reads : Operands.value s.operands input = .ok v := Operands.read_eq .value _ stores
  rw [eval, Eval.guardView, Eval.bind_apply, Eval.use_apply, reads]
  dsimp only
  rw [Value.modUInt32?_of_double double]
  cases d.truncateInt64? with
  | none => rfl
  | some n =>
      show Eval.define result (.int32 n.toInt32) s = _
      rw [Eval.define_apply, EvalState.define_empty _ empty]

/-- The guards that take a number for an integer are exact, of every pattern.  A number is an int32 or an
int64 when its value is an integer of the range, and it is truncated when its value lies in the range of
int64s; the guard that goes by the low half of the integer part then defines the one int32 that is congruent
to it. -/
theorem numeric_guards_are_exact (d : Double) :
    (∀ n : ℤ, d.int32?.map Int32.toInt = some n ↔
      d.datum = .finite n ∧ -2 ^ 31 ≤ n ∧ n < 2 ^ 31) ∧
    (∀ n : ℤ, d.int64?.map Int64.toInt = some n ↔
      d.datum = .finite n ∧ -2 ^ 63 ≤ n ∧ n < 2 ^ 63) ∧
    (∀ n : ℤ, d.truncateInt64?.map Int64.toInt = some n ↔ d.TruncatesTo n) ∧
    ∀ (data : StubData) (s : EvalState) (input result : OperandId) (v : Value),
      s.Stores input.toNat (.boxed v) → v.double? = some d →
      s.operands.slots[result.toNat]? = some none →
      let evaluated := Op.eval data ⟨.guardToInt32ModUint32, input, result, ()⟩ s
      (∀ n, d.TruncatesTo n → ∃ m : Int32, (∀ k : Int32, k.toInt ≡ n [ZMOD 2 ^ 32] ↔ k = m) ∧
        evaluated = (.ok (), { s with
          operands := ⟨s.operands.slots.set result.toNat (some (.int32 m))⟩ })) ∧
      ((∀ n, ¬d.TruncatesTo n) → evaluated = (.error (.outcome .bailout), s)) := by
  refine ⟨fun n => Double.toInt_int32?_eq_some_iff, fun n => Double.toInt_int64?_eq_some_iff,
    fun n => Double.toInt_truncateInt64?_eq_some_iff, ?_⟩
  intro data s input result v stores double empty evaluated
  have evaluates : evaluated = _ := Op.eval_guardToInt32ModUint32 stores double empty
  rw [evaluates]
  constructor
  · intro n truncates
    obtain ⟨part, found, rfl⟩ :=
      Option.map_eq_some_iff.mp (Double.toInt_truncateInt64?_eq_some_iff.mpr truncates)
    rw [found]
    exact ⟨part.toInt32, fun k => Int32.toInt_modEq_iff, rfl⟩
  · intro outside
    cases found : d.truncateInt64? with
    | none => rfl
    | some part =>
        refine absurd (Double.toInt_truncateInt64?_eq_some_iff.mp ?_) (outside part.toInt)
        rw [found]
        rfl

/-- The integer part of -6442450945.25 is one less than minus one and a half times the power of two, so the
low half is the greatest int32. -/
theorem negative_number_wraps_to_greatest :
    let d : Double := ⟨0xC1F8000000140000⟩
    let v : Value := ⟨d.bits⟩
    let s : EvalState := ⟨⟨[some (.boxed v), none]⟩, .undefined, .empty⟩
    s.Stores (0 : OperandId).toNat (.boxed v) ∧ v.double? = some d ∧
      s.operands.slots[(1 : OperandId).toNat]? = some none ∧ d.TruncatesTo (-6442450945) ∧
      Op.eval .empty ⟨.guardToInt32ModUint32, 0, 1, ()⟩ s =
        (.ok (), { s with operands := ⟨[some (.boxed v), some (.int32 0x7FFFFFFF)]⟩ }) := by
  intro d v s
  have double : v.double? = some d := by decide
  have truncates : d.TruncatesTo (-6442450945) :=
    Double.toInt_truncateInt64?_eq_some_iff.mp (by decide)
  obtain ⟨-, -, -, guards⟩ := numeric_guards_are_exact d
  obtain ⟨m, unique, evaluates⟩ := (guards .empty s 0 1 v rfl double rfl).1 _ truncates
  obtain rfl : 0x7FFFFFFF = m := (unique _).mp (by decide)
  exact ⟨rfl, double, rfl, truncates, evaluates⟩

example : Double.negativeZero.int32? = some 0 := by decide

end InlineCache
