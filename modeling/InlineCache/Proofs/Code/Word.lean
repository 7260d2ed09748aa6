import InlineCache.Code.Payload
import InlineCache.Value

/-!
Tags of words.  Each test looks at some high bits of a word, so it is a fact about a quotient of the
word as a number; the tests exclude one another, and boxing a payload undoes unboxing a word that has
the tag.  The tests and the views of a value go by its tag.
-/

namespace InlineCache

theorem Nat.and_mask (n j k : Nat) : n &&& ((1 <<< j - 1) <<< k) = (n >>> k % 1 <<< j) <<< k := by
  apply Nat.eq_of_testBit_eq
  intro i
  simp only [Nat.one_shiftLeft, Nat.testBit_and, Nat.testBit_shiftLeft,
    Nat.testBit_two_pow_sub_one, Nat.testBit_mod_two_pow, Nat.testBit_shiftRight]
  by_cases high : k ≤ i
  · simp [high, Nat.add_sub_cancel' high, Bool.and_comm]
  · simp [high]

namespace Word

/-- Some bits of a word as a number. -/
theorem toNat_and_mask (w mask : UInt64) (j k : Nat) (shape : mask.toNat = (1 <<< j - 1) <<< k) :
    (w &&& mask).toNat = w.toNat / 1 <<< k % 1 <<< j * 1 <<< k := by
  rw [UInt64.toNat_and, shape, Nat.and_mask]
  simp only [Nat.shiftLeft_eq, Nat.shiftRight_eq_div_pow, Nat.one_mul]

theorem isInt32_iff (w : UInt64) : isInt32 w = true ↔ w.toNat / 0x100000000 = 0x7FF80001 := by
  have masked : (w &&& tagBits.int32Mask).toNat =
      w.toNat / 0x100000000 % 0x100000000 * 0x100000000 := toNat_and_mask w _ 32 32 rfl
  have bound := w.toNat_lt
  have tag : tagBits.int32.toNat = 0x7FF8000100000000 := rfl
  simp only [isInt32, decide_eq_true_eq, ← UInt64.toNat_inj]
  omega

theorem hasRefTag_iff (w tag : UInt64) (kind : Nat) (shape : tag.toNat = kind * 0x1000000000000) :
    hasRefTag w tag = true ↔ w.toNat / 0x1000000000000 = kind := by
  have masked : (w &&& tagBits.refMask).toNat =
      w.toNat / 0x1000000000000 % 0x10000 * 0x1000000000000 := toNat_and_mask w _ 16 48 rfl
  have bound := w.toNat_lt
  simp only [hasRefTag, decide_eq_true_eq, ← UInt64.toNat_inj]
  omega

theorem isDouble_iff (w : UInt64) :
    isDouble w = true ↔
      w.toNat / 0x8000000000000 % 0x1000 ≠ 0xFFF ∨ w.toNat = 0x7FFA000000000000 := by
  have masked : (w &&& tagBits.quietNaN).toNat =
      w.toNat / 0x8000000000000 % 0x1000 * 0x8000000000000 := toNat_and_mask w _ 12 51 rfl
  have quiet : tagBits.quietNaN.toNat = 0x7FF8000000000000 := rfl
  have nan : tagBits.nan.toNat = 0x7FFA000000000000 := rfl
  simp only [isDouble, Bool.or_eq_true, decide_eq_true_eq, ne_eq, ← UInt64.toNat_inj]
  omega

/-- The words that have a tag, as numbers. -/
def Tagged (n : Nat) : ValueType → Prop
  | .double => n / 0x8000000000000 % 0x1000 ≠ 0xFFF ∨ n = 0x7FFA000000000000
  | .int32 => n / 0x100000000 = 0x7FF80001
  | .boolean => n = 0x7FF8000000000002 ∨ n = 0x7FF8000000000003
  | .undefined => n = 0x7FF8000000000000
  | .null => n = 0x7FF8000000000001
  | .object => n / 0x1000000000000 = 0x7FFC
  | .string => n / 0x1000000000000 = 0x7FFD
  | .symbol => n / 0x1000000000000 = 0x7FFE
  | .bigint => n / 0x1000000000000 = 0x7FFF
  | .magic => False

theorem hasTag_iff (w : UInt64) (type : ValueType) : hasTag w type = true ↔ Tagged w.toNat type := by
  cases type with
  | double => exact isDouble_iff w
  | int32 => exact isInt32_iff w
  | boolean =>
      simp only [hasTag, Tagged, Bool.or_eq_true, decide_eq_true_eq, ← UInt64.toNat_inj]
      rfl
  | undefined | null =>
      simp only [hasTag, Tagged, decide_eq_true_eq, ← UInt64.toNat_inj]
      rfl
  | object | string | symbol | bigint => exact hasRefTag_iff w _ _ rfl
  | magic => simp [hasTag, Tagged]

/-- A word has at most one tag. -/
theorem Tagged.unique {n : Nat} {first second : ValueType} (left : Tagged n first)
    (right : Tagged n second) : first = second := by
  cases first <;> cases second <;> simp only [Tagged] at left right <;> first | rfl | omega

/-- A tag above the bits of a word. -/
theorem toNat_or_tag (low tag : UInt64) (kind k : Nat) (bound : low.toNat < 1 <<< k)
    (shape : tag.toNat = kind <<< k) : (low ||| tag).toNat = low.toNat + tag.toNat := by
  rw [Nat.one_shiftLeft] at bound
  rw [Nat.shiftLeft_eq, Nat.mul_comm] at shape
  rw [UInt64.toNat_or, shape, Nat.or_comm, ← Nat.two_pow_add_eq_or_of_lt bound, Nat.add_comm]

theorem toUInt32_ofInt32 (n : Int32) : (ofInt32 n).toUInt32.toInt32 = n := by
  rw [← Int32.toBitVec_inj]
  show ((n.toBitVec.signExtend 64).setWidth 32) = n.toBitVec
  apply BitVec.eq_of_getLsbD_eq
  intro i bound
  simp [BitVec.getLsbD_signExtend, bound]
  omega

theorem signExtend_eq (w : UInt64) : signExtend w = ofInt32 w.toUInt32.toInt32 := rfl

theorem toNat_low (w : UInt64) : (w &&& 0xFFFFFFFF).toNat = w.toNat % 0x100000000 := by
  have masked : (w &&& 0xFFFFFFFF).toNat = w.toNat / 1 % 0x100000000 * 1 :=
    toNat_and_mask w _ 32 0 rfl
  omega

theorem toNat_signExtend_low (w : UInt64) :
    (signExtend w).toNat % 0x100000000 = w.toNat % 0x100000000 := by
  have same := toUInt32_ofInt32 w.toUInt32.toInt32
  have words : (signExtend w).toUInt32 = w.toUInt32 := congrArg Int32.toUInt32 same
  have numbers := congrArg UInt32.toNat words
  rw [UInt64.toNat_toUInt32, UInt64.toNat_toUInt32] at numbers
  exact numbers

/-- An int32 is boxed from its low half, wherever the rest comes from. -/
theorem toNat_boxInt32 (w : UInt64) :
    (boxInt32 w).toNat = w.toNat % 0x100000000 + 0x7FF8000100000000 := by
  have low := toNat_low w
  have sum := toNat_or_tag (w &&& 0xFFFFFFFF) tagBits.int32 0x7FF80001 32 (by
    rw [low]
    show _ < 0x100000000
    omega) rfl
  rw [low] at sum
  exact sum

theorem toNat_payload (w : UInt64) : (w &&& tagBits.payloadMask).toNat = w.toNat % 0x1000000000000 := by
  have masked : (w &&& tagBits.payloadMask).toNat = w.toNat / 1 % 0x1000000000000 * 1 :=
    toNat_and_mask w _ 48 0 rfl
  omega

theorem toNat_boxRef (w tag : UInt64) (kind : Nat) (shape : tag.toNat = kind * 0x1000000000000) :
    ((w &&& tagBits.payloadMask) ||| tag).toNat =
      w.toNat % 0x1000000000000 + kind * 0x1000000000000 := by
  have low := toNat_payload w
  have sum := toNat_or_tag (w &&& tagBits.payloadMask) tag kind 48 (by
    rw [low]
    show _ < 0x1000000000000
    omega) (by
    rw [shape, Nat.shiftLeft_eq])
  rw [low, shape] at sum
  exact sum

theorem boxRef_unbox {w tag : UInt64} (kind : Nat) (shape : tag.toNat = kind * 0x1000000000000)
    (tagged : w.toNat / 0x1000000000000 = kind) :
    ((w &&& tagBits.payloadMask) &&& tagBits.payloadMask ||| tag) = w := by
  rw [← UInt64.toNat_inj, toNat_boxRef _ tag kind shape, toNat_payload]
  omega

/-- Boxing the payload of a word that has the tag gives the word back. -/
theorem box_unbox {w : UInt64} {type : PayloadType} {tag : ValueType}
    (boxes : type.valueType? = some tag) (tagged : Tagged w.toNat tag) :
    box (unbox w type) type = w := by
  cases type with
  | int32 =>
      cases boxes
      have low := toNat_signExtend_low w
      simp only [Tagged] at tagged
      rw [← UInt64.toNat_inj, unbox, box, toNat_boxInt32]
      omega
  | boolean =>
      cases boxes
      simp only [Tagged] at tagged
      rcases tagged with isTrue | isFalse
      · rw [show w = tagBits.true from UInt64.toNat_inj.mp isTrue]
        rfl
      · rw [show w = tagBits.false from UInt64.toNat_inj.mp isFalse]
        rfl
  | object | string | symbol | bigint =>
      cases boxes
      exact boxRef_unbox _ rfl tagged
  | intptr | valueTag => cases boxes

/-- The words of numbers in canonical form: the one NaN has the pattern of its own. -/
def Canonical (w : UInt64) : Prop :=
  (Double.mk w).isNaN = true → w = tagBits.nan

instance (w : UInt64) : Decidable (Canonical w) :=
  inferInstanceAs (Decidable (_ → _))

theorem boxDouble_unboxDouble {w : UInt64} (canonical : Canonical w) :
    boxDouble (unboxDouble w) = w := by
  unfold unboxDouble
  split
  · rename_i nan
    rw [nan]
    rfl
  · rename_i number
    unfold boxDouble
    split
    · rename_i isNaN
      exact absurd (canonical isNaN) number
    · rfl

theorem half_ofInt32 (n : Int32) : (ofInt32 n).toUInt32 = n.toUInt32 :=
  congrArg Int32.toUInt32 (toUInt32_ofInt32 n)

theorem signExtend_int64 (n : Int64) : signExtend n.toUInt64 = ofInt32 n.toInt32 := by
  rw [signExtend_eq]
  refine congrArg ofInt32 (Int32.toBitVec_inj.mp ?_)
  rw [Int64.toBitVec_toInt32, BitVec.signExtend_eq_setWidth_of_le _ (by decide)]
  rfl

theorem signExtend_ofInt32 (n : Int32) : signExtend (ofInt32 n) = n.toInt64.toUInt64 := by
  rw [signExtend_eq, toUInt32_ofInt32]
  rfl

theorem ofInt32_toInt32 (n : Int64) :
    ofInt32 n.toInt32 = n.toUInt64 ↔ -0x80000000 ≤ n.toInt ∧ n.toInt < 0x80000000 := by
  have apart (a b : Int64) : a.toUInt64 = b.toUInt64 ↔ a = b :=
    ⟨fun same => congrArg UInt64.toInt64 same, congrArg _⟩
  rw [ofInt32, apart, ← Int64.toInt_inj, Int32.toInt_toInt64, Int64.toInt_toInt32]
  have low := Int.le_bmod (x := n.toInt) (m := 0x100000000) (by decide)
  have high := Int.bmod_lt (x := n.toInt) (m := 0x100000000) (by decide)
  constructor
  · intro same
    change n.toInt.bmod 0x100000000 = n.toInt at same
    omega
  · rintro ⟨below, above⟩
    exact Int.bmod_eq_of_le (by omega) (by omega)

theorem low_eq (w : UInt64) : w &&& 0xFFFFFFFF = w.toUInt32.toUInt64 := by
  apply UInt64.toNat_inj.mp
  rw [toNat_low, UInt32.toNat_toUInt64, UInt64.toNat_toUInt32]

theorem and_mask_eq_zero (w : UInt64) (mask : Int32) :
    w &&& mask.toUInt32.toUInt64 = 0 ↔ w.toUInt32.toInt32 &&& mask = 0 := by
  have low : w &&& mask.toUInt32.toUInt64 = (w.toUInt32 &&& mask.toUInt32).toUInt64 := by
    have narrow : 0xFFFFFFFF &&& mask.toUInt32.toUInt64 = mask.toUInt32.toUInt64 := by
      rw [UInt64.and_comm, low_eq, UInt32.toUInt32_toUInt64]
    rw [UInt32.toUInt64_and, ← low_eq, UInt64.and_assoc, narrow]
  have same : w.toUInt32.toInt32 &&& mask = (w.toUInt32 &&& mask.toUInt32).toInt32 := rfl
  rw [low, same]
  constructor
  · intro zero
    have narrowed := congrArg UInt64.toUInt32 zero
    rw [UInt32.toUInt32_toUInt64] at narrowed
    exact congrArg UInt32.toInt32 narrowed
  · intro zero
    exact congrArg (fun n : Int32 => n.toUInt32.toUInt64) zero

theorem boxInt32_eq (w : UInt64) : boxInt32 w = (Value.ofInt32 w.toUInt32.toInt32).bits := by
  rw [boxInt32, low_eq, Value.ofInt32, UInt64.or_comm]
  rfl

end Word

namespace Value

theorem isInt32_eq (v : Value) : v.isInt32 = Word.isInt32 v.bits := by
  rw [Bool.eq_iff_iff, Word.isInt32_iff, isInt32, decide_eq_true_eq, ← UInt64.toNat_inj,
    UInt64.toNat_shiftRight, Nat.shiftRight_eq_div_pow]
  rfl

theorem isDouble_eq (v : Value) : v.isDouble = Word.isDouble v.bits := by
  have shift : (v.bits >>> 51).toNat = v.bits.toNat / 0x8000000000000 := by
    rw [UInt64.toNat_shiftRight, Nat.shiftRight_eq_div_pow]
    rfl
  have field : ((v.bits >>> 51) % 0x1000).toNat = v.bits.toNat / 0x8000000000000 % 0x1000 := by
    rw [UInt64.toNat_mod, shift]
    rfl
  have exponent : (v.bits >>> 51) % 0x1000 = 0xFFF ↔
      v.bits.toNat / 0x8000000000000 % 0x1000 = 0xFFF := by
    rw [← UInt64.toNat_inj, field]
    rfl
  have nan : v = Value.nan ↔ v.bits.toNat = 0x7FFA000000000000 := by
    obtain ⟨w⟩ := v
    rw [Value.nan, Value.mk.injEq, ← UInt64.toNat_inj]
    rfl
  rw [Bool.eq_iff_iff, Word.isDouble_iff, isDouble, Bool.or_eq_true, decide_eq_true_eq,
    decide_eq_true_eq, ne_eq, exponent, nan]

theorem isHole_eq (v : Value) : v.isHole = decide (v.bits = tagBits.hole) := by
  rw [isHole, decide_eq_decide]
  exact Value.mk.injEq .. ▸ Iff.rfl

theorem isRef_iff (kind : RefKind) (v : Value) :
    v.isRef kind = true ↔ Word.Tagged v.bits.toNat kind.valueType := by
  rw [isRef, decide_eq_true_eq, ← UInt64.toNat_inj, UInt64.toNat_shiftRight,
    Nat.shiftRight_eq_div_pow]
  cases kind <;> rfl

theorem eq_iff_toNat (v : Value) (w : UInt64) : v = ⟨w⟩ ↔ v.bits.toNat = w.toNat := by
  obtain ⟨bits⟩ := v
  rw [Value.mk.injEq, UInt64.toNat_inj]

/-- The tag of a value is the first one whose test its word passes. -/
theorem valueType_eq (v : Value) :
    v.valueType =
      if Word.hasTag v.bits .double then .double
      else if Word.hasTag v.bits .int32 then .int32
      else if Word.hasTag v.bits .object then .object
      else if Word.hasTag v.bits .string then .string
      else if Word.hasTag v.bits .symbol then .symbol
      else if Word.hasTag v.bits .bigint then .bigint
      else if Word.hasTag v.bits .undefined then .undefined
      else if Word.hasTag v.bits .null then .null
      else if Word.hasTag v.bits .boolean then .boolean
      else .magic := by
  have references (kind : RefKind) : v.isRef kind = Word.hasTag v.bits kind.valueType := by
    rw [Bool.eq_iff_iff, isRef_iff, Word.hasTag_iff]
  have undefined : v.isUndefined = Word.hasTag v.bits .undefined := by
    rw [Bool.eq_iff_iff, Word.hasTag_iff, isUndefined, decide_eq_true_eq]
    exact eq_iff_toNat v _
  have null : v.isNull = Word.hasTag v.bits .null := by
    rw [Bool.eq_iff_iff, Word.hasTag_iff, isNull, decide_eq_true_eq]
    exact eq_iff_toNat v _
  have boolean : v.isBoolean = Word.hasTag v.bits .boolean := by
    rw [Bool.eq_iff_iff, Word.hasTag_iff, isBoolean, Bool.or_eq_true, decide_eq_true_eq,
      decide_eq_true_eq]
    exact or_congr (eq_iff_toNat v _) (eq_iff_toNat v _)
  rw [valueType, isDouble_eq, isInt32_eq, references, references, references, references,
    undefined, null, boolean]
  rfl

theorem valueType_of_tagged {v : Value} {type : ValueType}
    (tagged : Word.Tagged v.bits.toNat type) : v.valueType = type := by
  have others (other : ValueType) (different : other ≠ type) :
      Word.hasTag v.bits other = false := by
    rw [Bool.eq_false_iff, ne_eq, Word.hasTag_iff]
    intro both
    exact different (both.unique tagged)
  have own : Word.hasTag v.bits type = true := (Word.hasTag_iff _ _).mpr tagged
  rw [valueType_eq]
  cases type <;> simp [own, others]

theorem tagged_valueType {v : Value} (visible : v.valueType ≠ .magic) :
    Word.Tagged v.bits.toNat v.valueType := by
  rw [← Word.hasTag_iff]
  rw [valueType_eq] at visible ⊢
  repeat' split
  case isFalse none => simp_all
  all_goals assumption

theorem hasTag_eq (v : Value) {type : ValueType} (visible : type ≠ .magic) :
    Word.hasTag v.bits type = decide (v.valueType = type) := by
  rw [Bool.eq_iff_iff, Word.hasTag_iff, decide_eq_true_eq]
  constructor
  · exact valueType_of_tagged
  · rintro rfl
    exact tagged_valueType visible

/-- The byte that code reads off a word is that of the tag of the value. -/
theorem tagByte_eq (v : Value) : Word.tagByte v.bits = v.valueType.byte.toUInt64 := by
  rw [valueType_eq]
  simp only [Word.tagByte, Word.tagOrder, List.foldr_cons, List.foldr_nil]
  repeat' split
  all_goals rfl

/-- The test that a branch makes is the one for the tag. -/
theorem hasType_eq (v : Value) (type : ValueType) :
    Word.hasType v.bits type = decide (v.valueType = type) := by
  unfold Word.hasType
  split
  · rename_i magic
    subst magic
    rw [tagByte_eq]
    cases v.valueType <;> rfl
  · rename_i visible
    exact hasTag_eq v visible

theorem isNumber_eq (v : Value) : v.isNumber = Word.isNumber v.bits := by
  rw [isNumber, Word.isNumber, isInt32_eq, isDouble_eq]

theorem isRef_eq (kind : RefKind) (v : Value) :
    v.isRef kind = decide (v.valueType = kind.valueType) := by
  rw [Bool.eq_iff_iff, isRef_iff, decide_eq_true_eq]
  constructor
  · exact valueType_of_tagged
  · intro same
    rw [← same]
    exact tagged_valueType (by rw [same]; cases kind <;> decide)

theorem isRef_of_type {v : Value} {kind : RefKind} (type : v.valueType = kind.valueType) :
    v.isRef kind = true := by
  rw [isRef_eq, type, decide_eq_true rfl]

theorem ref?_of_type {v : Value} {kind : RefKind} (present : v.payload ≠ 0)
    (type : v.valueType = kind.valueType) : v.ref? kind = some v.payload := by
  rw [ref?, if_pos ⟨isRef_of_type type, present⟩]

theorem ref?_of_other {v : Value} {kind : RefKind} (type : v.valueType ≠ kind.valueType) :
    v.ref? kind = none := by
  rw [ref?, isRef_eq, decide_eq_false type]
  exact if_neg fun both => Bool.false_ne_true both.1

theorem isNull_eq (v : Value) : v.isNull = decide (v.valueType = .null) := by
  rw [← hasTag_eq v (by decide), isNull, Word.hasTag, decide_eq_decide]
  exact Value.mk.injEq .. ▸ Iff.rfl

theorem isUndefined_eq (v : Value) : v.isUndefined = decide (v.valueType = .undefined) := by
  rw [← hasTag_eq v (by decide), isUndefined, Word.hasTag, decide_eq_decide]
  exact Value.mk.injEq .. ▸ Iff.rfl

theorem boolean?_of_type {v : Value} (type : v.valueType = .boolean) :
    ∃ b, v.boolean? = some b ∧ Word.unbox v.bits .boolean = Word.ofBool b := by
  have tagged : Word.hasTag v.bits .boolean = true := by
    rw [hasTag_eq v (by decide), type]
    rfl
  obtain ⟨bits⟩ := v
  simp only [Word.hasTag, Bool.or_eq_true, decide_eq_true_eq] at tagged
  rcases tagged with rfl | rfl
  · exact ⟨true, rfl, rfl⟩
  · exact ⟨false, rfl, rfl⟩

theorem boolean?_of_other {v : Value} (type : v.valueType ≠ .boolean) : v.boolean? = none := by
  have untagged : Word.hasTag v.bits .boolean = false := by
    rw [hasTag_eq v (by decide), decide_eq_false type]
  rw [boolean?, if_neg, if_neg]
  · rintro rfl
    exact absurd untagged (by decide)
  · rintro rfl
    exact absurd untagged (by decide)

theorem isInt32_eq_type (v : Value) : v.isInt32 = decide (v.valueType = .int32) := by
  rw [isInt32_eq, ← hasTag_eq v (by decide), Word.hasTag]

theorem isDouble_eq_type (v : Value) : v.isDouble = decide (v.valueType = .double) := by
  rw [isDouble_eq, ← hasTag_eq v (by decide), Word.hasTag]

theorem int32?_of_type {v : Value} (type : v.valueType = .int32) :
    v.int32? = some v.bits.toUInt32.toInt32 := by
  rw [int32?, isInt32_eq_type, type, decide_eq_true rfl, if_pos rfl]

theorem int32?_of_other {v : Value} (type : v.valueType ≠ .int32) : v.int32? = none := by
  rw [int32?, isInt32_eq_type, decide_eq_false type, if_neg Bool.false_ne_true]

theorem double?_of_type {v : Value} (type : v.valueType = .double) :
    v.int32? = none ∧ v.double? = some (Word.unboxDouble v.bits) := by
  refine ⟨int32?_of_other (by rw [type]; decide), ?_⟩
  rw [double?, isDouble_eq_type, type, decide_eq_true rfl, if_pos rfl, Word.unboxDouble]
  by_cases same : v = nan
  · rw [if_pos same, if_pos (show v.bits = tagBits.nan from congrArg Value.bits same)]
  · rw [if_neg same, if_neg fun bits : v.bits = tagBits.nan => same (congrArg Value.mk bits)]

theorem double?_of_other {v : Value} (type : v.valueType ≠ .double) : v.double? = none := by
  rw [double?, isDouble_eq_type, decide_eq_false type, if_neg Bool.false_ne_true, if_neg]
  rintro rfl
  exact type (by decide)

theorem ofRef_of_ref? {v : Value} {kind : RefKind} {address : Address}
    (seen : v.ref? kind = some address) : ofRef kind address = v := by
  obtain ⟨⟨ref, -⟩, ⟨⟩⟩ := Option.ite_none_right_eq_some.mp seen
  have tagged := (isRef_iff kind v).mp ref
  obtain ⟨bits⟩ := v
  rw [ofRef, Value.mk.injEq, UInt64.or_comm]
  cases kind with
  | object => exact Word.boxRef_unbox 0x7FFC rfl tagged
  | string => exact Word.boxRef_unbox 0x7FFD rfl tagged
  | symbol => exact Word.boxRef_unbox 0x7FFE rfl tagged
  | bigint => exact Word.boxRef_unbox 0x7FFF rfl tagged

theorem ofInt32_of_int32? {v : Value} {n : Int32} (seen : v.int32? = some n) : ofInt32 n = v := by
  obtain ⟨int32, ⟨⟩⟩ := Option.ite_none_right_eq_some.mp seen
  have tagged : Word.Tagged v.bits.toNat .int32 := by
    rwa [isInt32_eq, Word.isInt32_iff] at int32
  have boxed := @Word.box_unbox _ .int32 _ rfl tagged
  rw [Word.unbox, Word.signExtend_eq, Word.box, Word.boxInt32_eq, Word.toUInt32_ofInt32] at boxed
  obtain ⟨bits⟩ := v
  exact Value.mk.injEq .. ▸ boxed

theorem ofBool_of_boolean? {v : Value} {b : Bool} (seen : v.boolean? = some b) : ofBool b = v := by
  rw [boolean?] at seen
  split at seen
  · rename_i same
    cases seen
    exact same.symm
  · obtain ⟨same, ⟨⟩⟩ := Option.ite_none_right_eq_some.mp seen
    exact same.symm

end Value

end InlineCache
