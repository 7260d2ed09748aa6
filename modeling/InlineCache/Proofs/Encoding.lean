import InlineCache.Code.Machine
import InlineCache.Proofs.Code.Word
import InlineCache.Proofs.Number.Integers
import Mathlib.Logic.ExistsUnique

/-!
The encoding of values.  Every word is in one class, the one that its tag names.  Whatever a value is made of
puts it into its own class, and is read back from it; only the NaNs become one.  Compiled code tests the
words by masks of their bits, and finds the same classes.
-/

namespace InlineCache

/-- What values are made of. -/
inductive Unboxed
  | double (d : Double)
  | int32 (n : Int32)
  | boolean (b : Bool)
  | undefined
  | null
  | hole
  | ref (kind : RefKind) (address : Address)
  deriving DecidableEq, Repr

namespace Unboxed

def box : Unboxed → Value
  | .double d => .ofDouble d
  | .int32 n => .ofInt32 n
  | .boolean b => .ofBool b
  | .undefined => .undefined
  | .null => .null
  | .hole => .hole
  | .ref kind address => .ofRef kind address

def type : Unboxed → ValueType
  | .double _ => .double
  | .int32 _ => .int32
  | .boolean _ => .boolean
  | .undefined => .undefined
  | .null => .null
  | .hole => .magic
  | .ref kind _ => kind.valueType

/-- A reference has an address, which is a word of 48 bits. -/
def Proper : Unboxed → Prop
  | .ref _ address => address ≠ 0 ∧ address.toNat < 0x1000000000000
  | _ => True

/-- All NaNs are taken for one. -/
def canonical : Unboxed → Unboxed
  | .double d => .double (if d.isNaN then .nan else d)
  | content => content

end Unboxed

namespace Value

/-- The test for a class of values.  The words that pass no other test are magic. -/
def belongs (v : Value) : ValueType → Bool
  | .double => v.isDouble
  | .int32 => v.isInt32
  | .undefined => v.isUndefined
  | .null => v.isNull
  | .boolean => v.isBoolean
  | .object => v.isRef .object
  | .string => v.isRef .string
  | .symbol => v.isRef .symbol
  | .bigint => v.isRef .bigint
  | .magic =>
      !(v.isDouble || v.isInt32 || v.isUndefined || v.isNull || v.isBoolean || v.isRef .object ||
        v.isRef .string || v.isRef .symbol || v.isRef .bigint)

theorem isBoolean_eq (v : Value) : v.isBoolean = decide (v.valueType = .boolean) := by
  rw [← hasTag_eq v (by decide), isBoolean, Word.hasTag, Bool.eq_iff_iff, Bool.or_eq_true,
    Bool.or_eq_true, decide_eq_true_eq, decide_eq_true_eq, decide_eq_true_eq, decide_eq_true_eq]
  exact or_congr (Value.mk.injEq .. ▸ Iff.rfl) (Value.mk.injEq .. ▸ Iff.rfl)

/-- A value passes the test that its tag names, and no other. -/
theorem belongs_eq (v : Value) (type : ValueType) : v.belongs type = decide (v.valueType = type) := by
  cases type with
  | double => exact isDouble_eq_type v
  | int32 => exact isInt32_eq_type v
  | undefined => exact isUndefined_eq v
  | null => exact isNull_eq v
  | boolean => exact isBoolean_eq v
  | object => exact isRef_eq .object v
  | string => exact isRef_eq .string v
  | symbol => exact isRef_eq .symbol v
  | bigint => exact isRef_eq .bigint v
  | magic =>
      simp only [belongs, isDouble_eq_type, isInt32_eq_type, isUndefined_eq, isNull_eq, isBoolean_eq,
        isRef_eq, RefKind.valueType]
      cases v.valueType <;> rfl

theorem isNumber_iff {v : Value} :
    v.isNumber = true ↔ v.valueType = .double ∨ v.valueType = .int32 := by
  rw [isNumber, isInt32_eq_type, isDouble_eq_type, Bool.or_comm, Bool.or_eq_true, decide_eq_true_eq,
    decide_eq_true_eq]

theorem toNat_ofInt32 (n : Int32) :
    (ofInt32 n).bits.toNat = n.toUInt32.toNat + 0x7FF8000100000000 := by
  have boxed := Word.boxInt32_eq (Word.ofInt32 n)
  rw [Word.toUInt32_ofInt32] at boxed
  have half : n.toUInt32.toNat = (Word.ofInt32 n).toNat % 0x100000000 := by
    rw [← Word.half_ofInt32, UInt64.toNat_toUInt32]
  rw [← boxed, Word.toNat_boxInt32, half]

theorem toNat_ofRef (kind : RefKind) (address : Address) :
    (ofRef kind address).bits.toNat =
      address.toNat % 0x1000000000000 + kind.tag.toNat * 0x1000000000000 := by
  rw [ofRef, UInt64.or_comm]
  refine Word.toNat_boxRef address _ _ ?_
  cases kind <;> rfl

theorem tagged_ofDouble (d : Double) : Word.Tagged (ofDouble d).bits.toNat .double := by
  rw [ofDouble]
  split
  · exact .inr rfl
  · rename_i number
    refine .inl fun quiet => number ?_
    change d.bits.toNat / 0x8000000000000 % 0x1000 = 0xFFF at quiet
    have exponent : d.exponentField = 2047 := by
      rw [Double.exponentField]
      omega
    have fraction : d.fraction ≠ 0 := by
      rw [Double.fraction]
      omega
    rw [Double.isNaN, decide_eq_true exponent, decide_eq_true fraction]
    rfl

theorem tagged_ofInt32 (n : Int32) : Word.Tagged (ofInt32 n).bits.toNat .int32 := by
  have small := n.toUInt32.toNat_lt
  rw [Word.Tagged, toNat_ofInt32]
  omega

theorem tagged_ofRef (kind : RefKind) (address : Address) :
    Word.Tagged (ofRef kind address).bits.toNat kind.valueType := by
  rw [← isRef_iff, isRef, decide_eq_true_eq, ← UInt64.toNat_inj, UInt64.toNat_shiftRight,
    Nat.shiftRight_eq_div_pow, toNat_ofRef]
  show _ / 0x1000000000000 = _
  omega

/-- Each constructor puts its values into its own class. -/
theorem valueType_box (content : Unboxed) : content.box.valueType = content.type := by
  cases content with
  | double d => exact valueType_of_tagged (tagged_ofDouble d)
  | int32 n => exact valueType_of_tagged (tagged_ofInt32 n)
  | ref kind address => exact valueType_of_tagged (tagged_ofRef kind address)
  | boolean b => cases b <;> decide
  | undefined | null | hole => decide

variable {v : Value} {kind : RefKind} {address : Address} {n : Int32} {b : Bool} {d : Double}

theorem int32?_eq_some_iff : v.int32? = some n ↔ v = ofInt32 n := by
  constructor
  · exact fun seen => (ofInt32_of_int32? seen).symm
  · rintro rfl
    have low : (ofInt32 n).bits.toUInt32 = n.toUInt32 := by
      have small := n.toUInt32.toNat_lt
      rw [← UInt32.toNat_inj, UInt64.toNat_toUInt32, toNat_ofInt32]
      omega
    rw [int32?_of_type (valueType_of_tagged (tagged_ofInt32 n)), low]
    rfl

theorem boolean?_eq_some_iff : v.boolean? = some b ↔ v = ofBool b := by
  constructor
  · exact fun seen => (ofBool_of_boolean? seen).symm
  · rintro rfl
    cases b <;> rfl

theorem double?_ofDouble (d : Double) :
    (ofDouble d).double? = some (if d.isNaN then .nan else d) := by
  rw [(double?_of_type (valueType_of_tagged (tagged_ofDouble d))).2, ofDouble]
  split
  · rfl
  · rename_i number
    rw [Word.unboxDouble, if_neg]
    intro nan
    obtain ⟨bits⟩ := d
    obtain rfl : bits = tagBits.nan := nan
    exact number (by decide)

theorem ref?_eq_some_iff :
    v.ref? kind = some address ↔
      v = ofRef kind address ∧ address ≠ 0 ∧ address.toNat < 0x1000000000000 := by
  constructor
  · intro seen
    refine ⟨(ofRef_of_ref? seen).symm, ?_⟩
    obtain ⟨⟨-, present⟩, ⟨⟩⟩ := Option.ite_none_right_eq_some.mp seen
    have low : v.payload.toNat = v.bits.toNat % 0x1000000000000 := Word.toNat_payload v.bits
    exact ⟨present, by omega⟩
  · rintro ⟨rfl, present, small⟩
    have payload : (ofRef kind address).payload = address := by
      rw [← UInt64.toNat_inj, Value.payload, payloadMask]
      refine (Word.toNat_payload _).trans ?_
      rw [toNat_ofRef]
      omega
    have type := valueType_of_tagged (tagged_ofRef kind address)
    rw [ref?_of_type (by rwa [payload]) type, payload]

/-- A value read back, as what its tag says. -/
def unboxed? (v : Value) : Option Unboxed :=
  match v.valueType with
  | .double => v.double?.map .double
  | .int32 => v.int32?.map .int32
  | .boolean => v.boolean?.map .boolean
  | .undefined => some .undefined
  | .null => some .null
  | .object => (v.ref? .object).map (.ref .object)
  | .string => (v.ref? .string).map (.ref .string)
  | .symbol => (v.ref? .symbol).map (.ref .symbol)
  | .bigint => (v.ref? .bigint).map (.ref .bigint)
  | .magic => if v.isHole then some .hole else none

theorem unboxed?_box {content : Unboxed} (proper : content.Proper) :
    content.box.unboxed? = some content.canonical := by
  rw [unboxed?, valueType_box]
  cases content with
  | double d => exact congrArg (Option.map Unboxed.double) (double?_ofDouble d)
  | int32 n =>
      have seen : (ofInt32 n).int32? = some n := int32?_eq_some_iff.mpr rfl
      exact congrArg (Option.map Unboxed.int32) seen
  | boolean b =>
      have seen : (ofBool b).boolean? = some b := boolean?_eq_some_iff.mpr rfl
      exact congrArg (Option.map Unboxed.boolean) seen
  | ref kind address =>
      have seen : (ofRef kind address).ref? kind = some address := ref?_eq_some_iff.mpr ⟨rfl, proper⟩
      cases kind <;> exact congrArg (Option.map (Unboxed.ref _)) seen
  | undefined | null | hole => rfl

theorem box_canonical (content : Unboxed) : content.canonical.box = content.box := by
  cases content with
  | double d =>
      cases number : d.isNaN with
      | true =>
          rw [Unboxed.canonical, number, if_pos rfl, Unboxed.box, Unboxed.box, ofDouble, ofDouble, number]
          rfl
      | false => rw [Unboxed.canonical, number, if_neg Bool.false_ne_true]
  | _ => rfl

/-- Values are made of the same thing when they are the same, but for the NaNs. -/
theorem box_inj {first second : Unboxed} (properFirst : first.Proper) (properSecond : second.Proper) :
    first.box = second.box ↔ first.canonical = second.canonical := by
  constructor
  · intro same
    have read := unboxed?_box properFirst
    rw [same, unboxed?_box properSecond] at read
    exact (Option.some.inj read).symm
  · intro same
    rw [← box_canonical first, same, box_canonical]

theorem ofNumber_eq_ofInt32_iff : ofNumber d = ofInt32 n ↔ d.int32? = some n ∧ d ≠ .negativeZero := by
  have apart : ofDouble d ≠ ofInt32 n := by
    intro same
    have tagged := tagged_ofDouble d
    rw [same] at tagged
    cases tagged.unique (tagged_ofInt32 n)
  rw [ofNumber_eq]
  cases d.int32? with
  | none => simp [apart]
  | some m =>
      by_cases zero : d = .negativeZero
      · simp [zero, zero ▸ apart]
      · have same : ofInt32 m = ofInt32 n ↔ m = n := by
          rw [← int32?_eq_some_iff, int32?_eq_some_iff.mpr rfl, Option.some.injEq]
        simp [zero, same]

theorem ofNumber_eq_ofDouble (other : ∀ n, ¬(d.int32? = some n ∧ d ≠ .negativeZero)) :
    ofNumber d = ofDouble d := by
  rw [ofNumber_eq]
  cases found : d.int32? with
  | none => rfl
  | some n =>
      refine if_pos (Decidable.byContradiction fun signed => other n ⟨found, signed⟩)

example : ofNumber .negativeZero = ⟨0x8000000000000000⟩ := by decide

theorem number?_ofInt32 (n : Int32) : (ofInt32 n).number? = some (.ofInt n.toInt) := by
  rw [number?, int32?_eq_some_iff.mpr rfl]

theorem number?_ofDouble (number : d.isNaN = false) : (ofDouble d).number? = some d := by
  have none : (ofDouble d).int32? = none :=
    (double?_of_type (valueType_of_tagged (tagged_ofDouble d))).1
  rw [number?, none]
  dsimp only
  rw [double?_ofDouble, number, if_neg Bool.false_ne_true]

/-- A number is the same bit for bit, in whichever form it is stored. -/
theorem number?_ofNumber (number : d.isNaN = false) : (ofNumber d).number? = some d := by
  by_cases small : ∃ n, d.int32? = some n ∧ d ≠ .negativeZero
  · obtain ⟨n, found, signed⟩ := small
    obtain ⟨integral, part⟩ := Double.int32?_eq_some_iff.mp found
    rw [ofNumber_eq_ofInt32_iff.mpr ⟨found, signed⟩, number?_ofInt32, ← part,
      Double.ofInt_truncate integral signed]
  · rw [ofNumber_eq_ofDouble (not_exists.mp small), number?_ofDouble number]

end Value

/-- Every word passes the test of one class, which is the one that its tag names, and the numbers are two of
the classes.  Each constructor puts its values into its own class and makes different ones of different things,
but for the NaNs; the reads give back what a value was made of.  A number is stored as an int32 when it is one
and not the negative zero, else as a double, and either is the same number bit for bit. -/
theorem encoding_is_a_partition :
    (∀ v : Value, (∃! type, v.belongs type = true) ∧ v.belongs v.valueType = true ∧
      (v.isNumber = true ↔ v.valueType = .double ∨ v.valueType = .int32)) ∧
    (∀ content : Unboxed, content.box.belongs content.type = true) ∧
    (∀ first second : Unboxed, first.Proper → second.Proper →
      (first.box = second.box ↔ first.canonical = second.canonical)) ∧
    (∀ (n : Int32) (v : Value), v.int32? = some n ↔ v = .ofInt32 n) ∧
    (∀ (b : Bool) (v : Value), v.boolean? = some b ↔ v = .ofBool b) ∧
    (∀ d : Double, (Value.ofDouble d).double? = some (if d.isNaN then .nan else d)) ∧
    (∀ (kind : RefKind) (address : Address) (v : Value), v.ref? kind = some address ↔
      v = .ofRef kind address ∧ address ≠ 0 ∧ address.toNat < 0x1000000000000) ∧
    ∀ d : Double, (∀ n, Value.ofNumber d = .ofInt32 n ↔ d.int32? = some n ∧ d ≠ .negativeZero) ∧
      ((∀ n, ¬(d.int32? = some n ∧ d ≠ .negativeZero)) → Value.ofNumber d = .ofDouble d) ∧
      (d.isNaN = false → (Value.ofNumber d).number? = some d) := by
  refine ⟨fun v => ⟨⟨v.valueType, ?_, ?_⟩, ?_, Value.isNumber_iff⟩, fun content => ?_,
    fun first second => Value.box_inj, fun n v => Value.int32?_eq_some_iff,
    fun b v => Value.boolean?_eq_some_iff, Value.double?_ofDouble,
    fun kind address v => Value.ref?_eq_some_iff,
    fun d => ⟨fun n => Value.ofNumber_eq_ofInt32_iff, Value.ofNumber_eq_ofDouble,
      Value.number?_ofNumber⟩⟩
  · exact (v.belongs_eq _).trans (decide_eq_true rfl)
  · intro type passes
    rw [Value.belongs_eq, decide_eq_true_eq] at passes
    exact passes.symm
  · rw [Value.belongs_eq, decide_eq_true rfl]
  · rw [Value.belongs_eq, Value.valueType_box, decide_eq_true rfl]

/-- The reference with the greatest address has the bits of a NaN, which are not stored.  The first number
behind the int32s is stored as a double. -/
theorem edges_are_encoded :
    let reference : Unboxed := .ref .bigint 0xFFFFFFFFFFFF
    let number : Double := ⟨reference.box.bits⟩
    let behind : Double := ⟨0x41E0000000000000⟩
    reference.Proper ∧ number.isNaN = true ∧ reference.box ≠ .ofDouble number ∧
      (∀ n, ¬(behind.int32? = some n ∧ behind ≠ .negativeZero)) ∧
      Value.ofNumber behind = .ofDouble behind ∧ behind.isNaN = false ∧
      (Value.ofNumber behind).number? = some behind := by
  intro reference number behind
  have proper : reference.Proper := ⟨by decide, by decide⟩
  obtain ⟨-, -, inj, -, -, -, -, numbers⟩ := encoding_is_a_partition
  obtain ⟨-, double, read⟩ := numbers behind
  have large : ∀ n, ¬(behind.int32? = some n ∧ behind ≠ .negativeZero) := by
    have none : behind.int32? = none := by decide
    simp [none]
  refine ⟨proper, by decide, fun same => ?_, large, double large, by decide, read (by decide)⟩
  have equal := (inj reference (.double number) proper trivial).mp same
  cases equal

/-- What compiled code finds when it tests a word is what the value is. -/
theorem tag_tests_decide_alike :
    (∀ w : UInt64, let v : Value := ⟨w⟩
      (∀ type, Word.hasType w type = true ↔ v.valueType = type) ∧
      (Word.isNumber w = true ↔ v.isNumber = true) ∧
      Word.tagByte w = v.valueType.byte.toUInt64) ∧
    ∀ (entry : Entry) (m : Machine) (src dst : Register) (target : Label),
      let v : Value := ⟨m.regs src⟩
      (∀ type, Inst.exec entry m (.branchTestType .equal src type target) =
          (if v.valueType = type then .jump target m else .next m) ∧
        Inst.exec entry m (.branchTestType .notEqual src type target) =
          (if v.valueType = type then .next m else .jump target m)) ∧
      Inst.exec entry m (.branchTestNumber .equal src target) =
        (if v.isNumber then .jump target m else .next m) ∧
      Inst.exec entry m (.branchTestNumber .notEqual src target) =
        (if v.isNumber then .next m else .jump target m) ∧
      Inst.exec entry m (.loadValueTag src dst) =
        .next (m.setReg dst v.valueType.byte.toUInt64) := by
  have tested (v : Value) (type : ValueType) :
      Word.hasType v.bits type = decide (v.valueType = type) := v.hasType_eq type
  refine ⟨fun w => ⟨fun type => ?_, ?_, Value.tagByte_eq ⟨w⟩⟩,
    fun entry m src dst target => ⟨fun type => ⟨?_, ?_⟩, ?_, ?_, ?_⟩⟩
  · rw [tested ⟨w⟩, decide_eq_true_eq]
  · rw [Value.isNumber_eq]
  · rw [Inst.exec, tested ⟨m.regs src⟩, Effect.branch]
    simp
  · rw [Inst.exec, tested ⟨m.regs src⟩, Effect.branch]
    simp
  · rw [Inst.exec, ← Value.isNumber_eq ⟨m.regs src⟩]
    cases (Value.mk (m.regs src)).isNumber <;> rfl
  · rw [Inst.exec, ← Value.isNumber_eq ⟨m.regs src⟩]
    cases (Value.mk (m.regs src)).isNumber <;> rfl
  · rw [Inst.exec, Value.tagByte_eq ⟨m.regs src⟩]

end InlineCache
