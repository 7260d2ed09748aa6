import InlineCache.Proofs.Emit.Meanings
import InlineCache.Proofs.Encoding

/-!
Boxing and unboxing in compiled code.  On the words of a tag, and on the payloads that such words are
unboxed to, each undoes the other; a double comes back unless it is a NaN that is not stored; and a
number is unboxed to the double that it is.
-/

namespace InlineCache

/-- The forms that payloads have in registers: an int32 with its sign extended, zero or one, an address
of 48 bits. -/
def PayloadType.Canonical : PayloadType → UInt64 → Prop
  | .int32, payload => ∃ n : Int32, payload = n.toInt64.toUInt64
  | .boolean, payload => payload = 0 ∨ payload = 1
  | .object, payload | .string, payload | .symbol, payload | .bigint, payload =>
      payload.toNat < 0x1000000000000
  | .intptr, _ | .valueTag, _ => True

theorem PayloadType.visible_of_boxes {type : PayloadType} {tag : ValueType}
    (boxes : type.valueType? = some tag) : tag ≠ .magic := by
  cases type <;> cases boxes <;> decide

namespace Word

theorem canonical_unbox (w : UInt64) (type : PayloadType) : type.Canonical (unbox w type) := by
  cases type with
  | int32 => exact ⟨w.toUInt32.toInt32, signExtend_eq w⟩
  | boolean =>
      rw [unbox, ofBool]
      split
      · exact .inr rfl
      · exact .inl rfl
  | object | string | symbol | bigint =>
      show (w &&& tagBits.payloadMask).toNat < _
      rw [toNat_payload]
      exact Nat.mod_lt _ (by decide)
  | intptr | valueTag => trivial

theorem toUInt32_boxInt32 (payload : UInt64) : (boxInt32 payload).toUInt32 = payload.toUInt32 := by
  apply UInt32.toNat_inj.mp
  rw [UInt64.toNat_toUInt32, UInt64.toNat_toUInt32, toNat_boxInt32]
  omega

theorem unbox_boxRef {payload tag : UInt64} (kind : Nat)
    (shape : tag.toNat = kind * 0x1000000000000) (bound : payload.toNat < 0x1000000000000) :
    ((payload &&& tagBits.payloadMask) ||| tag) &&& tagBits.payloadMask = payload := by
  rw [← UInt64.toNat_inj, toNat_payload, toNat_boxRef payload tag kind shape]
  omega

theorem unbox_box {payload : UInt64} {type : PayloadType} (canonical : type.Canonical payload) :
    unbox (box payload type) type = payload := by
  cases type with
  | int32 =>
      obtain ⟨n, rfl⟩ := canonical
      rw [box, unbox, signExtend_eq, toUInt32_boxInt32]
      exact signExtend_ofInt32 n
  | boolean =>
      rcases canonical with rfl | rfl
      · rfl
      · rfl
  | object => exact unbox_boxRef 0x7FFC rfl canonical
  | string => exact unbox_boxRef 0x7FFD rfl canonical
  | symbol => exact unbox_boxRef 0x7FFE rfl canonical
  | bigint => exact unbox_boxRef 0x7FFF rfl canonical
  | intptr | valueTag => rfl

theorem boxRef_div {payload tag : UInt64} (kind : Nat)
    (shape : tag.toNat = kind * 0x1000000000000) :
    ((payload &&& tagBits.payloadMask) ||| tag).toNat / 0x1000000000000 = kind := by
  rw [toNat_boxRef payload tag kind shape]
  omega

theorem tagged_box {payload : UInt64} {type : PayloadType} {tag : ValueType}
    (boxes : type.valueType? = some tag) (canonical : type.Canonical payload) :
    Tagged (box payload type).toNat tag := by
  cases type with
  | int32 =>
      cases boxes
      have low := toNat_boxInt32 payload
      rw [box, Tagged]
      omega
  | boolean =>
      cases boxes
      rcases canonical with rfl | rfl
      · exact .inr rfl
      · exact .inl rfl
  | object | string | symbol | bigint =>
      cases boxes
      exact boxRef_div _ rfl
  | intptr | valueTag => cases boxes

theorem box_unbox_of_type {w : UInt64} {type : PayloadType} {tag : ValueType}
    (boxes : type.valueType? = some tag) (tagged : (Value.mk w).valueType = tag) :
    box (unbox w type) type = w := by
  refine box_unbox boxes ?_
  subst tagged
  exact Value.tagged_valueType (PayloadType.visible_of_boxes boxes)

theorem boxDouble_unboxDouble_iff (w : UInt64) :
    boxDouble (unboxDouble w) = w ↔ Canonical w := by
  refine ⟨fun same isNaN => ?_, boxDouble_unboxDouble⟩
  rw [unboxDouble] at same
  split at same
  · assumption
  · rw [boxDouble, if_pos isNaN] at same
    exact same.symm

end Word

theorem Value.number?_of_isNumber {v : Value} (isNumber : v.isNumber = true) :
    v.number? = some (Word.unboxNumber v.bits) := by
  rw [isNumber_eq] at isNumber
  rw [number?_eq, if_pos isNumber]

/-- Boxing undoes unboxing on the words of a tag, and is undone by it on canonical payloads, which it
gives words of that tag.  A double word comes back from its number just when it is not a NaN other than
the one that is stored, and a number is unboxed to what it is as a number.  In code, a pair of
instructions therefore leaves the word it began with, through whichever register it goes. -/
theorem boxing_inverts_unboxing :
    (∀ (type : PayloadType) (tag : ValueType), type.valueType? = some tag →
      (∀ w : UInt64, (Value.mk w).valueType = tag →
        type.Canonical (Word.unbox w type) ∧ Word.box (Word.unbox w type) type = w) ∧
      ∀ payload, type.Canonical payload →
        Word.unbox (Word.box payload type) type = payload ∧
          (Value.mk (Word.box payload type)).valueType = tag) ∧
    (∀ w : UInt64, (Value.mk w).valueType = .double →
      (Word.boxDouble (Word.unboxDouble w) = w ↔
        ((Double.mk w).isNaN = true → w = tagBits.nan))) ∧
    (∀ v : Value, v.isNumber = true → v.number? = some (Word.unboxNumber v.bits)) ∧
    ∀ (entry : Entry) (m : Machine) (rest : List Inst) (src mid dst : Register) (f : FloatRegister),
      let v : Value := ⟨m.regs src⟩
      (∀ (type : PayloadType) (tag : ValueType), type.valueType? = some tag → v.valueType = tag →
        runCode entry (.unboxPayload src mid type :: .boxPayload mid dst type :: rest) none m =
          runCode entry rest none ((m.setReg mid (Word.unbox v.bits type)).setReg dst v.bits)) ∧
      (∀ (type : PayloadType) (tag : ValueType), type.valueType? = some tag →
        type.Canonical (m.regs src) →
        runCode entry (.boxPayload src mid type :: .unboxPayload mid dst type :: rest) none m =
          runCode entry rest none
            ((m.setReg mid (Word.box (m.regs src) type)).setReg dst (m.regs src))) ∧
      (((Double.mk v.bits).isNaN = true → v = .nan) →
        runCode entry (.unboxDouble src f :: .boxDouble f dst :: rest) none m =
          runCode entry rest none
            ((m.setFloat f (Word.unboxDouble v.bits)).setReg dst v.bits)) ∧
      ∀ d, v.isNumber = true → v.number? = some d →
        runCode entry (.unboxNumber src f :: rest) none m =
          runCode entry rest none (m.setFloat f d) := by
  refine ⟨fun type tag boxes => ⟨fun w tagged => ⟨Word.canonical_unbox w type,
      Word.box_unbox_of_type boxes tagged⟩, fun payload canonical => ⟨Word.unbox_box canonical,
      Value.valueType_of_tagged (Word.tagged_box boxes canonical)⟩⟩,
    fun w _ => Word.boxDouble_unboxDouble_iff w, fun v => Value.number?_of_isNumber,
    fun entry m rest src mid dst f => ⟨fun type tag boxes tagged => ?_,
      fun type tag _ canonical => ?_, fun canonical => ?_, fun d isNumber number => ?_⟩⟩
  · simp only [runCode, Inst.exec, Machine.regs_setReg, if_true,
      Word.box_unbox_of_type boxes tagged]
  · simp only [runCode, Inst.exec, Machine.regs_setReg, if_true, Word.unbox_box canonical]
  · have double : Word.boxDouble (Word.unboxDouble (m.regs src)) = m.regs src :=
      Word.boxDouble_unboxDouble fun isNaN => congrArg Value.bits (canonical isNaN)
    simp only [runCode, Inst.exec, Machine.floats_setFloat, if_true, double]
  · rw [Value.number?_of_isNumber isNumber, Option.some.injEq] at number
    subst number
    rfl

/-- The least int32 is boxed and unboxed through one register, the greatest address through its word; a
NaN that is stored comes back, one that is not does not, and both numbers are read as what they are. -/
theorem edges_are_boxed :
    let least : UInt64 := tagBits.int32 ||| 0x80000000
    let address : UInt64 := 0xFFFFFFFFFFFF
    let signaling : UInt64 := 0x7FF0000000000001
    let m := (((Machine.start .empty).setReg ⟨0⟩ tagBits.nan).setReg ⟨1⟩ least).setReg ⟨2⟩ address
    let after := [Inst.ret .returned]
    (Value.mk least).valueType = .int32 ∧ Word.unbox least .int32 = 0xFFFFFFFF80000000 ∧
      Word.box (Word.unbox least .int32) .int32 = least ∧
      PayloadType.Canonical .bigint address ∧
      Word.unbox (Word.box address .bigint) .bigint = address ∧
      (Value.mk (Word.box address .bigint)).valueType = .bigint ∧
      (Value.mk tagBits.nan).valueType = .double ∧
      Word.boxDouble (Word.unboxDouble tagBits.nan) = tagBits.nan ∧
      (Value.mk signaling).valueType = .double ∧
      Word.boxDouble (Word.unboxDouble signaling) ≠ signaling ∧
      (Value.mk least).number? = some (Word.unboxNumber least) ∧
      runCode ⟨[], []⟩ (.unboxPayload ⟨1⟩ ⟨1⟩ .int32 :: .boxPayload ⟨1⟩ ⟨1⟩ .int32 :: after) none m =
        runCode ⟨[], []⟩ after none ((m.setReg ⟨1⟩ (Word.unbox least .int32)).setReg ⟨1⟩ least) ∧
      runCode ⟨[], []⟩ (.boxPayload ⟨2⟩ ⟨3⟩ .bigint :: .unboxPayload ⟨3⟩ ⟨2⟩ .bigint :: after)
          none m =
        runCode ⟨[], []⟩ after none
          ((m.setReg ⟨3⟩ (Word.box address .bigint)).setReg ⟨2⟩ address) ∧
      runCode ⟨[], []⟩ (.unboxDouble ⟨0⟩ ⟨0⟩ :: .boxDouble ⟨0⟩ ⟨0⟩ :: after) none m =
        runCode ⟨[], []⟩ after none
          ((m.setFloat ⟨0⟩ (Word.unboxDouble tagBits.nan)).setReg ⟨0⟩ tagBits.nan) ∧
      runCode ⟨[], []⟩ (.unboxNumber ⟨1⟩ ⟨0⟩ :: after) none m =
        runCode ⟨[], []⟩ after none (m.setFloat ⟨0⟩ (.ofInt (-0x80000000))) := by
  intro least address signaling m after
  obtain ⟨payloads, doubles, numbers, code⟩ := boxing_inverts_unboxing
  have isInt32 : (Value.mk least).valueType = .int32 := by decide
  have proper : PayloadType.Canonical .bigint address := by
    show _ < 0x1000000000000
    decide
  obtain ⟨boxes, -⟩ := payloads .int32 .int32 rfl
  obtain ⟨-, unboxes⟩ := payloads .bigint .bigint rfl
  refine ⟨isInt32, by decide, (boxes least isInt32).2, proper, (unboxes address proper).1,
    (unboxes address proper).2, by decide, (doubles _ (by decide)).mpr fun _ => rfl, by decide,
    fun same => ?_, numbers _ (by decide), ?_, ?_, ?_, ?_⟩
  · have stored := (doubles signaling (by decide)).mp same (by decide)
    exact absurd stored (by decide)
  · exact (code ⟨[], []⟩ m after ⟨1⟩ ⟨1⟩ ⟨1⟩ ⟨0⟩).1 .int32 .int32 rfl isInt32
  · exact (code ⟨[], []⟩ m after ⟨2⟩ ⟨3⟩ ⟨2⟩ ⟨0⟩).2.1 .bigint .bigint rfl proper
  · exact (code ⟨[], []⟩ m after ⟨0⟩ ⟨0⟩ ⟨0⟩ ⟨0⟩).2.2.1 fun _ => rfl
  · exact (code ⟨[], []⟩ m after ⟨1⟩ ⟨1⟩ ⟨1⟩ ⟨0⟩).2.2.2 _ (by decide) (by decide)

end InlineCache
