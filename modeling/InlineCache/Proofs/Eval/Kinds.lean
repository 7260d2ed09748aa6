import InlineCache.Proofs.Eval.Reading
import InlineCache.Proofs.Op.Kinds

/-!
Kinds of operands in a run, what code generation makes sure of in an operation, and the ways in which a
run may end that it cannot foresee.
-/

namespace InlineCache

namespace Object

/-- An offset that every object has a fixed slot at. -/
def FixedOffset (offset : Int32) : Prop :=
  0 ≤ offset.toInt - fixedSlotBase ∧ (offset.toInt - fixedSlotBase) % 8 = 0 ∧
    (offset.toInt - fixedSlotBase) / 8 < Shape.maxFixedSlots

/-- An offset that an object may have a dynamic slot at. -/
def DynamicOffset (offset : Int32) : Prop :=
  0 ≤ offset.toInt ∧ offset.toInt % 8 = 0

theorem FixedOffset.exists_slot {offset : Int32} (fits : FixedOffset offset) (object : Object) :
    ∃ value, object.fixedSlotAt? offset = some value := by
  obtain ⟨nonnegative, aligned, bound⟩ := fits
  have small := offset.toInt_lt
  have index : fixedSlotIndex offset = (offset.toInt - fixedSlotBase).toNat / 8 :=
    slotIndex_eq nonnegative (by rw [fixedSlotBase]; omega)
  have inside : fixedSlotIndex offset < 8 := by
    rw [Shape.maxFixedSlots] at bound
    omega
  refine ⟨object.fixed[fixedSlotIndex offset], ?_⟩
  rw [fixedSlotAt?, if_neg (by omega), fixedSlot?, Vector.getElem?_eq_getElem inside]

theorem DynamicOffset.past_slots {offset : Int32} (fits : DynamicOffset offset) {object : Object}
    (missing : object.dynamicSlotAt? offset = none) :
    object.dynamic.size ≤ offset.toInt.toNat / 8 := by
  obtain ⟨nonnegative, aligned⟩ := fits
  have index : dynamicSlotIndex offset = offset.toInt.toNat / 8 :=
    slotIndex_eq nonnegative offset.toInt_lt
  rw [dynamicSlotAt?, if_neg (by omega), dynamicSlot?, index] at missing
  exact Array.getElem?_eq_none_iff.mp missing

end Object

/-- What may be read as a value of a type is boxed, or has a boxed form of that type. -/
theorem OperandValue.boxed_of_admits {stored : OperandValue} {type : ValueType}
    (admits : type.admits stored.kind = true) :
    (∃ value, stored.boxed? = some value) ∧ ∀ found, stored.payloadType? = some found → found = type := by
  rcases of_decide_eq_true admits with boxed | payload
  · cases stored with
    | boxed value => exact ⟨⟨value, rfl⟩, nofun⟩
    | ref kind => cases kind <;> cases boxed
    | boolean | int32 | intptr | valueTag => cases boxed
  · cases stored with
    | boxed | intptr | valueTag => cases payload
    | ref kind address =>
        refine ⟨⟨_, rfl⟩, fun found same => ?_⟩
        cases kind <;> cases same <;> cases payload <;> rfl
    | boolean | int32 =>
        refine ⟨⟨_, rfl⟩, fun found same => ?_⟩
        cases same
        cases payload
        rfl

/-- What code generation makes sure of in an operation, beside that its operands are defined: the words
of stub data have their types and fit, and an operand is of the type that is claimed of it. -/
def Op.Checked (data : StubData) (kinds : Kinds) : Op → Prop
  | ⟨.guardNonDoubleType, _, type, _⟩ => type ≠ .double
  | ⟨.guardShape, _, shape, _⟩ => ∃ word, data.wordOf? shape.offset .shape = .ok word
  | ⟨.guardProto, _, proto, _⟩ => ∃ word, data.wordOf? proto.offset .object = .ok word
  | ⟨.guardAnyClass, _, field, _⟩ | ⟨.hasClassResult, _, field, _⟩ =>
      ∃ word, data.wordOf? field.offset .descriptor = .ok word
  | ⟨.guardDynamicSlotValue, _, offset, value, _⟩ =>
      (∃ n, data.int32? offset.offset = .ok n ∧ Object.DynamicOffset n) ∧
        ∃ word, data.wordOf? value.offset .value = .ok word
  | ⟨.loadFixedSlotResult, _, offset, _⟩ =>
      ∃ n, data.int32? offset.offset = .ok n ∧ Object.FixedOffset n
  | ⟨.loadDynamicSlotResult, _, offset, _⟩ =>
      ∃ n, data.int32? offset.offset = .ok n ∧ Object.DynamicOffset n
  | ⟨.loadObject, field, _, _⟩ => ∃ word, data.wordOf? field.offset .object = .ok word ∧ word ≠ 0
  | ⟨.loadInt32Constant, field, _, _⟩ => ∃ n, data.int32? field.offset = .ok n
  | ⟨.loadTypedResult, input, _⟩ => kinds.Admits (input.id, input.type.admits)
  | _ => True

namespace EvalState

/-- The kinds of the operands that are defined. -/
def kinds (s : EvalState) : Kinds :=
  fun i => s.operands.slots[i]?.join.map OperandValue.kind

variable {s : EvalState} {i : Nat}

theorem kinds_of_stores {stored : OperandValue} (stores : s.Stores i stored) :
    s.kinds i = some stored.kind := by
  rw [kinds, show s.operands.slots[i]? = _ from stores]
  rfl

theorem exists_stores (defined : (s.kinds i).isSome = true) : ∃ stored, s.Stores i stored := by
  rw [kinds, Option.isSome_map] at defined
  obtain ⟨stored, found⟩ := Option.isSome_iff_exists.mp defined
  exact ⟨stored, Option.join_eq_some_iff.mp found⟩

/-- A slot of an operand that has no kind is empty. -/
theorem empty_of_kinds (bound : i < s.operands.slots.length) (undefined : s.kinds i = none) :
    s.operands.slots[i]? = some none := by
  cases slot : s.operands.slots[i]? with
  | none => exact absurd bound (Nat.not_lt.mpr (List.getElem?_eq_none_iff.mp slot))
  | some content =>
      cases content with
      | none => rfl
      | some stored => cases (kinds_of_stores slot).symm.trans undefined

theorem kinds_congr {t : EvalState} (same : t.operands = s.operands) : t.kinds = s.kinds := by
  funext i
  rw [kinds, kinds, same]

theorem get_of_stores {id : OperandId} {stored : OperandValue} (stores : s.Stores id.toNat stored) :
    s.operands.get id = .ok stored := by
  rw [Operands.get, show s.operands.slots[id.toNat]? = _ from stores]

/-- A slot that is empty can be filled. -/
theorem define_empty {id : OperandId} (value : OperandValue)
    (empty : s.operands.slots[id.toNat]? = some none) :
    s.operands.define id value = .ok ⟨s.operands.slots.set id.toNat (some value)⟩ := by
  rw [Operands.define, Operands.fill, empty]

theorem kinds_set {id : OperandId} (value : OperandValue)
    (bound : id.toNat < s.operands.slots.length) :
    kinds { s with operands := ⟨s.operands.slots.set id.toNat (some value)⟩ } =
      s.kinds.define id value.kind := by
  funext i
  rw [Kinds.define]
  split
  · rename_i own
    rw [kinds, own, List.getElem?_set_self bound]
    rfl
  · rename_i other
    rw [kinds, kinds, List.getElem?_set_ne (Ne.symm other)]

/-- How a run may end for a reason that lies in its values: it returns, bails out or raises, or it reads an
operand as something that it is not, or a slot that an object does not have. -/
inductive Tolerates (s : EvalState) : Except EvalError Outcome → Prop
  | returned (value : Value) : s.Tolerates (.ok (.returned value))
  | bailout : s.Tolerates (.ok .bailout)
  | exception : s.Tolerates (.ok .exception)
  | kindMismatch {id : OperandId} {stored : OperandValue} {expected : OperandKind}
      (stores : s.Stores id.toNat stored) (differs : expected.admits stored.kind = false) :
      s.Tolerates (.error (.kindMismatch id expected stored.kind))
  | notANumber {id : OperandId} {value : Value} (stores : s.Stores id.toNat (.boxed value))
      (other : value.number? = none) :
      s.Tolerates (.error (.malformed (.notANumber id value.valueType)))
  | pastSlots {id : OperandId} {object : Address} {offset : Int32}
      (stores : s.Stores id.toNat (.ref .object object)) (fits : Object.DynamicOffset offset)
      (past : (s.context.heap.objectAt object).dynamic.size ≤ offset.toInt.toNat / 8) :
      s.Tolerates (.error (.invalidSlotOffset offset))

end EvalState

end InlineCache
