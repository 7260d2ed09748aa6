import InlineCache.Eval.State

/-!
What each operation does to a running program.
-/

namespace InlineCache

namespace Object

/-- The value of the fixed slot at a byte offset into the object. -/
def fixedSlotAt? (object : Object) (offset : Int32) : Option Value :=
  let relative := offset.toInt - fixedSlotBase
  if relative < 0 ∨ relative % 8 ≠ 0 then none
  else object.fixedSlot? (fixedSlotIndex offset)

/-- The value of the dynamic slot at a byte offset into the slots. -/
def dynamicSlotAt? (object : Object) (offset : Int32) : Option Value :=
  if offset.toInt < 0 ∨ offset.toInt % 8 ≠ 0 then none
  else object.dynamicSlot? (dynamicSlotIndex offset)

end Object

namespace Value

/-- The int32 that a number is, for use as an index. -/
def index? (v : Value) : Option Int32 :=
  match v.int32? with
  | some n => some n
  | none => v.double?.bind Double.int32?

/-- The int32 congruent to the integer part of a number. -/
def modUInt32? (v : Value) : Option Int32 :=
  match v.int32? with
  | some n => some n
  | none => (v.double?.bind Double.truncateInt64?).map Int64.toInt32

/-- The nearest byte to a number. -/
def clampedByte? (v : Value) : Option Int32 :=
  match v.int32? with
  | some n => some (clampInt32 n)
  | none => v.double?.map Double.clampByte

def ofIntPtr (n : Int64) : Value :=
  if -0x80000000 ≤ n.toInt ∧ n.toInt < 0x80000000 then ofInt32 n.toInt32 else ofDouble (.ofInt n.toInt)

end Value

namespace Eval

/-- Defines the result as the cell of a value that refers to a cell of the given kind. -/
def guardRef (kind : RefKind) (input result : OperandId) : Eval Unit := do
  let address ← guardSome ((← use Operands.value input).ref? kind)
  define result (.ref kind address)

/-- Defines the result as what is seen of a value. -/
def guardView (view : Value → Option α) (make : α → OperandValue) (input result : OperandId) :
    Eval Unit := do
  let a ← guardSome (view (← use Operands.value input))
  define result (make a)

def guardValue (test : Value → Bool) (input : OperandId) : Eval Unit := do
  guardThat (test (← use Operands.value input))

/-- Whether the class of an object is the one that a field names. -/
def classMatches (data : StubData) (object : OperandId) (field : Field) : Eval Bool := do
  let (_, object) ← objectOf object
  let word ← fieldWord data field .descriptor
  return (Block.descriptor ((← heap).shapeOf object).classKind).address = word

def callRegExp (call : Address → Address → Int32 → Heap → Except RuntimeError (Value × Heap))
    (regExp input lastIndex : OperandId) : Eval Unit := do
  let regExp ← use (·.cell .object) regExp
  let input ← use (·.cell .string) input
  let lastIndex ← use Operands.int32 lastIndex
  callOut (call regExp input lastIndex)

def slotAt (slot? : Object → Int32 → Option Value) (object : Object) (offset : Int32) :
    Eval Value :=
  match slot? object offset with
  | some value => return value
  | none => fail (.invalidSlotOffset offset)

def loadSlot (data : StubData) (slot? : Object → Int32 → Option Value) (object : OperandId)
    (offset : Field) : Eval Unit := do
  let (_, object) ← objectOf object
  let offset ← fieldInt32 data offset
  setOutput (← slotAt slot? object offset)

end Eval

open Eval in
/-- Carries out one operation. -/
def Op.eval (data : StubData) : Op → Eval Unit
  | ⟨.returnFromIc, _⟩ => do stop (.returned (← get).output)
  | ⟨.guardToObject, input, result, _⟩ => guardRef .object input result
  | ⟨.guardIsNullOrUndefined, input, _⟩ => guardValue Value.isNullOrUndefined input
  | ⟨.guardIsNull, input, _⟩ => guardValue Value.isNull input
  | ⟨.guardIsUndefined, input, _⟩ => guardValue Value.isUndefined input
  | ⟨.guardToBoolean, input, result, _⟩ => guardView Value.boolean? .boolean input result
  | ⟨.guardToString, input, result, _⟩ => guardRef .string input result
  | ⟨.guardToSymbol, input, result, _⟩ => guardRef .symbol input result
  | ⟨.guardToBigInt, input, result, _⟩ => guardRef .bigint input result
  | ⟨.guardIsNumber, input, _⟩ => guardValue Value.isNumber input
  | ⟨.guardToInt32, input, result, _⟩ => guardView Value.int32? .int32 input result
  | ⟨.guardBooleanToInt32, input, result, _⟩ =>
      guardView Value.boolean? (fun b => .int32 (if b then 1 else 0)) input result
  | ⟨.guardToInt32Index, input, result, _⟩ => guardView Value.index? .int32 input result
  | ⟨.int32ToIntPtr, input, result, _⟩ => do
      define result (.intptr (← use Operands.int32 input).toInt64)
  | ⟨.guardNumberToIntPtrIndex, input, supportsOutOfBounds, result, _⟩ => do
      match (← use Operands.number input).int64? with
      | some n => define result (.intptr n)
      | none => if supportsOutOfBounds then define result (.intptr (-1)) else bail
  | ⟨.guardToInt32ModUint32, input, result, _⟩ => guardView Value.modUInt32? .int32 input result
  | ⟨.guardToUint8Clamped, input, result, _⟩ => guardView Value.clampedByte? .int32 input result
  | ⟨.guardNonDoubleType, input, type, _⟩ =>
      if type = .double then fail (.malformed .doubleTypeGuard)
      else guardValue (fun value => value.valueType = type) input
  | ⟨.guardShape, object, shape, _⟩ => do
      let (_, object) ← objectOf object
      let expected ← fieldWord data shape .shape
      guardThat ((Block.shape object.shape).address = expected)
  | ⟨.guardProto, object, proto, _⟩ => do
      let (_, object) ← objectOf object
      let expected ← fieldWord data proto .object
      guardThat (((← heap).shapeOf object).protoAddress = expected)
  | ⟨.guardNullProto, object, _⟩ => do
      let (_, object) ← objectOf object
      guardThat ((← heap).shapeOf object).proto.isNone
  | ⟨.guardClass, object, kind, _⟩ => do
      let (_, object) ← objectOf object
      guardThat (((← heap).shapeOf object).classKind = kind)
  | ⟨.guardAnyClass, object, field, _⟩ => do guardThat (← classMatches data object field)
  | ⟨.hasClassResult, object, field, _⟩ => do
      setOutput (.ofBool (← classMatches data object field))
  | ⟨.callRegExpMatcherResult, regExp, input, lastIndex, _⟩ =>
      callRegExp Heap.regExpMatcher regExp input lastIndex
  | ⟨.callRegExpSearcherResult, regExp, input, lastIndex, _⟩ =>
      callRegExp Heap.regExpSearcher regExp input lastIndex
  | ⟨.callRegExpTesterResult, regExp, input, lastIndex, _⟩ =>
      callRegExp Heap.regExpTester regExp input lastIndex
  | ⟨.regExpFlagResult, regExp, mask, _⟩ => do
      let (_, object) ← objectOf regExp
      let flags := (object.fixedSlot? Heap.flagsSlot).elim 0 (·.bits.toUInt32.toInt32)
      setOutput (.ofBool (flags &&& mask ≠ 0))
  | ⟨.callSubstringKernelResult, string, start, length, _⟩ => do
      let string ← use (·.cell .string) string
      let start ← use Operands.int32 start
      let length ← use Operands.int32 length
      callOut (Heap.substringKernel string start length)
  | ⟨.guardDynamicSlotValue, object, offset, value, _⟩ => do
      let (_, object) ← objectOf object
      let offset ← fieldInt32 data offset
      let expected ← fieldWord data value .value
      guardThat ((← slotAt Object.dynamicSlotAt? object offset).bits = expected)
  | ⟨.loadFixedSlotResult, object, offset, _⟩ => loadSlot data Object.fixedSlotAt? object offset
  | ⟨.loadDynamicSlotResult, object, offset, _⟩ =>
      loadSlot data Object.dynamicSlotAt? object offset
  | ⟨.loadObject, field, result, _⟩ => do
      let word ← fieldWord data field .object
      if word = 0 then fail (.malformed (.nullObjectField field.offset))
      else define result (.ref .object word)
  | ⟨.loadInt32Constant, field, result, _⟩ => do define result (.int32 (← fieldInt32 data field))
  | ⟨.loadValueTag, input, result, _⟩ => do
      define result (.valueTag (← use Operands.value input).valueType)
  | ⟨.guardTagNotEqual, lhs, rhs, _⟩ => do
      let lhs ← use Operands.valueTag lhs
      let rhs ← use Operands.valueTag rhs
      guardThat (lhs ≠ rhs && !(lhs.isNumber && rhs.isNumber))
  | ⟨.loadDenseElementResult, object, index, _⟩ => do
      let (_, object) ← objectOf object
      let index := (← use Operands.int32 index).toUInt32
      if object.elementCount ≤ index then bail
      else
        let value ← guardSome (object.element? index.toNat)
        if value.isHole then bail else setOutput value
  | ⟨.loadInt32ArrayLengthResult, object, _⟩ => do
      let (_, object) ← objectOf object
      if object.elementCount.toNat < 0x80000000 then
        setOutput (.ofInt32 object.elementCount.toInt32)
      else bail
  | ⟨.loadInt32Result, input, _⟩ => do setOutput (.ofInt32 (← use Operands.int32 input))
  | ⟨.loadBooleanResult, b, _⟩ => setOutput (.ofBool b)
  | ⟨.loadUndefinedResult, _⟩ => setOutput .undefined
  | ⟨.loadObjectResult, object, _⟩ => do
      setOutput (.ofRef .object (← use (·.cell .object) object))
  | ⟨.loadIntPtrResult, input, _⟩ => do setOutput (.ofIntPtr (← use Operands.intptr input))
  | ⟨.loadTypedResult, input, _⟩ => do
      let stored ← use Operands.get input.id
      match stored.payloadType? with
      | some found =>
          if found ≠ input.type then
            fail (.malformed (.typeMismatch input.id input.type found))
      | none => pure ()
      match stored.boxed? with
      | some value => setOutput value
      | none => fail (.malformed (.noBoxedForm input.id))

end InlineCache
