import InlineCache.Code.Machine
import InlineCache.Emit.Use
import InlineCache.Stub.Data

/-!
The code of each operation.  A guard that can fail and a call that can raise branch to an exit path;
the branches inside an operation join again before it ends.
-/

namespace InlineCache

/-- What code generation depends on beside the operations. -/
structure EmitEnv where
  data : StubData
  config : CodeConfig

namespace Asm

/-- The exit path for a status and the registers that are saved at this point. -/
def exitPath (status : ExitStatus) : Asm Label :=
  modifyGet fun state =>
    let (label, exits, buffer) := state.exits.add state.buffer status state.allocation.saved
    (label, { state with exits, buffer })

def failurePath : Asm Label :=
  exitPath .bailout

def typedWord (env : EmitEnv) (field : Field) (type : FieldType) : Asm UInt64 :=
  match env.data.wordOf? field.offset type with
  | .ok word => return word
  | .error error => throw (.decode error)

def int32Word (env : EmitEnv) (field : Field) : Asm Int32 :=
  match env.data.int32? field.offset with
  | .ok n => return n
  | .error error => throw (.decode error)

/-- A word of stub data as a source: the word itself, or a register that it is loaded into. -/
def wordSource (env : EmitEnv) (field : Field) (word : UInt64) : Asm Source :=
  match env.config.policy with
  | .constant => return .imm word
  | .address => do
      let reg ← allocateRegister
      emit (.loadStubWord reg field.offset)
      return .reg reg

def fieldSource (env : EmitEnv) (field : Field) (type : FieldType) : Asm Source := do
  wordSource env field (← typedWord env field type)

def int32Source (env : EmitEnv) (field : Field) : Asm (Int32 × Source) := do
  let n ← int32Word env field
  return (n, ← wordSource env field (Word.ofInt32 n))

/-- Puts a word of stub data into a register. -/
def loadWord (env : EmitEnv) (dst : Register) (field : Field) (word : UInt64) : Asm Unit :=
  match env.config.policy with
  | .constant => emit (.movImm dst word)
  | .address => emit (.loadStubWord dst field.offset)

def releaseSource : Source → Asm Unit
  | .reg reg => releaseRegister reg
  | .imm _ => return ()

/-- The register to zero on the mispredicted path of a guard, if a later operation uses the object. -/
def zeroedRegister (env : EmitEnv) (object : OperandId) (reg : Register) :
    Asm (Option Register) := do
  return if env.config.spectre && (← allocation).usedLater object then some reg else none

def storeImm (value : Value) : Asm Unit := do
  let reg ← allocateRegister
  emit (.movImm reg value.bits)
  emit (.storeOutput reg)

def boxToOutput (src : Register) (type : PayloadType) : Asm Unit := do
  let reg ← allocateRegister
  emit (.boxPayload src reg type)
  emit (.storeOutput reg)

/-- Tests the tag of an operand unless it is proven, and takes it as proven from here on. -/
def guardType (input : OperandId) (type : ValueType) : Asm Register := do
  let known := (← allocation).knownType input
  let value ← useValueReg input
  if known ≠ some type then
    let fail ← failurePath
    emit (.branchTestType .notEqual value type fail)
    setKnownType input type
  return value

/-- Tests the tag of an operand, and defines the result as its payload in some form. -/
def guardPayload (input result : OperandId) (tag : ValueType) (held seen : PayloadType) :
    Asm Unit := do
  let value ← guardType input tag
  let dst ← definePayloadReg result held
  emit (.unboxPayload value dst seen)

/-- Converts an operand that is proven to be a double. -/
def knownDouble (input : OperandId) (convert : FloatRegister → Asm Unit) : Asm Unit := do
  let float ← useNumber input
  convert float
  releaseFloat float

/-- Converts a boxed double. -/
def doublePath (value : Register) (convert : FloatRegister → Asm Unit) : Asm Unit := do
  let float ← allocateFloat
  emit (.unboxDouble value float)
  convert float
  releaseFloat float

/-- Puts the payload of an int32 or the conversion of a double into a register, and leaves with a
status if the operand is neither. -/
def int32OrDouble (input : OperandId) (dst : Register) (nonNumber : ExitStatus)
    (convert : FloatRegister → Asm Unit) : Asm Unit := do
  if (← allocation).knownType input = some .double then knownDouble input convert
  else
    let value ← useValueReg input
    if (← allocation).knownType input = some .int32 then emit (.unboxPayload value dst .int32)
    else
      let notInt32 ← newLabel
      let done ← newLabel
      emit (.branchTestType .notEqual value .int32 notInt32)
      emit (.unboxPayload value dst .int32)
      emit (.jump done)
      emit (.bind notInt32)
      let fail ← exitPath nonNumber
      emit (.branchTestType .notEqual value .double fail)
      doublePath value convert
      emit (.bind done)

/-- Converts a double in a way that can fail. -/
def convertOrFail (inst : FloatRegister → Label → Inst) (float : FloatRegister) : Asm Unit := do
  let fail ← failurePath
  emit (inst float fail)

/-- Converts a double to an int64; one that is none becomes -1. -/
def convertOrMinusOne (dst : Register) (float : FloatRegister) : Asm Unit := do
  let outOfBounds ← newLabel
  let converted ← newLabel
  emit (.doubleToIntPtrExact float dst outOfBounds)
  emit (.jump converted)
  emit (.bind outOfBounds)
  emit (.movImm dst (Int64.toUInt64 (-1)))
  emit (.bind converted)

def guardNumberIndex (input : OperandId) (supportsOutOfBounds : Bool) (result : OperandId) :
    Asm Unit := do
  match (← allocation).payload? input with
  | some .int32 =>
      let src ← useRegister input
      let dst ← definePayloadReg result .intptr
      emit (.int32ToIntPtr src dst)
  | some type => reject (.numberHolds input type)
  | none =>
      let dst ← definePayloadReg result .intptr
      int32OrDouble input dst .malformed
        (if supportsOutOfBounds then convertOrMinusOne dst
        else convertOrFail fun float fail => .doubleToIntPtrExact float dst fail)

def guardClampedByte (input result : OperandId) : Asm Unit := do
  let dst ← definePayloadReg result .int32
  let convert : FloatRegister → Asm Unit := fun float => emit (.clampDoubleToUint8 float dst)
  if (← allocation).knownType input = some .double then knownDouble input convert
  else
    let value ← useValueReg input
    let done ← newLabel
    let isDouble ← newLabel
    emit (.branchTestType .notEqual value .int32 isDouble)
    emit (.unboxPayload value dst .int32)
    emit (.clampInt32ToUint8 dst)
    emit (.jump done)
    emit (.bind isDouble)
    let fail ← failurePath
    emit (.branchTestType .notEqual value .double fail)
    doublePath value convert
    emit (.bind done)

def guardNullish (input : OperandId) : Asm Unit := do
  let known := (← allocation).knownType input
  if known = some .null ∨ known = some .undefined then return ()
  else
    let value ← useValueReg input
    let ok ← newLabel
    let fail ← failurePath
    emit (.branchTestType .equal value .undefined ok)
    emit (.branchTestType .notEqual value .null fail)
    emit (.bind ok)

def guardNumber (input : OperandId) : Asm Unit := do
  let known := (← allocation).knownType input
  if known = some .int32 ∨ known = some .double then return ()
  else
    let value ← useValueReg input
    let fail ← failurePath
    emit (.branchTestNumber .notEqual value fail)

def imm (n : Nat) : Source :=
  .imm (UInt64.ofNat n)

/-- Loads a word of the shape of an object. -/
def loadShapeWord (object : Register) (displacement : Nat) : Asm Register := do
  let reg ← allocateRegister
  emit (.load64 reg object (imm layout.shape))
  emit (.load64 reg reg (imm displacement))
  return reg

def guardShape (env : EmitEnv) (object : OperandId) (shape : Field) : Asm Unit := do
  let reg ← useRegister object
  let expected ← fieldSource env shape .shape
  let scratch ← allocateRegister
  let fail ← failurePath
  emit (.branchTestShape .notEqual reg expected scratch (← zeroedRegister env object reg) fail)
  releaseRegister scratch
  releaseSource expected

/-- Compares a word of the shape of an object, and leaves if it differs. -/
def guardProto (object : OperandId) (proto : Asm Source) : Asm Unit := do
  let reg ← useRegister object
  let expected ← proto
  let actual ← loadShapeWord reg layout.shapeProto
  let fail ← failurePath
  emit (.branchPtr .notEqual actual expected fail)
  releaseRegister actual
  releaseSource expected

def guardClass (env : EmitEnv) (object : OperandId) (classWord : Source) : Asm Unit := do
  let reg ← useRegister object
  let scratch ← allocateRegister
  let fail ← failurePath
  emit (.branchTestClass .notEqual reg classWord scratch (← zeroedRegister env object reg) fail)
  releaseRegister scratch
  releaseSource classWord

def hasClass (env : EmitEnv) (object : OperandId) (field : Field) : Asm Unit := do
  let reg ← useRegister object
  let expected ← fieldSource env field .descriptor
  let actual ← loadShapeWord reg layout.shapeClass
  emit (.cmpSet .equal actual expected actual)
  emit (.boxPayload actual actual .boolean)
  emit (.storeOutput actual)

/-- Calls a helper with three payloads, and leaves if it has raised. -/
def callOut (helper : Helper) (a b c : OperandId) : Asm Unit := do
  let a ← useRegister a
  let b ← useRegister b
  let c ← useRegister c
  let dst ← allocateRegister
  let exception ← exitPath .exception
  modify fun state => { state with callsHelpers := true }
  emit (.callHelper helper a b c dst exception)
  emit (.storeOutput dst)

def regExpFlag (regExp : OperandId) (mask : Int32) : Asm Unit := do
  let reg ← useRegister regExp
  let flags ← allocateRegister
  emit (.load64 flags reg (imm (layout.fixedSlots + 8 * Heap.flagsSlot)))
  emit (.andImm flags mask.toUInt32.toUInt64)
  emit (.cmpSet .notEqual flags (imm 0) flags)
  boxToOutput flags .boolean

def checkFixedSlot (offset : Int32) : Asm Unit := do
  let relative := offset.toInt - Object.fixedSlotBase
  if relative < 0 ∨ relative % 8 ≠ 0 ∨ (Shape.maxFixedSlots : Int) ≤ relative / 8 then
    reject (.fixedSlotOffset offset)

def checkDynamicSlot (offset : Int32) : Asm Unit := do
  if offset.toInt < 0 ∨ offset.toInt % 8 ≠ 0 then reject (.dynamicSlotOffset offset)

def loadDynamicSlot (object : Register) (offset : Source) : Asm Register := do
  let reg ← allocateRegister
  emit (.load64 reg object (imm layout.slots))
  emit (.load64 reg reg offset)
  return reg

def guardDynamicSlot (env : EmitEnv) (object : OperandId) (offset value : Field) : Asm Unit := do
  let reg ← useRegister object
  let (n, offset) ← int32Source env offset
  checkDynamicSlot n
  let actual ← loadDynamicSlot reg offset
  releaseSource offset
  let expected ← fieldSource env value .value
  let fail ← failurePath
  emit (.branchPtr .notEqual actual expected fail)
  releaseRegister actual
  releaseSource expected

def loadFixedSlotResult (env : EmitEnv) (object : OperandId) (offset : Field) : Asm Unit := do
  let reg ← useRegister object
  let (n, offset) ← int32Source env offset
  checkFixedSlot n
  let value ← allocateRegister
  emit (.load64 value reg offset)
  emit (.storeOutput value)

def loadDynamicSlotResult (env : EmitEnv) (object : OperandId) (offset : Field) : Asm Unit := do
  let reg ← useRegister object
  let (n, offset) ← int32Source env offset
  checkDynamicSlot n
  let value ← loadDynamicSlot reg offset
  emit (.storeOutput value)

def loadObject (env : EmitEnv) (field : Field) (result : OperandId) : Asm Unit := do
  let word ← typedWord env field .object
  if word = 0 then reject (.nullObjectField field.offset)
  else
    let dst ← definePayloadReg result .object
    loadWord env dst field word

def loadInt32Constant (env : EmitEnv) (field : Field) (result : OperandId) : Asm Unit := do
  let n ← int32Word env field
  let dst ← definePayloadReg result .int32
  loadWord env dst field (Word.ofInt32 n)

def loadValueTag (input result : OperandId) : Asm Unit := do
  match (← allocation).knownType input with
  | some type =>
      let dst ← definePayloadReg result .valueTag
      emit (.movImm dst type.byte.toUInt64)
  | none =>
      let value ← useValueReg input
      let dst ← definePayloadReg result .valueTag
      emit (.loadValueTag value dst)

/-- The bytes of the two number tags are the least ones. -/
def guardTagNotEqual (lhs rhs : OperandId) : Asm Unit := do
  let lhs ← useRegister lhs
  let rhs ← useRegister rhs
  let fail ← failurePath
  let ok ← newLabel
  let lastNumberTag := imm ValueType.int32.byte.toNat
  emit (.branchPtr .equal lhs (.reg rhs) fail)
  emit (.branchPtr .above lhs lastNumberTag ok)
  emit (.branchPtr .belowOrEqual rhs lastNumberTag fail)
  emit (.bind ok)

def loadDenseElement (env : EmitEnv) (object index : OperandId) : Asm Unit := do
  let reg ← useRegister object
  let index ← useRegister index
  let length ← allocateRegister
  emit (.load32 length reg (Int32.ofNat layout.elementCount))
  let fail ← failurePath
  emit (.branch32 .aboveOrEqual index (.reg length) fail)
  if env.config.spectre then emit (.spectreMaskIndex index length length)
  let index := if env.config.spectre then length else index
  let value ← allocateRegister
  emit (.load64 value reg (imm layout.elements))
  emit (.loadIndexed64 value value index)
  emit (.branchPtr .equal value (.imm tagBits.hole) fail)
  emit (.storeOutput value)

def loadArrayLength (object : OperandId) : Asm Unit := do
  let reg ← useRegister object
  let length ← allocateRegister
  emit (.load32 length reg (Int32.ofNat layout.elementCount))
  let fail ← failurePath
  emit (.branch32 .above length (imm 0x7FFFFFFF) fail)
  emit (.boxPayload length length .int32)
  emit (.storeOutput length)

def loadIntPtrResult (input : OperandId) : Asm Unit := do
  let reg ← useRegister input
  let boxed ← allocateRegister
  let scratch ← allocateFloat
  emit (.boxIntPtr reg boxed scratch)
  releaseFloat scratch
  emit (.storeOutput boxed)

def loadTypedResult (input : TypedOperand) : Asm Unit := do
  match (← allocation).payload? input.id with
  | some type =>
      if type.valueType? ≠ some input.type then reject (.typeMismatch input.id input.type type)
      else
        let reg ← useRegister input.id
        boxToOutput reg type
  | none =>
      let value ← useValueReg input.id
      emit (.storeOutput value)

end Asm

open Asm in
/-- Emits the code of one operation. -/
def Op.emit (env : EmitEnv) : Op → Asm Unit
  | ⟨.returnFromIc, _⟩ => Asm.emit (.ret .returned)
  | ⟨.guardToObject, input, result, _⟩ => guardPayload input result .object .object .object
  | ⟨.guardIsNullOrUndefined, input, _⟩ => guardNullish input
  | ⟨.guardIsNull, input, _⟩ => discard (guardType input .null)
  | ⟨.guardIsUndefined, input, _⟩ => discard (guardType input .undefined)
  | ⟨.guardToBoolean, input, result, _⟩ => guardPayload input result .boolean .boolean .boolean
  | ⟨.guardToString, input, result, _⟩ => guardPayload input result .string .string .string
  | ⟨.guardToSymbol, input, result, _⟩ => guardPayload input result .symbol .symbol .symbol
  | ⟨.guardToBigInt, input, result, _⟩ => guardPayload input result .bigint .bigint .bigint
  | ⟨.guardIsNumber, input, _⟩ => guardNumber input
  | ⟨.guardToInt32, input, result, _⟩ => guardPayload input result .int32 .int32 .int32
  | ⟨.guardBooleanToInt32, input, result, _⟩ => guardPayload input result .boolean .int32 .boolean
  | ⟨.guardToInt32Index, input, result, _⟩ => do
      let dst ← definePayloadReg result .int32
      int32OrDouble input dst .bailout
        (convertOrFail fun float fail => .doubleToInt32Exact float dst fail)
  | ⟨.int32ToIntPtr, input, result, _⟩ => do
      let src ← useRegister input
      let dst ← definePayloadReg result .intptr
      Asm.emit (.int32ToIntPtr src dst)
  | ⟨.guardNumberToIntPtrIndex, input, supportsOutOfBounds, result, _⟩ =>
      guardNumberIndex input supportsOutOfBounds result
  | ⟨.guardToInt32ModUint32, input, result, _⟩ => do
      let dst ← definePayloadReg result .int32
      int32OrDouble input dst .bailout
        (convertOrFail fun float fail => .truncateDoubleModUint32 float dst fail)
  | ⟨.guardToUint8Clamped, input, result, _⟩ => guardClampedByte input result
  | ⟨.guardNonDoubleType, input, type, _⟩ =>
      if type = .double then reject .doubleTypeGuard else discard (guardType input type)
  | ⟨.guardShape, object, shape, _⟩ => guardShape env object shape
  | ⟨.guardProto, object, proto, _⟩ => guardProto object (fieldSource env proto .object)
  | ⟨.guardNullProto, object, _⟩ => guardProto object (return imm 0)
  | ⟨.guardClass, object, kind, _⟩ =>
      guardClass env object (.imm (Block.descriptor kind).address)
  | ⟨.guardAnyClass, object, field, _⟩ => do
      guardClass env object (← fieldSource env field .descriptor)
  | ⟨.hasClassResult, object, field, _⟩ => hasClass env object field
  | ⟨.callRegExpMatcherResult, regExp, input, lastIndex, _⟩ =>
      callOut .regExpMatcher regExp input lastIndex
  | ⟨.callRegExpSearcherResult, regExp, input, lastIndex, _⟩ =>
      callOut .regExpSearcher regExp input lastIndex
  | ⟨.callRegExpTesterResult, regExp, input, lastIndex, _⟩ =>
      callOut .regExpTester regExp input lastIndex
  | ⟨.regExpFlagResult, regExp, mask, _⟩ => regExpFlag regExp mask
  | ⟨.callSubstringKernelResult, string, start, length, _⟩ =>
      callOut .substringKernel string start length
  | ⟨.guardDynamicSlotValue, object, offset, value, _⟩ => guardDynamicSlot env object offset value
  | ⟨.loadFixedSlotResult, object, offset, _⟩ => loadFixedSlotResult env object offset
  | ⟨.loadDynamicSlotResult, object, offset, _⟩ => loadDynamicSlotResult env object offset
  | ⟨.loadObject, field, result, _⟩ => loadObject env field result
  | ⟨.loadInt32Constant, field, result, _⟩ => loadInt32Constant env field result
  | ⟨.loadValueTag, input, result, _⟩ => loadValueTag input result
  | ⟨.guardTagNotEqual, lhs, rhs, _⟩ => guardTagNotEqual lhs rhs
  | ⟨.loadDenseElementResult, object, index, _⟩ => loadDenseElement env object index
  | ⟨.loadInt32ArrayLengthResult, object, _⟩ => loadArrayLength object
  | ⟨.loadInt32Result, input, _⟩ => do boxToOutput (← useRegister input) .int32
  | ⟨.loadBooleanResult, b, _⟩ => storeImm (.ofBool b)
  | ⟨.loadUndefinedResult, _⟩ => storeImm .undefined
  | ⟨.loadObjectResult, object, _⟩ => do boxToOutput (← useRegister object) .object
  | ⟨.loadIntPtrResult, input, _⟩ => loadIntPtrResult input
  | ⟨.loadTypedResult, input, _⟩ => loadTypedResult input

end InlineCache
