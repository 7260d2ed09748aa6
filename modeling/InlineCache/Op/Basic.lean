import InlineCache.Kind

/-!
The operations of stub programs.  An opcode has a signature, which lists its arguments in wire order
and says which operand, if any, the operation defines; an operation is an opcode with arguments of
that signature.
-/

namespace InlineCache

abbrev OperandId := UInt8

/-- A word of stub data, named by its index. -/
structure Field where
  index : UInt8
  deriving DecidableEq, Repr

/-- The byte offset of the word. -/
def Field.offset (field : Field) : Nat :=
  8 * field.index.toNat

/-- An operand together with the type of value that it is claimed to hold. -/
structure TypedOperand where
  id : OperandId
  type : ValueType
  deriving DecidableEq, Repr

/-- The parameters of an operation. -/
inductive Param
  | use (kind : OperandKind)
  | result (kind : OperandKind)
  | typed
  | field
  | flag
  | int32
  | valueType
  | classKind
  deriving DecidableEq, Repr

@[reducible] def Param.Arg : Param → Type
  | .use _ | .result _ => OperandId
  | .typed => TypedOperand
  | .field => Field
  | .flag => Bool
  | .int32 => Int32
  | .valueType => ValueType
  | .classKind => ClassKind

@[reducible] def Args : List Param → Type
  | [] => Unit
  | param :: params => param.Arg × Args params

inductive Opcode
  | returnFromIc
  | guardToObject
  | guardIsNullOrUndefined
  | guardIsNull
  | guardIsUndefined
  | guardToBoolean
  | guardToString
  | guardToSymbol
  | guardToBigInt
  | guardIsNumber
  | guardToInt32
  | guardBooleanToInt32
  | guardToInt32Index
  | int32ToIntPtr
  | guardNumberToIntPtrIndex
  | guardToInt32ModUint32
  | guardToUint8Clamped
  | guardNonDoubleType
  | guardShape
  | guardProto
  | guardNullProto
  | guardClass
  | guardAnyClass
  | hasClassResult
  | callRegExpMatcherResult
  | callRegExpSearcherResult
  | callRegExpTesterResult
  | regExpFlagResult
  | callSubstringKernelResult
  | guardDynamicSlotValue
  | loadFixedSlotResult
  | loadDynamicSlotResult
  | loadObject
  | loadInt32Constant
  | loadValueTag
  | guardTagNotEqual
  | loadDenseElementResult
  | loadInt32ArrayLengthResult
  | loadInt32Result
  | loadBooleanResult
  | loadUndefinedResult
  | loadObjectResult
  | loadIntPtrResult
  | loadTypedResult
  deriving DecidableEq, Repr

namespace Opcode

/-- The opcodes in the order of their bytes. -/
def all : List Opcode :=
  [.returnFromIc, .guardToObject, .guardIsNullOrUndefined, .guardIsNull, .guardIsUndefined,
    .guardToBoolean, .guardToString, .guardToSymbol, .guardToBigInt, .guardIsNumber, .guardToInt32,
    .guardBooleanToInt32, .guardToInt32Index, .int32ToIntPtr, .guardNumberToIntPtrIndex,
    .guardToInt32ModUint32, .guardToUint8Clamped, .guardNonDoubleType, .guardShape, .guardProto,
    .guardNullProto, .guardClass, .guardAnyClass, .hasClassResult, .callRegExpMatcherResult,
    .callRegExpSearcherResult, .callRegExpTesterResult, .regExpFlagResult,
    .callSubstringKernelResult, .guardDynamicSlotValue, .loadFixedSlotResult,
    .loadDynamicSlotResult, .loadObject, .loadInt32Constant, .loadValueTag, .guardTagNotEqual,
    .loadDenseElementResult, .loadInt32ArrayLengthResult, .loadInt32Result, .loadBooleanResult,
    .loadUndefinedResult, .loadObjectResult, .loadIntPtrResult, .loadTypedResult]

def byte (opcode : Opcode) : UInt8 :=
  UInt8.ofNat (all.idxOf opcode)

def ofByte? (b : UInt8) : Option Opcode :=
  all[b.toNat]?

@[simp] theorem ofByte?_byte (opcode : Opcode) : ofByte? opcode.byte = some opcode := by
  cases opcode <;> rfl

theorem byte_of_ofByte? {b : UInt8} {opcode : Opcode} (h : ofByte? b = some opcode) :
    opcode.byte = b := by
  have nodup : all.Nodup := by decide
  obtain ⟨hb, rfl⟩ := List.getElem?_eq_some_iff.mp h
  rw [byte, nodup.idxOf_getElem]
  simp

def name : Opcode → String
  | .returnFromIc => "ReturnFromIc"
  | .guardToObject => "GuardToObject"
  | .guardIsNullOrUndefined => "GuardIsNullOrUndefined"
  | .guardIsNull => "GuardIsNull"
  | .guardIsUndefined => "GuardIsUndefined"
  | .guardToBoolean => "GuardToBoolean"
  | .guardToString => "GuardToString"
  | .guardToSymbol => "GuardToSymbol"
  | .guardToBigInt => "GuardToBigInt"
  | .guardIsNumber => "GuardIsNumber"
  | .guardToInt32 => "GuardToInt32"
  | .guardBooleanToInt32 => "GuardBooleanToInt32"
  | .guardToInt32Index => "GuardToInt32Index"
  | .int32ToIntPtr => "Int32ToIntPtr"
  | .guardNumberToIntPtrIndex => "GuardNumberToIntPtrIndex"
  | .guardToInt32ModUint32 => "GuardToInt32ModUint32"
  | .guardToUint8Clamped => "GuardToUint8Clamped"
  | .guardNonDoubleType => "GuardNonDoubleType"
  | .guardShape => "GuardShape"
  | .guardProto => "GuardProto"
  | .guardNullProto => "GuardNullProto"
  | .guardClass => "GuardClass"
  | .guardAnyClass => "GuardAnyClass"
  | .hasClassResult => "HasClassResult"
  | .callRegExpMatcherResult => "CallRegExpMatcherResult"
  | .callRegExpSearcherResult => "CallRegExpSearcherResult"
  | .callRegExpTesterResult => "CallRegExpTesterResult"
  | .regExpFlagResult => "RegExpFlagResult"
  | .callSubstringKernelResult => "CallSubstringKernelResult"
  | .guardDynamicSlotValue => "GuardDynamicSlotValue"
  | .loadFixedSlotResult => "LoadFixedSlotResult"
  | .loadDynamicSlotResult => "LoadDynamicSlotResult"
  | .loadObject => "LoadObject"
  | .loadInt32Constant => "LoadInt32Constant"
  | .loadValueTag => "LoadValueTag"
  | .guardTagNotEqual => "GuardTagNotEqual"
  | .loadDenseElementResult => "LoadDenseElementResult"
  | .loadInt32ArrayLengthResult => "LoadInt32ArrayLengthResult"
  | .loadInt32Result => "LoadInt32Result"
  | .loadBooleanResult => "LoadBooleanResult"
  | .loadUndefinedResult => "LoadUndefinedResult"
  | .loadObjectResult => "LoadObjectResult"
  | .loadIntPtrResult => "LoadIntPtrResult"
  | .loadTypedResult => "LoadTypedResult"

def ofName? (name : String) : Option Opcode :=
  all.find? (·.name = name)

/-- The one opcode that ends a program. -/
def isTerminal (opcode : Opcode) : Bool :=
  opcode = .returnFromIc

def signature : Opcode → List Param
  | .returnFromIc => []
  | .guardToObject => [.use .value, .result .object]
  | .guardIsNullOrUndefined => [.use .value]
  | .guardIsNull => [.use .value]
  | .guardIsUndefined => [.use .value]
  | .guardToBoolean => [.use .value, .result .boolean]
  | .guardToString => [.use .value, .result .string]
  | .guardToSymbol => [.use .value, .result .symbol]
  | .guardToBigInt => [.use .value, .result .bigint]
  | .guardIsNumber => [.use .value]
  | .guardToInt32 => [.use .value, .result .int32]
  | .guardBooleanToInt32 => [.use .value, .result .int32]
  | .guardToInt32Index => [.use .value, .result .int32]
  | .int32ToIntPtr => [.use .int32, .result .intptr]
  | .guardNumberToIntPtrIndex => [.use .number, .flag, .result .intptr]
  | .guardToInt32ModUint32 => [.use .value, .result .int32]
  | .guardToUint8Clamped => [.use .value, .result .int32]
  | .guardNonDoubleType => [.use .value, .valueType]
  | .guardShape => [.use .object, .field]
  | .guardProto => [.use .object, .field]
  | .guardNullProto => [.use .object]
  | .guardClass => [.use .object, .classKind]
  | .guardAnyClass => [.use .object, .field]
  | .hasClassResult => [.use .object, .field]
  | .callRegExpMatcherResult => [.use .object, .use .string, .use .int32]
  | .callRegExpSearcherResult => [.use .object, .use .string, .use .int32]
  | .callRegExpTesterResult => [.use .object, .use .string, .use .int32]
  | .regExpFlagResult => [.use .object, .int32]
  | .callSubstringKernelResult => [.use .string, .use .int32, .use .int32]
  | .guardDynamicSlotValue => [.use .object, .field, .field]
  | .loadFixedSlotResult => [.use .object, .field]
  | .loadDynamicSlotResult => [.use .object, .field]
  | .loadObject => [.field, .result .object]
  | .loadInt32Constant => [.field, .result .int32]
  | .loadValueTag => [.use .value, .result .valueTag]
  | .guardTagNotEqual => [.use .valueTag, .use .valueTag]
  | .loadDenseElementResult => [.use .object, .use .int32]
  | .loadInt32ArrayLengthResult => [.use .object]
  | .loadInt32Result => [.use .int32]
  | .loadBooleanResult => [.flag]
  | .loadUndefinedResult => []
  | .loadObjectResult => [.use .object]
  | .loadIntPtrResult => [.use .intptr]
  | .loadTypedResult => [.typed]

end Opcode

structure Op where
  opcode : Opcode
  args : Args opcode.signature

/-- The operands that an argument mentions. -/
def Param.operands : (param : Param) → param.Arg → List OperandId
  | .use _, id | .result _, id => [id]
  | .typed, operand => [operand.id]
  | .field, _ | .flag, _ | .int32, _ | .valueType, _ | .classKind, _ => []

def Args.operands : (params : List Param) → Args params → List OperandId
  | [], _ => []
  | param :: params, (arg, args) => param.operands arg ++ Args.operands params args

/-- The operands that an operation mentions, in argument order. -/
def Op.operands (op : Op) : List OperandId :=
  Args.operands op.opcode.signature op.args

def Op.isTerminal (op : Op) : Bool :=
  op.opcode.isTerminal

end InlineCache
