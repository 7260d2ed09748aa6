import InlineCache.Code.Inst
import InlineCache.Op.Basic
import InlineCache.Stub.Error

/-!
Why a stub cannot be compiled, or its code cannot be run.
-/

namespace InlineCache

/-- A defect of the stub, of its code or of the call that runs it. -/
inductive Defect
  | inputsExceedOperands (inputs operands : Nat)
  | operandUndeclared (op : Nat) (operand : OperandId) (count : Nat)
  | operandOutOfRange (operand : OperandId) (count : Nat)
  | doubleTypeGuard
  | nullObjectField (offset : Nat)
  | numberHolds (operand : OperandId) (type : PayloadType)
  | typeMismatch (operand : OperandId) (claimed : ValueType) (found : PayloadType)
  | noBoxedForm (type : PayloadType)
  | fixedSlotOffset (offset : Int32)
  | dynamicSlotOffset (offset : Int32)
  | labelNotCreated (label : Label)
  | labelBoundTwice (label : Label)
  | labelNotBound (label : Label)
  | openEnd
  | registerOutside (index : Nat)
  | floatRegisterOutside (index : Nat)
  | slotOutside (index : Nat)
  | saveOutside (index : Nat)
  | fieldOffset (offset : Nat)
  | loadOffset (offset : Int64)
  | tagCondition (cond : Cond)
  | helperMissing (helper : Helper)
  | inputCount (expected found : Nat)
  | layoutDiffers
  | wrongOperandKind
  deriving DecidableEq, Repr

def Defect.message : Defect → String
  | .inputsExceedOperands inputs operands => s!"{inputs} inputs but only {operands} operands"
  | .operandUndeclared op operand count => s!"op {op} names operand {operand} of {count}"
  | .operandOutOfRange operand count => s!"operand {operand} out of range (len={count})"
  | .doubleTypeGuard => "GuardNonDoubleType with type double"
  | .nullObjectField offset => s!"null object field at offset {offset}"
  | .numberHolds operand type => s!"operand {operand} read as number holds {type.label}"
  | .typeMismatch operand claimed found =>
      s!"operand {operand} typed {claimed.name} holds {found.label}"
  | .noBoxedForm type => s!"{type.label} has no boxed form"
  | .fixedSlotOffset offset => "invalid fixed slot offset " ++ toString offset.toInt
  | .dynamicSlotOffset offset => "invalid dynamic slot offset " ++ toString offset.toInt
  | .labelNotCreated label => s!"label {label} was never created"
  | .labelBoundTwice label => s!"label {label} bound twice"
  | .labelNotBound label => s!"label {label} is never bound"
  | .openEnd => "stub falls off its end"
  | .registerOutside index => s!"register {index} outside the frame"
  | .floatRegisterOutside index => s!"float register {index} outside the frame"
  | .slotOutside index => s!"spill slot {index} outside the frame"
  | .saveOutside index => s!"float save slot {index} outside the frame"
  | .fieldOffset offset => s!"stub field offset {offset}"
  | .loadOffset offset => "load offset " ++ toString offset.toInt
  | .tagCondition cond => s!"tag test with condition {cond.label}"
  | .helperMissing helper => s!"runtime helper {helper.symbolName} is not registered"
  | .inputCount expected found => s!"expected {expected} inputs, got {found}"
  | .layoutDiffers => "stub data layout differs from the compiled layout"
  | .wrongOperandKind => "compiled stub read an operand of the wrong kind"

/-- A broken rule about the places of operands. -/
inductive Violation
  | definedTwice (operand : OperandId)
  | notLive (operand : OperandId)
  | tagNotProven (operand : OperandId)
  | noBoxedForm (operand : OperandId) (type : PayloadType)
  | holdsDouble (operand : OperandId)
  | numberHolds (operand : OperandId) (type : PayloadType)
  | registerShared (reg : Register) (operand : Nat)
  | slotOutOfRange (slot : Nat)
  | slotShared (slot operand : Nat)
  | scratchShared (reg : Register)
  | floatRegisterShared (reg : FloatRegister) (operand : Nat)
  | floatScratchFree (reg : FloatRegister)
  deriving DecidableEq, Repr

def Violation.message : Violation → String
  | .definedTwice operand => s!"operand {operand} defined twice"
  | .notLive operand => s!"operand {operand} used before its definition or after its last use"
  | .tagNotProven operand => s!"operand {operand} unboxed without a guard proving its tag"
  | .noBoxedForm operand type => s!"operand {operand} holds {type.label}, which has no boxed form"
  | .holdsDouble operand => s!"operand {operand} holds a double, not a payload"
  | .numberHolds operand type => s!"operand {operand} read as number holds {type.label}"
  | .registerShared reg operand => s!"register {reg.name} of operand {operand} is aliased or free"
  | .slotOutOfRange slot => s!"spill slot {slot} out of range"
  | .slotShared slot operand => s!"spill slot {slot} of operand {operand} is aliased or free"
  | .scratchShared reg => s!"scratch register {reg.name} is also bound or free"
  | .floatRegisterShared reg operand =>
      s!"float register {reg.name} of operand {operand} is aliased, scratch or free"
  | .floatScratchFree reg => s!"scratch float register {reg.name} is also free"

inductive CodeError
  | unsupportedOp (index : Nat) (opcode : UInt8)
  | exhausted (op : Option Nat)
  | invariant (violation : Violation)
  | malformed (defect : Defect)
  | decode (error : StubError)
  deriving DecidableEq, Repr

/-- The name of the cause. -/
def CodeError.label : CodeError → String
  | .unsupportedOp _ _ => "UnsupportedOp"
  | .exhausted _ => "AllocatorExhausted"
  | .invariant _ => "AllocatorInvariant"
  | .malformed _ => "Malformed"
  | .decode _ => "Decode"

/-- Two hexadecimal digits. -/
def hexByte (b : UInt8) : String :=
  String.ofList [Nat.digitChar (b.toNat / 16), Nat.digitChar (b.toNat % 16)]

def CodeError.message : CodeError → String
  | .unsupportedOp index opcode => s!"unsupported op at index {index}: opcode 0x" ++ hexByte opcode
  | .exhausted (some op) => s!"register allocator exhausted at op Some({op})"
  | .exhausted none => "register allocator exhausted at op None"
  | .invariant violation => "register allocator invariant violated: " ++ violation.message
  | .malformed defect => "malformed stub: " ++ defect.message
  | .decode error => "decode error: " ++ error.message

end InlineCache
