import InlineCache.Op.Basic
import InlineCache.Stub.Error

/-!
What can be wrong with a program that is evaluated.  A guard that fails and a call that raises are no
errors but ways to leave the program.
-/

namespace InlineCache

/-- Why an operation makes no sense. -/
inductive Misuse
  | doubleTypeGuard
  | nullObjectField (offset : Nat)
  | notANumber (operand : OperandId) (type : ValueType)
  | typeMismatch (operand : OperandId) (claimed found : ValueType)
  | noBoxedForm (operand : OperandId)
  deriving DecidableEq, Repr

def Misuse.message : Misuse → String
  | .doubleTypeGuard => "GuardNonDoubleType with type double"
  | .nullObjectField offset => s!"null object field at offset {offset}"
  | .notANumber operand type => s!"operand {operand} read as number holds {type.name}"
  | .typeMismatch operand claimed found =>
      s!"operand {operand} typed {claimed.name} holds {found.name}"
  | .noBoxedForm operand => s!"operand {operand} has no boxed form"

inductive EvalError
  | decode (error : StubError)
  | kindMismatch (operand : OperandId) (expected found : OperandKind)
  | uninitialized (operand : OperandId)
  | redefined (operand : OperandId)
  | operandOutOfRange (operand : OperandId) (count : Nat)
  | inputCount (expected found : Nat)
  | invalidSlotOffset (offset : Int32)
  | malformed (misuse : Misuse)
  deriving DecidableEq, Repr

/-- The name of the cause. -/
def EvalError.label : EvalError → String
  | .decode _ => "Decode"
  | .kindMismatch _ _ _ => "KindMismatch"
  | .uninitialized _ => "Uninitialized"
  | .redefined _ => "Redefined"
  | .operandOutOfRange _ _ => "OperandOutOfRange"
  | .inputCount _ _ => "InputCount"
  | .invalidSlotOffset _ => "InvalidSlotOffset"
  | .malformed _ => "Malformed"

def EvalError.message : EvalError → String
  | .decode error => "Decode error: " ++ error.message
  | .kindMismatch operand expected found =>
      s!"Operand {operand}: expected {expected.name}, found {found.name}"
  | .uninitialized operand => s!"Operand {operand} read before definition"
  | .redefined operand => s!"Operand {operand} defined twice"
  | .operandOutOfRange operand count => s!"Operand {operand} out of range (num_operands={count})"
  | .inputCount expected found => s!"Expected {expected} inputs, got {found}"
  | .invalidSlotOffset offset => "Invalid slot offset " ++ toString offset.toInt
  | .malformed misuse => "Malformed op: " ++ misuse.message

end InlineCache
