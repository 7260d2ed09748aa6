import InlineCache.Kind

/-!
What can be wrong with the bytes of a stub program, with a read of its data, or with a program under
construction.
-/

namespace InlineCache

inductive StubError
  | unknownOpcode (byte : UInt8)
  | unexpectedEnd (offset : Nat)
  | invalidValueType (byte : UInt8)
  | invalidClassKind (byte : UInt8)
  | fieldOutOfBounds (offset : Nat) (length : Nat)
  | fieldTypeMismatch (offset : Nat) (expected found : FieldType)
  | tooManyOperands
  | missingTerminal
  deriving DecidableEq, Repr

/-- The name of the cause. -/
def StubError.label : StubError → String
  | .unknownOpcode _ => "UnknownOpcode"
  | .unexpectedEnd _ => "UnexpectedEnd"
  | .invalidValueType _ => "InvalidValueType"
  | .invalidClassKind _ => "InvalidGuardClassKind"
  | .fieldOutOfBounds _ _ => "FieldOutOfBounds"
  | .fieldTypeMismatch _ _ _ => "FieldTypeMismatch"
  | .tooManyOperands => "TooManyOperands"
  | .missingTerminal => "MissingTerminal"

def StubError.message : StubError → String
  | .unknownOpcode byte => s!"Unknown opcode: {byte}"
  | .unexpectedEnd offset => s!"Unexpected end of stub program at offset {offset}"
  | .invalidValueType byte => s!"Invalid value type: {byte}"
  | .invalidClassKind byte => s!"Invalid guard class kind: {byte}"
  | .fieldOutOfBounds offset length =>
      s!"Stub field offset {offset} out of bounds (len={length})"
  | .fieldTypeMismatch offset expected found =>
      s!"Stub field at offset {offset} has type {found.label}, expected {expected.label}"
  | .tooManyOperands => "Too many operands or stub fields"
  | .missingTerminal => "Stub program does not end with ReturnFromIc"

end InlineCache
