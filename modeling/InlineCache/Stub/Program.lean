import InlineCache.Op.Cursor

/-!
Stub programs: code bytes with the numbers of inputs and operands that they declare.
-/

namespace InlineCache

structure StubProgram where
  code : List UInt8
  operandCount : UInt16
  inputCount : UInt8
  deriving DecidableEq, Repr

/-- The operations from a cursor up to the first terminal one or the end of the code. -/
def Cursor.ops (cursor : Cursor) : Except StubError (List Op) :=
  if cursor.atEnd then .ok []
  else
    match _h : Op.read cursor with
    | (.error error, _) => .error error
    | (.ok op, next) =>
        if op.isTerminal then .ok [op]
        else
          match next.ops with
          | .ok ops => .ok (op :: ops)
          | .error error => .error error
termination_by cursor.rest.length
decreasing_by exact Op.read_rest_lt (by assumption)

def StubProgram.ops (program : StubProgram) : Except StubError (List Op) :=
  (Cursor.start program.code).ops

end InlineCache
