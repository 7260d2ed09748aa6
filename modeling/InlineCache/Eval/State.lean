import InlineCache.CallOut
import InlineCache.Eval.Operand
import InlineCache.Stub.Data

/-!
The state of a running program, and the ways in which a run ends.
-/

namespace InlineCache

inductive Outcome
  | returned (value : Value)
  | bailout
  | exception
  | unsupportedOp
  deriving DecidableEq, Repr

def Outcome.name : Outcome → String
  | .returned _ => "return"
  | .bailout => "bailout"
  | .exception => "exception"
  | .unsupportedOp => "unsupported-op"

structure EvalState where
  operands : Operands
  output : Value
  context : Context

/-- Why a run goes no further. -/
inductive Stop
  | outcome (outcome : Outcome)
  | error (error : EvalError)
  deriving DecidableEq, Repr

/-- A stretch of a run.  What it did to the state stays done when it stops. -/
abbrev Eval := ExceptT Stop (StateM EvalState)

namespace Eval

def stop (outcome : Outcome) : Eval α :=
  throw (.outcome outcome)

def fail (error : EvalError) : Eval α :=
  throw (.error error)

def bail : Eval α :=
  stop .bailout

def guardThat (passed : Bool) : Eval Unit :=
  if passed then return () else bail

/-- The content of an option; nothing is a guard that fails. -/
def guardSome : Option α → Eval α
  | some a => return a
  | none => bail

def ofExcept : Except EvalError α → Eval α
  | .ok a => return a
  | .error error => fail error

/-- Reads an operand. -/
def use (read : Operands → OperandId → Except EvalError α) (id : OperandId) : Eval α := do
  ofExcept (read (← get).operands id)

def define (id : OperandId) (value : OperandValue) : Eval Unit := do
  let operands ← ofExcept ((← get).operands.define id value)
  modify fun state => { state with operands }

def setOutput (output : Value) : Eval Unit :=
  modify fun state => { state with output }

def heap : Eval Heap :=
  return (← get).context.heap

def objectOf (id : OperandId) : Eval (Address × Object) := do
  let address ← use (·.cell .object) id
  return (address, (← heap).objectAt address)

/-- A word of the stub data, which must have the given type. -/
def fieldWord (data : StubData) (field : Field) (type : FieldType) : Eval UInt64 :=
  match data.wordOf? field.offset type with
  | .ok word => return word
  | .error error => fail (.decode error)

def fieldInt32 (data : StubData) (field : Field) : Eval Int32 :=
  match data.int32? field.offset with
  | .ok n => return n
  | .error error => fail (.decode error)

/-- Makes a call that can raise, and takes what it answers as the output. -/
def callOut (call : Heap → Except RuntimeError (Value × Heap)) : Eval Unit := do
  let (answer, context) := (← get).context.catching call
  modify fun state => { state with context }
  match answer with
  | some value => setOutput value
  | none => stop .exception

end Eval

end InlineCache
