import InlineCache.Eval.Step
import InlineCache.Stub.Program

/-!
Running a program from its inputs: the operations are read one by one as they are needed, so that what
stands behind the end of a run is never looked at.
-/

namespace InlineCache

namespace Eval

/-- Reads and carries out operations until one of them stops the run, which something always does. -/
def fromCursor (data : StubData) (cursor : Cursor) : Eval Empty :=
  match _h : Op.read cursor with
  | (.ok op, next) => do
      op.eval data
      fromCursor data next
  | (.error (.unknownOpcode _), _) => stop .unsupportedOp
  | (.error error, _) => fail (.decode error)
termination_by cursor.rest.length
decreasing_by exact Op.read_rest_lt (by assumption)

/-- Defines the first operands as the inputs. -/
def defineInputs : Nat → List Value → Eval Unit
  | _, [] => return ()
  | index, input :: inputs => do
      define (UInt8.ofNat index) (.boxed input)
      defineInputs (index + 1) inputs

end Eval

/-- What a run leaves: how it ended, and its last state. -/
structure EvalResult where
  ending : Except EvalError Outcome
  state : EvalState

/-- Evaluates a program on its inputs. -/
def evaluate (program : StubProgram) (data : StubData) (inputs : List Value) (context : Context) :
    EvalResult :=
  let start : EvalState :=
    { operands := .empty program.operandCount.toNat
      output := .undefined
      context }
  if inputs.length ≠ program.inputCount.toNat then
    ⟨.error (.inputCount program.inputCount.toNat inputs.length), start⟩
  else
    let body : Eval Empty := do
      Eval.defineInputs 0 inputs
      Eval.fromCursor data (.start program.code)
    match body start with
    | (.error (.outcome outcome), state) => ⟨.ok outcome, state⟩
    | (.error (.error error), state) => ⟨.error error, state⟩

end InlineCache
