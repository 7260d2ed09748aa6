import InlineCache.Code.Check
import InlineCache.Emit.Aliasing
import InlineCache.Emit.Op
import InlineCache.Stub.Program

/-!
Compiling a stub: its operations are read, the code of each is emitted in turn, the exit paths follow,
and the code is checked before it is run.
-/

namespace InlineCache

/-- The operations of a program up to its terminal one; the index counts those before. -/
def Cursor.terminatedOps (cursor : Cursor) (index : Nat) : Except CodeError (List Op) :=
  if cursor.atEnd then .error (.decode .missingTerminal)
  else
    match _h : Op.read cursor with
    | (.error (.unknownOpcode opcode), _) => .error (.unsupportedOp index opcode)
    | (.error error, _) => .error (.decode error)
    | (.ok op, next) =>
        if op.isTerminal then .ok [op]
        else
          match next.terminatedOps (index + 1) with
          | .ok ops => .ok (op :: ops)
          | .error error => .error error
termination_by cursor.rest.length
decreasing_by exact Op.read_rest_lt (by assumption)

def StubProgram.terminatedOps (program : StubProgram) : Except CodeError (List Op) :=
  (Cursor.start program.code).terminatedOps 0

/-- What is known of emitted code. -/
structure EmitSummary where
  ops : Nat
  exitPaths : Nat
  slots : Nat
  saves : Nat
  callsHelpers : Bool
  deriving DecidableEq, Repr

namespace Asm

/-- Makes undefined the output, and loads the inputs. -/
def prologue (inputCount : Nat) : Asm Unit := do
  let reg ← allocateRegister
  emit (.movImm reg Value.undefined.bits)
  emit (.storeOutput reg)
  releaseRegister reg
  defineInputs inputCount

def checkAliasing : Asm Unit := do
  match (← allocation).checkAliasing with
  | .ok () => return ()
  | .error violation => violate violation

def emitOp (env : EmitEnv) (op : Op × Nat) : Asm Unit := do
  beginOp op.2
  op.1.emit env
  checkAliasing

def body (env : EmitEnv) (inputCount : Nat) (ops : List Op) : Asm Unit := do
  prologue inputCount
  ops.zipIdx.forM (emitOp env)

end Asm

def Assembler.summary (state : Assembler) (ops : Nat) : EmitSummary :=
  { ops
    exitPaths := state.exits.length
    slots := state.allocation.slotCount
    saves := state.allocation.saveCount
    callsHelpers := state.callsHelpers }

/-- The code of a stub. -/
def emitStub (program : StubProgram) (data : StubData) (config : CodeConfig) :
    Except CodeError (EmitSummary × CodeBuffer) := do
  let ops ← program.terminatedOps
  let inputs := program.inputCount.toNat
  let operands := program.operandCount.toNat
  if operands < inputs then throw (.malformed (.inputsExceedOperands inputs operands))
  let allocation ← Allocation.start ops operands config
  match Asm.body ⟨data, config⟩ inputs ops (.start allocation) with
  | (.error error, _) => throw error
  | (.ok (), state) => return (state.summary ops.length, state.exits.emit state.buffer)

structure CompiledStub where
  code : List Inst
  inputCount : Nat
  fieldTypes : List FieldType
  summary : EmitSummary
  deriving DecidableEq, Repr

/-- Emits the code of a stub, and checks it against the helpers that can be called. -/
def compileStub (helpers : List Helper) (config : CodeConfig) (program : StubProgram)
    (data : StubData) : Except CodeError CompiledStub := do
  let (summary, buffer) ← emitStub program data config
  let frame : Frame :=
    { registers := config.generalRegisters.toNat
      floatRegisters := config.floatRegisters.toNat
      slots := summary.slots
      saves := summary.saves
      labels := buffer.labels
      helpers }
  match frame.check buffer.insts.toList with
  | .ok () =>
      return {
        code := buffer.insts.toList
        inputCount := program.inputCount.toNat
        fieldTypes := data.types
        summary }
  | .error defect => throw (.malformed defect)

namespace CompiledStub

/-- Runs compiled code on inputs and stub data of the layout that it was compiled for: how it ended,
what it put out, and the context after it.  Nothing is the result of code that reads where there is
nothing, which guards keep it from. -/
def execute (stub : CompiledStub) (context : Context) (inputs : List Value) (data : StubData) :
    Except CodeError (Option (ExitStatus × Value × Context)) :=
  if inputs.length ≠ stub.inputCount then
    .error (.malformed (.inputCount stub.inputCount inputs.length))
  else if data.types ≠ stub.fieldTypes then .error (.malformed .layoutDiffers)
  else
    let entry : Entry := ⟨inputs.map Value.bits, data.words⟩
    .ok ((runCode entry stub.code none (.start context)).map fun (status, machine) =>
      (status, ⟨machine.output⟩, machine.context))

end CompiledStub

end InlineCache
