import InlineCache.Emit.Stub
import InlineCache.Eval.Run
import InlineCache.Tier.Options

/-!
Running stubs in tiers: a cold stub is interpreted, a hot one is compiled, and one that keeps bailing
out is given up.
-/

namespace InlineCache

inductive ExecError
  | inputCount (expected found : Nat)
  | interpreter (error : EvalError)
  | code (error : CodeError)
  /-- Compiled code has read where there is nothing. -/
  | fault
  deriving DecidableEq, Repr

/-- The name of the cause. -/
def ExecError.label : ExecError → String
  | .inputCount _ _ => "InputCount"
  | .interpreter _ => "Interpreter"
  | .code _ | .fault => "Jit"

def ExecError.message : ExecError → String
  | .inputCount expected found => s!"expected {expected} inputs, got {found}"
  | .interpreter error => "interpreter error: " ++ error.message
  | .code error => "compiled stub error: " ++ error.message
  | .fault => "compiled stub read outside the heap"

inductive Tier
  | interpreted
  | compiled
  | interpreterOnly
  | disabled
  deriving DecidableEq, Repr

def Tier.name : Tier → String
  | .interpreted => "interpreted"
  | .compiled => "compiled"
  | .interpreterOnly => "interpreter-only"
  | .disabled => "disabled"

/-- A stub with what is known of its runs.  Compiled code belongs to the runtime that made it. -/
structure TieredStub where
  program : StubProgram
  data : StubData
  tier : Tier
  interpretedRuns : UInt32
  consecutiveBailouts : UInt32
  compiled : Option (Nat × CompiledStub)
  deriving DecidableEq, Repr

def TieredStub.new (program : StubProgram) (data : StubData) : TieredStub :=
  { program, data, tier := .interpreted, interpretedRuns := 0, consecutiveBailouts := 0,
    compiled := none }

structure RuntimeStats where
  interpretedRuns : UInt64
  compiledRuns : UInt64
  compileSuccesses : UInt64
  compileErrors : UInt64
  bailouts : UInt64
  exceptions : UInt64
  disabledStubs : UInt64
  deriving DecidableEq, Repr

def RuntimeStats.zero : RuntimeStats := ⟨0, 0, 0, 0, 0, 0, 0⟩

def RuntimeStats.counters (stats : RuntimeStats) : List UInt64 :=
  [stats.interpretedRuns, stats.compiledRuns, stats.compileSuccesses, stats.compileErrors,
    stats.bailouts, stats.exceptions, stats.disabledStubs]

structure Runtime where
  /-- Tells runtimes apart. -/
  id : Nat
  options : RuntimeOptions
  stats : RuntimeStats
  deriving DecidableEq, Repr

def Runtime.new (id : Nat) (options : RuntimeOptions) : Runtime :=
  ⟨id, options, .zero⟩

/-- One more, up to the greatest number. -/
def saturatingSucc32 (n : UInt32) : UInt32 :=
  if n = 0xFFFFFFFF then n else n + 1

def saturatingSucc64 (n : UInt64) : UInt64 :=
  if n = 0xFFFFFFFFFFFFFFFF then n else n + 1

namespace RuntimeStats

def countOutcome (stats : RuntimeStats) : Outcome → RuntimeStats
  | .bailout => { stats with bailouts := saturatingSucc64 stats.bailouts }
  | .exception => { stats with exceptions := saturatingSucc64 stats.exceptions }
  | .returned _ | .unsupportedOp => stats

end RuntimeStats

/-- The parties of an execution. -/
structure Execution where
  runtime : Runtime
  stub : TieredStub
  context : Context

namespace Execution

def modifyStats (execution : Execution) (f : RuntimeStats → RuntimeStats) : Execution :=
  { execution with runtime.stats := f execution.runtime.stats }

/-- Compiles the stub, which stays in the interpreter for good if that fails. -/
def tierUp (execution : Execution) : Execution :=
  let stub := execution.stub
  if execution.runtime.options.jitEnabled then
    match compileStub Helper.all execution.runtime.options.code stub.program stub.data with
    | .ok compiled =>
        { execution with
          stub := { stub with
            compiled := some (execution.runtime.id, compiled)
            consecutiveBailouts := 0
            tier := .compiled } }.modifyStats
          fun stats => { stats with compileSuccesses := saturatingSucc64 stats.compileSuccesses }
    | .error _ =>
        { execution with stub := { stub with tier := .interpreterOnly } }.modifyStats
          fun stats => { stats with compileErrors := saturatingSucc64 stats.compileErrors }
  else execution

/-- Counts a run of the interpreter, after which the stub may be hot. -/
def heat (execution : Execution) : Execution :=
  if execution.stub.tier = .interpreted then
    let runs := saturatingSucc32 execution.stub.interpretedRuns
    let execution := { execution with stub.interpretedRuns := runs }
    if execution.runtime.options.hotThreshold ≤ runs then execution.tierUp else execution
  else execution

def runInterpreted (execution : Execution) (inputs : List Value) :
    Except ExecError Outcome × Execution :=
  let result :=
    evaluate execution.stub.program execution.stub.data inputs execution.context
  let execution := { execution with context := result.state.context }
  match result.ending with
  | .error error => (.error (.interpreter error), execution)
  | .ok outcome =>
      let execution := execution.modifyStats fun stats =>
        { stats with interpretedRuns := saturatingSucc64 stats.interpretedRuns }.countOutcome
          outcome
      (.ok outcome, execution.heat)

/-- Counts a bailout of compiled code, after which the stub may be given up. -/
def coolDown (execution : Execution) : Execution :=
  let bailouts := saturatingSucc32 execution.stub.consecutiveBailouts
  let execution := { execution with stub.consecutiveBailouts := bailouts }
  if execution.runtime.options.bailoutLimit ≤ bailouts then
    { execution with stub := { execution.stub with compiled := none, tier := .disabled } }.modifyStats
      fun stats => { stats with disabledStubs := saturatingSucc64 stats.disabledStubs }
  else execution

def finishCompiled (execution : Execution) (outcome : Outcome) : Execution :=
  let execution := execution.modifyStats (·.countOutcome outcome)
  if outcome = .bailout then execution.coolDown
  else { execution with stub.consecutiveBailouts := 0 }

def runCompiled (execution : Execution) (compiled : CompiledStub) (inputs : List Value) :
    Except ExecError Outcome × Execution :=
  match compiled.execute execution.context inputs execution.stub.data with
  | .error error => (.error (.code error), execution)
  | .ok none => (.error .fault, execution)
  | .ok (some (status, value, context)) =>
      let execution := { execution with context }.modifyStats fun stats =>
        { stats with compiledRuns := saturatingSucc64 stats.compiledRuns }
      match status with
      | .returned => (.ok (.returned value), execution.finishCompiled (.returned value))
      | .bailout => (.ok .bailout, execution.finishCompiled .bailout)
      | .exception => (.ok .exception, execution.finishCompiled .exception)
      | .malformed => (.error (.code (.malformed .wrongOperandKind)), execution)

/-- Runs the stub in its tier.  Code that another runtime has made is dropped. -/
def run (execution : Execution) (inputs : List Value) : Except ExecError Outcome × Execution :=
  let expected := execution.stub.program.inputCount.toNat
  if inputs.length ≠ expected then (.error (.inputCount expected inputs.length), execution)
  else
    match execution.stub.tier with
    | .disabled => (.ok .bailout, execution)
    | .interpreted | .interpreterOnly => execution.runInterpreted inputs
    | .compiled =>
        match execution.stub.compiled with
        | some (owner, compiled) =>
            if owner = execution.runtime.id then execution.runCompiled compiled inputs
            else
              { execution with stub := { execution.stub with
                compiled := none, interpretedRuns := 0, tier := .interpreted } }.runInterpreted
                  inputs
        | none =>
            { execution with stub := { execution.stub with
              interpretedRuns := 0, tier := .interpreted } }.runInterpreted inputs

end Execution

end InlineCache
