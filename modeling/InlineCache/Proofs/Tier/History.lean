import InlineCache.Tier.Runtime

/-!
Histories of calls.  Any runtime may be called on any stub, in any order, each time with inputs and a
context of its own; what was compiled for a stub stays code of its program.
-/

namespace InlineCache

/-- Runtimes and stubs, known by their numbers. -/
structure Fleet where
  runtimes : Nat → Runtime
  stubs : Nat → TieredStub

/-- A call of a runtime on a stub. -/
structure Call where
  runtime : Nat
  stub : Nat
  inputs : List Value
  context : Context

namespace Fleet

/-- Runtimes that have run nothing, and stubs that were never run. -/
def start (options : Nat → RuntimeOptions) (stubs : Nat → StubProgram × StubData) : Fleet where
  runtimes r := .new r (options r)
  stubs s := .new (stubs s).1 (stubs s).2

/-- What a call answers, and the parties to it as it leaves them. -/
def answer (fleet : Fleet) (call : Call) : Except ExecError Outcome × Execution :=
  Execution.run ⟨fleet.runtimes call.runtime, fleet.stubs call.stub, call.context⟩ call.inputs

def call (fleet : Fleet) (call : Call) : Fleet :=
  let execution := (fleet.answer call).2
  { runtimes := fun r => if r = call.runtime then execution.runtime else fleet.runtimes r
    stubs := fun s => if s = call.stub then execution.stub else fleet.stubs s }

/-- Calls, one after the other. -/
def after (fleet : Fleet) (calls : List Call) : Fleet :=
  calls.foldl Fleet.call fleet

end Fleet

/-- Compiled code is what is emitted for the stub. -/
theorem compileStub_ok {helpers : List Helper} {config : CodeConfig} {program : StubProgram}
    {data : StubData} {compiled : CompiledStub}
    (compiles : compileStub helpers config program data = .ok compiled) :
    ∃ summary buffer, emitStub program data config = .ok (summary, buffer) ∧
      compiled.code = buffer.insts.toList ∧ compiled.inputCount = program.inputCount.toNat ∧
      compiled.fieldTypes = data.types := by
  rw [compileStub] at compiles
  cases emits : emitStub program data config with
  | error error =>
      rw [emits] at compiles
      cases compiles
  | ok emitted =>
      rw [emits] at compiles
      simp only [bind, Except.bind] at compiles
      split at compiles
      · cases compiles
        exact ⟨emitted.1, emitted.2, rfl, rfl, rfl, rfl⟩
      · cases compiles

/-- Code runs on the data that it was compiled for, given the inputs that it expects. -/
theorem execute_of_compileStub {helpers : List Helper} {config : CodeConfig}
    {program : StubProgram} {data : StubData} {compiled : CompiledStub} {inputs : List Value}
    (compiles : compileStub helpers config program data = .ok compiled)
    (count : inputs.length = program.inputCount.toNat) (context : Context) :
    compiled.execute context inputs data =
      .ok ((runCode ⟨inputs.map Value.bits, data.words⟩ compiled.code none (.start context)).map
        fun exit => (exit.1, ⟨exit.2.output⟩, exit.2.context)) := by
  obtain ⟨summary, buffer, emits, insts, expected, types⟩ := compileStub_ok compiles
  rw [CompiledStub.execute, expected, types]
  rw [if_neg (fun differs => differs count), if_neg (fun differs => differs rfl)]

/-- The stub is one of a program with its data, and what was compiled for it is code of them. -/
structure TieredStub.Faithful (program : StubProgram) (data : StubData) (stub : TieredStub) :
    Prop where
  sameProgram : stub.program = program
  sameData : stub.data = data
  compiled : ∀ owner code, stub.compiled = some (owner, code) →
    ∃ config, compileStub Helper.all config program data = .ok code

namespace TieredStub.Faithful

variable {program : StubProgram} {data : StubData} {stub : TieredStub}

theorem new (program : StubProgram) (data : StubData) : (TieredStub.new program data).Faithful program data :=
  ⟨rfl, rfl, fun _ _ impossible => nomatch impossible⟩

/-- Tiers and counters say nothing of the code. -/
theorem retier (faithful : stub.Faithful program data) (tier : Tier) (runs bailouts : UInt32) :
    { stub with tier, interpretedRuns := runs, consecutiveBailouts := bailouts }.Faithful program
      data :=
  ⟨faithful.sameProgram, faithful.sameData, faithful.compiled⟩

/-- Code may be dropped. -/
theorem drop (faithful : stub.Faithful program data) (tier : Tier) (runs : UInt32) :
    { stub with compiled := none, interpretedRuns := runs, tier }.Faithful program data :=
  ⟨faithful.sameProgram, faithful.sameData, fun _ _ impossible => nomatch impossible⟩

end TieredStub.Faithful

end InlineCache
