import InlineCache.Proofs.Agreement
import InlineCache.Proofs.Tier.Routes

/-!
Tiering shows in no answer.  Whatever calls came before, a call on a stub that is not disabled answers
as an evaluation of the stub does, whichever tier the stub is in.
-/

namespace InlineCache

/-- An answer, with the context after it, shows an evaluation: it is the outcome, or an error if the
evaluation came upon a number that is none. -/
def EvalResult.ShownBy (result : EvalResult) (answer : Except ExecError Outcome × Execution) : Prop :=
  match result.ending with
  | .ok outcome => answer.1 = .ok outcome ∧ answer.2.context = result.state.context
  | .error (.malformed (.notANumber _ _)) => ∃ error, answer.1 = .error error
  | .error _ => True

namespace Execution

theorem context_tierUp (execution : Execution) : execution.tierUp.context = execution.context := by
  rw [tierUp]
  split
  · split <;> rfl
  · rfl

theorem context_heat (execution : Execution) : execution.heat.context = execution.context := by
  rw [heat]
  split
  · dsimp only
    split
    · exact context_tierUp _
    · rfl
  · rfl

theorem context_finishCompiled (execution : Execution) (outcome : Outcome) :
    (execution.finishCompiled outcome).context = execution.context := by
  rw [finishCompiled]
  dsimp only
  split
  · rw [coolDown]
    dsimp only
    split <;> rfl
  · rfl

variable {program : StubProgram} {data : StubData} {inputs : List Value} (execution : Execution)

theorem runInterpreted_shows (faithful : execution.stub.Faithful program data) (inputs : List Value) :
    (evaluate program data inputs execution.context).ShownBy (execution.runInterpreted inputs) := by
  rw [EvalResult.ShownBy, runInterpreted, faithful.sameProgram, faithful.sameData]
  cases ends : (evaluate program data inputs execution.context).ending with
  | ok outcome => exact ⟨rfl, context_heat _⟩
  | error error =>
      dsimp only
      split
      · rename_i impossible
        cases impossible
      · exact ⟨_, rfl⟩
      · trivial

theorem runCompiled_shows (faithful : execution.stub.Faithful program data)
    (extended : data.Extended) (objects : data.NamesObjects) (refer : ∀ v ∈ inputs, v.Refers)
    (count : inputs.length = program.inputCount.toNat) {owner : Nat} {code : CompiledStub}
    (compiled : execution.stub.compiled = some (owner, code)) :
    (evaluate program data inputs execution.context).ShownBy
      (execution.runCompiled code inputs) := by
  obtain ⟨config, compiles⟩ := faithful.compiled owner code compiled
  obtain ⟨summary, buffer, emits, insts, expected, types⟩ := compileStub_ok compiles
  have answers : (evaluate program data inputs execution.context).AnsweredBy
      (runCode ⟨inputs.map Value.bits, data.words⟩ buffer.insts.toList none
        (.start execution.context)) :=
    Setting.answers ⟨⟨data, config⟩, inputs, execution.context, extended, objects, refer⟩ count emits
  have executes := execute_of_compileStub compiles count execution.context
  rw [insts] at executes
  rw [EvalResult.AnsweredBy] at answers
  rw [EvalResult.ShownBy, runCompiled, faithful.sameData, executes]
  cases ends : (evaluate program data inputs execution.context).ending with
  | ok outcome =>
      rw [ends] at answers
      cases outcome with
      | returned v =>
          obtain ⟨m, run, output, context⟩ := answers
          rw [run]
          refine ⟨?_, (context_finishCompiled _ _).trans context⟩
          exact congrArg (fun w => Except.ok (Outcome.returned ⟨w⟩)) output
      | bailout =>
          obtain ⟨m, run, context⟩ := answers
          rw [run]
          exact ⟨rfl, (context_finishCompiled _ _).trans context⟩
      | exception =>
          obtain ⟨m, run, context⟩ := answers
          rw [run]
          exact ⟨rfl, (context_finishCompiled _ _).trans context⟩
      | unsupportedOp => cases answers
  | error error =>
      rw [ends] at answers
      dsimp only
      split
      · rename_i impossible
        cases impossible
      · rename_i id type same
        cases same
        obtain ⟨m, run, -⟩ := answers
        rw [run]
        exact ⟨_, rfl⟩
      · trivial

/-- A run of a stub that is not disabled shows the evaluation of the stub. -/
theorem run_shows (faithful : execution.stub.Faithful program data)
    (extended : data.Extended) (objects : data.NamesObjects) (refer : ∀ v ∈ inputs, v.Refers)
    (count : inputs.length = program.inputCount.toNat) (enabled : execution.stub.tier ≠ .disabled) :
    (evaluate program data inputs execution.context).ShownBy (execution.run inputs) := by
  rw [run_route]
  cases route : execution.route inputs with
  | rejected => exact (route_rejected route (faithful.sameProgram ▸ count)).elim
  | skipped => exact (enabled (route_skipped route)).elim
  | interpreted =>
      exact runInterpreted_shows ⟨execution.runtime, _, execution.context⟩ faithful.taken inputs
  | native code =>
      exact runCompiled_shows execution faithful extended objects refer count
        (route_native route).2.2

theorem run_disabled
    (count : inputs.length = execution.stub.program.inputCount.toNat)
    (disabled : execution.stub.tier = .disabled) : execution.run inputs = (.ok .bailout, execution) := by
  rw [run]
  dsimp only
  rw [if_neg (fun differs => differs count), disabled]

end Execution

/-- After any history of calls, a call with the right number of inputs shows the evaluation of the
stub, or bails out of a disabled stub with nothing changed; one with another number fails with nothing
changed. -/
theorem tiering_is_transparent (options : Nat → RuntimeOptions)
    (stubs : Nat → StubProgram × StubData) (history : List Call) (call : Call)
    (extended : (stubs call.stub).2.Extended) (objects : (stubs call.stub).2.NamesObjects)
    (refer : ∀ v ∈ call.inputs, v.Refers) :
    let program := (stubs call.stub).1
    let fleet := (Fleet.start options stubs).after history
    let answer := fleet.answer call
    let tier := (fleet.stubs call.stub).tier
    (call.inputs.length = program.inputCount.toNat → tier ≠ .disabled →
      (evaluate program (stubs call.stub).2 call.inputs call.context).ShownBy answer) ∧
    (call.inputs.length = program.inputCount.toNat → tier = .disabled →
      answer.1 = .ok .bailout ∧ answer.2.context = call.context) ∧
    (call.inputs.length ≠ program.inputCount.toNat →
      answer.1 = .error (.inputCount program.inputCount.toNat call.inputs.length) ∧
        answer.2.context = call.context) := by
  intro program fleet answer tier
  have faithful : (fleet.stubs call.stub).Faithful program (stubs call.stub).2 :=
    Fleet.faithful_after (.new _ _) history
  refine ⟨fun count enabled => ?_, fun count disabled => ?_, fun differs => ?_⟩
  · exact Execution.run_shows ⟨fleet.runtimes call.runtime, fleet.stubs call.stub, call.context⟩
      faithful extended objects refer count enabled
  · rw [← faithful.sameProgram] at count
    have bails := Execution.run_disabled
      ⟨fleet.runtimes call.runtime, fleet.stubs call.stub, call.context⟩ count disabled
    exact ⟨congrArg Prod.fst bails, congrArg (·.2.context) bails⟩
  · rw [← faithful.sameProgram] at differs
    have fails := Execution.run_inputCount
      ⟨fleet.runtimes call.runtime, fleet.stubs call.stub, call.context⟩ differs
    rw [show (fleet.stubs call.stub).program = program from faithful.sameProgram] at fails
    exact ⟨congrArg Prod.fst fails, congrArg (·.2.context) fails⟩

/-- Both calls find the stub compiled: by the runtime itself, and by another one. -/
theorem tiering_is_transparent_once_compiled :
    let fleet := (Fleet.start (fun _ => { RuntimeOptions.default with hotThreshold := 1 })
      fun _ => (Sample.program, Sample.data)).after [⟨0, 0, Sample.inputs, ⟨Sample.heap, none⟩⟩]
    Sample.data.Extended ∧ Sample.data.NamesObjects ∧ (∀ v ∈ Sample.inputs, v.Refers) ∧
      (fleet.stubs 0).tier = .compiled ∧
      ∀ runtime ∈ [0, 1],
        (evaluate Sample.program Sample.data Sample.inputs ⟨Sample.heap, none⟩).ShownBy
          (fleet.answer ⟨runtime, 0, Sample.inputs, ⟨Sample.heap, none⟩⟩) := by
  have compiled : (((Fleet.start (fun _ => { RuntimeOptions.default with hotThreshold := 1 })
      fun _ => (Sample.program, Sample.data)).after
        [⟨0, 0, Sample.inputs, ⟨Sample.heap, none⟩⟩]).stubs 0).tier = .compiled := by decide +kernel
  refine ⟨Sample.extended, Sample.namesObjects, Sample.refer, compiled, fun runtime _ => ?_⟩
  have shows := tiering_is_transparent (fun _ => { RuntimeOptions.default with hotThreshold := 1 })
    (fun _ => (Sample.program, Sample.data)) [⟨0, 0, Sample.inputs, ⟨Sample.heap, none⟩⟩]
    ⟨runtime, 0, Sample.inputs, ⟨Sample.heap, none⟩⟩ Sample.extended Sample.namesObjects
    Sample.refer
  refine shows.1 rfl fun disabled => ?_
  cases compiled.symm.trans disabled

/-- A disabled stub does not bail out of a call with too few inputs. -/
theorem disabled_stub_rejects_wrong_count :
    let stub : StubProgram := ⟨[10, 0, 1, 38, 1, 0], 2, 1⟩
    let fleet := (Fleet.start
      (fun _ => { RuntimeOptions.default with hotThreshold := 1, bailoutLimit := 1 })
      fun _ => (stub, .empty)).after
        [⟨0, 0, [.ofInt32 1], .empty⟩, ⟨0, 0, [.undefined], .empty⟩]
    (fleet.stubs 0).tier = .disabled ∧
      (fleet.answer ⟨0, 0, [], .empty⟩).1.toOption ≠ some .bailout := by
  decide +kernel

end InlineCache
