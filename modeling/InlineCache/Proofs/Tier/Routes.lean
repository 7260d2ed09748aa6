import InlineCache.Proofs.Tier.History

/-!
Everything that a call can come to.  A call is rejected, skipped, interpreted, or run in native code,
and each way ends in one of a few endings, with an answer, a stub and statistics of its own.
-/

namespace InlineCache

/-- How a call is dealt with. -/
inductive Route
  | rejected
  | skipped
  | interpreted
  | native (code : CompiledStub)
  deriving DecidableEq

def Route.isNative : Route → Bool
  | .native _ => true
  | .rejected | .skipped | .interpreted => false

namespace TieredStub

/-- The stub as the interpreter takes it, which has no use for code. -/
def taken (stub : TieredStub) : TieredStub :=
  if stub.tier = .compiled then
    { stub with compiled := none, interpretedRuns := 0, tier := .interpreted }
  else stub

@[simp] theorem taken_program (stub : TieredStub) : stub.taken.program = stub.program := by
  rw [taken]
  split <;> rfl

@[simp] theorem taken_data (stub : TieredStub) : stub.taken.data = stub.data := by
  rw [taken]
  split <;> rfl

theorem taken_tier (stub : TieredStub) : stub.taken.tier ≠ .compiled := by
  rw [taken]
  split
  · simp
  · assumption

theorem taken_cases (stub : TieredStub) :
    stub.taken.tier = .interpreted ∨ stub.taken.tier = stub.tier := by
  rw [taken]
  split
  · exact .inl rfl
  · exact .inr rfl

theorem taken_enabled {stub : TieredStub} (enabled : stub.tier ≠ .disabled) :
    stub.taken.tier ≠ .disabled := by
  rcases stub.taken_cases with interpreted | same
  · rw [interpreted]
    exact nofun
  · rwa [same]

theorem taken_eq {stub : TieredStub} (other : stub.tier ≠ .compiled) : stub.taken = stub :=
  if_neg other

/-- The stub after one more run of the interpreter. -/
def heated (stub : TieredStub) : TieredStub :=
  if stub.tier = .interpreted then
    { stub with interpretedRuns := saturatingSucc32 stub.interpretedRuns }
  else stub

@[simp] theorem heated_program (stub : TieredStub) : stub.heated.program = stub.program := by
  rw [heated]
  split <;> rfl

@[simp] theorem heated_data (stub : TieredStub) : stub.heated.data = stub.data := by
  rw [heated]
  split <;> rfl

@[simp] theorem heated_tier (stub : TieredStub) : stub.heated.tier = stub.tier := by
  rw [heated]
  split <;> rfl

@[simp] theorem heated_compiled (stub : TieredStub) : stub.heated.compiled = stub.compiled := by
  rw [heated]
  split <;> rfl

theorem heated_runs {stub : TieredStub} (interpreted : stub.tier = .interpreted) :
    stub.heated.interpretedRuns = saturatingSucc32 stub.interpretedRuns := by
  rw [heated, if_pos interpreted]

namespace Faithful

variable {program : StubProgram} {data : StubData} {stub : TieredStub}

theorem taken (faithful : stub.Faithful program data) : stub.taken.Faithful program data := by
  rw [TieredStub.taken]
  split
  · exact faithful.drop _ _
  · exact faithful

theorem heated (faithful : stub.Faithful program data) : stub.heated.Faithful program data := by
  rw [TieredStub.heated]
  split
  · exact faithful.retier _ _ _
  · exact faithful

end Faithful

def compiledAs (stub : TieredStub) (owner : Nat) (code : CompiledStub) : TieredStub :=
  { stub with compiled := some (owner, code), consecutiveBailouts := 0, tier := .compiled }

/-- The stub after one more bailout in a row. -/
def cooled (stub : TieredStub) : TieredStub :=
  { stub with consecutiveBailouts := saturatingSucc32 stub.consecutiveBailouts }

/-- The stub is one that a runtime with these options compiles. -/
def Hot (options : RuntimeOptions) (stub : TieredStub) : Prop :=
  stub.tier = .interpreted ∧ options.jitEnabled = true ∧ options.hotThreshold ≤ stub.interpretedRuns

/-- The runtime leaves stubs as they are that are settled for good. -/
theorem not_hot {stub : TieredStub}
    (settled : stub.tier = .interpreterOnly ∨ stub.tier = .disabled) (options : RuntimeOptions) :
    ¬ stub.taken.heated.Hot options := by
  rintro ⟨interpreted, -⟩
  have uncompiled : stub.tier ≠ .compiled := by rcases settled with tier | tier <;> simp [tier]
  rw [heated_tier, taken_eq uncompiled] at interpreted
  simp [interpreted] at settled

end TieredStub

namespace RuntimeStats

def countInterpreted (stats : RuntimeStats) (outcome : Outcome) : RuntimeStats :=
  { stats with interpretedRuns := saturatingSucc64 stats.interpretedRuns }.countOutcome outcome

def countCompiled (stats : RuntimeStats) : RuntimeStats :=
  { stats with compiledRuns := saturatingSucc64 stats.compiledRuns }

def countSuccess (stats : RuntimeStats) : RuntimeStats :=
  { stats with compileSuccesses := saturatingSucc64 stats.compileSuccesses }

def countError (stats : RuntimeStats) : RuntimeStats :=
  { stats with compileErrors := saturatingSucc64 stats.compileErrors }

def countDisabled (stats : RuntimeStats) : RuntimeStats :=
  { stats with disabledStubs := saturatingSucc64 stats.disabledStubs }

end RuntimeStats

def Runtime.count (runtime : Runtime) (f : RuntimeStats → RuntimeStats) : Runtime :=
  { runtime with stats := f runtime.stats }

namespace Execution

def route (execution : Execution) (inputs : List Value) : Route :=
  if inputs.length ≠ execution.stub.program.inputCount.toNat then .rejected
  else
    match execution.stub.tier, execution.stub.compiled with
    | .disabled, _ => .skipped
    | .compiled, some (owner, code) =>
        if owner = execution.runtime.id then .native code else .interpreted
    | .interpreted, _ | .interpreterOnly, _ | .compiled, none => .interpreted

variable {execution : Execution} {inputs : List Value} {code : CompiledStub}

theorem route_rejected (route : execution.route inputs = .rejected) :
    inputs.length ≠ execution.stub.program.inputCount.toNat := by
  intro count
  rw [Execution.route, if_neg (fun differs => differs count)] at route
  split at route
  case h_2 => split at route <;> cases route
  all_goals cases route

theorem route_skipped (route : execution.route inputs = .skipped) :
    execution.stub.tier = .disabled := by
  rw [Execution.route] at route
  split at route
  · cases route
  · split at route
    case h_1 disabled => exact disabled
    case h_2 =>
      split at route <;> cases route
    all_goals cases route

theorem route_interpreted (route : execution.route inputs = .interpreted) :
    execution.stub.tier ≠ .disabled := by
  intro disabled
  rw [Execution.route, disabled] at route
  split at route <;> cases route

theorem route_native (route : execution.route inputs = .native code) :
    inputs.length = execution.stub.program.inputCount.toNat ∧ execution.stub.tier = .compiled ∧
      execution.stub.compiled = some (execution.runtime.id, code) := by
  rw [Execution.route] at route
  split at route
  · cases route
  · rename_i count
    split at route
    case h_2 owner own tier compiled =>
      split at route
      · rename_i home
        cases route
        exact ⟨Decidable.of_not_not count, tier, home ▸ compiled⟩
      · cases route
    all_goals cases route

/-- The route tells what a run does. -/
theorem run_route (execution : Execution) (inputs : List Value) :
    execution.run inputs =
      match execution.route inputs with
      | .rejected =>
          (.error (.inputCount execution.stub.program.inputCount.toNat inputs.length), execution)
      | .skipped => (.ok .bailout, execution)
      | .interpreted => { execution with stub := execution.stub.taken }.runInterpreted inputs
      | .native code => execution.runCompiled code inputs := by
  obtain ⟨runtime, ⟨program, data, tier, runs, bailouts, compiled⟩, context⟩ := execution
  simp only [run, route, TieredStub.taken]
  split
  · rfl
  · cases tier with
    | interpreted => rfl
    | interpreterOnly => rfl
    | disabled => rfl
    | compiled =>
        cases compiled with
        | none => rfl
        | some owned =>
            dsimp only
            split <;> rfl

theorem run_inputCount (execution : Execution) {inputs : List Value}
    (differs : inputs.length ≠ execution.stub.program.inputCount.toNat) :
    execution.run inputs =
      (.error (.inputCount execution.stub.program.inputCount.toNat inputs.length), execution) := by
  rw [run]
  dsimp only
  rw [if_pos differs]

/-- Everything that a run can come to. -/
inductive Comes (execution : Execution) (inputs : List Value) :
    Except ExecError Outcome → Execution → Prop
  | rejected (route : execution.route inputs = .rejected) :
      Comes execution inputs
        (.error (.inputCount execution.stub.program.inputCount.toNat inputs.length)) execution
  | skipped (route : execution.route inputs = .skipped) :
      Comes execution inputs (.ok .bailout) execution
  | failed {error : EvalError} {context : Context}
      (route : execution.route inputs = .interpreted) :
      Comes execution inputs (.error (.interpreter error))
        { execution with stub := execution.stub.taken, context }
  | stayed {outcome : Outcome} {context : Context}
      (route : execution.route inputs = .interpreted)
      (cold : ¬ execution.stub.taken.heated.Hot execution.runtime.options) :
      Comes execution inputs (.ok outcome)
        { runtime := execution.runtime.count (·.countInterpreted outcome)
          stub := execution.stub.taken.heated
          context }
  | compiled {outcome : Outcome} {context : Context} {code : CompiledStub}
      (route : execution.route inputs = .interpreted)
      (hot : execution.stub.taken.heated.Hot execution.runtime.options)
      (compiles : compileStub Helper.all execution.runtime.options.code execution.stub.program
        execution.stub.data = .ok code) :
      Comes execution inputs (.ok outcome)
        { runtime := execution.runtime.count fun stats =>
            (stats.countInterpreted outcome).countSuccess
          stub := execution.stub.taken.heated.compiledAs execution.runtime.id code
          context }
  | stuck {outcome : Outcome} {context : Context} {error : CodeError}
      (route : execution.route inputs = .interpreted)
      (hot : execution.stub.taken.heated.Hot execution.runtime.options)
      (fails : compileStub Helper.all execution.runtime.options.code execution.stub.program
        execution.stub.data = .error error) :
      Comes execution inputs (.ok outcome)
        { runtime := execution.runtime.count fun stats =>
            (stats.countInterpreted outcome).countError
          stub := { execution.stub.taken.heated with tier := .interpreterOnly }
          context }
  | finished {code : CompiledStub} {outcome : Outcome} {context : Context}
      (route : execution.route inputs = .native code) (finishes : outcome ≠ .bailout) :
      Comes execution inputs (.ok outcome)
        { runtime := execution.runtime.count (·.countCompiled.countOutcome outcome)
          stub := { execution.stub with consecutiveBailouts := 0 }
          context }
  | bailed {code : CompiledStub} {context : Context}
      (route : execution.route inputs = .native code)
      (below : execution.stub.cooled.consecutiveBailouts < execution.runtime.options.bailoutLimit) :
      Comes execution inputs (.ok .bailout)
        { runtime := execution.runtime.count (·.countCompiled.countOutcome .bailout)
          stub := execution.stub.cooled
          context }
  | disabled {code : CompiledStub} {context : Context}
      (route : execution.route inputs = .native code)
      (reached : execution.runtime.options.bailoutLimit ≤ execution.stub.cooled.consecutiveBailouts) :
      Comes execution inputs (.ok .bailout)
        { runtime := execution.runtime.count fun stats =>
            (stats.countCompiled.countOutcome .bailout).countDisabled
          stub := { execution.stub.cooled with compiled := none, tier := .disabled }
          context }
  | malformed {code : CompiledStub} {context : Context}
      (route : execution.route inputs = .native code) :
      Comes execution inputs (.error (.code (.malformed .wrongOperandKind)))
        { execution with runtime := execution.runtime.count (·.countCompiled), context }
  | faulted {code : CompiledStub} (route : execution.route inputs = .native code) :
      Comes execution inputs (.error .fault) execution

theorem heat_cold (cold : ¬ execution.stub.heated.Hot execution.runtime.options) :
    execution.heat = { execution with stub := execution.stub.heated } := by
  rw [TieredStub.Hot, TieredStub.heated] at cold
  rw [heat, TieredStub.heated]
  split at cold
  · rename_i interpreted
    rw [if_pos interpreted, if_pos interpreted]
    dsimp only
    split
    · rename_i reached
      rw [tierUp, if_neg fun enabled => cold ⟨interpreted, enabled, reached⟩]
    · rfl
  · rename_i other
    rw [if_neg other, if_neg other]

theorem heat_hot (hot : execution.stub.heated.Hot execution.runtime.options) :
    execution.heat =
      match compileStub Helper.all execution.runtime.options.code execution.stub.program
        execution.stub.data with
      | .ok code =>
          { execution with
            runtime := execution.runtime.count (·.countSuccess)
            stub := execution.stub.heated.compiledAs execution.runtime.id code }
      | .error _ =>
          { execution with
            runtime := execution.runtime.count (·.countError)
            stub := { execution.stub.heated with tier := .interpreterOnly } } := by
  rw [TieredStub.Hot, TieredStub.heated] at hot
  rw [heat, TieredStub.heated]
  split at hot
  · rename_i interpreted
    rw [if_pos interpreted, if_pos interpreted]
    dsimp only
    rw [if_pos hot.2.2, tierUp, if_pos hot.2.1]
    rfl
  · rename_i other
    exact absurd hot.1 other

theorem runInterpreted_comes (route : execution.route inputs = .interpreted)
    {answer : Except ExecError Outcome} {after : Execution}
    (runs : { execution with stub := execution.stub.taken }.runInterpreted inputs =
      (answer, after)) : execution.Comes inputs answer after := by
  rw [runInterpreted] at runs
  dsimp only at runs
  split at runs
  · cases runs
    exact .failed route
  · cases runs
    by_cases hot : execution.stub.taken.heated.Hot execution.runtime.options
    · rw [heat_hot]
      · split
        · rename_i code compiles
          exact .compiled route hot
            (execution.stub.taken_program ▸ execution.stub.taken_data ▸ compiles)
        · rename_i error fails
          exact .stuck route hot (execution.stub.taken_program ▸ execution.stub.taken_data ▸ fails)
      · exact hot
    · rw [heat_cold]
      · exact .stayed route hot
      · exact hot

theorem finishCompiled_comes (route : execution.route inputs = .native code) (outcome : Outcome)
    (context : Context) :
    execution.Comes inputs (.ok outcome)
      (finishCompiled ⟨execution.runtime.count (·.countCompiled), execution.stub, context⟩
        outcome) := by
  rw [finishCompiled]
  split
  · rename_i bails
    subst bails
    rw [coolDown]
    dsimp only
    split
    · rename_i reached
      exact .disabled route reached
    · rename_i below
      exact .bailed route (UInt32.not_le.mp below)
  · rename_i finishes
    exact .finished route finishes

theorem runCompiled_comes {program : StubProgram} {data : StubData}
    (faithful : execution.stub.Faithful program data) (route : execution.route inputs = .native code)
    {answer : Except ExecError Outcome} {after : Execution}
    (runs : execution.runCompiled code inputs = (answer, after)) :
    execution.Comes inputs answer after := by
  obtain ⟨count, -, compiled⟩ := route_native route
  obtain ⟨config, compiles⟩ := faithful.compiled _ _ compiled
  rw [faithful.sameProgram] at count
  rw [runCompiled, faithful.sameData, execute_of_compileStub compiles count] at runs
  cases exits : runCode ⟨inputs.map Value.bits, data.words⟩ code.code none
      (.start execution.context) with
  | none =>
      rw [exits] at runs
      cases runs
      exact .faulted route
  | some exit =>
      obtain ⟨status, machine⟩ := exit
      rw [exits] at runs
      cases status with
      | returned =>
          cases runs
          exact finishCompiled_comes route _ _
      | bailout =>
          cases runs
          exact finishCompiled_comes route _ _
      | exception =>
          cases runs
          exact finishCompiled_comes route _ _
      | malformed =>
          cases runs
          exact .malformed route

/-- A run comes to nothing else. -/
theorem run_comes {program : StubProgram} {data : StubData}
    (faithful : execution.stub.Faithful program data) (inputs : List Value) :
    execution.Comes inputs (execution.run inputs).1 (execution.run inputs).2 := by
  rw [run_route]
  cases route : execution.route inputs with
  | rejected => exact .rejected route
  | skipped => exact .skipped route
  | interpreted => exact runInterpreted_comes route rfl
  | native code => exact runCompiled_comes faithful route rfl

/-- Whatever a run comes to, the stub is the one that it was, and has no code but its own. -/
theorem Comes.faithful {after : Execution} {answer : Except ExecError Outcome}
    (comes : execution.Comes inputs answer after) {program : StubProgram} {data : StubData}
    (faithful : execution.stub.Faithful program data) : after.stub.Faithful program data := by
  cases comes with
  | rejected | skipped | malformed | faulted => exact faithful
  | failed => exact faithful.taken
  | stayed => exact faithful.taken.heated
  | compiled route hot compiles =>
      have heated := faithful.taken.heated
      refine ⟨heated.sameProgram, heated.sameData, ?_⟩
      rintro _ _ ⟨⟩
      exact ⟨_, faithful.sameProgram ▸ faithful.sameData ▸ compiles⟩
  | stuck => exact faithful.taken.heated.retier _ _ _
  | finished | bailed => exact faithful.retier _ _ _
  | disabled => exact (faithful.retier _ _ _).drop _ _

/-- A run changes neither the name of the runtime nor its options. -/
theorem Comes.runtime {after : Execution} {answer : Except ExecError Outcome}
    (comes : execution.Comes inputs answer after) :
    after.runtime.id = execution.runtime.id ∧
      after.runtime.options = execution.runtime.options := by
  cases comes <;> exact ⟨rfl, rfl⟩

end Execution

/-- After any calls a stub is the one that it was, and has no code but its own. -/
theorem Fleet.faithful_after {fleet : Fleet} {stub : Nat} {program : StubProgram} {data : StubData}
    (faithful : (fleet.stubs stub).Faithful program data) (calls : List Call) :
    ((fleet.after calls).stubs stub).Faithful program data := by
  induction calls generalizing fleet with
  | nil => exact faithful
  | cons first rest ih =>
      apply ih
      rw [Fleet.call]
      dsimp only
      split
      · rename_i own
        subst own
        exact (Execution.run_comes faithful first.inputs).faithful faithful
      · exact faithful

end InlineCache
