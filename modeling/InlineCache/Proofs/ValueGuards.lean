import InlineCache.Proofs.Eval.Assignment
import InlineCache.Proofs.Op.Decoding
import InlineCache.Proofs.Policies

/-!
Guards on values.  The evaluation sees a value through the views of types, and the code tests the tag of
the word, or takes it as proven by a guard before.  They decide alike of every word, whether any value is
encoded so or not.  There is no reference to the address zero: on the word of one the evaluation has
nothing to define, and bails out.
-/

namespace InlineCache

namespace Op

variable {data : StubData} {op : Op} {input : OperandId} {v : Value} {s t : EvalState}

/-- A guard bails out, or goes on, or defines an operand. -/
theorem eval_tested (data : StubData) (tests : op.tested? = some input)
    (stores : s.Stores input.toNat (.boxed v)) :
    op.eval data s = (.error (.outcome .bailout), s) ∨ op.eval data s = (.ok (), s) ∨
      ∃ id value, op.eval data s = Eval.define id value s := by
  have reads : Operands.value s.operands input = .ok v := Operands.read_eq .value _ stores
  have value (test : Value → Bool) :
      Eval.guardValue test input s = (.error (.outcome .bailout), s) ∨
        Eval.guardValue test input s = (.ok (), s) ∨
        ∃ id value, Eval.guardValue test input s = Eval.define id value s := by
    rw [Eval.guardValue, Eval.bind_apply, Eval.use_apply, reads]
    dsimp only
    cases test v with
    | true => exact .inr (.inl rfl)
    | false => exact .inl rfl
  have view {α : Type} (view : Value → Option α) (make : α → OperandValue) (result : OperandId) :
      Eval.guardView view make input result s = (.error (.outcome .bailout), s) ∨
        Eval.guardView view make input result s = (.ok (), s) ∨
        ∃ id value, Eval.guardView view make input result s = Eval.define id value s := by
    rw [Eval.guardView, Eval.bind_apply, Eval.use_apply, reads]
    dsimp only
    cases view v with
    | none => exact .inl rfl
    | some a => exact .inr (.inr ⟨result, make a, rfl⟩)
  obtain ⟨opcode, args⟩ := op
  cases opcode with
  | guardToObject | guardToString | guardToSymbol | guardToBigInt =>
      cases tests
      exact view (Value.ref? _) (.ref _) _
  | guardToBoolean | guardToInt32 | guardBooleanToInt32 | guardToInt32Index | guardToInt32ModUint32
  | guardToUint8Clamped =>
      cases tests
      exact view _ _ _
  | guardIsNullOrUndefined | guardIsNull | guardIsUndefined | guardIsNumber =>
      cases tests
      exact value _
  | guardNonDoubleType =>
      obtain ⟨_, type, ⟨⟩⟩ := args
      obtain ⟨single, same⟩ := Option.ite_none_left_eq_some.mp tests
      cases same
      rw [eval, if_neg single]
      exact value _
  | _ => cases tests

/-- A guard that stops, and has a result to define, bails out. -/
theorem eval_bails {stop : Stop} (tests : op.tested? = some input)
    (stores : s.Stores input.toNat (.boxed v)) (stops : op.eval data s = (.error stop, t))
    (ends : t.Tolerates stop.ending ∨ op.EndsAtResult stop.ending) :
    op.eval data s = (.error (.outcome .bailout), s) := by
  rcases eval_tested data tests stores with bails | goes | ⟨id, value, defines⟩
  · exact bails
  · cases stops.symm.trans goes
  · have fails := defines.symm.trans stops
    rw [Eval.define_apply] at fails
    cases defined : s.operands.define id value with
    | ok operands =>
        rw [defined] at fails
        cases fails
    | error error =>
        rw [defined] at fails
        cases fails
        rcases Operands.define_eq_error defined with rfl | rfl <;>
          rcases ends with tolerated | ⟨-, _, -, uninitialized⟩
        · cases tolerated
        · cases uninitialized
        · cases tolerated
        · cases uninitialized

/-- An evaluation does not take the word for a reference. -/
theorem eval_meetsNull (tests : op.tested? = some input) (stores : s.Stores input.toNat (.boxed v))
    (null : op.MeetsNull v) : op.eval data s = (.error (.outcome .bailout), s) := by
  obtain ⟨kind, asks, -, zero⟩ := null
  have reads : Operands.value s.operands input = .ok v := Operands.read_eq .value _ stores
  have bails (result : OperandId) :
      Eval.guardRef kind input result s = (.error (.outcome .bailout), s) := by
    have none : v.ref? kind = none := if_neg fun both => both.2 zero
    rw [Eval.guardRef, Eval.bind_apply, Eval.use_apply, reads]
    dsimp only
    rw [none]
    rfl
  obtain ⟨opcode, args⟩ := op
  cases opcode with
  | guardToObject | guardToString | guardToSymbol | guardToBigInt =>
      cases tests
      cases asks
      exact bails _
  | _ => cases asks

theorem not_meetsNull (tests : op.tested? = some input) (passes : op.eval data s = (.ok (), t))
    (stores : s.Stores input.toNat (.boxed v)) : ¬op.MeetsNull v := by
  intro null
  cases passes.symm.trans (eval_meetsNull tests stores null)

end Op

section

variable {setting : Setting false} {s t : EvalState} {state after : Assembler} {m : Machine}

/-- The code of guards goes on where the evaluation of them does. -/
theorem Carries.emitGuards (carries : Carries setting s .none none state m) (sound : state.Sound)
    {ops : List (Op × Nat)} (tested : ∀ op ∈ ops, op.1.tested?.isSome = true)
    (runs : (ops.forM (Asm.emitOp setting.env)).Runs state () after)
    (passes : Eval.ops setting.env.data (ops.map Prod.fst) s = (.ok (), t)) :
    after.Sound ∧ ∃ n, Carries setting t .none none after n := by
  induction ops generalizing state s m with
  | nil =>
      cases Asm.runs_forM_nil.mp runs
      cases passes
      exact ⟨sound, m, carries⟩
  | cons op rest ih =>
      obtain ⟨middle, first, others⟩ := Asm.runs_forM_cons.mp runs
      obtain ⟨input, tests⟩ := Option.isSome_iff_exists.mp (tested op (.head _))
      rw [List.map_cons, Eval.ops_cons, Eval.bind_apply] at passes
      cases evaluates : op.1.eval setting.env.data s with
      | mk ending u =>
          rw [evaluates] at passes
          cases ending with
          | error stop => cases passes
          | ok _ =>
              obtain ⟨ends, soundMiddle⟩ := carries.emitOp sound first <|
                Op.follows_tested setting tests fun v stores _ =>
                  Op.not_meetsNull tests evaluates stores
              rw [evaluates] at ends
              obtain ⟨n, carried⟩ := ends
              exact ih carried soundMiddle (fun op member => tested op (.tail _ member)) others passes

/-- So does the code of a stub that begins with guards. -/
theorem Setting.carries_guards (setting : Setting false) {listed front : List Op} {count : Nat}
    {allocation : Allocation}
    (started : Allocation.start listed count setting.env.config = .ok allocation)
    (runs : (Asm.body setting.env setting.inputs.length front).Runs (.start allocation) () after)
    (tested : ∀ op ∈ front, op.tested?.isSome = true)
    (passes : (Eval.defineInputs 0 setting.inputs >>= fun _ => Eval.ops setting.env.data front)
      ⟨.empty count, .undefined, setting.context⟩ = (.ok (), s)) :
    after.Sound ∧ ∃ m, Carries setting s .none none after m := by
  obtain ⟨middle, first, rest⟩ := Asm.runs_body.mp runs
  obtain ⟨sound, ends⟩ := setting.ends_prologue started first
  rw [Eval.bind_apply] at passes
  cases defines : Eval.defineInputs 0 setting.inputs ⟨.empty count, .undefined, setting.context⟩ with
  | mk ending u =>
      rw [defines] at ends passes
      cases ending with
      | error stop => cases passes
      | ok _ =>
          obtain ⟨n, carries⟩ := ends
          refine carries.emitGuards sound (fun op member => tested _ ?_) rest ?_
          · exact List.fst_mem_of_mem_zipIdx member
          · rwa [List.zipIdx_map_fst]

end

namespace Eval

theorem defineInputs_stores {index : Nat} {inputs : List Value} {s t : EvalState}
    (small : index + inputs.length ≤ 256) (runs : defineInputs index inputs s = (.ok (), t)) :
    s.operands.Fills t.operands ∧
      ∀ i v, inputs[i]? = some v → t.Stores (index + i) (.boxed v) := by
  induction inputs generalizing index s with
  | nil =>
      cases runs
      exact ⟨.refl _, fun i v impossible => nomatch impossible⟩
  | cons first rest ih =>
      rw [List.length_cons] at small
      have next : index < 256 := by omega
      have self : (UInt8.ofNat index).toNat = index := UInt8.toNat_ofNat_of_lt' next
      rw [defineInputs, bind_apply, define_apply] at runs
      cases defines : s.operands.define (UInt8.ofNat index) (.boxed first) with
      | error error =>
          rw [defines] at runs
          cases runs
      | ok operands =>
          rw [defines] at runs
          obtain ⟨fills, stores⟩ := ih (by omega) runs
          refine ⟨(Operands.fills_of_define defines).trans fills, fun i v given => ?_⟩
          cases i with
          | zero =>
              cases given
              exact fills.get (self ▸ Operands.slot_of_define defines)
          | succ i =>
              rw [Nat.add_comm i, ← Nat.add_assoc]
              exact stores i v given

theorem ops_fills {data : StubData} {listed : List Op} {s t : EvalState}
    (runs : ops data listed s = (.ok (), t)) : s.operands.Fills t.operands := by
  induction listed generalizing s with
  | nil =>
      cases runs
      exact .refl _
  | cons op rest ih =>
      rw [ops_cons, bind_apply] at runs
      have assigns := op.eval_assigns data s
      cases evaluates : op.eval data s with
      | mk ending u =>
          rw [evaluates] at runs assigns
          cases ending with
          | error stop => cases runs
          | ok _ => exact assigns.fills.trans (ih runs)

/-- Whatever has been done since, an input is there as it was given. -/
theorem stores_input {data : StubData} {inputs : List Value} {listed : List Op} {s t : EvalState}
    (small : inputs.length ≤ 256)
    (runs : (defineInputs 0 inputs >>= fun _ => ops data listed) s = (.ok (), t)) {i : Nat}
    {v : Value} (given : inputs[i]? = some v) : t.Stores i (.boxed v) := by
  rw [bind_apply] at runs
  cases defines : defineInputs 0 inputs s with
  | mk ending u =>
      rw [defines] at runs
      cases ending with
      | error stop => cases runs
      | ok _ =>
          obtain ⟨-, stores⟩ := defineInputs_stores (by omega) defines
          exact (ops_fills runs).get (Nat.zero_add i ▸ stores i v given)

end Eval

theorem Asm.runs_body_append {env : EmitEnv} {count : Nat} {front later : List Op}
    {state before behind : Assembler} (runs : (body env count front).Runs state () before)
    (emits : ((later.zipIdx front.length).forM (emitOp env)).Runs before () behind) :
    (body env count (front ++ later)).Runs state () behind := by
  obtain ⟨first, prologue, fronts⟩ := runs_body.mp runs
  refine runs_body.mpr ⟨first, prologue, ?_⟩
  rw [List.zipIdx_append, Nat.zero_add]
  exact runs_forM_append.mpr ⟨before, fronts, emits⟩

theorem Asm.runs_body_snoc {env : EmitEnv} {count : Nat} {front : List Op} {op : Op}
    {state before behind : Assembler} (runs : (body env count front).Runs state () before)
    (emits : (emitOp env (op, front.length)).Runs before () behind) :
    (body env count (front ++ [op])).Runs state () behind :=
  runs_body_append runs (runs_forM_cons.mpr ⟨behind, emits, runs_forM_nil.mpr rfl⟩)

open Allocation in
/-- Behind the first operations of a stub, an operation that goes through leaves the operands that it mentions
in places. -/
theorem Asm.op_accompanies (env : EmitEnv) {inputCount : UInt8} {front back : List Op} {op : Op}
    {count : Nat} {allocation : Allocation} {before behind : Assembler}
    (started : start (front ++ op :: back) count env.config = .ok allocation)
    (runs : (body env inputCount.toNat front).Runs (.start allocation) () before)
    (emits : (emitOp env (op, front.length)).Runs before () behind) {inputs : List Value}
    (given : inputs.length = inputCount.toNat) (room : inputs.length ≤ count) {context : Context}
    {s : EvalState} (passed : (Eval.defineInputs 0 inputs >>= fun _ => Eval.ops env.data front)
      ⟨.empty count, .undefined, context⟩ = (.ok (), s)) :
    (op.eval env.data).Ensures (fun t ending => t.Tolerates ending ∨ op.EndsAtResult ending) s
      fun _ t => ∀ id ∈ op.operands, ∀ stored, t.Stores id.toNat stored →
        behind.allocation.place id.toNat ≠ .nowhere := by
  obtain ⟨table, uses, rfl⟩ := start_ok started
  have carried := body_accompanies env uses started runs given room context
  rw [Eval.Ensures, passed] at carried
  have mentioned (id : OperandId) (member : id ∈ op.operands) :
      UsedFrom front.length table id.toNat := by
    have listed : (op, front.length) ∈ (front ++ op :: back).zipIdx := by
      rw [List.zipIdx_append, Nat.zero_add]
      exact List.mem_append_right _ (.head _)
    exact usedFrom_lastUses uses listed member
  refine (carried.runs mentioned emits).mono ?_
  rintro _ t ⟨-, suits⟩ id member stored stores
  have defined : (behind.allocation.outline id.toNat).defined = true := by
    rw [(suits id.toNat).defined, EvalState.kinds_of_stores stores]
    rfl
  intro nowhere
  refine (suits id.toNat).present (mentioned id member) defined ?_
  rw [form_outline, nowhere]
  rfl

/-- The code of a stub as far as the operations: what code generation has emitted when it has come behind
them. -/
def StubProgram.EmitsTo (program : StubProgram) (data : StubData) (config : CodeConfig)
    (front : List Op) (state : Assembler) : Prop :=
  ∃ listed allocation, program.terminatedOps = .ok listed ∧
    Allocation.start listed program.operandCount.toNat config = .ok allocation ∧
    (Asm.body ⟨data, config⟩ program.inputCount.toNat front).Runs (.start allocation) () state

theorem StubProgram.EmitsTo.unique {program : StubProgram} {data : StubData} {config : CodeConfig}
    {front : List Op} {state other : Assembler} (first : program.EmitsTo data config front state)
    (second : program.EmitsTo data config front other) : state = other := by
  obtain ⟨_, _, read, started, runs⟩ := first
  obtain ⟨_, _, readAgain, startedAgain, runsAgain⟩ := second
  cases read.symm.trans readAgain
  cases started.symm.trans startedAgain
  exact congrArg Prod.snd (runs.symm.trans runsAgain)

/-- A guard on a value, behind others, passes in the evaluation and in the code, and both define the same
payload, or it bails out in both.  The inputs may be any words; only a word that refers to the address zero
is left aside, at the guard that asks for such references. -/
theorem guards_decide_alike (program : StubProgram) (data : StubData) (config : CodeConfig)
    (inputs : List Value) (context : Context) {summary : EmitSummary} {code : CodeBuffer}
    {front back : List Op} {guard : Op} {input : OperandId} {v : Value} {s : EvalState}
    (emits : emitStub program data config = .ok (summary, code))
    (read : program.terminatedOps = .ok (front ++ guard :: back))
    (tested : ∀ op ∈ front, op.tested?.isSome = true) (tests : guard.tested? = some input)
    (count : inputs.length = program.inputCount.toNat) (given : inputs[input.toNat]? = some v)
    (passed : (Eval.defineInputs 0 inputs >>= fun _ => Eval.ops data front)
      ⟨.empty program.operandCount.toNat, .undefined, context⟩ = (.ok (), s))
    (present : ¬guard.MeetsNull v) :
    let entry : Entry := ⟨inputs.map Value.bits, data.words⟩
    ∃ before behind, program.EmitsTo data config front before ∧
      program.EmitsTo data config (front ++ [guard]) behind ∧
      (∃ m, before.Reaches entry (.start context) m) ∧
      ((∃ t n, guard.eval data s = (.ok (), t) ∧ behind.Reaches entry (.start context) n ∧
          ∀ result ∈ guard.results, ∃ stored, t.Stores result.1.toNat stored ∧
            behind.allocation.content n result.1.toNat = some stored.content) ∨
        guard.eval data s = (.error (.outcome .bailout), s) ∧
          (∀ n, ¬behind.Reaches entry (.start context) n) ∧
          ∃ n, runCode entry code.insts.toList none (.start context) = some (.bailout, n)) := by
  intro entry
  let setting : Setting false := ⟨⟨data, config⟩, inputs, context, trivial, trivial, trivial⟩
  obtain ⟨allocation, before, after, started, runs, others, -, soundAfter, rfl⟩ :=
    emitStub_append read emits
  obtain ⟨behind, guards, rest⟩ := Asm.runs_forM_cons.mp others
  have small : inputs.length ≤ 256 := count ▸ Nat.le_of_lt program.inputCount.toNat_lt
  have stores := Eval.stores_input small passed given
  rw [← count] at runs
  obtain ⟨soundBefore, m, carries⟩ := setting.carries_guards started runs tested passed
  obtain ⟨ends, soundBehind⟩ := carries.emitOp soundBefore guards <|
    Op.follows_tested setting tests fun w same _ => by
      cases stores.symm.trans same
      exact present
  refine ⟨before, behind, ⟨_, allocation, read, started, count ▸ runs⟩,
    ⟨_, allocation, read, started, count ▸ Asm.runs_body_snoc runs guards⟩, ⟨m, carries.reached⟩, ?_⟩
  have room : inputs.length ≤ program.operandCount.toNat := by
    obtain ⟨_, _, _, _, enough, -⟩ := emitStub_ok emits
    rwa [count]
  have accompanied := Asm.op_accompanies ⟨data, config⟩ started (count ▸ runs) guards count room passed
  rw [Eval.Ensures] at accompanied
  cases evaluates : guard.eval data s with
  | mk ending t =>
      rw [show guard.eval setting.env.data s = _ from evaluates] at ends
      rw [evaluates] at accompanied
      cases ending with
      | ok _ =>
          obtain ⟨n, carriesBehind⟩ := ends
          have assigns := guard.eval_assigns data s
          rw [evaluates] at assigns
          refine .inl ⟨t, n, rfl, carriesBehind.reached, fun result member => ?_⟩
          obtain ⟨stored, holds⟩ := (assigns.holds result.1.toNat).mpr (.inr ⟨result, member, rfl⟩)
          have somewhere := accompanied result.1 (Op.mem_operands (.inr ⟨_, member⟩)) stored holds
          obtain ⟨form, word⟩ := carriesBehind.located holds somewhere
          refine ⟨stored, holds, ?_⟩
          rw [Allocation.content, Location.content?, form, word]
          rfl
      | error stop =>
          have bails := Op.eval_bails tests stores evaluates accompanied
          cases evaluates.symm.trans bails
          have grows := (Asm.Tidy.forM (Asm.emitOp_tidy _) _).grows rest
          obtain ⟨n, exits, -⟩ := (ends.grows grows soundAfter).run_exits soundAfter rfl
          exact .inr ⟨rfl, ends.not_reaches, n, exits⟩

/-! Two guards on a word with the tag of objects that points to no cell. -/

namespace OffHeap

def first : Op := ⟨.guardToObject, (0, 1, ())⟩

def second : Op := ⟨.guardToObject, (0, 2, ())⟩

def program : StubProgram :=
  ⟨[first, second, ⟨.returnFromIc, ()⟩].flatMap Op.encode, 3, 1⟩

def word : Value := ⟨0x7FFC000000000007⟩

/-- The first guard has passed. -/
def guarded : EvalState :=
  ⟨⟨[some (.boxed word), some (.ref .object 7), none]⟩, .undefined, .empty⟩

theorem not_refers : ¬word.Refers := by
  intro refers
  obtain ⟨id, address⟩ := refers .object (by decide)
  have nowhere : Block.ofAddress? word.payload = none := by decide
  rw [address, RefKind.block, Block.ofAddress?_address] at nowhere
  cases nowhere

end OffHeap

/-- The second guard finds the tag proven by the first, and defines the same. -/
theorem guards_decide_alike_off_the_heap :
    (Eval.defineInputs 0 [OffHeap.word] >>= fun _ => Eval.ops .empty [OffHeap.first])
        ⟨.empty 3, .undefined, .empty⟩ = (.ok (), OffHeap.guarded) ∧
      ¬OffHeap.word.Refers ∧ ¬OffHeap.second.MeetsNull OffHeap.word ∧
      ∃ behind n, OffHeap.program.EmitsTo .empty ⟨8, 2, 16, true, .constant, true⟩
          [OffHeap.first, OffHeap.second] behind ∧
        behind.Reaches ⟨[OffHeap.word.bits], []⟩ (.start .empty) n ∧
        behind.allocation.content n 2 = some ⟨.payload .object, 7⟩ := by
  have passed : (Eval.defineInputs 0 [OffHeap.word] >>= fun _ => Eval.ops .empty [OffHeap.first])
    ⟨.empty 3, .undefined, .empty⟩ = (.ok (), OffHeap.guarded) := rfl
  have present : ¬OffHeap.second.MeetsNull OffHeap.word := by
    rintro ⟨kind, -, -, zero⟩
    exact absurd zero (by decide)
  refine ⟨passed, OffHeap.not_refers, present, ?_⟩
  have emitted : (emitStub OffHeap.program .empty ⟨8, 2, 16, true, .constant, true⟩).isOk = true := by
    decide +kernel
  cases emits : emitStub OffHeap.program .empty ⟨8, 2, 16, true, .constant, true⟩ with
  | error error =>
      rw [emits] at emitted
      cases emitted
  | ok stub =>
      have decodes : (Cursor.start OffHeap.program.code).Decodes
          ([OffHeap.first] ++ OffHeap.second :: [⟨.returnFromIc, ()⟩]) .terminal :=
        .cons rfl rfl (.cons rfl rfl (.terminal rfl rfl))
      obtain ⟨_, behind, -, reached, -, ⟨t, n, passes, goes, results⟩ | ⟨bails, -⟩⟩ :=
        guards_decide_alike OffHeap.program .empty _ [OffHeap.word] .empty emits
          (OffHeap.program.terminatedOps_eq decodes) (by decide) rfl rfl rfl passed present
      · obtain ⟨stored, stores, content⟩ := results (2, .object) (.head _)
        cases passes
        cases stores
        exact ⟨behind, n, reached, goes, content⟩
      · cases bails

/-- The word has the tag of objects, and no address.  The evaluation finds no object, and the code goes on. -/
theorem null_object_divides_guards :
    let program : StubProgram := ⟨[⟨.guardToObject, (0, 1, ())⟩, ⟨.loadBooleanResult, (true, ())⟩,
      ⟨.returnFromIc, ()⟩].flatMap Op.encode, 2, 1⟩
    let word : Value := ⟨0x7FFC000000000000⟩
    (evaluate program .empty [word] .empty).ending = .ok .bailout ∧
      (emitStub program .empty ⟨8, 2, 16, true, .constant, true⟩).toOption.map (fun emitted =>
        (runCode ⟨[word.bits], []⟩ emitted.2.insts.toList none (.start .empty)).map fun run =>
          (run.1, run.2.output)) = some (some (.returned, (Value.ofBool true).bits)) := by
  decide +kernel

end InlineCache
