import InlineCache.Proofs.Acceptance
import InlineCache.Proofs.Uniform.Run

/-!
Words of stub data in the code, or loaded when it runs.  All codes of one stub show the same, whatever
the configuration: they leave with the same status, output and context after the same reads, or all of
them fault.  An operation that reads the operand that it defines finds what its register held before,
so nothing may get there.
-/

namespace InlineCache

theorem Eval.ops_append (data : StubData) (front back : List Op) :
    ops data (front ++ back) = (ops data front >>= fun _ => ops data back) := by
  induction front with
  | nil => exact (pure_bind () fun _ => ops data back).symm
  | cons op rest ih => rw [List.cons_append, ops_cons, ops_cons, bind_assoc, ih]

theorem EvalState.stores_of_get {s : EvalState} {id : OperandId} {stored : OperandValue}
    (found : s.operands.get id = .ok stored) : s.Stores id.toNat stored := by
  rw [Operands.get] at found
  split at found
  · cases found
  · cases found
  · cases found
    assumption

/-- Where an evaluation has ended with an outcome, the code does not go on. -/
theorem Ends.not_reaches {trusted : Bool} {setting : Setting trusted} {s : EvalState}
    {state : Assembler} {outcome : Outcome} (ends : Ends setting state (.error (.outcome outcome), s)) (m : Machine) :
    ¬state.Reaches setting.entry setting.origin m := by
  intro reached
  have left (status : ExitStatus) : ¬Leaves setting status s.context state := by
    rintro ⟨_, -, -, n, flow, -⟩
    cases reached.symm.trans flow
  cases outcome with
  | bailout | exception => exact left _ (ends _ rfl)
  | unsupportedOp => exact ends
  | returned v =>
      obtain ⟨n, flow, -⟩ := ends
      cases reached.symm.trans flow

/-- An evaluation that ends with an outcome ends before an operation that reads the operand that it
defines, and then the code does not get there either. -/
theorem Setting.not_reaches_self (setting : Setting) {listed front rest : List Op} {op : Op}
    {count : Nat} {allocation : Allocation} {state after : Assembler}
    (started : Allocation.start listed count setting.env.config = .ok allocation)
    (runs : (Asm.body setting.env setting.inputs.length front).Runs (.start allocation) () state)
    (own : op.readsResult = true) (index : Nat)
    (runsOwn : (Asm.emitOp setting.env (op, index)).Runs state () after) {outcome : Outcome}
    {t : EvalState}
    (evaluates : (Eval.defineInputs 0 setting.inputs >>= fun _ =>
        Eval.ops setting.env.data (front ++ op :: rest))
      ⟨.empty count, .undefined, setting.context⟩ = (.error (.outcome outcome), t)) (m : Machine) :
    ¬state.Reaches setting.entry setting.origin m := by
  intro reached
  obtain ⟨-, ends⟩ := setting.ends_body started runs
  rw [Eval.ops_append, ← bind_assoc, Eval.bind_apply] at evaluates
  cases begins : (Eval.defineInputs 0 setting.inputs >>= fun _ => Eval.ops setting.env.data front)
      ⟨.empty count, .undefined, setting.context⟩ with
  | mk ending s =>
      rw [begins] at ends evaluates
      cases ending with
      | error stop =>
          cases evaluates
          exact ends.not_reaches m reached
      | ok _ =>
          obtain ⟨n, carries⟩ := ends
          obtain ⟨begun, sheds, emits⟩ := Asm.runs_emitOp runsOwn
          obtain ⟨_, sheds⟩ := Asm.beginOp_sheds sheds carries.balanced carries.reached
          obtain ⟨id, -, fresh, stops⟩ := op.emit_readsResult own emits
          cases found : s.operands.get id with
          | ok stored =>
              have defined := carries.defined id.toNat stored (EvalState.stores_of_get found)
              rw [← sheds.defined, fresh] at defined
              cases defined
          | error error =>
              dsimp only at evaluates
              rw [Eval.ops_cons, Eval.bind_apply, stops _ _ _ found] at evaluates
              cases evaluates

/-- The code of a stub, between two of its operations. -/
theorem emitStub_append {program : StubProgram} {data : StubData} {config : CodeConfig}
    {summary : EmitSummary} {code : CodeBuffer} {front back : List Op}
    (read : program.terminatedOps = .ok (front ++ back))
    (emits : emitStub program data config = .ok (summary, code)) :
    ∃ allocation middle after,
      Allocation.start (front ++ back) program.operandCount.toNat config = .ok allocation ∧
      (Asm.body ⟨data, config⟩ program.inputCount.toNat front).Runs (.start allocation) () middle ∧
      ((back.zipIdx front.length).forM (Asm.emitOp ⟨data, config⟩)).Runs middle () after ∧
      middle.Grows after ∧ after.Sound ∧ code = after.exits.emit after.buffer := by
  obtain ⟨ops, allocation, after, same, -, started, runs, -, rfl⟩ := emitStub_ok emits
  cases read.symm.trans same
  obtain ⟨first, prologue, runs⟩ := Asm.runs_body.mp runs
  have sound := (Asm.prologue_tidy _ _ _ _ prologue).2 (.start allocation)
    fun _ member => absurd member List.not_mem_nil
  have tidy (items : List (Op × Nat)) : Asm.Tidy [] (items.forM (Asm.emitOp ⟨data, config⟩)) :=
    .forM (Asm.emitOp_tidy _) items
  have kept := (tidy _ _ _ _ runs).2 sound fun _ member => absurd member List.not_mem_nil
  rw [List.zipIdx_append, Nat.zero_add] at runs
  obtain ⟨middle, runsFront, runsBack⟩ := Asm.runs_forM_append.mp runs
  exact ⟨allocation, middle, after, started, Asm.runs_body.mpr ⟨first, prologue, runsFront⟩, runsBack,
    (tidy _).grows runsBack, kept, rfl⟩

section Agreement

variable {program : StubProgram} {data : StubData} {inputs : List Value} {context : Context}

/-- All codes of a stub show the same if none of them goes on behind operations that act in the same
way in all of them. -/
theorem shown_of_front {front back : List Op} (read : program.terminatedOps = .ok (front ++ back))
    (extended : data.Extended) (count : inputs.length = program.inputCount.toNat)
    (apart : ∀ op ∈ front, op.readsResult = false)
    (stops : ∀ (config : CodeConfig) allocation middle after,
      Allocation.start (front ++ back) program.operandCount.toNat config = .ok allocation →
      (Asm.body ⟨data, config⟩ inputs.length front).Runs (.start allocation) () middle →
      ((back.zipIdx front.length).forM (Asm.emitOp ⟨data, config⟩)).Runs middle () after →
      ∀ m, ¬middle.Reaches ⟨inputs.map Value.bits, data.words⟩ (.start context) m) :
    ∃ seen, ∀ config summary code, emitStub program data config = .ok (summary, code) →
      code.shown? ⟨inputs.map Value.bits, data.words⟩ context = seen := by
  have together : Together ⟨inputs.map Value.bits, data.words⟩ (.start context) (.start context)
      fun config : CodeConfig => Asm.body ⟨data, config⟩ (inputs.map Value.bits).length front :=
    .body rfl extended apart
  obtain ⟨fate, leads⟩ := together.leads
  rw [List.length_map, count] at leads
  rw [count] at stops
  cases fate with
  | goes view =>
      refine ⟨none, fun config summary code emits => ?_⟩
      obtain ⟨allocation, middle, after, started, runs, rest, -⟩ := emitStub_append read emits
      obtain ⟨m, -, reached⟩ :=
        leads config _ _ middle (.start allocation) (.start started context) rfl runs
      exact absurd reached (stops config allocation middle after started runs rest m)
  | ended seen =>
      refine ⟨seen, fun config summary code emits => ?_⟩
      obtain ⟨allocation, middle, after, started, runs, -, grows, sound, rfl⟩ :=
        emitStub_append read emits
      have ended := leads config _ _ middle (.start allocation) (.start started context) rfl runs
      exact (ended.grows grows sound).shown? sound

/-- Some operation reads the operand that it defines. -/
def StubProgram.ReadsResult (program : StubProgram) : Prop :=
  ∃ ops, program.terminatedOps = .ok ops ∧ ∃ op ∈ ops, op.readsResult = true

/-- All codes of a stub show the same. -/
theorem emitted_codes_agree (extended : data.Extended)
    (count : inputs.length = program.inputCount.toNat)
    (settled : program.ReadsResult → data.NamesObjects ∧ (∀ v ∈ inputs, v.Refers) ∧
      ∃ outcome, (evaluate program data inputs context).ending = .ok outcome) :
    ∃ seen, ∀ config summary code, emitStub program data config = .ok (summary, code) →
      code.shown? ⟨inputs.map Value.bits, data.words⟩ context = seen := by
  cases read : program.terminatedOps with
  | error error =>
      refine ⟨none, fun config summary code emits => ?_⟩
      obtain ⟨ops, _, _, same, -⟩ := emitStub_ok emits
      cases read.symm.trans same
  | ok ops =>
      cases found : ops.find? Op.readsResult with
      | none =>
          have whole : program.terminatedOps = .ok (ops ++ []) := by rw [read, List.append_nil]
          refine shown_of_front whole extended count ?_ ?_
          · exact fun op member => Bool.eq_false_iff.mpr (List.find?_eq_none.mp found op member)
          · intro config allocation middle after _ runs rest m
            obtain ⟨status, returns⟩ := Asm.body_returns (Cursor.terminated read) runs
            exact Assembler.not_reaches_of_returns returns m
      | some op =>
          obtain ⟨own, front, rest, rfl, apart⟩ := List.find?_eq_some_iff_append.mp found
          obtain ⟨objects, refer, outcome, ended⟩ :=
            settled ⟨_, read, op, List.mem_append_right _ (.head _), own⟩
          refine shown_of_front read extended count ?_ ?_
          · exact fun other member => Bool.eq_false_iff.mpr fun same => by
              have := apart other member
              rw [same] at this
              cases this
          · intro config allocation middle after started runs others m
            obtain ⟨next, runsOwn, -⟩ := Asm.runs_forM_cons.mp others
            obtain ⟨stop, t, stops, evaluates⟩ :=
              evaluate_eq (Cursor.terminated read) data count context
            rw [evaluates] at ended
            cases stop with
            | error error => cases ended
            | outcome outcome =>
                exact Setting.not_reaches_self
                  ⟨⟨data, config⟩, inputs, context, extended, objects, refer⟩ started runs own _
                  runsOwn stops m

end Agreement

/-- Code that holds the words of stub data and code that loads them show the same, if the int32 words
have their sign extended.  All other words may be any.  A program in which an operation reads the
operand that it defines has to end with an outcome, on words and inputs that name cells. -/
theorem policies_agree (program : StubProgram) (data : StubData) (config : CodeConfig)
    (inputs : List Value) (context : Context) {holding loading : EmitSummary × CodeBuffer}
    (extended : data.Extended) (count : inputs.length = program.inputCount.toNat)
    (settled : program.ReadsResult → data.NamesObjects ∧ (∀ v ∈ inputs, v.Refers) ∧
      ∃ outcome, (evaluate program data inputs context).ending = .ok outcome)
    (holds : emitStub program data { config with policy := .constant } = .ok holding)
    (loads : emitStub program data { config with policy := .address } = .ok loading) :
    holding.2.shown? ⟨inputs.map Value.bits, data.words⟩ context =
      loading.2.shown? ⟨inputs.map Value.bits, data.words⟩ context := by
  obtain ⟨seen, shown⟩ := emitted_codes_agree extended count settled
  exact (shown _ holding.1 holding.2 holds).trans (shown _ loading.1 loading.2 loads).symm

/-- The codes differ, for the offset of a slot and for the prototype that is expected. -/
theorem policies_agree_under_spill :
    ∃ holding loading,
      emitStub Sample.program Sample.data ⟨3, 1, 4, true, .constant, true⟩ = .ok holding ∧
      emitStub Sample.program Sample.data ⟨3, 1, 4, true, .address, true⟩ = .ok loading ∧
      Sample.data.Extended ∧
      (Sample.program.ReadsResult → Sample.data.NamesObjects ∧ (∀ v ∈ Sample.inputs, v.Refers) ∧
        ∃ outcome, (evaluate Sample.program Sample.data Sample.inputs
          ⟨Sample.heap, none⟩).ending = .ok outcome) ∧
      holding.2.insts ≠ loading.2.insts ∧
      holding.2.shown? ⟨Sample.inputs.map Value.bits, Sample.data.words⟩ ⟨Sample.heap, none⟩ =
        loading.2.shown? ⟨Sample.inputs.map Value.bits, Sample.data.words⟩ ⟨Sample.heap, none⟩ := by
  have differ : ((emitStub Sample.program Sample.data ⟨3, 1, 4, true, .constant, true⟩).toOption.bind
      fun holding => (emitStub Sample.program Sample.data ⟨3, 1, 4, true, .address, true⟩).toOption.map
        fun loading => decide (holding.2.insts ≠ loading.2.insts)) = some true := by decide +kernel
  obtain ⟨holding, holds, rest⟩ := Option.bind_eq_some_iff.mp differ
  obtain ⟨loading, loads, differ⟩ := Option.map_eq_some_iff.mp rest
  have returns : (evaluate Sample.program Sample.data Sample.inputs
      ⟨Sample.heap, none⟩).ending.toOption =
        some (.returned (.ofDouble (.ofInt 0x10000000000))) := by decide +kernel
  have settled : Sample.program.ReadsResult → Sample.data.NamesObjects ∧
      (∀ v ∈ Sample.inputs, v.Refers) ∧ ∃ outcome, (evaluate Sample.program Sample.data Sample.inputs
        ⟨Sample.heap, none⟩).ending = .ok outcome :=
    fun _ => ⟨Sample.namesObjects, Sample.refer, _, eq_ok_of_toOption returns⟩
  exact ⟨holding, loading, eq_ok_of_toOption holds, eq_ok_of_toOption loads, Sample.extended, settled,
    of_decide_eq_true differ, policies_agree _ _ ⟨3, 1, 4, true, .constant, true⟩ _ _ Sample.extended rfl
      settled (eq_ok_of_toOption holds) (eq_ok_of_toOption loads)⟩

/-- The low half of an int32 word is the offset of the second dynamic slot, and the upper half is no
extension of it: only code that holds the offset finds the slot. -/
theorem unextended_offset_divides_policies :
    let program : StubProgram := ⟨[1, 0, 1, 31, 1, 0, 0], 2, 1⟩
    let data : StubData := ⟨[0x100000008], [.rawInt32]⟩
    let shape := Heap.empty.newShape .plainObject none 0 2
    let object := shape.2.newObject shape.1
    let context : Context := ⟨object.2.setDynamicSlot object.1 1 (.ofInt32 7), none⟩
    let inputs := [.ofRef .object (Block.object object.1).address]
    let shown (policy : FieldPolicy) : Option (Option (ExitStatus × UInt64)) :=
      (emitStub program data ⟨8, 2, 16, true, policy, true⟩).toOption.map fun emitted =>
        (emitted.2.shown? ⟨inputs.map Value.bits, data.words⟩ context).map fun seen =>
          (seen.status, seen.output)
    (evaluate program data inputs context).ending = .ok (.returned (.ofInt32 7)) ∧
      shown .constant = some (some (.returned, (Value.ofInt32 7).bits)) ∧
      shown .address = some none := by
  decide +kernel

end InlineCache
