import InlineCache.Proofs.Emit.Exits
import InlineCache.Proofs.Emit.Stubs
import InlineCache.Proofs.Sim.Inputs
import InlineCache.Proofs.Sim.Ops

/-!
Whole runs.  The code of a stub, run on inputs, leaves as the evaluation of the stub on the same inputs
ends, and with the same context.
-/

namespace InlineCache

namespace Eval

/-- Carries out operations in turn. -/
def ops (data : StubData) (ops : List Op) : Eval Unit :=
  ops.forM (·.eval data)

theorem ops_cons (data : StubData) (op : Op) (rest : List Op) :
    ops data (op :: rest) = (op.eval data >>= fun _ => ops data rest) :=
  rfl

/-- Operations up to a terminal one do stop, and reading them one by one stops in the same way. -/
theorem fromCursor_eq (data : StubData) {cursor : Cursor} {read : List Op}
    (terminated : cursor.Terminated read) (s : EvalState) :
    ∃ stop t, ops data read s = (.error stop, t) ∧ fromCursor data cursor s = (.error stop, t) := by
  induction terminated generalizing s with
  | last reads terminal =>
      refine ⟨.outcome (.returned s.output), s, ?_, ?_⟩
      · rw [ops_cons, bind_apply, eval_terminal terminal]
      · rw [fromCursor, reads]
        dsimp only
        rw [bind_apply, eval_terminal terminal]
  | @cons cursor next op rest reads _ _ ih =>
      cases first : op.eval data s with
      | mk ending t =>
          have onward : fromCursor data cursor s =
              (op.eval data >>= fun _ => fromCursor data next) s := by
            rw [fromCursor, reads]
          rw [onward, ops_cons, bind_apply, bind_apply, first]
          cases ending with
          | ok _ => exact ih t
          | error stop => exact ⟨stop, t, rfl, rfl⟩

end Eval

/-- An evaluation on the right number of inputs defines the inputs and carries out the operations. -/
theorem evaluate_eq {program : StubProgram} {read : List Op}
    (terminated : (Cursor.start program.code).Terminated read) (data : StubData)
    {inputs : List Value} (count : inputs.length = program.inputCount.toNat) (context : Context) :
    ∃ stop t, (Eval.defineInputs 0 inputs >>= fun _ => Eval.ops data read)
        ⟨.empty program.operandCount.toNat, .undefined, context⟩ = (.error stop, t) ∧
      evaluate program data inputs context = ⟨stop.ending, t⟩ := by
  rw [evaluate, if_neg (fun differs => differs count)]
  simp only [Eval.bind_apply]
  cases defines : Eval.defineInputs 0 inputs
      ⟨.empty program.operandCount.toNat, .undefined, context⟩ with
  | mk ending s =>
      cases ending with
      | error stop =>
          refine ⟨stop, s, rfl, ?_⟩
          cases stop <;> rfl
      | ok _ =>
          obtain ⟨stop, t, carried, reads⟩ := Eval.fromCursor_eq data terminated s
          refine ⟨stop, t, carried, ?_⟩
          simp only [reads]
          cases stop <;> rfl

variable {trusted : Bool} {setting : Setting trusted} {s : EvalState} {state after : Assembler}
  {m : Machine}

/-- Code that has ended as an evaluation does goes nowhere else. -/
theorem Ends.grows {stop : Stop} (ends : Ends setting state (.error stop, s))
    (grows : state.Grows after) (sound : after.Sound) : Ends setting after (.error stop, s) := by
  have left (leaves : ∀ status, stop.exit? = some status → Leaves setting status s.context state) :
      ∀ status, stop.exit? = some status → Leaves setting status s.context after :=
    fun status exit => (leaves status exit).grows grows sound
  cases stop with
  | error error => exact left ends
  | outcome outcome =>
      cases outcome with
      | bailout | exception => exact left ends
      | unsupportedOp => exact ends
      | returned v =>
          obtain ⟨n, flow, output, context⟩ := ends
          obtain ⟨rest, code⟩ := grows.code
          refine ⟨n, ?_, output, context⟩
          rw [CodeBuffer.flow] at flow
          rw [CodeBuffer.flow, ← code, List.foldl_append, flow]
          exact Flow.foldl_exited _ _ _ _

theorem Carries.emitOp (carries : Carries setting s .none none state m) (sound : state.Sound)
    {op : Op × Nat} (runs : (Asm.emitOp setting.env op).Runs state () after)
    (follows : Follows setting s .none (op.1.emit setting.env) (op.1.eval setting.env.data s)) :
    Ends setting after (op.1.eval setting.env.data s) ∧ after.Sound := by
  obtain ⟨-, keeps⟩ := Asm.emitOp_tidy setting.env op _ _ _ runs
  have soundAfter := keeps sound fun _ member => nomatch member
  obtain ⟨begun, begins, emits⟩ := Asm.runs_emitOp runs
  obtain ⟨n, sheds⟩ := Asm.beginOp_sheds begins carries.balanced carries.reached
  have ready := carries.of_sheds sheds (Asm.beginOp_balanced begins carries.balanced)
  exact ⟨follows begun n after ready emits soundAfter, soundAfter⟩

/-- The code of an operation follows its evaluation in whatever state it begins. -/
def Op.Followed (setting : Setting trusted) (op : Op) : Prop :=
  ∀ s, Follows setting s .none (op.emit setting.env) (op.eval setting.env.data s)

/-- The code of operations follows their evaluation. -/
theorem Carries.emitOps (carries : Carries setting s .none none state m) (sound : state.Sound)
    {ops : List (Op × Nat)} (followed : ∀ op ∈ ops, op.1.Followed setting)
    (runs : (ops.forM (Asm.emitOp setting.env)).Runs state () after) :
    Ends setting after (Eval.ops setting.env.data (ops.map Prod.fst) s) := by
  induction ops generalizing state s m with
  | nil =>
      cases Asm.runs_forM_nil.mp runs
      exact ⟨m, carries⟩
  | cons op rest ih =>
      obtain ⟨middle, first, others⟩ := Asm.runs_forM_cons.mp runs
      obtain ⟨ends, soundMiddle⟩ := carries.emitOp sound first (followed op (.head _) s)
      rw [List.map_cons, Eval.ops_cons, Eval.bind_apply]
      cases evaluates : op.1.eval setting.env.data s with
      | mk ending t =>
          rw [evaluates] at ends
          cases ending with
          | ok _ =>
              obtain ⟨n, carried⟩ := ends
              exact ih carried soundMiddle (fun other member => followed other (.tail _ member)) others
          | error stop =>
              obtain ⟨grows, keeps⟩ :=
                Asm.Tidy.forM (fun op => Asm.emitOp_tidy setting.env op) rest _ _ _ others
              exact ends.grows grows (keeps soundMiddle fun _ member => nomatch member)

/-- The code before the first operation follows the definition of the inputs. -/
theorem Setting.ends_prologue (setting : Setting trusted) {listed : List Op} {count : Nat}
    {allocation : Allocation}
    (started : Allocation.start listed count setting.env.config = .ok allocation)
    (runs : (Asm.prologue setting.inputs.length).Runs (.start allocation) () after) :
    after.Sound ∧
      Ends setting after (Eval.defineInputs 0 setting.inputs
        ⟨.empty count, .undefined, setting.context⟩) := by
  obtain ⟨-, keeps⟩ := Asm.prologue_tidy _ _ _ _ runs
  have sound := keeps (.start allocation) fun _ member => nomatch member
  exact ⟨sound, Follows.prologue rfl _ _ _ (Carries.start started count) runs sound⟩

/-- Where the code of each operation follows, the code of a stub does, and so does the code of its first
operations. -/
theorem Setting.ends_followed (setting : Setting trusted) {listed ops : List Op} {count : Nat}
    {allocation : Allocation} (followed : ∀ op ∈ ops, op.Followed setting)
    (started : Allocation.start listed count setting.env.config = .ok allocation)
    (runs : (Asm.body setting.env setting.inputs.length ops).Runs (.start allocation) () after) :
    after.Sound ∧
      Ends setting after ((Eval.defineInputs 0 setting.inputs >>= fun _ =>
        Eval.ops setting.env.data ops) ⟨.empty count, .undefined, setting.context⟩) := by
  obtain ⟨middle, first, rest⟩ := Asm.runs_body.mp runs
  obtain ⟨soundMiddle, ends⟩ := setting.ends_prologue started first
  obtain ⟨grows, keeps⟩ :=
    Asm.Tidy.forM (fun op => Asm.emitOp_tidy setting.env op) ops.zipIdx _ _ _ rest
  have sound := keeps soundMiddle fun _ member => nomatch member
  refine ⟨sound, ?_⟩
  rw [Eval.bind_apply]
  cases defines : Eval.defineInputs 0 setting.inputs ⟨.empty count, .undefined, setting.context⟩ with
  | mk ending s =>
      rw [defines] at ends
      cases ending with
      | error stop => exact ends.grows grows sound
      | ok _ =>
          obtain ⟨n, carries⟩ := ends
          have behind := carries.emitOps soundMiddle
            (fun op member => followed op.1 (List.fst_mem_of_mem_zipIdx member)) rest
          rwa [List.zipIdx_map_fst] at behind

theorem Setting.ends_body (setting : Setting) {listed ops : List Op} {count : Nat}
    {allocation : Allocation}
    (started : Allocation.start listed count setting.env.config = .ok allocation)
    (runs : (Asm.body setting.env setting.inputs.length ops).Runs (.start allocation) () after) :
    after.Sound ∧
      Ends setting after ((Eval.defineInputs 0 setting.inputs >>= fun _ =>
        Eval.ops setting.env.data ops) ⟨.empty count, .undefined, setting.context⟩) :=
  setting.ends_followed (fun op _ s => op.follows setting s) started runs

/-- With the exit paths behind it, code that leads to where an evaluation has stopped leaves. -/
theorem Ends.exits {stop : Stop} (ends : Ends setting state (.error stop, s)) (sound : state.Sound)
    {status : ExitStatus} (exit : stop.exit? = some status) :
    ∃ n, (state.exits.emit state.buffer).flow setting.entry setting.origin = .exited status n ∧
      n.context = s.context := by
  have leaves : Leaves setting status s.context state := by
    cases stop with
    | error error => exact ends status exit
    | outcome outcome =>
        cases outcome with
        | bailout | exception => exact ends status exit
        | unsupportedOp | returned v => cases exit
  obtain ⟨path, listed, rfl, m, flow, context⟩ := leaves
  obtain ⟨n, exits, alike⟩ := ExitPaths.emit_leaves listed sound.given sound.distinct flow
  exact ⟨n, exits, alike.context.trans context⟩

theorem Ends.run_exits {stop : Stop} (ends : Ends setting state (.error stop, s)) (sound : state.Sound)
    {status : ExitStatus} (exit : stop.exit? = some status) :
    ∃ n, runCode setting.entry (state.exits.emit state.buffer).insts.toList none setting.origin =
      some (status, n) ∧ n.context = s.context := by
  obtain ⟨n, flow, context⟩ := ends.exits sound exit
  rw [CodeBuffer.flow] at flow
  exact ⟨n, by rw [runCode_eq, flow]; rfl, context⟩

end InlineCache
