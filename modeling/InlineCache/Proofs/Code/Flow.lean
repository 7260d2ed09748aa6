import InlineCache.Code.Machine

/-!
Running code while it is made.  All jumps lead forward, so what has been emitted so far leads somewhere
definite: to a machine that goes on, to a label that is still to come, or out.  An instruction more is
a step more.
-/

namespace InlineCache

/-- The second machine shows the same to the outside. -/
structure Machine.Alike (first second : Machine) : Prop where
  output : second.output = first.output
  context : second.context = first.context
  reads : second.reads = first.reads

theorem Machine.Alike.refl (machine : Machine) : machine.Alike machine :=
  ⟨rfl, rfl, rfl⟩

theorem Machine.Alike.trans {a b c : Machine} (first : a.Alike b) (second : b.Alike c) :
    a.Alike c :=
  ⟨second.output.trans first.output, second.context.trans first.context,
    second.reads.trans first.reads⟩

/-- Where a run over the code so far has got. -/
inductive Flow
  | running (pending : Option Label) (machine : Machine)
  | exited (status : ExitStatus) (machine : Machine)
  | faulted

namespace Flow

def ofEffect : Effect → Flow
  | .next machine => .running none machine
  | .jump label machine => .running (some label) machine
  | .exit status machine => .exited status machine
  | .fault => .faulted

def step (entry : Entry) : Flow → Inst → Flow
  | .running none machine, inst => ofEffect (inst.exec entry machine)
  | .running (some label) machine, inst =>
      .running (if inst = .bind label then none else some label) machine
  | .exited status machine, _ => .exited status machine
  | .faulted, _ => .faulted

/-- What a run gives that has got somewhere when the code ends. -/
def result? : Flow → Option (ExitStatus × Machine)
  | .exited status machine => some (status, machine)
  | .running _ _ | .faulted => none

@[simp] theorem step_running (entry : Entry) (machine : Machine) (inst : Inst) :
    (running none machine).step entry inst = ofEffect (inst.exec entry machine) := rfl

theorem foldl_exited (entry : Entry) (insts : List Inst) (status : ExitStatus)
    (machine : Machine) :
    insts.foldl (step entry) (.exited status machine) = .exited status machine := by
  induction insts with
  | nil => rfl
  | cons inst insts ih => exact ih

theorem foldl_faulted (entry : Entry) (insts : List Inst) :
    insts.foldl (step entry) .faulted = .faulted := by
  induction insts with
  | nil => rfl
  | cons inst insts ih => exact ih

/-- A label that is not bound in a stretch of code is still to come after it. -/
theorem foldl_pending (entry : Entry) {insts : List Inst} {label : Label} (machine : Machine)
    (unbound : .bind label ∉ insts) :
    insts.foldl (step entry) (.running (some label) machine) = .running (some label) machine := by
  induction insts with
  | nil => rfl
  | cons inst insts ih =>
      rw [List.mem_cons, not_or] at unbound
      rw [List.foldl_cons, step, if_neg (Ne.symm unbound.1)]
      exact ih unbound.2

end Flow

/-- A run over all of the code is a step for each instruction. -/
theorem runCode_eq (entry : Entry) (insts : List Inst) (pending : Option Label)
    (machine : Machine) :
    runCode entry insts pending machine =
      (insts.foldl (Flow.step entry) (.running pending machine)).result? := by
  induction insts generalizing pending machine with
  | nil => rfl
  | cons inst insts ih =>
      cases pending with
      | some label =>
          rw [runCode, ih]
          rfl
      | none =>
          rw [runCode, List.foldl_cons, Flow.step_running]
          cases effect : inst.exec entry machine with
          | next machine | jump label machine => exact ih ..
          | exit status machine =>
              simp only [Flow.ofEffect, Flow.foldl_exited, Flow.result?]
          | fault => simp only [Flow.ofEffect, Flow.foldl_faulted, Flow.result?]

namespace CodeBuffer

/-- Where code leads from a machine. -/
def flow (entry : Entry) (origin : Machine) (buffer : CodeBuffer) : Flow :=
  buffer.insts.toList.foldl (Flow.step entry) (.running none origin)

@[simp] theorem flow_emit (entry : Entry) (origin : Machine) (buffer : CodeBuffer) (inst : Inst) :
    (buffer.emit inst).flow entry origin = (buffer.flow entry origin).step entry inst := by
  simp only [flow, emit, Array.toList_push, List.foldl_append, List.foldl_cons, List.foldl_nil]

theorem flow_emit_effect {entry : Entry} {origin m : Machine} {buffer : CodeBuffer} {effect : Effect}
    (flow : buffer.flow entry origin = .running none m) (inst : Inst)
    (exec : inst.exec entry m = effect) :
    (buffer.emit inst).flow entry origin = Flow.ofEffect effect := by
  rw [flow_emit, flow, Flow.step_running, exec]

theorem flow_emit_skip {entry : Entry} {origin m : Machine} {buffer : CodeBuffer} {label : Label}
    (flow : buffer.flow entry origin = .running (some label) m) (inst : Inst)
    (plain : inst ≠ .bind label) :
    (buffer.emit inst).flow entry origin = .running (some label) m := by
  rw [flow_emit, flow, Flow.step, if_neg plain]

theorem flow_emit_land {entry : Entry} {origin m : Machine} {buffer : CodeBuffer} {label : Label}
    (flow : buffer.flow entry origin = .running (some label) m) :
    (buffer.emit (.bind label)).flow entry origin = .running none m := by
  rw [flow_emit, flow, Flow.step, if_pos rfl]

/-- What has left, or has faulted, stays where it is. -/
theorem flow_emit_settled {entry : Entry} {origin : Machine} {buffer : CodeBuffer} {flow : Flow}
    (settled : ∀ inst, flow.step entry inst = flow) (led : buffer.flow entry origin = flow)
    (inst : Inst) : (buffer.emit inst).flow entry origin = flow := by
  rw [flow_emit, led, settled]

end CodeBuffer

end InlineCache
