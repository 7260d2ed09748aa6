import InlineCache.Proofs.Sim.Run

/-!
Compiled code agrees with evaluation.  Whatever registers, slots and policy a stub is compiled for, its
code leaves with the status, the output and the context with which the evaluation ends.
-/

namespace InlineCache

namespace StubData

/-- The int32 words have their sign extended. -/
def Extended (data : StubData) : Prop :=
  ∀ offset word, data.wordOf? offset .rawInt32 = .ok word → Word.signExtend word = word

/-- The object words that name anything have addresses of objects. -/
def NamesObjects (data : StubData) : Prop :=
  ∀ offset word, data.wordOf? offset .object = .ok word → word ≠ 0 →
    ∃ id, word = (Block.object id).address

end StubData

/-- A run of code answers an evaluation: it leaves with the status of the outcome and with the context,
and with the value if one is returned.  Of the errors, only a number that is none has an answer. -/
def EvalResult.AnsweredBy (result : EvalResult) (run : Option (ExitStatus × Machine)) : Prop :=
  match result.ending with
  | .ok (.returned v) =>
      ∃ m, run = some (.returned, m) ∧ m.output = v.bits ∧ m.context = result.state.context
  | .ok .bailout => ∃ m, run = some (.bailout, m) ∧ m.context = result.state.context
  | .ok .exception => ∃ m, run = some (.exception, m) ∧ m.context = result.state.context
  | .ok .unsupportedOp => False
  | .error (.malformed (.notANumber _ _)) =>
      ∃ m, run = some (.malformed, m) ∧ m.context = result.state.context
  | .error _ => True

/-- Where the code of a stub ends, the run of it with the exit paths answers. -/
theorem Ends.answered {trusted : Bool} {setting : Setting trusted} {s : EvalState} {state : Assembler} {stop : Stop}
    (ends : Ends setting state (.error stop, s)) (sound : state.Sound) :
    EvalResult.AnsweredBy ⟨stop.ending, s⟩
      (runCode setting.entry (state.exits.emit state.buffer).insts.toList none setting.origin) := by
  have leaves {status : ExitStatus} (exit : stop.exit? = some status) :
      ∃ m, runCode setting.entry (state.exits.emit state.buffer).insts.toList none setting.origin =
        some (status, m) ∧ m.context = s.context := ends.run_exits sound exit
  cases stop with
  | outcome outcome =>
      cases outcome with
      | bailout | exception => exact leaves rfl
      | unsupportedOp => exact ends
      | returned v =>
          obtain ⟨m, flow, output, context⟩ := ends
          have exited := ExitPaths.emit_settled (fun _ => rfl) state.exits flow
          rw [CodeBuffer.flow] at exited
          exact ⟨m, by rw [runCode_eq, exited]; rfl, output, context⟩
  | error error =>
      cases error with
      | malformed misuse =>
          cases misuse with
          | notANumber id type => exact leaves rfl
          | _ => trivial
      | _ => trivial

/-- Where the code of each operation of a stub follows, the code of the stub answers. -/
theorem Setting.answers_followed {trusted : Bool} (setting : Setting trusted) {program : StubProgram}
    {ops : List Op} {summary : EmitSummary} {buffer : CodeBuffer}
    (read : program.terminatedOps = .ok ops) (followed : ∀ op ∈ ops, op.Followed setting)
    (count : setting.inputs.length = program.inputCount.toNat)
    (emits : emitStub program setting.env.data setting.env.config = .ok (summary, buffer)) :
    (evaluate program setting.env.data setting.inputs setting.context).AnsweredBy
      (runCode setting.entry buffer.insts.toList none setting.origin) := by
  obtain ⟨listed, allocation, state, listedRead, -, started, runs, -, rfl⟩ := emitStub_ok emits
  cases read.symm.trans listedRead
  have terminated := Cursor.terminated read
  rw [← count] at runs
  obtain ⟨sound, ends⟩ := setting.ends_followed followed started runs
  obtain ⟨stop, s, stops, evaluates⟩ := evaluate_eq terminated setting.env.data count setting.context
  rw [stops] at ends
  rw [evaluates]
  exact ends.answered sound

theorem Setting.answers (setting : Setting) {program : StubProgram} {summary : EmitSummary}
    {buffer : CodeBuffer} (count : setting.inputs.length = program.inputCount.toNat)
    (emits : emitStub program setting.env.data setting.env.config = .ok (summary, buffer)) :
    (evaluate program setting.env.data setting.inputs setting.context).AnsweredBy
      (runCode setting.entry buffer.insts.toList none setting.origin) := by
  obtain ⟨_, _, _, read, -⟩ := emitStub_ok emits
  exact setting.answers_followed read (fun op _ s => op.follows setting s) count emits

/-- The code of a stub answers the evaluation of the stub on inputs that refer to nothing but cells. -/
theorem compiled_run_agrees (program : StubProgram) (data : StubData) (config : CodeConfig)
    (inputs : List Value) (context : Context) {summary : EmitSummary} {buffer : CodeBuffer}
    (extended : data.Extended) (objects : data.NamesObjects) (refer : ∀ v ∈ inputs, v.Refers)
    (count : inputs.length = program.inputCount.toNat)
    (emits : emitStub program data config = .ok (summary, buffer)) :
    (evaluate program data inputs context).AnsweredBy
      (runCode ⟨inputs.map Value.bits, data.words⟩ buffer.insts.toList none (.start context)) :=
  Setting.answers ⟨⟨data, config⟩, inputs, context, extended, objects, refer⟩ count emits

/-! A stub that guards an object by its prototype, makes an index of a number, and loads a slot. -/

namespace Sample

def program : StubProgram :=
  ⟨[1, 0, 2, 19, 2, 1, 14, 1, 0, 3, 30, 2, 0, 42, 3, 0], 4, 2⟩

def data : StubData :=
  ⟨[32, (Block.object 0).address], [.rawInt32, .object]⟩

/-- An object with a fixed slot, after the object that is its prototype. -/
def heap : Heap :=
  let (bare, heap) := Heap.empty.newShape .plainObject none 0 0
  let (proto, heap) := heap.newObject bare
  let (shape, heap) := heap.newShape .plainObject (some proto) 1 1
  let (object, heap) := heap.newObject shape
  heap.setFixedSlot object 0 (.ofInt32 7)

def inputs : List Value :=
  [.ofRef .object (Block.object 1).address, .ofDouble (.ofInt 0x10000000000)]

theorem extended : data.Extended := by
  have all : ∀ pair ∈ data.words.zip data.types, pair.2 = .rawInt32 →
      Word.signExtend pair.1 = pair.1 := by decide
  exact fun _ word found => all (word, .rawInt32) (StubData.mem_of_wordOf? found) rfl

theorem namesObjects : data.NamesObjects := by
  have all : ∀ pair ∈ data.words.zip data.types, pair.2 = .object →
      pair.1 = (Block.object 0).address := by decide
  exact fun _ word found _ => ⟨0, all (word, .object) (StubData.mem_of_wordOf? found) rfl⟩

theorem refer : ∀ v ∈ inputs, v.Refers := by
  have all : ∀ v ∈ inputs, ∀ kind ∈ RefKind.all, v.isRef kind = true →
      v.payload = (kind.block 1).address := by decide +kernel
  exact fun v member kind refers => ⟨1, all v member kind (by cases kind <;> decide) refers⟩

end Sample

/-- With three registers an operand is spilled, and the slot's offset is loaded from the stub data. -/
theorem compiled_run_agrees_under_spill :
    ∃ summary buffer,
      emitStub Sample.program Sample.data ⟨3, 1, 4, true, .address, true⟩ = .ok (summary, buffer) ∧
      summary.slots = 1 ∧ Sample.data.Extended ∧ Sample.data.NamesObjects ∧
      (∀ v ∈ Sample.inputs, v.Refers) ∧
      (evaluate Sample.program Sample.data Sample.inputs ⟨Sample.heap, none⟩).ending.toOption =
        some (.returned (.ofDouble (.ofInt 0x10000000000))) ∧
      (evaluate Sample.program Sample.data Sample.inputs ⟨Sample.heap, none⟩).AnsweredBy
        (runCode ⟨Sample.inputs.map Value.bits, Sample.data.words⟩ buffer.insts.toList none
          (.start ⟨Sample.heap, none⟩)) := by
  have succeeds : (emitStub Sample.program Sample.data
      ⟨3, 1, 4, true, .address, true⟩).toOption.map (·.1.slots) = some 1 := by decide +kernel
  obtain ⟨⟨summary, buffer⟩, emitted, slots⟩ := Option.map_eq_some_iff.mp succeeds
  have emits := eq_ok_of_toOption emitted
  have returns : (evaluate Sample.program Sample.data Sample.inputs
      ⟨Sample.heap, none⟩).ending.toOption =
        some (.returned (.ofDouble (.ofInt 0x10000000000))) := by decide +kernel
  exact ⟨summary, buffer, emits, slots, Sample.extended, Sample.namesObjects, Sample.refer, returns,
    compiled_run_agrees _ _ _ _ _ Sample.extended Sample.namesObjects Sample.refer rfl emits⟩

end InlineCache
