import InlineCache.Proofs.Emit.Stubs

/-!
Code that loads the words of stub data when it runs does not depend on them.  The words are looked at
while it is emitted, and some are turned down, but whatever is emitted is the same for all the others.
-/

namespace InlineCache

namespace Asm

/-- Two stretches that leave the same state whenever both succeed in one, with answers that belong
together. -/
def Concur (first : Asm α) (second : Asm β) (pairs : α → β → Prop) : Prop :=
  ∀ (state left right : Assembler) (a : α) (b : β), first.Runs state a left →
    second.Runs state b right → left = right ∧ pairs a b

namespace Concur

theorem refl (stretch : Asm α) : Concur stretch stretch Eq := by
  intro state left right a b ranLeft ranRight
  cases ranLeft.symm.trans ranRight
  exact ⟨rfl, rfl⟩

theorem bind {first : Asm α} {second : Asm β} {pairs : α → β → Prop} {next : α → Asm γ}
    {other : β → Asm δ} {results : γ → δ → Prop} (starts : Concur first second pairs)
    (continues : ∀ a b, pairs a b → Concur (next a) (other b) results) :
    Concur (first >>= next) (second >>= other) results := by
  intro state left right c d ranLeft ranRight
  obtain ⟨a, middle, starting, rest⟩ := runs_bind.mp ranLeft
  obtain ⟨b, _, starting', rest'⟩ := runs_bind.mp ranRight
  obtain ⟨rfl, paired⟩ := starts _ _ _ _ _ starting starting'
  exact continues a b paired _ _ _ _ _ rest rest'

/-- The same stretch on both sides, and then two that go together whatever it answers. -/
theorem after (stretch : Asm α) {next other : α → Asm β} {results : β → β → Prop}
    (continues : ∀ a, Concur (next a) (other a) results) :
    Concur (stretch >>= next) (stretch >>= other) results :=
  (refl stretch).bind fun a b same => by
    cases same
    exact continues a

/-- Stretches that keep the state they succeed in. -/
theorem still {first : Asm α} {second : Asm β}
    (firstKeeps : ∀ {state after a}, first.Runs state a after → after = state)
    (secondKeeps : ∀ {state after b}, second.Runs state b after → after = state) :
    Concur first second fun _ _ => True := by
  intro state left right a b ranLeft ranRight
  exact ⟨(firstKeeps ranLeft).trans (secondKeeps ranRight).symm, trivial⟩

end Concur

section Fields

variable {config : CodeConfig} {first second : StubData}

theorem Concur.typedWord (field : Field) (type : FieldType) :
    Concur (typedWord ⟨first, config⟩ field type) (typedWord ⟨second, config⟩ field type)
      fun _ _ => True := by
  have keeps {data : StubData} {state after : Assembler} {word : UInt64}
      (runs : (Asm.typedWord ⟨data, config⟩ field type).Runs state word after) : after = state := by
    rw [Asm.typedWord] at runs
    split at runs
    · exact (runs_pure.mp runs).2.symm
    · exact absurd runs not_runs_throw
  exact .still keeps keeps

theorem Concur.int32Word (field : Field) :
    Concur (int32Word ⟨first, config⟩ field) (int32Word ⟨second, config⟩ field)
      fun _ _ => True := by
  have keeps {data : StubData} {state after : Assembler} {n : Int32}
      (runs : (Asm.int32Word ⟨data, config⟩ field).Runs state n after) : after = state := by
    rw [Asm.int32Word] at runs
    split at runs
    · exact (runs_pure.mp runs).2.symm
    · exact absurd runs not_runs_throw
  exact .still keeps keeps

theorem Concur.checkFixedSlot (n m : Int32) :
    Concur (checkFixedSlot n) (checkFixedSlot m) fun _ _ => True := by
  have keeps {n : Int32} {state after : Assembler} {answer : Unit}
      (runs : (Asm.checkFixedSlot n).Runs state answer after) : after = state := by
    simp only [Asm.checkFixedSlot] at runs
    split at runs
    · exact absurd runs not_runs_reject
    · exact (runs_pure.mp runs).2.symm
  exact .still keeps keeps

theorem Concur.checkDynamicSlot (n m : Int32) :
    Concur (checkDynamicSlot n) (checkDynamicSlot m) fun _ _ => True := by
  have keeps {n : Int32} {state after : Assembler} {answer : Unit}
      (runs : (Asm.checkDynamicSlot n).Runs state answer after) : after = state := by
    simp only [Asm.checkDynamicSlot] at runs
    split at runs
    · exact absurd runs not_runs_reject
    · exact (runs_pure.mp runs).2.symm
  exact .still keeps keeps

variable (loads : config.policy = .address)
include loads

theorem wordSource_of_loads (data : StubData) (field : Field) (word : UInt64) :
    wordSource ⟨data, config⟩ field word = (do
      let reg ← allocateRegister
      emit (.loadStubWord reg field.offset)
      return .reg reg) := by
  rw [wordSource, loads]

theorem loadWord_of_loads (data : StubData) (dst : Register) (field : Field) (word : UInt64) :
    loadWord ⟨data, config⟩ dst field word = emit (.loadStubWord dst field.offset) := by
  rw [loadWord, loads]

theorem Concur.wordSource (field : Field) (word other : UInt64) :
    Concur (wordSource ⟨first, config⟩ field word) (wordSource ⟨second, config⟩ field other) Eq := by
  rw [wordSource_of_loads loads, wordSource_of_loads loads]
  exact .refl _

theorem Concur.fieldSource (field : Field) (type : FieldType) :
    Concur (fieldSource ⟨first, config⟩ field type) (fieldSource ⟨second, config⟩ field type)
      Eq :=
  (Concur.typedWord field type).bind fun _ _ _ => .wordSource loads field _ _

theorem Concur.int32Source (field : Field) :
    Concur (int32Source ⟨first, config⟩ field) (int32Source ⟨second, config⟩ field)
      fun a b => a.2 = b.2 :=
  (Concur.int32Word field).bind fun n m _ =>
    (Concur.wordSource loads field (Word.ofInt32 n) (Word.ofInt32 m)).bind fun a b same => by
      cases same
      intro _ _ _ _ _ ran ran'
      obtain ⟨rfl, rfl⟩ := runs_pure.mp ran
      obtain ⟨rfl, rfl⟩ := runs_pure.mp ran'
      exact ⟨rfl, rfl⟩

theorem Concur.loadWord (dst : Register) (field : Field) (word other : UInt64) :
    Concur (loadWord ⟨first, config⟩ dst field word) (loadWord ⟨second, config⟩ dst field other)
      Eq := by
  rw [loadWord_of_loads loads, loadWord_of_loads loads]
  exact .refl _

theorem Concur.guardShape (object : OperandId) (shape : Field) :
    Concur (guardShape ⟨first, config⟩ object shape) (guardShape ⟨second, config⟩ object shape)
      Eq := by
  refine .after (useRegister object) fun reg => ?_
  refine (Concur.fieldSource loads shape .shape).bind fun expected _ same => ?_
  cases same
  exact .refl _

theorem Concur.guardProto (object : OperandId) (proto : Field) :
    Concur (guardProto object (Asm.fieldSource ⟨first, config⟩ proto .object))
      (guardProto object (Asm.fieldSource ⟨second, config⟩ proto .object)) Eq := by
  refine .after (useRegister object) fun reg => ?_
  refine (Concur.fieldSource loads proto .object).bind fun expected _ same => ?_
  cases same
  exact .refl _

theorem Concur.guardAnyClass (object : OperandId) (field : Field) :
    Concur
      (do guardClass ⟨first, config⟩ object (← Asm.fieldSource ⟨first, config⟩ field .descriptor))
      (do guardClass ⟨second, config⟩ object (← Asm.fieldSource ⟨second, config⟩ field .descriptor))
      Eq := by
  refine (Concur.fieldSource loads field .descriptor).bind fun expected _ same => ?_
  cases same
  exact .refl _

theorem Concur.hasClass (object : OperandId) (field : Field) :
    Concur (hasClass ⟨first, config⟩ object field) (hasClass ⟨second, config⟩ object field)
      Eq := by
  refine .after (useRegister object) fun reg => ?_
  refine (Concur.fieldSource loads field .descriptor).bind fun expected _ same => ?_
  cases same
  exact .refl _

theorem Concur.guardDynamicSlot (object : OperandId) (offset value : Field) :
    Concur (guardDynamicSlot ⟨first, config⟩ object offset value)
      (guardDynamicSlot ⟨second, config⟩ object offset value) Eq := by
  refine .after (useRegister object) fun reg => ?_
  refine (Concur.int32Source loads offset).bind fun ⟨n, source⟩ ⟨m, other⟩ same => ?_
  cases same
  refine (Concur.checkDynamicSlot n m).bind fun _ _ _ => ?_
  refine .after (loadDynamicSlot reg source) fun actual => .after (releaseSource source) fun _ => ?_
  refine (Concur.fieldSource loads value .value).bind fun expected _ same => ?_
  cases same
  exact .refl _

theorem Concur.loadFixedSlotResult (object : OperandId) (offset : Field) :
    Concur (loadFixedSlotResult ⟨first, config⟩ object offset)
      (loadFixedSlotResult ⟨second, config⟩ object offset) Eq := by
  refine .after (useRegister object) fun reg => ?_
  refine (Concur.int32Source loads offset).bind fun ⟨n, source⟩ ⟨m, other⟩ same => ?_
  cases same
  exact (Concur.checkFixedSlot n m).bind fun _ _ _ => .refl _

theorem Concur.loadDynamicSlotResult (object : OperandId) (offset : Field) :
    Concur (loadDynamicSlotResult ⟨first, config⟩ object offset)
      (loadDynamicSlotResult ⟨second, config⟩ object offset) Eq := by
  refine .after (useRegister object) fun reg => ?_
  refine (Concur.int32Source loads offset).bind fun ⟨n, source⟩ ⟨m, other⟩ same => ?_
  cases same
  exact (Concur.checkDynamicSlot n m).bind fun _ _ _ => .refl _

theorem Concur.loadObject (field : Field) (result : OperandId) :
    Concur (loadObject ⟨first, config⟩ field result) (loadObject ⟨second, config⟩ field result)
      Eq := by
  refine (Concur.typedWord field .object).bind fun word other _ => ?_
  by_cases null : word = 0
  · rw [if_pos null]
    exact fun _ _ _ _ _ ran => absurd ran not_runs_reject
  by_cases null' : other = 0
  · rw [if_pos null']
    exact fun _ _ _ _ _ _ ran => absurd ran not_runs_reject
  rw [if_neg null, if_neg null']
  exact .after (definePayloadReg result .object) fun dst => .loadWord loads dst field word other

theorem Concur.loadInt32Constant (field : Field) (result : OperandId) :
    Concur (loadInt32Constant ⟨first, config⟩ field result)
      (loadInt32Constant ⟨second, config⟩ field result) Eq :=
  (Concur.int32Word field).bind fun _ _ _ =>
    .after (definePayloadReg result .int32) fun dst => .loadWord loads dst field _ _

end Fields

end Asm

section Sharing

variable {config : CodeConfig} (loads : config.policy = .address) (first second : StubData)
include loads

open Asm in
/-- The code of an operation is the same for all stub data that it accepts. -/
theorem Op.emit_concurs (op : Op) :
    Concur (op.emit ⟨first, config⟩) (op.emit ⟨second, config⟩) Eq := by
  obtain ⟨opcode, args⟩ := op
  cases opcode with
  | guardShape => exact .guardShape loads _ _
  | guardProto => exact .guardProto loads _ _
  | guardAnyClass => exact .guardAnyClass loads _ _
  | hasClassResult => exact .hasClass loads _ _
  | guardDynamicSlotValue => exact .guardDynamicSlot loads _ _ _
  | loadFixedSlotResult => exact .loadFixedSlotResult loads _ _
  | loadDynamicSlotResult => exact .loadDynamicSlotResult loads _ _
  | loadObject => exact .loadObject loads _ _
  | loadInt32Constant => exact .loadInt32Constant loads _ _
  | _ => exact .refl _

open Asm in
theorem Asm.emitOp_concurs (op : Op × Nat) :
    Concur (emitOp ⟨first, config⟩ op) (emitOp ⟨second, config⟩ op) Eq :=
  .after (beginOp op.2) fun _ =>
    (Op.emit_concurs loads first second op.1).bind fun _ _ _ => .refl checkAliasing

open Asm in
theorem Asm.forM_emitOp_concurs (ops : List (Op × Nat)) :
    Concur (ops.forM (emitOp ⟨first, config⟩)) (ops.forM (emitOp ⟨second, config⟩)) Eq := by
  induction ops with
  | nil => exact .refl _
  | cons op ops ih => exact (emitOp_concurs loads first second op).bind fun _ _ _ => ih

open Asm in
theorem Asm.body_concurs (inputCount : Nat) (ops : List Op) :
    Concur (body ⟨first, config⟩ inputCount ops) (body ⟨second, config⟩ inputCount ops) Eq :=
  .after (prologue inputCount) fun _ => forM_emitOp_concurs loads first second _

end Sharing

/-- Code that loads the words of stub data is shared by all data of one layout: whatever is emitted
for one is what is emitted for any other, and so is what is compiled. -/
theorem loading_code_is_independent_of_data (program : StubProgram) (config : CodeConfig)
    (loads : config.policy = .address) (first second : StubData)
    (layout : first.types = second.types) (emitted other : EmitSummary × CodeBuffer)
    (emits : emitStub program first config = .ok emitted)
    (emitsOther : emitStub program second config = .ok other) :
    emitted = other ∧
      ∀ helpers, compileStub helpers config program first =
        compileStub helpers config program second := by
  have same : emitted = other := by
    obtain ⟨summary, buffer⟩ := emitted
    obtain ⟨otherSummary, otherBuffer⟩ := other
    obtain ⟨ops, allocation, state, read, -, started, ran, rfl, rfl⟩ := emitStub_ok emits
    obtain ⟨_, _, state', read', -, started', ran', rfl, rfl⟩ := emitStub_ok emitsOther
    cases read.symm.trans read'
    cases started.symm.trans started'
    obtain ⟨rfl, -⟩ := Asm.body_concurs loads first second _ _ _ _ _ _ _ ran ran'
    rfl
  subst same
  refine ⟨rfl, fun helpers => ?_⟩
  rw [compileStub, compileStub, emits, emitsOther, layout]

/-- A guard of a shape and a load from a slot, for two shapes and two offsets. -/
theorem loading_code_is_shared_by_two_slots :
    let program : StubProgram := ⟨[1, 0, 1, 18, 1, 0, 30, 1, 1, 0], 2, 1⟩
    let config : CodeConfig := ⟨4, 1, 4, true, .address, true⟩
    let first : StubData := ⟨[(Block.shape 0).address, 32], [.shape, .rawInt32]⟩
    let second : StubData := ⟨[(Block.shape 5).address, 40], [.shape, .rawInt32]⟩
    ∃ emitted, emitStub program first config = .ok emitted ∧
      emitStub program second config = .ok emitted ∧
      compileStub [] config program first = compileStub [] config program second := by
  intro program config first second
  have succeeds : (emitStub program first config).toOption.isSome = true := by decide +kernel
  have succeedsOther : (emitStub program second config).toOption.isSome = true := by
    decide +kernel
  obtain ⟨emitted, emits⟩ := Option.isSome_iff_exists.mp succeeds
  obtain ⟨other, emitsOther⟩ := Option.isSome_iff_exists.mp succeedsOther
  obtain ⟨rfl, compiles⟩ := loading_code_is_independent_of_data program config rfl first second rfl
    emitted other (eq_ok_of_toOption emits) (eq_ok_of_toOption emitsOther)
  exact ⟨emitted, eq_ok_of_toOption emits, eq_ok_of_toOption emitsOther, compiles []⟩

end InlineCache
