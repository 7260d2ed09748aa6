import InlineCache.Proofs.Sim.Objects

/-!
Constants, tags, and the operations that put the output.
-/

namespace InlineCache

theorem Word.boxIntPtr_eq (n : Int64) : boxIntPtr n.toUInt64 = (Value.ofIntPtr n).bits := by
  have low : n.toUInt64.toUInt32.toInt32 = n.toInt32 := by
    have extended := signExtend_int64 n
    rw [signExtend_eq] at extended
    rw [← toUInt32_ofInt32 n.toInt32, ← extended, toUInt32_ofInt32]
  rw [boxIntPtr, signExtend_int64, Value.ofIntPtr]
  by_cases small : -0x80000000 ≤ n.toInt ∧ n.toInt < 0x80000000
  · rw [if_pos ((ofInt32_toInt32 n).mpr small), if_pos small, boxInt32_eq, low]
  · rw [if_neg (mt (ofInt32_toInt32 n).mp small), if_neg small, boxDouble, Value.ofDouble,
      Int64.toInt64_toUInt64]
    split <;> rfl

namespace ValueType

theorem byte_eq (first second : ValueType) :
    decide (first.byte.toUInt64 = second.byte.toUInt64) = decide (first = second) := by
  rw [decide_eq_decide]
  constructor
  · intro same
    have bytes := congrArg ofByte? (UInt8.toUInt64_inj.mp same)
    rw [ofByte?_byte, ofByte?_byte] at bytes
    exact Option.some.inj bytes
  · exact fun same => congrArg (fun type => type.byte.toUInt64) same

theorem above_number (type : ValueType) :
    decide (UInt64.ofNat ValueType.int32.byte.toNat < type.byte.toUInt64) = !type.isNumber := by
  cases type <;> rfl

theorem atMost_number (type : ValueType) :
    decide (type.byte.toUInt64 ≤ UInt64.ofNat ValueType.int32.byte.toNat) = type.isNumber := by
  cases type <;> rfl

end ValueType

namespace Follows

variable {setting : Setting} {s : EvalState} {held : List (Register × UInt64)}
  {own : List (Source × UInt64)} {paths : List (Label × ExitStatus)} {input id : OperandId}
  {field : Field}

/-- A word of stub data is the last thing that is put into the register of an operand. -/
theorem defineWord {type : PayloadType} (value : OperandValue) {dst : Register}
    (form : value.form = .payload type) (valid : value.Valid)
    (found : setting.env.data.words[field.offset / 8]? = some value.word) :
    Follows setting s ⟨some ⟨id.toNat, dst, type, none⟩, held, own, paths⟩
      (Asm.loadWord setting.env dst field value.word) (Eval.define id value s) := by
  unfold Asm.loadWord
  cases setting.env.config.policy with
  | constant =>
      apply define value form (.of valid)
      exact fun m _ _ => ⟨m.reads, rfl⟩
  | address =>
      apply define value form (.of valid)
      intro m _ _
      refine ⟨m.reads, ?_⟩
      rw [Inst.exec, show setting.entry.words = setting.env.data.words from rfl, found]
      rfl

theorem loadObject :
    Follows setting s .none (Asm.loadObject setting.env field id)
      (Op.eval setting.env.data ⟨.loadObject, field, id, ()⟩ s) := by
  rw [Op.eval, Asm.loadObject, Asm.typedWord]
  cases found : setting.env.data.wordOf? field.offset .object with
  | error error =>
      intro state m after _ runs
      obtain ⟨_, _, fails, -⟩ := Asm.runs_bind.mp runs
      exact absurd fails Asm.not_runs_throw
  | ok word =>
      rw [Eval.fieldWord_of found, pure_bind, pure_bind]
      by_cases null : word = 0
      · rw [if_pos null, if_pos null]
        exact fails rfl s
      · rw [if_neg null, if_neg null]
        apply definePayloadReg
        intro dst
        obtain ⟨cell, address⟩ := setting.objects field.offset word found null
        exact defineWord (.ref .object word) rfl ⟨cell, address⟩
          (StubData.word_of_wordOf? found)

theorem loadInt32Constant :
    Follows setting s .none (Asm.loadInt32Constant setting.env field id)
      (Op.eval setting.env.data ⟨.loadInt32Constant, field, id, ()⟩ s) := by
  rw [Op.eval, Asm.loadInt32Constant, Asm.int32Word]
  cases found : setting.env.data.int32? field.offset with
  | error error =>
      intro state m after _ runs
      obtain ⟨_, _, fails, -⟩ := Asm.runs_bind.mp runs
      exact absurd fails Asm.not_runs_throw
  | ok n =>
      rw [Eval.fieldInt32_of found, pure_bind]
      apply definePayloadReg
      intro dst
      exact defineWord (.int32 n) rfl trivial (StubData.word_of_int32? setting.extended found)

theorem loadValueTag :
    Follows setting s .none (Asm.loadValueTag input id)
      (Op.eval setting.env.data ⟨.loadValueTag, input, id, ()⟩ s) := by
  rw [Op.eval]
  apply value
  intro v stores _
  apply allocation
  intro state m carries
  cases known : state.allocation.knownType input with
  | some type =>
      rw [← carries.type_of_known stores known]
      apply definePayloadReg
      intro dst
      apply define (.valueTag v.valueType) rfl (.of trivial)
      exact fun m _ _ => ⟨m.reads, rfl⟩
  | none =>
      apply useValueReg stores
      intro reg
      apply definePayloadReg
      intro dst
      apply define (.valueTag v.valueType) rfl (.of trivial)
      intro m hold _
      refine ⟨m.reads, ?_⟩
      rw [Inst.exec, hold.reg (.head _), Value.tagByte_eq]
      rfl

theorem guardTagNotEqual {lhs rhs : OperandId} :
    Follows setting s .none (Asm.guardTagNotEqual lhs rhs)
      (Op.eval setting.env.data ⟨.guardTagNotEqual, lhs, rhs, ()⟩ s) := by
  rw [Op.eval]
  apply valueTag
  intro first storesFirst
  apply valueTag
  intro second storesSecond
  apply useRegister storesFirst rfl
  intro lhs
  apply useRegister storesSecond rfl
  intro rhs
  apply exitPath
  intro fail
  apply newLabel
  intro ok
  apply branchWithin [ok] (decide (first = second)) (.head _)
  · intro m hold _
    refine ⟨m.reads, ?_⟩
    rw [Inst.exec, hold.reg (.tail _ (.head _)), Machine.source, hold.reg (.head _),
      ← ValueType.byte_eq]
    rfl
  · exact .bind (.emit rfl) fun _ => .bind (.emit rfl) fun _ => .emit_bind (.head _)
  · intro same
    refine ⟨.outcome .bailout, ?_, rfl⟩
    rw [decide_eq_false (not_not_intro (of_decide_eq_true same))]
    rfl
  · intro different
    have apart : first ≠ second := of_decide_eq_false different
    apply branchUnless (!first.isNumber) second.isNumber (.head _)
    · intro m hold _
      refine ⟨m.reads, ?_⟩
      rw [Inst.exec, hold.reg (.tail _ (.head _)), ← ValueType.above_number]
      rfl
    · intro m hold _
      refine ⟨m.reads, ?_⟩
      rw [Inst.exec, hold.reg (.head _), ← ValueType.atMost_number]
      rfl
    · exact Inst.noConfusion
    · intro number other
      have both : first.isNumber = true := by simpa using number
      rw [decide_eq_true apart, both, other]
      exact ⟨_, rfl, rfl⟩
    · intro either
      have one : (first.isNumber && second.isNumber) = false := by
        rcases either with above | atMost <;> simp_all
      rw [decide_eq_true apart, one]
      rfl

theorem storeImm {v : Value} :
    Follows setting s .none (Asm.storeImm v) (Eval.setOutput v s) := by
  apply allocateRegister
  intro reg junk
  apply put v.bits
  · exact fun _ _ => rfl
  · exact storeOutput fun m hold => hold.scratch (.head _)

theorem loadInt32Result :
    Follows setting s .none (Asm.useRegister input >>= fun reg => Asm.boxToOutput reg .int32)
      (Op.eval setting.env.data ⟨.loadInt32Result, input, ()⟩ s) := by
  rw [Op.eval]
  apply int32
  intro n stores
  apply useRegister stores rfl
  intro reg
  exact boxToOutput (.int32 n) rfl rfl fun m hold => hold.reg (.head _)

theorem loadObjectResult :
    Follows setting s .none (Asm.useRegister input >>= fun reg => Asm.boxToOutput reg .object)
      (Op.eval setting.env.data ⟨.loadObjectResult, input, ()⟩ s) := by
  rw [Op.eval]
  apply cell
  intro object stores
  apply useRegister stores rfl
  intro reg
  exact boxToOutput (.ref .object _) rfl rfl fun m hold => hold.reg (.head _)

theorem loadIntPtrResult {trusted : Bool} {setting : Setting trusted} :
    Follows setting s .none (Asm.loadIntPtrResult input)
      (Op.eval setting.env.data ⟨.loadIntPtrResult, input, ()⟩ s) := by
  rw [Op.eval]
  apply intptr
  intro n stores
  apply useRegister stores rfl
  intro reg
  apply allocateRegister
  intro boxed junk state m after carries runs sound
  simp only [Asm.runs_bind, Asm.runs_emit] at runs
  obtain ⟨float, taken, takes, _, _, rfl, _, released, releases, rfl⟩ := runs
  obtain ⟨m, keeps, balanced, scratch⟩ :=
    Asm.allocateFloat_keeps takes carries.balanced carries.reached
  have kept := carries.of_keeps keeps balanced (Asm.Tidy.allocateFloat.grows takes)
  have boxes : (Inst.boxIntPtr reg boxed float).exec setting.entry m =
      .next ((m.setFloat float (.ofInt n.toInt)).setReg boxed (Value.ofIntPtr n).bits) := by
    rw [Inst.exec, kept.hold.reg (.head _), ← Word.boxIntPtr_eq]
    rfl
  have written := kept.setBeside (kept.reached.emitted boxes) rfl (fun _ member => member) rfl rfl
    rfl fun i => Location.content?_setFloat (kept.balanced.not_place_of_scratchFloat scratch i)
      (m.setReg boxed (Value.ofIntPtr n).bits) (.ofInt n.toInt)
  obtain ⟨last, keeps, balanced⟩ :=
    Asm.releaseFloat_keeps releases written.balanced written.reached
  have ended := written.of_keeps keeps balanced (Asm.Tidy.releaseFloat.grows releases)
  exact storeOutput (fun m hold => hold.scratch (.head _)) _ _ _ ended (Asm.runs_emit.mpr rfl) sound

/-- An operand that is kept as a payload is boxed; with no place it could not be used at all. -/
theorem loadPayload {operand : TypedOperand} {stored : OperandValue} {type : PayloadType} {v : Value}
    (stores : s.Stores operand.id.toNat stored) (form : stored.form = .payload type)
    (boxed : stored.boxed? = some v) :
    Follows setting s .none (Asm.loadTypedResult operand) (Eval.setOutput v s) := by
  intro state m after carries runs sound
  obtain ⟨_, _, looks, runs⟩ := Asm.runs_bind.mp runs
  obtain ⟨rfl, rfl⟩ := Asm.runs_allocation.mp looks
  by_cases empty : state.allocation.place operand.id.toNat = .nowhere
  · have bare : state.allocation.payload? operand.id = none := by
      rw [Allocation.payload?, Allocation.location_eq_place, empty]
      rfl
    rw [bare] at runs
    obtain ⟨reg, _, uses, -⟩ := Asm.runs_bind.mp runs
    obtain ⟨-, _, fetches, -⟩ := Asm.runs_useValueReg uses
    exact absurd empty fetches.somewhere
  · rw [carries.payload?_of_payload stores form empty] at runs
    dsimp only at runs
    split at runs
    · exact absurd runs Asm.not_runs_reject
    · have follows : Follows setting s .none
          (Asm.useRegister operand.id >>= fun reg => Asm.boxToOutput reg type)
          (Eval.setOutput v s) := by
        apply useRegister stores form
        intro reg
        exact boxToOutput stored form boxed fun m hold => hold.reg (.head _)
      exact follows _ _ _ carries runs sound

theorem loadTypedResult {operand : TypedOperand} :
    Follows setting s .none (Asm.loadTypedResult operand)
      (Op.eval setting.env.data ⟨.loadTypedResult, operand, ()⟩ s) := by
  rw [Op.eval]
  apply get
  intro stored stores _
  cases stored with
  | boxed v =>
      apply allocation
      intro state m carries
      rw [carries.payload?_of_boxed stores]
      apply useValueReg stores
      intro reg
      exact storeOutput fun m hold => hold.reg (.head _)
  | intptr | valueTag => exact fails rfl s
  | ref kind address =>
      simp only [OperandValue.payloadType?, OperandValue.boxed?]
      split
      · exact fails rfl s
      · exact loadPayload stores rfl rfl
  | boolean | int32 =>
      simp only [OperandValue.payloadType?, OperandValue.boxed?]
      split
      · exact fails rfl s
      · exact loadPayload stores rfl rfl

theorem returnFromIc {trusted : Bool} {setting : Setting trusted} :
    Follows setting s .none (Asm.emit (.ret .returned))
      (Op.eval setting.env.data ⟨.returnFromIc, ()⟩ s) := by
  intro state m after carries runs _
  cases Asm.runs_emit.mp runs
  refine ⟨m, ?_, carries.output, carries.context⟩
  rw [Assembler.buffer_emitted, CodeBuffer.flow_emit, carries.led, Flow.step_running]
  rfl

end Follows

end InlineCache
