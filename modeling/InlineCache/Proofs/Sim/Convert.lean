import InlineCache.Proofs.Code.Double
import InlineCache.Proofs.Sim.Guards

/-!
Conversions of numbers.  An int32 goes one way through the code of a conversion and a double the other
way; whichever is not taken is looked over for the label at the end, and leaves the table as it was.
-/

namespace InlineCache

theorem Machine.setReg_setReg (machine : Machine) (reg : Register) (first second : UInt64) :
    (machine.setReg reg first).setReg reg second = machine.setReg reg second := by
  have regs : ((machine.setReg reg first).setReg reg second).regs =
      (machine.setReg reg second).regs := by
    funext other
    simp only [Machine.regs_setReg]
    split <;> rfl
  exact congrArg (fun regs => { machine with regs }) regs

namespace Carries

variable {trusted : Bool} {setting : Setting trusted} {s : EvalState} {facts : Facts} {label : Label}
  {a b : Assembler}
  {m : Machine} {pending : Option Label} {status : ExitStatus} {float : FloatRegister}

theorem skip_allocateFloat (carries : Carries setting s facts (some label) a m)
    (runs : Asm.allocateFloat.Runs a float b) : Carries setting s facts (some label) b m := by
  obtain ⟨middle, takes, rfl⟩ := Asm.runs_allocateFloat runs
  have balanced := (takes.balanced carries.balanced).holdFloat
  cases takes with
  | pool =>
      exact carries.aside carries.led balanced rfl rfl rfl (fun _ member => member) rfl rfl rfl
        fun _ => rfl
  | save slot =>
      have passed := carries.skip (.saveFloat float slot) Inst.noConfusion
      exact passed.aside passed.led balanced rfl rfl rfl (fun _ member => member) rfl rfl rfl
        fun _ => rfl
  | spill index slot _ held =>
      rw [carries.not_float] at held
      cases held

theorem skip_releaseFloat (carries : Carries setting s facts (some label) a m)
    (runs : (Asm.releaseFloat float).Runs a () b) : Carries setting s facts (some label) b m := by
  have releases := Asm.runs_releaseFloat runs
  have balanced := releases.balanced carries.balanced
  cases releases with
  | other => exact carries
  | scratch _ held returns =>
      cases returns with
      | unsaved =>
          exact carries.aside carries.led balanced rfl rfl rfl (fun _ member => member) rfl rfl rfl
            fun _ => rfl
      | restore slot =>
          have passed := carries.skip (.restoreFloat float slot) Inst.noConfusion
          exact passed.aside passed.led balanced rfl rfl rfl (fun _ member => member) rfl rfl rfl
            fun _ => rfl

/-- A float register that the operation holds is written. -/
theorem setFloat {d : Double} (carries : Carries setting s facts none a m)
    (scratch : a.allocation.scratchFloats.contains float.index = true)
    (led : b.buffer.flow setting.entry setting.origin = .running none (m.setFloat float d))
    (allocation : b.allocation = a.allocation) (exits : ∀ path ∈ a.exits, path ∈ b.exits) :
    Carries setting s facts none b (m.setFloat float d) :=
  carries.aside led (allocation ▸ carries.balanced) (congrArg _ allocation) (congrArg _ allocation)
    (congrArg _ allocation) exits rfl rfl rfl fun i =>
      Location.content?_setFloat (carries.balanced.not_place_of_scratchFloat scratch i) m d

end Carries

namespace Inst

variable {entry : Entry} {m : Machine} {float : FloatRegister} {dst : Register} {fail : Label}
  {w : UInt64}

theorem exec_doubleToInt32Exact
    (exact : (m.floats float).int32?.map Word.ofInt32 = some w) :
    (doubleToInt32Exact float dst fail).exec entry m = .next (m.setReg dst w) := by
  rw [Double.int32?] at exact
  split at exact
  · rename_i both
    cases exact
    rw [exec, if_pos both.1]
    dsimp only
    rw [both.2]
    rfl
  · cases exact

theorem exec_doubleToInt32Exact_none
    (inexact : (m.floats float).int32?.map Word.ofInt32 = none) :
    ∃ n, (doubleToInt32Exact float dst fail).exec entry m = .jump fail n ∧ m.Alike n := by
  rw [Double.int32?] at inexact
  split at inexact
  · cases inexact
  · rename_i apart
    rw [exec]
    split
    · rename_i inside
      have unequal := Bool.eq_false_iff.mpr fun equal => apart ⟨inside, equal⟩
      dsimp only
      rw [unequal]
      exact ⟨_, rfl, rfl, rfl, rfl⟩
    · exact ⟨m, rfl, .refl m⟩

theorem exec_doubleToIntPtrExact
    (exact : (m.floats float).int64?.map Int64.toUInt64 = some w) :
    (doubleToIntPtrExact float dst fail).exec entry m = .next (m.setReg dst w) := by
  rw [Double.int64?] at exact
  split at exact
  · rename_i both
    cases exact
    rw [exec, if_pos both.1]
    dsimp only
    rw [both.2]
    rfl
  · cases exact

theorem exec_doubleToIntPtrExact_none (fail : Label)
    (inexact : (m.floats float).int64?.map Int64.toUInt64 = none) :
    ∃ w, (doubleToIntPtrExact float dst fail).exec entry m = .jump fail (m.setReg dst w) ∨
      (doubleToIntPtrExact float dst fail).exec entry m = .jump fail m := by
  rw [Double.int64?] at inexact
  split at inexact
  · cases inexact
  · rename_i apart
    rw [exec]
    split
    · rename_i inside
      have unequal := Bool.eq_false_iff.mpr fun equal => apart ⟨inside, equal⟩
      dsimp only
      rw [unequal]
      exact ⟨_, .inl rfl⟩
    · exact ⟨0, .inr rfl⟩

theorem exec_truncateDoubleModUint32
    (inside : (m.floats float).truncateInt64?.map (Word.ofInt32 ∘ Int64.toInt32) = some w) :
    (truncateDoubleModUint32 float dst fail).exec entry m = .next (m.setReg dst w) := by
  rw [Double.truncateInt64?] at inside
  split at inside
  · rename_i range
    cases inside
    rw [exec, if_pos range]
    dsimp only
    rw [Word.signExtend_int64]
    rfl
  · cases inside

theorem exec_truncateDoubleModUint32_none
    (outside : (m.floats float).truncateInt64?.map (Word.ofInt32 ∘ Int64.toInt32) = none) :
    (truncateDoubleModUint32 float dst fail).exec entry m = .jump fail m := by
  rw [Double.truncateInt64?] at outside
  split at outside
  · cases outside
  · rename_i range
    rw [exec, if_neg range]

end Inst

/-- The evaluation defines an operand of a type, whose word is the given one. -/
def Gives (id : OperandId) (type : PayloadType) (w : UInt64) (s : EvalState)
    (result : Except Stop Unit × EvalState) : Prop :=
  ∃ value : OperandValue, result = Eval.define id value s ∧ value.form = .payload type ∧
    value.Valid ∧ value.word = w

/-- What an evaluation makes of a number: of the word of an int32, of the double of any other number,
which may have no answer, and of a value that is no number. -/
structure MakesNumber (s : EvalState) (id : OperandId) (type : PayloadType) (v : Value)
    (small : UInt64) (answer : Double → Option UInt64) (status : ExitStatus)
    (result : Except Stop Unit × EvalState) : Prop where
  int32 : v.valueType = .int32 → Gives id type small s result
  double : v.valueType = .double → ∀ w, answer (Word.unboxDouble v.bits) = some w →
    Gives id type w s result
  nothing : v.valueType = .double → answer (Word.unboxDouble v.bits) = none →
    result = (.error (.outcome .bailout), s)
  other : v.valueType ≠ .int32 → v.valueType ≠ .double →
    ∃ stop, result = (.error stop, s) ∧ stop.exit? = some status

/-- A guard that sees an int32 in a number. -/
theorem MakesNumber.of_view {s : EvalState} {id : OperandId} {v : Value} {small : UInt64}
    (view : Value → Option Int32) (exact : Double → Option Int32)
    (ints : v.valueType = .int32 → ∃ n, view v = some n ∧ Word.ofInt32 n = small)
    (doubles : v.int32? = none → view v = v.double?.bind exact) :
    MakesNumber s id .int32 v small (fun d => (exact d).map Word.ofInt32) .bailout
      ((Eval.guardSome (view v) >>= fun n => Eval.define id (.int32 n)) s) where
  int32 type := by
    obtain ⟨n, viewed, same⟩ := ints type
    rw [viewed]
    exact ⟨.int32 n, rfl, rfl, trivial, same⟩
  double type w known := by
    obtain ⟨none, number⟩ := Value.double?_of_type type
    obtain ⟨n, found, rfl⟩ := Option.map_eq_some_iff.mp known
    rw [doubles none, number, Option.bind_some, found]
    exact ⟨.int32 n, rfl, rfl, trivial, rfl⟩
  nothing type unknown := by
    obtain ⟨none, number⟩ := Value.double?_of_type type
    rw [doubles none, number, Option.bind_some, Option.map_eq_none_iff.mp unknown]
    rfl
  other int32 double := by
    rw [doubles (Value.int32?_of_other int32), Value.double?_of_other double]
    exact ⟨_, rfl, rfl⟩

/-- Code that converts the number in a float register; where there is no answer it bails out. -/
structure Converts {trusted : Bool} (setting : Setting trusted) (dst : Register)
    (convert : FloatRegister → Asm Unit) (answer : Double → Option UInt64) : Prop where
  tidy : ∀ float, Asm.Tidy [] (convert float)
  allocation : ∀ {float a b}, (convert float).Runs a () b → b.allocation = a.allocation
  skips : ∀ {float a b label m}, (convert float).Runs a () b → label < a.buffer.labels →
    a.buffer.flow setting.entry setting.origin = .running (some label) m →
    b.buffer.flow setting.entry setting.origin = .running (some label) m
  writes : ∀ {float a b m w}, (convert float).Runs a () b →
    a.buffer.flow setting.entry setting.origin = .running none m →
    answer (m.floats float) = some w →
    b.buffer.flow setting.entry setting.origin = .running none (m.setReg dst w)
  leaves : ∀ {float a b m}, (convert float).Runs a () b →
    a.buffer.flow setting.entry setting.origin = .running none m →
    answer (m.floats float) = none → Leaves setting .bailout m.context b

/-- The word of a number as an index. -/
def Double.indexWord? (supportsOutOfBounds : Bool) (d : Double) : Option UInt64 :=
  match d.int64? with
  | some n => some n.toUInt64
  | none => if supportsOutOfBounds then some (Int64.toUInt64 (-1)) else none

namespace Converts

variable {trusted : Bool} {setting : Setting trusted} {dst : Register} {answer : Double → Option UInt64}

/-- An instruction that jumps to an exit path where there is no answer. -/
theorem orFail {inst : FloatRegister → Label → Inst}
    (plain : ∀ float fail, (inst float fail).isBind = false)
    (hits : ∀ float fail m w, answer (m.floats float) = some w →
      (inst float fail).exec setting.entry m = .next (m.setReg dst w))
    (misses : ∀ float fail m, answer (m.floats float) = none →
      ∃ n, (inst float fail).exec setting.entry m = .jump fail n ∧ m.Alike n) :
    Converts setting dst (Asm.convertOrFail inst) answer where
  tidy float := .bind (.exitPath _) fun fail => .emit (plain float fail)
  allocation runs := by
    simp only [Asm.convertOrFail, Asm.failurePath, Asm.runs_bind, Asm.runs_emit] at runs
    obtain ⟨fail, middle, asks, rfl⟩ := runs
    exact (Asm.runs_exitPath asks).1
  skips {float a b label m} runs _ flow := by
    simp only [Asm.convertOrFail, Asm.failurePath, Asm.runs_bind, Asm.runs_emit] at runs
    obtain ⟨fail, middle, asks, rfl⟩ := runs
    refine CodeBuffer.flow_emit_skip ((Asm.flow_exitPath asks _ _).trans flow) _ ?_
    intro binds
    have bound := plain float fail
    rw [binds] at bound
    cases bound
  writes {float a b m w} runs flow known := by
    simp only [Asm.convertOrFail, Asm.failurePath, Asm.runs_bind, Asm.runs_emit] at runs
    obtain ⟨fail, middle, asks, rfl⟩ := runs
    exact CodeBuffer.flow_emit_effect ((Asm.flow_exitPath asks _ _).trans flow) _
      (hits float fail m w known)
  leaves {float a b m} runs flow unknown := by
    simp only [Asm.convertOrFail, Asm.failurePath, Asm.runs_bind, Asm.runs_emit] at runs
    obtain ⟨fail, middle, asks, rfl⟩ := runs
    obtain ⟨n, jumps, alike⟩ := misses float fail m unknown
    obtain ⟨path, member, label, status⟩ := (Asm.runs_exitPath asks).2.2.1
    refine ⟨path, member, status, n, ?_, alike.context⟩
    rw [label]
    exact CodeBuffer.flow_emit_effect ((Asm.flow_exitPath asks _ _).trans flow) _ jumps

/-- A number that is no int64 becomes -1. -/
theorem orMinusOne {exact : Double → Option UInt64}
    (hits : ∀ float fail m w, exact (m.floats float) = some w →
      (Inst.doubleToIntPtrExact float dst fail).exec setting.entry m = .next (m.setReg dst w))
    (misses : ∀ float fail m, exact (m.floats float) = none →
      ∃ w, (Inst.doubleToIntPtrExact float dst fail).exec setting.entry m =
        .jump fail (m.setReg dst w) ∨
          (Inst.doubleToIntPtrExact float dst fail).exec setting.entry m = .jump fail m) :
    Converts setting dst (Asm.convertOrMinusOne dst)
      fun d => some ((exact d).getD (Int64.toUInt64 (-1))) := by
  have taken {float : FloatRegister} {a b : Assembler}
      (runs : (Asm.convertOrMinusOne dst float).Runs a () b) :
      b = ((((({ a with buffer := a.buffer.newLabel.2.newLabel.2 } : Assembler).emitted
        (.doubleToIntPtrExact float dst a.buffer.labels)).emitted (.jump (a.buffer.labels + 1))).emitted
        (.bind a.buffer.labels)).emitted (.movImm dst (Int64.toUInt64 (-1)))).emitted
        (.bind (a.buffer.labels + 1)) := by
    simp only [Asm.convertOrMinusOne, Asm.runs_bind, Asm.runs_emit] at runs
    obtain ⟨_, _, ⟨⟩, _, _, ⟨⟩, _, _, rfl, _, _, rfl, _, _, rfl, _, _, rfl, rfl⟩ := runs
    rfl
  refine
    { tidy := fun float => .convertOrMinusOne
      allocation := fun runs => by rw [taken runs]; rfl
      skips := ?_
      writes := ?_
      leaves := fun _ _ impossible => nomatch impossible }
  · intro float a b label m runs given flow
    rw [taken runs]
    have other {later : Label} (new : a.buffer.labels ≤ later) : Inst.bind later ≠ .bind label := by
      rintro ⟨⟩
      omega
    have converted := CodeBuffer.flow_emit_skip flow (.doubleToIntPtrExact float dst a.buffer.labels)
      Inst.noConfusion
    have jumped := CodeBuffer.flow_emit_skip converted (.jump (a.buffer.labels + 1)) Inst.noConfusion
    have landed := CodeBuffer.flow_emit_skip jumped _ (other (Nat.le_refl _))
    have moved := CodeBuffer.flow_emit_skip landed (.movImm dst (Int64.toUInt64 (-1)))
      Inst.noConfusion
    exact CodeBuffer.flow_emit_skip moved _ (other (Nat.le_succ _))
  · intro float a b m w runs flow known
    rw [taken runs]
    have flow : a.buffer.newLabel.2.newLabel.2.flow setting.entry setting.origin =
      .running none m := flow
    have different {w : UInt64} : Inst.movImm dst w ≠ .bind (a.buffer.labels + 1) := Inst.noConfusion
    cases found : exact (m.floats float) with
    | some exactly =>
        rw [found] at known
        cases known
        have converted := CodeBuffer.flow_emit_effect flow _
          (hits float a.buffer.labels m exactly found)
        have jumped := CodeBuffer.flow_emit_effect converted (.jump (a.buffer.labels + 1)) rfl
        have passed := CodeBuffer.flow_emit_skip jumped (.bind a.buffer.labels) (by simp)
        exact CodeBuffer.flow_emit_land (CodeBuffer.flow_emit_skip passed _ different)
    | none =>
        rw [found] at known
        cases known
        obtain ⟨n, jumps, same⟩ : ∃ n, (Inst.doubleToIntPtrExact float dst a.buffer.labels).exec
            setting.entry m = .jump a.buffer.labels n ∧
            n.setReg dst (Int64.toUInt64 (-1)) = m.setReg dst (Int64.toUInt64 (-1)) := by
          obtain ⟨w, written | plain⟩ := misses float a.buffer.labels m found
          · exact ⟨_, written, m.setReg_setReg dst w _⟩
          · exact ⟨_, plain, rfl⟩
        have jumped := CodeBuffer.flow_emit_effect flow _ jumps
        have passed := CodeBuffer.flow_emit_skip jumped (.jump (a.buffer.labels + 1))
          Inst.noConfusion
        have landed := CodeBuffer.flow_emit_land passed
        have moved := CodeBuffer.flow_emit_effect landed (.movImm dst (Int64.toUInt64 (-1))) rfl
        rw [Option.getD_none, ← same]
        exact CodeBuffer.flow_emit_effect moved (.bind (a.buffer.labels + 1)) rfl

theorem int32Exact : Converts setting dst
    (Asm.convertOrFail fun float fail => .doubleToInt32Exact float dst fail)
    fun d => d.int32?.map Word.ofInt32 :=
  orFail (fun _ _ => rfl) (fun _ _ _ _ => Inst.exec_doubleToInt32Exact)
    fun _ _ _ => Inst.exec_doubleToInt32Exact_none

theorem modUint32 : Converts setting dst
    (Asm.convertOrFail fun float fail => .truncateDoubleModUint32 float dst fail)
    fun d => (d.truncateInt64?.map Int64.toInt32).map Word.ofInt32 :=
  orFail (fun _ _ => rfl)
    (fun _ _ _ _ inside => Inst.exec_truncateDoubleModUint32 (Option.map_map .. ▸ inside))
    fun _ _ m outside =>
      ⟨m, Inst.exec_truncateDoubleModUint32_none (Option.map_map .. ▸ outside), .refl m⟩

theorem intPtrExact : Converts setting dst
    (Asm.convertOrFail fun float fail => .doubleToIntPtrExact float dst fail)
    fun d => d.int64?.map Int64.toUInt64 := by
  refine orFail (fun _ _ => rfl) (fun _ _ _ _ => Inst.exec_doubleToIntPtrExact) ?_
  intro float fail m inexact
  obtain ⟨w, jumps | jumps⟩ := Inst.exec_doubleToIntPtrExact_none fail inexact
  · exact ⟨_, jumps, rfl, rfl, rfl⟩
  · exact ⟨_, jumps, .refl m⟩

theorem index {supportsOutOfBounds : Bool} : Converts setting dst
    (if supportsOutOfBounds then Asm.convertOrMinusOne dst
    else Asm.convertOrFail fun float fail => .doubleToIntPtrExact float dst fail)
    (Double.indexWord? supportsOutOfBounds) := by
  cases supportsOutOfBounds with
  | false =>
      have same : Double.indexWord? false = fun d => d.int64?.map Int64.toUInt64 := by
        funext d
        rw [Double.indexWord?]
        cases d.int64? <;> rfl
      rw [same]
      exact intPtrExact
  | true =>
      have same : Double.indexWord? true =
          fun d => some ((d.int64?.map Int64.toUInt64).getD (Int64.toUInt64 (-1))) := by
        funext d
        rw [Double.indexWord?]
        cases d.int64? <;> rfl
      rw [same]
      exact orMinusOne (fun _ _ _ _ => Inst.exec_doubleToIntPtrExact)
        fun _ _ _ => Inst.exec_doubleToIntPtrExact_none _

theorem clampedByte : Converts setting dst
    (fun float => Asm.emit (.clampDoubleToUint8 float dst))
    fun d => (some d.clampByte).map Word.ofInt32 where
  tidy _ := .emit rfl
  allocation runs := by
    rw [Asm.runs_emit.mp runs]
    rfl
  skips runs _ flow := by
    rw [Asm.runs_emit.mp runs]
    exact CodeBuffer.flow_emit_skip flow _ Inst.noConfusion
  writes {float a b m w} runs flow known := by
    have clamps : (Inst.clampDoubleToUint8 float dst).exec setting.entry m = .next (m.setReg dst w) := by
      cases known
      rw [Inst.exec, Double.roundClampByte_eq]
    rw [Asm.runs_emit.mp runs]
    exact CodeBuffer.flow_emit_effect flow _ clamps
  leaves _ _ impossible := nomatch impossible

end Converts

end InlineCache
