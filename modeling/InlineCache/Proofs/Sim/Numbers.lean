import InlineCache.Proofs.Sim.Convert

/-!
Guards that make an integer of a number.
-/

namespace InlineCache

/-- The way of a double through a conversion, and the end of both ways. -/
def Asm.doubleWay (value : Register) (isDouble done : Label) (status : ExitStatus)
    (convert : FloatRegister → Asm Unit) : Asm Unit := do
  emit (.bind isDouble)
  let fail ← exitPath status
  emit (.branchTestType .notEqual value .double fail)
  doublePath value convert
  emit (.bind done)

namespace Carries

variable {trusted : Bool} {setting : Setting trusted} {s : EvalState} {facts : Facts}
  {a b : Assembler} {m : Machine}
  {held : List (Register × UInt64)} {own : List (Source × UInt64)}
  {paths : List (Label × ExitStatus)} {result : Except Stop Unit × EvalState} {id : OperandId}
  {dst value : Register} {type : PayloadType} {w : UInt64} {isDouble done : Label}
  {status : ExitStatus} {convert : FloatRegister → Asm Unit} {answer : Double → Option UInt64}

theorem ends_gives
    (carries : Carries setting s ⟨some ⟨id.toNat, dst, type, some w⟩, held, own, paths⟩ none a m)
    (gives : Gives id type w s result) : Ends setting a result := by
  obtain ⟨value, rfl, form, valid, rfl⟩ := gives
  exact carries.ends_define form (.of valid)

/-- An int32 is converted already. -/
theorem skip_doubleWay (converts : Converts setting dst convert answer)
    (carries : Carries setting s facts (some done) a m) (different : isDouble ≠ done)
    (given : done < a.buffer.labels)
    (runs : (Asm.doubleWay value isDouble done status convert).Runs a () b) :
    Carries setting s facts none b m := by
  simp only [Asm.doubleWay, Asm.doublePath, Asm.runs_bind, Asm.runs_emit] at runs
  obtain ⟨_, _, rfl, fail, asked, asks, _, _, rfl, _, released,
    ⟨float, taken, takes, _, _, rfl, _, converted, conversion, releases⟩, rfl⟩ := runs
  have passed := carries.skip (.bind isDouble) fun same => different (Inst.bind.inj same)
  have beside := (passed.asks asks).skip (.branchTestType .notEqual value .double fail)
    Inst.noConfusion
  have loaded := (beside.skip_allocateFloat takes).skip (.unboxDouble value float)
    Inst.noConfusion
  have labels : done < taken.buffer.labels :=
    Nat.lt_of_lt_of_le (Nat.lt_of_lt_of_le given ((Asm.Tidy.exitPath status).grows asks).labels)
      (Asm.Tidy.allocateFloat.grows takes).labels
  have after := loaded.stay (converts.skips conversion labels loaded.led)
    (converts.allocation conversion) fun path => ((converts.tidy float).grows conversion).mem_exits
  exact (after.skip_releaseFloat releases).land

/-- A double is converted, and what is no number leaves. -/
theorem ends_doubleWay {v : Value} {small : UInt64} (converts : Converts setting dst convert answer)
    (makes : MakesNumber s id type v small answer status result) (other : v.valueType ≠ .int32)
    (carries : Carries setting s
      ⟨some ⟨id.toNat, dst, type, none⟩, (value, v.bits) :: held, own, paths⟩ (some isDouble) a m)
    (runs : (Asm.doubleWay value isDouble done status convert).Runs a () b) (sound : b.Sound) :
    Ends setting b result := by
  simp only [Asm.doubleWay, Asm.runs_bind, Asm.runs_emit] at runs
  obtain ⟨_, _, rfl, fail, asked, asks, _, _, rfl, _, released, path, rfl⟩ := runs
  have landed := (carries.land.asks asks).aim (Asm.runs_exitPath asks).2.2.1
  have tested := Inst.exec_branchTestType setting.entry (landed.hold.reg (.head _)) .double fail
  have tidy : Asm.Tidy [] (Asm.doublePath value convert) := .doublePath converts.tidy
  by_cases double : v.valueType = .double
  · rw [decide_eq_false (not_not_intro double)] at tested
    have went := landed.stay (landed.reached.emitted tested) rfl
      fun _ member => member
    simp only [Asm.doublePath, Asm.runs_bind, Asm.runs_emit] at path
    obtain ⟨float, taken, takes, _, _, rfl, _, converted, conversion, releases⟩ := path
    obtain ⟨n, keeps, balanced, scratch⟩ :=
      Asm.allocateFloat_keeps takes went.balanced went.reached
    have held := went.of_keeps keeps balanced (Asm.Tidy.allocateFloat.grows takes)
    have loads : (Inst.unboxDouble value float).exec setting.entry n =
        .next (n.setFloat float (Word.unboxDouble v.bits)) := by
      rw [Inst.exec, held.hold.reg (.head _)]
    have loaded := held.setFloat scratch (held.reached.emitted loads) rfl fun _ member => member
    have number : (n.setFloat float (Word.unboxDouble v.bits)).floats float =
        Word.unboxDouble v.bits := if_pos rfl
    have grows := (converts.tidy float).grows conversion
    cases found : answer (Word.unboxDouble v.bits) with
    | some w =>
        have writes := converts.writes conversion loaded.led ((congrArg answer number).trans found)
        have filled := loaded.fill writes (converts.allocation conversion) fun path => grows.mem_exits
        obtain ⟨last, keeps, balanced⟩ :=
          Asm.releaseFloat_keeps releases filled.balanced filled.reached
        have kept := filled.of_keeps keeps balanced (Asm.Tidy.releaseFloat.grows releases)
        have ended := kept.stay (b := released.emitted (.bind done))
          (kept.reached.emitted rfl) rfl fun _ member => member
        exact ended.ends_gives (makes.double double w found)
    | none =>
        have leaves := converts.leaves conversion loaded.led ((congrArg answer number).trans found)
        rw [show (n.setFloat float (Word.unboxDouble v.bits)).context = s.context from
          loaded.context] at leaves
        rw [makes.nothing double found]
        exact (leaves.grows ((Asm.Tidy.releaseFloat.grows releases).trans (.emitted _ _)) sound).ends
          rfl
  · rw [decide_eq_true double] at tested
    obtain ⟨stop, rfl, exit⟩ := makes.other other double
    exact Follows.leaves_of_branch landed (.head _) tested landed.context
      ((tidy.grows path).trans (.emitted _ _)) sound exit

/-- Both ways through a conversion.  An int32 is converted by the first stretch of code, which jumps
over the way of a double. -/
theorem ends_numberWays {v : Value} {small : UInt64} {stretch : Asm Unit}
    (converts : Converts setting dst convert answer)
    (makes : MakesNumber s id type v small answer status result) (different : isDouble ≠ done)
    (writes : ∀ {a b m}, Carries setting s
        ⟨some ⟨id.toNat, dst, type, none⟩, (value, v.bits) :: held, own, paths⟩ none a m →
      stretch.Runs a () b → ∃ n, Carries setting s
        ⟨some ⟨id.toNat, dst, type, some small⟩, (value, v.bits) :: held, own, paths⟩ none b n)
    (skips : ∀ {a b m}, Carries setting s
        ⟨some ⟨id.toNat, dst, type, none⟩, (value, v.bits) :: held, own, paths⟩ (some isDouble) a m →
      stretch.Runs a () b → Carries setting s
        ⟨some ⟨id.toNat, dst, type, none⟩, (value, v.bits) :: held, own, paths⟩ (some isDouble) b m)
    (labels : ∀ {a b}, stretch.Runs a () b → a.buffer.labels ≤ b.buffer.labels)
    (carries : Carries setting s
      ⟨some ⟨id.toNat, dst, type, none⟩, (value, v.bits) :: held, own, paths⟩ none a m)
    (given : done < a.buffer.labels)
    (runs : (Asm.emit (.branchTestType .notEqual value .int32 isDouble) >>= fun _ =>
      stretch >>= fun _ => Asm.emit (.jump done) >>= fun _ =>
      Asm.doubleWay value isDouble done status convert).Runs a () b)
    (sound : b.Sound) : Ends setting b result := by
  simp only [Asm.runs_bind, Asm.runs_emit] at runs
  obtain ⟨_, _, rfl, _, middle, steps, _, _, rfl, way⟩ := runs
  have tested := Inst.exec_branchTestType setting.entry (carries.hold.reg (.head _)) .int32 isDouble
  by_cases int32 : v.valueType = .int32
  · rw [decide_eq_false (not_not_intro int32)] at tested
    have went := carries.stay (carries.reached.emitted tested) rfl
      fun _ member => member
    obtain ⟨n, filled⟩ := writes went steps
    have jumped := filled.stay (b := middle.emitted (.jump done)) (filled.led_emitted rfl) rfl
      fun _ member => member
    have more := labels steps
    have later : done < middle.buffer.labels := Nat.lt_of_lt_of_le given more
    have passed := jumped.skip_doubleWay converts different later way
    exact passed.ends_gives (makes.int32 int32)
  · rw [decide_eq_true int32] at tested
    have went := carries.stay (carries.led_emitted tested) rfl
      fun _ member => member
    have passed := (skips went steps).skip (.jump done) Inst.noConfusion
    exact passed.ends_doubleWay converts makes int32 way sound

end Carries

/-- An operand with no place cannot be used. -/
theorem Asm.not_runs_int32OrDouble {input : OperandId} {dst : Register} {status : ExitStatus}
    {convert : FloatRegister → Asm Unit} {a b : Assembler}
    (single : a.allocation.knownType input ≠ some .double)
    (empty : a.allocation.place input.toNat = .nowhere) :
    ¬(int32OrDouble input dst status convert).Runs a () b := by
  intro runs
  obtain ⟨_, _, looks, runs⟩ := runs_bind.mp runs
  obtain ⟨rfl, rfl⟩ := runs_allocation.mp looks
  rw [if_neg single] at runs
  obtain ⟨reg, _, uses, -⟩ := runs_bind.mp runs
  obtain ⟨-, _, fetches, -⟩ := runs_useValueReg uses
  exact fetches.somewhere empty

namespace Follows

variable {trusted : Bool} {setting : Setting trusted} {s : EvalState}
  {held : List (Register × UInt64)}
  {own : List (Source × UInt64)} {paths : List (Label × ExitStatus)}
  {result : Except Stop Unit × EvalState} {input id : OperandId} {dst : Register}
  {type : PayloadType} {v : Value} {status : ExitStatus} {convert : FloatRegister → Asm Unit}
  {answer : Double → Option UInt64}

theorem newLabels {facts : Facts} {next : Label → Label → Asm Unit}
    (rest : ∀ first second state m after, first ≠ second → first < state.buffer.labels →
      second < state.buffer.labels → Carries setting s facts none state m →
      (next first second).Runs state () after → after.Sound → Ends setting after result) :
    Follows setting s facts (Asm.newLabel >>= fun first => Asm.newLabel >>= next first) result := by
  intro state m after carries runs sound
  obtain ⟨first, _, ⟨⟩, runs⟩ := Asm.runs_bind.mp runs
  obtain ⟨second, _, ⟨⟩, runs⟩ := Asm.runs_bind.mp runs
  have asked : Carries setting s facts none
      { state with buffer := state.buffer.newLabel.2.newLabel.2 } m :=
    carries.still carries.led rfl fun _ member => member
  exact rest _ _ _ _ _ (Nat.ne_of_lt (Nat.lt_succ_self _)) (Nat.lt_succ_of_lt (Nat.lt_succ_self _))
    (Nat.lt_succ_self _) asked runs sound

theorem int32OrDouble (stores : s.Stores input.toNat (.boxed v))
    (converts : Converts setting dst convert answer)
    (makes : MakesNumber s id type v (Word.unbox v.bits .int32) answer status result) :
    Follows setting s ⟨some ⟨id.toNat, dst, type, none⟩, held, own, paths⟩
      (Asm.int32OrDouble input dst status convert) result := by
  apply allocation
  intro state m carries
  have single : state.allocation.knownType input ≠ some .double := carries.not_double _
  rw [if_neg single]
  apply useValueReg stores
  intro value
  apply allocation
  intro state m carries
  have writes {a b : Assembler} {m : Machine} (carries : Carries setting s
      ⟨some ⟨id.toNat, dst, type, none⟩, (value, v.bits) :: held, own, paths⟩ none a m)
      (runs : (Asm.emit (.unboxPayload value dst .int32)).Runs a () b) :
      ∃ n, Carries setting s ⟨some ⟨id.toNat, dst, type, some (Word.unbox v.bits .int32)⟩,
        (value, v.bits) :: held, own, paths⟩ none b n := by
    cases Asm.runs_emit.mp runs
    have unboxes : (Inst.unboxPayload value dst .int32).exec setting.entry m =
        .next (m.setReg dst (Word.unbox v.bits .int32)) := by
      rw [Inst.exec, carries.hold.reg (.head _)]
    exact ⟨_, carries.fill (carries.reached.emitted unboxes) rfl
      fun _ member => member⟩
  split
  · rename_i known
    have int32 : v.valueType = .int32 := carries.type_of_known stores known
    intro state m after carries runs _
    obtain ⟨n, filled⟩ := writes carries runs
    exact filled.ends_gives (makes.int32 int32)
  · apply newLabels
    intro isDouble done state m after different _ given carries runs sound
    refine carries.ends_numberWays converts makes different writes ?_ ?_ given runs sound
    · intro a b m carries runs
      cases Asm.runs_emit.mp runs
      exact carries.skip _ Inst.noConfusion
    · intro a b runs
      cases Asm.runs_emit.mp runs
      exact Nat.le_refl _

theorem guardToInt32Index :
    Follows setting s .none
      (Asm.definePayloadReg id .int32 >>= fun dst => Asm.int32OrDouble input dst .bailout
        (Asm.convertOrFail fun float fail => .doubleToInt32Exact float dst fail))
      (Eval.guardView Value.index? .int32 input id s) := by
  apply value
  intro v stores _
  apply definePayloadReg
  intro dst
  refine int32OrDouble stores .int32Exact (.of_view _ _ ?_ ?_)
  · intro type
    refine ⟨_, ?_, (Word.signExtend_eq v.bits).symm⟩
    rw [Value.index?, Value.int32?_of_type type]
  · intro none
    rw [Value.index?, none]

theorem guardToInt32ModUint32 :
    Follows setting s .none
      (Asm.definePayloadReg id .int32 >>= fun dst => Asm.int32OrDouble input dst .bailout
        (Asm.convertOrFail fun float fail => .truncateDoubleModUint32 float dst fail))
      (Eval.guardView Value.modUInt32? .int32 input id s) := by
  apply value
  intro v stores _
  apply definePayloadReg
  intro dst
  refine int32OrDouble stores .modUint32 (.of_view _ _ ?_ ?_)
  · intro type
    refine ⟨_, ?_, (Word.signExtend_eq v.bits).symm⟩
    rw [Value.modUInt32?, Value.int32?_of_type type]
  · intro none
    rw [Value.modUInt32?, none]
    cases v.double? <;> rfl

theorem guardClampedByte :
    Follows setting s .none (Asm.guardClampedByte input id)
      (Eval.guardView Value.clampedByte? .int32 input id s) := by
  apply value
  intro v stores _
  apply definePayloadReg
  intro dst
  apply allocation
  intro state m carries
  have single : state.allocation.knownType input ≠ some .double := carries.not_double _
  rw [if_neg single]
  apply useValueReg stores
  intro value
  apply newLabels
  intro done isDouble state m after different given _ carries runs sound
  have makes : MakesNumber s id .int32 v (Word.ofInt32 (clampInt32 v.bits.toUInt32.toInt32)) _ _ _ :=
    .of_view Value.clampedByte? (fun d => some d.clampByte)
      (fun type => ⟨_, by rw [Value.clampedByte?, Value.int32?_of_type type], rfl⟩)
      (fun none => by rw [Value.clampedByte?, none]; cases v.double? <;> rfl)
  have steps : (Asm.emit (.branchTestType .notEqual value .int32 isDouble) >>= fun _ =>
      (Asm.emit (.unboxPayload value dst .int32) >>= fun _ => Asm.emit (.clampInt32ToUint8 dst)) >>=
        fun _ => Asm.emit (.jump done) >>= fun _ => Asm.doubleWay value isDouble done .bailout
          fun float => Asm.emit (.clampDoubleToUint8 float dst)).Runs state () after := by
    rw [bind_assoc]
    exact runs
  refine carries.ends_numberWays .clampedByte makes (Ne.symm different) ?_ ?_ ?_ given steps sound
  · intro a b m carries runs
    simp only [Asm.runs_bind, Asm.runs_emit] at runs
    obtain ⟨_, _, rfl, rfl⟩ := runs
    have unboxes : (Inst.unboxPayload value dst .int32).exec setting.entry m =
        .next (m.setReg dst (Word.unbox v.bits .int32)) := by
      rw [Inst.exec, carries.hold.reg (.head _)]
    have filled := carries.fill (carries.reached.emitted unboxes) rfl
      fun _ member => member
    have clamps : (Inst.clampInt32ToUint8 dst).exec setting.entry
        (m.setReg dst (Word.unbox v.bits .int32)) =
        .next ((m.setReg dst (Word.unbox v.bits .int32)).setReg dst
          (Word.ofInt32 (clampInt32 v.bits.toUInt32.toInt32))) := by
      rw [Inst.exec, Machine.regs_setReg, if_pos rfl, Word.unbox, Word.signExtend_eq,
        Word.toUInt32_ofInt32]
    exact ⟨_, filled.fill (filled.reached.emitted clamps) rfl
      fun _ member => member⟩
  · intro a b m carries runs
    simp only [Asm.runs_bind, Asm.runs_emit] at runs
    obtain ⟨_, _, rfl, rfl⟩ := runs
    exact (carries.skip _ Inst.noConfusion).skip _ Inst.noConfusion
  · intro a b runs
    simp only [Asm.runs_bind, Asm.runs_emit] at runs
    obtain ⟨_, _, rfl, rfl⟩ := runs
    exact Nat.le_refl _

theorem int32ToIndex {n : Int32} (stores : s.Stores input.toNat (.int32 n)) :
    Follows setting s .none
      (Asm.useRegister input >>= fun src => Asm.definePayloadReg id .intptr >>= fun dst =>
        Asm.emit (.int32ToIntPtr src dst))
      (Eval.define id (.intptr n.toInt64) s) := by
  apply useRegister stores rfl
  intro src
  apply definePayloadReg
  intro dst
  apply define (.intptr n.toInt64) rfl (.of trivial)
  intro m hold _
  refine ⟨m.reads, ?_⟩
  rw [Inst.exec, hold.reg (.head _), OperandValue.word, Word.signExtend_ofInt32]
  rfl

theorem int32ToIntPtr :
    Follows setting s .none
      (Asm.useRegister input >>= fun src => Asm.definePayloadReg id .intptr >>= fun dst =>
        Asm.emit (.int32ToIntPtr src dst))
      ((Eval.use Operands.int32 input >>= fun n => Eval.define id (.intptr n.toInt64)) s) := by
  apply int32
  exact fun n stores => int32ToIndex stores

/-- An int32 operand is an index already. -/
theorem intNumber {supportsOutOfBounds : Bool} {n : Int32}
    (stores : s.Stores input.toNat (.int32 n)) :
    Follows setting s .none (Asm.guardNumberIndex input supportsOutOfBounds id)
      (Eval.define id (.intptr n.toInt64) s) := by
  intro state m after carries runs sound
  obtain ⟨_, _, looks, runs⟩ := Asm.runs_bind.mp runs
  obtain ⟨rfl, rfl⟩ := Asm.runs_allocation.mp looks
  by_cases empty : state.allocation.place input.toNat = .nowhere
  · have bare : state.allocation.payload? input = none := by
      rw [Allocation.payload?, Allocation.location_eq_place, empty]
      rfl
    rw [bare] at runs
    obtain ⟨dst, middle, defines, runs⟩ := Asm.runs_bind.mp runs
    obtain ⟨n, opened⟩ := carries.admit defines
    have other : input.toNat ≠ id.toNat := by
      intro same
      have undefined := (Asm.runs_definePayloadReg defines).2.1
      rw [← same, carries.defined _ _ stores] at undefined
      cases undefined
    exact absurd runs (Asm.not_runs_int32OrDouble (opened.not_double _)
      (Asm.definePayloadReg_nowhere defines other empty))
  · rw [carries.payload?_of_payload stores rfl empty] at runs
    have follows : Follows setting s .none (Asm.useRegister input >>= fun src =>
        Asm.definePayloadReg id .intptr >>= fun dst => Asm.emit (.int32ToIntPtr src dst))
        (Eval.define id (.intptr n.toInt64) s) := int32ToIndex stores
    exact follows _ _ _ carries runs sound

/-- A boxed operand is an index if it is the number of one. -/
theorem boxedNumber {supportsOutOfBounds : Bool} (stores : s.Stores input.toNat (.boxed v))
    (makes : MakesNumber s id .intptr v (Word.unbox v.bits .int32)
      (Double.indexWord? supportsOutOfBounds) .malformed result) :
    Follows setting s .none (Asm.guardNumberIndex input supportsOutOfBounds id) result := by
  apply allocation
  intro state m carries
  rw [carries.payload?_of_boxed stores]
  apply definePayloadReg
  intro dst
  exact int32OrDouble stores .index makes

theorem guardNumberIndex {supportsOutOfBounds : Bool} :
    Follows setting s .none (Asm.guardNumberIndex input supportsOutOfBounds id)
      (Op.eval setting.env.data ⟨.guardNumberToIntPtrIndex, input, supportsOutOfBounds, id, ()⟩ s) := by
  rw [Op.eval, Eval.bind_apply, Eval.use_apply, Operands.number, Operands.get]
  cases found : s.operands.slots[input.toNat]? with
  | none => exact fails rfl s
  | some slot =>
      cases slot with
      | none => exact fails rfl s
      | some stored =>
          cases stored with
          | ref | boolean | intptr | valueTag => exact fails rfl s
          | int32 n =>
              dsimp only [bind, Except.bind, pure, Except.pure]
              rw [Double.int64?_ofInt]
              exact intNumber found
          | boxed v =>
              dsimp only [bind, Except.bind]
              apply boxedNumber found
              constructor
              · intro type
                rw [Value.number?, Value.int32?_of_type type]
                dsimp only [pure, Except.pure]
                rw [Double.int64?_ofInt]
                exact ⟨_, rfl, rfl, trivial, rfl⟩
              · intro type w known
                obtain ⟨none, number⟩ := Value.double?_of_type type
                rw [Value.number?, none]
                dsimp only
                rw [number]
                dsimp only [pure, Except.pure]
                rw [Double.indexWord?] at known
                cases index : (Word.unboxDouble v.bits).int64? with
                | some n =>
                    rw [index] at known
                    cases known
                    exact ⟨_, rfl, rfl, trivial, rfl⟩
                | none =>
                    rw [index] at known
                    obtain ⟨outside, same⟩ := Option.ite_none_right_eq_some.mp known
                    cases same
                    exact ⟨.intptr (-1), congrFun (if_pos outside) s, rfl, trivial, rfl⟩
              · intro type unknown
                obtain ⟨none, number⟩ := Value.double?_of_type type
                rw [Value.number?, none]
                dsimp only
                rw [number]
                dsimp only [pure, Except.pure]
                rw [Double.indexWord?] at unknown
                cases index : (Word.unboxDouble v.bits).int64? with
                | some n =>
                    rw [index] at unknown
                    cases unknown
                | none =>
                    rw [index] at unknown
                    cases supportsOutOfBounds with
                    | true => cases unknown
                    | false => rfl
              · intro int32 double
                rw [Value.number?, Value.int32?_of_other int32]
                dsimp only
                rw [Value.double?_of_other double]
                exact ⟨_, rfl, rfl⟩

end Follows

end InlineCache
