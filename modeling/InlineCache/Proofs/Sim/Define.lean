import InlineCache.Proofs.Sim.Follow

/-!
Defining an operand.  The code gives it a register first and writes the register last, where the
evaluation defines the operand.
-/

namespace InlineCache

/-- An operand that has no place gets none when another one is defined. -/
theorem Asm.definePayloadReg_nowhere {id : OperandId} {type : PayloadType} {reg : Register}
    {a b : Assembler} (runs : (definePayloadReg id type).Runs a reg b) {i : Nat} (other : i ≠ id.toNat)
    (empty : a.allocation.place i = .nowhere) : b.allocation.place i = .nowhere := by
  obtain ⟨-, -, middle, takes, rfl⟩ := runs_definePayloadReg runs
  have marked : (a.allocation.markDefined id).place i = .nowhere :=
    (Allocation.place_markDefined _ _ i).trans empty
  have taken : middle.allocation.place i = .nowhere := by
    refine (takes.place i ?_).trans marked
    rw [Assembler.allocation_withAllocation, marked]
    rfl
  exact (Allocation.place_learn _ _ _ _).trans
    ((Allocation.place_setLocation_ne (Ne.symm other)).trans taken)

/-- The operand that is to be defined gets a register. -/
theorem Carries.admit {trusted : Bool} {setting : Setting trusted} {s : EvalState}
    {held : List (Register × UInt64)} {own : List (Source × UInt64)} {paths : List (Label × ExitStatus)} {a b : Assembler}
    {m : Machine} {id : OperandId} {type : PayloadType} {reg : Register}
    (carries : Carries setting s ⟨none, held, own, paths⟩ none a m)
    (runs : (Asm.definePayloadReg id type).Runs a reg b) :
    ∃ n, Carries setting s ⟨some ⟨id.toNat, reg, type, none⟩, held, own, paths⟩ none b n := by
  have balanced := Asm.definePayloadReg_balanced runs carries.balanced
  have grows := Asm.Tidy.definePayloadReg.grows runs
  obtain ⟨n, opens⟩ := Asm.definePayloadReg_opens runs carries.balanced carries.reached
  have fresh (stored : OperandValue) : ¬s.Stores id.toNat stored := by
    intro stores
    cases (carries.defined _ stored stores).symm.trans opens.undefined
  have different {other : Register} (pinned : a.allocation.pinned.contains other.index = true) :
      other ≠ reg := by
    rintro rfl
    cases pinned.symm.trans opens.unpinned
  have kept := carries.hold_of_pinned opens.regs
  refine ⟨n, ?_⟩
  exact
    { balanced
      led := opens.reached
      shown := by
        intro i content found
        by_cases own : i = id.toNat
        · exact .inr ⟨_, rfl, own.symm⟩
        · refine (carries.shown i content ((opens.contents i own).symm.trans found)).imp_right ?_
          rintro ⟨_, ⟨⟩, -⟩
      known := by
        intro i tag known
        have before (known : a.allocation.known i = some tag) :
            tag ≠ .double ∧ ∃ stored, s.Stores i stored ∧ stored.type? = some tag := by
          rcases carries.known i tag known with before | ⟨_, ⟨⟩, -⟩
          exact before
        rw [opens.known] at known
        split at known
        · rename_i own
          rcases Option.or_eq_some_iff.mp known with tagged | ⟨-, known⟩
          · exact .inr ⟨_, rfl, own.symm, tagged⟩
          · exact .inl (before known)
        · exact .inl (before known)
      defined := fun i stored stores => opens.defined i (carries.defined i stored stores)
      valid := carries.valid
      output := opens.alike.output.trans carries.output
      context := opens.alike.context.trans carries.context
      hold := ⟨kept.held, kept.own⟩
      opened := by
        rintro _ ⟨⟩
        refine ⟨opens.place, opens.taken, ?_, ?_, ?_⟩
        · exact fun _ impossible => absurd impossible.symm (Option.some_ne_none _)
        · exact fresh
        · exact fun fact member => different (carries.held fact member).1
      held := by
        intro fact member
        obtain ⟨pinned, i, located⟩ := carries.held fact member
        exact ⟨opens.pinned _ pinned, i, opens.fixed i _ located pinned ▸ located⟩
      scratch := by
        intro other w member
        obtain ⟨scratch, pinned⟩ := carries.scratch other w member
        exact ⟨opens.scratch _ scratch, opens.pinned _ pinned⟩
      apart := carries.apart
      paths := by
        intro fact member
        obtain ⟨path, listed, same⟩ := carries.paths fact member
        exact ⟨path, grows.mem_exits listed, same⟩ }

theorem Operands.exit?_of_define {operands : Operands} {id : OperandId} {value : OperandValue}
    {error : EvalError} (fails : operands.define id value = .error error) :
    (Stop.error error).exit? = none := by
  rw [define, fill] at fails
  split at fails <;> cases fails <;> rfl

section

variable {trusted : Bool} {setting : Setting trusted} {s : EvalState} {held : List (Register × UInt64)}
  {own : List (Source × UInt64)} {paths : List (Label × ExitStatus)}
  {result : Except Stop Unit × EvalState} {id : OperandId} {dst : Register} {type : PayloadType}

/-- Once the register is written, the evaluation may define the operand. -/
theorem Carries.ends_define {state : Assembler} {m : Machine} {value : OperandValue}
    (carries : Carries setting s ⟨some ⟨id.toNat, dst, type, some value.word⟩, held, own, paths⟩ none
      state m)
    (form : value.form = .payload type) (valid : Trusts trusted value.Valid) :
    Ends setting state (Eval.define id value s) := by
  rw [Eval.define_apply]
  cases defines : s.operands.define id value with
  | ok operands => exact ⟨m, carries.close form valid defines⟩
  | error error =>
      intro status exit
      cases (Operands.exit?_of_define defines).symm.trans exit

namespace Follows

theorem definePayloadReg {next : Register → Asm Unit}
    (rest : ∀ dst, Follows setting s ⟨some ⟨id.toNat, dst, type, none⟩, held, own, paths⟩ (next dst)
      result) :
    Follows setting s ⟨none, held, own, paths⟩ (Asm.definePayloadReg id type >>= next) result := by
  intro state m after carries runs sound
  obtain ⟨dst, middle, defines, runs⟩ := Asm.runs_bind.mp runs
  obtain ⟨n, carries⟩ := carries.admit defines
  exact rest dst _ _ _ carries runs sound

/-- The last instruction writes the register. -/
theorem define {inst : Inst} (value : OperandValue) (form : value.form = .payload type)
    (valid : Trusts trusted value.Valid)
    (exec : ∀ m, (Facts.mk (some ⟨id.toNat, dst, type, none⟩) held own paths).Hold m →
      m.context = s.context →
      ∃ reads, inst.exec setting.entry m = .next { m.setReg dst value.word with reads }) :
    Follows setting s ⟨some ⟨id.toNat, dst, type, none⟩, held, own, paths⟩ (Asm.emit inst)
      (Eval.define id value s) := by
  intro state m after carries runs _
  cases Asm.runs_emit.mp runs
  obtain ⟨reads, next⟩ := exec m carries.hold carries.context
  have filled := carries.fill (carries.reached.emitted next) rfl fun _ member => member
  exact filled.ends_define form valid

end Follows

end

end InlineCache
