import InlineCache.Proofs.Emit.Asks
import InlineCache.Proofs.Emit.BuildsOps

/-!
What each operation asks of the allocator.  It begins and ends with no float register lent to it, and it
defines its result.
-/

namespace InlineCache

theorem Inst.spare_of_work {inst : Inst} (work : inst.isWork = true) : inst.keepsDouble = false := by
  cases inst <;> cases work <;> rfl

namespace Asm

namespace Asks

variable {lent later : Option FloatRegister} {env : EmitEnv} {field : Field}

theorem typedWord {type : FieldType} : Asks lent lent [] (typedWord env field type) := by
  unfold Asm.typedWord
  split
  · exact pure
  · exact throw

theorem int32Word : Asks lent lent [] (int32Word env field) := by
  unfold Asm.int32Word
  split
  · exact pure
  · exact throw

theorem failurePath : Asks none none [] failurePath :=
  leave (by decide)

theorem guardType {input : OperandId} {type : ValueType} (other : type ≠ .double) :
    Asks none none [] (guardType input type) := by
  refine look fun found _ => useValueReg.bind fun value => ?_
  split
  · exact failurePath.bind fun fail => writes rfl ((prove other).bind fun _ => pure)
  · exact pure

theorem doublePath {value : Register} {convert : FloatRegister → Asm Unit}
    (converts : ∀ float, Asks (some float) (some float) [] (convert float)) :
    Asks none none [] (doublePath value convert) :=
  borrow fun float => writes rfl ((converts float).bind fun _ => giveBack)

/-- What is known of the operand is not that it is a double. -/
theorem int32OrDouble {input : OperandId} {dst : Register} {status : ExitStatus}
    (early : status ≠ .returned) {convert : FloatRegister → Asm Unit}
    (converts : ∀ float, Asks (some float) (some float) [] (convert float)) :
    Asks none none [] (int32OrDouble input dst status convert) := by
  refine look fun found single => ?_
  rw [if_neg (single.known input)]
  refine useValueReg.bind fun value => look fun found _ => ?_
  split
  · exact write rfl
  refine newLabel.bind fun notInt32 => newLabel.bind fun done => ?_
  refine writes rfl (writes rfl (writes rfl (writes rfl ?_)))
  refine (leave early).bind fun fail => writes rfl ?_
  exact (doublePath converts).bind fun _ => write rfl

theorem guardClampedByte {input result : OperandId} :
    Asks none none [result] (guardClampedByte input result) := by
  refine define fun dst => look fun found single => ?_
  rw [if_neg (single.known input)]
  refine useValueReg.bind fun value => newLabel.bind fun done => newLabel.bind fun isDouble => ?_
  refine writes rfl (writes rfl (writes rfl (writes rfl (writes rfl ?_))))
  refine failurePath.bind fun fail => writes rfl ?_
  exact (doublePath fun _ => write rfl).bind fun _ => write rfl

end Asks

/-- What writes code only may have a float register lent to it; it gives none back. -/
theorem Codes.asks {hand : Hand} {opened : List Label} {stretch : Asm Unit}
    (codes : Codes hand opened stretch) (lent : Option FloatRegister) : Asks lent lent [] stretch := by
  induction codes with
  | done => exact .pure
  | emit allows _ _ ih => exact .writes (Inst.spare_of_work allows.work) ih
  | newLabel _ ih => exact Asks.newLabel.bind ih
  | bound _ _ ih => exact .writes rfl ih
  | fail _ ih =>
      cases lent with
      | none => exact Asks.failurePath.bind ih
      | some float => exact Asks.bail.bind ih

theorem Builds.asks {env : EmitEnv} {op : Op} {hand : Hand} {defs : List OperandId}
    {stretch : Asm Unit} (builds : Builds env op hand defs stretch) : Asks none none defs stretch := by
  induction builds with
  | codes codes => exact codes.asks none
  | reject => exact .reject
  | returns => exact .write rfl
  | emit allows _ ih => exact .writes (Inst.spare_of_work allows.work) ih
  | leave early _ ih => exact (Asks.leave early).bind ih
  | look _ ih => exact .look fun found _ => ih found
  | callsHelpers _ ih => exact Asks.callsHelpers.bind fun _ => ih
  | typedWord _ ih => exact Asks.typedWord.bind ih
  | int32Word _ ih => exact Asks.int32Word.bind ih
  | grant _ _ ih | spend _ _ ih => exact ih
  | allocateRegister _ _ ih => exact Asks.allocateRegister.bind ih
  | releaseRegister _ ih => exact Asks.releaseRegister.bind fun _ => ih
  | useRegister _ _ ih => exact Asks.useRegister.bind ih
  | useValueReg _ _ ih => exact Asks.useValueReg.bind ih
  | guardType other _ _ ih => exact (Asks.guardType other).bind ih
  | define _ _ ih => exact .define ih
  -- boxing an int64 borrows a float register for as long as it takes
  | boxIntPtr _ _ _ rest =>
      exact .borrow fun float => .writes rfl (Asks.giveBack.bind fun _ => rest.asks none)
  | convert early _ _ converts =>
      exact .define fun dst => .int32OrDouble early fun float => (converts dst float).asks (some float)
  | clamp => exact .guardClampedByte

end Asm

/-- An operation makes requests of the allocator, and defines its results. -/
theorem Op.emit_asks (env : EmitEnv) (op : Op) :
    Asm.Asks none none (op.results.map Prod.fst) (op.emit env) :=
  (op.emit_builds env).asks

end InlineCache
