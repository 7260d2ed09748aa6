import InlineCache.Proofs.Emit.BuildsOps
import InlineCache.Proofs.Emit.Spares

/-!
What the code of each operation leaves of a blank operand.  An operation brings its operands into registers
first, and branches within itself only when nothing is moved any more.
-/

namespace InlineCache

theorem Inst.plain_of_work {inst : Inst} (work : inst.isWork = true) : inst.isPlain = true := by
  cases inst <;> cases work <;> rfl

namespace Asm

/-- A stretch that only looks at something, or rejects it. -/
def Looks (stretch : Asm α) : Prop :=
  ∀ state answer after, stretch.Runs state answer after → after = state

namespace Looks

variable {α : Type} {env : EmitEnv} {field : Field} {offset : Int32}

theorem pure {answer : α} : Looks (pure answer : Asm α) :=
  fun _ _ _ runs => (runs_pure.mp runs).2.symm

theorem throw {error : CodeError} : Looks (throw error : Asm α) :=
  fun _ _ _ runs => absurd runs not_runs_throw

theorem typedWord {type : FieldType} : Looks (typedWord env field type) := by
  unfold Asm.typedWord
  split
  · exact pure
  · exact throw

theorem int32Word : Looks (int32Word env field) := by
  unfold Asm.int32Word
  split
  · exact pure
  · exact throw

end Looks

namespace Spares

variable {config : CodeConfig} {trail : Trail} {opened later : List Label} {scope : Scope} {α β : Type}

theorem looks_bind {stretch : Asm α} {next : α → Asm β} (looks : Looks stretch)
    (rest : ∀ answer, Spares config trail opened scope later (next answer)) :
    Spares config trail opened scope later (stretch >>= next) := by
  intro state answer after runs
  obtain ⟨found, _, first, runs⟩ := runs_bind.mp runs
  cases looks _ _ _ first
  exact rest found _ _ _ runs

theorem doublePath {value : Register} {convert : FloatRegister → Asm Unit}
    (converts : ∀ float, Spares config trail opened scope opened (convert float)) :
    Spares config trail opened scope opened (doublePath value convert) := by
  refine allocateFloat_bind fun float => emit_bind (by simp) ?_
  exact (converts float).bind fun _ => releaseFloat

theorem int32OrDouble {input : OperandId} {dst : Register} {status : ExitStatus} (own : dst ∈ scope.own)
    {convert : FloatRegister → Asm Unit}
    (converts : ∀ opened scope float, dst ∈ scope.own →
      Spares config trail opened scope opened (convert float)) :
    Spares config trail [] scope [] (int32OrDouble input dst status convert) := by
  refine allocation_bind fun found single => ?_
  rw [if_neg (single.known input)]
  refine useValueReg_bind fun value => allocation_bind fun found _ => ?_
  split
  · exact emit (by simpa using own)
  refine newLabel_bind fun notInt32 => newLabel_bind fun done => ?_
  refine emit_bind (by simp) (emit_bind (by simpa using own) (emit_bind (by simp) ?_))
  refine perm [notInt32, done] ?_ (.swap ..)
  refine bound_bind (exitPath_bind fun fail => emit_bind (by simp) ?_)
  refine (doublePath fun float => converts _ _ float ?_).bind fun _ => bound
  exact own

theorem guardClampedByte {input result : OperandId} :
    Spares config trail [] scope [] (guardClampedByte input result) := by
  refine definePayloadReg_bind fun dst => allocation_bind fun found single => ?_
  rw [if_neg (single.known input)]
  refine useValueReg_bind fun value => newLabel_bind fun done => newLabel_bind fun isDouble => ?_
  refine emit_bind (by simp) (emit_bind (by simp) (emit_bind (by simp) (emit_bind (by simp) ?_)))
  refine bound_bind (exitPath_bind fun fail => emit_bind (by simp) ?_)
  exact (doublePath fun _ => emit (by simp)).bind fun _ => bound

end Spares

end Asm

namespace Hand

/-- The scope of a stretch that has no label open. -/
def scope (hand : Hand) : Scope :=
  ⟨hand.paths, hand.own, hand.held⟩

/-- What a stretch has at hand is in its scope. -/
structure Within (hand : Hand) (opened : List Label) (scope : Scope) : Prop where
  own : hand.own ⊆ scope.own
  held : hand.held ⊆ scope.held
  opened : opened ⊆ scope.labels
  paths : hand.paths ⊆ scope.labels

namespace Within

variable {hand : Hand} {opened others : List Label} {scope : Scope}

theorem refl (hand : Hand) : hand.Within [] hand.scope :=
  ⟨List.Subset.refl _, List.Subset.refl _, List.nil_subset _, List.Subset.refl _⟩

theorem newLabel (within : hand.Within opened scope) (label : Label) :
    hand.Within (label :: opened) { scope with labels := label :: scope.labels } :=
  { within with
    opened := List.cons_subset_cons label within.opened
    paths := fun _ member => .tail _ (within.paths member) }

theorem leave (within : hand.Within opened scope) (label : Label) :
    (hand.leave label).Within opened { scope with labels := label :: scope.labels } :=
  { within with
    opened := fun _ member => .tail _ (within.opened member)
    paths := List.cons_subset_cons label within.paths }

theorem fewer (within : hand.Within opened scope) (fewer : others ⊆ opened) : hand.Within others scope :=
  { within with opened := List.Subset.trans fewer within.opened }

end Within

theorem Allows.within {hand : Hand} {opened : List Label} {inst : Inst} {scope : Scope}
    (allows : hand.Allows opened inst) (within : hand.Within opened scope) : scope.Allows inst where
  plain := Inst.plain_of_work allows.work
  written reg found := within.own (allows.written reg found)
  read reg found := (allows.base reg found).imp (within.own ·) (within.held ·)
  zeroed reg found := within.held (allows.zeroed reg found)
  target label found := (allows.target label found).elim (within.opened ·) (within.paths ·)

end Hand

namespace Asm

variable {config : CodeConfig} {trail : Trail}

/-- What asks the allocator for nothing closes the labels that are open. -/
theorem Codes.spares {hand : Hand} {opened : List Label} {stretch : Asm Unit}
    (codes : Codes hand opened stretch) {others : List Label} {scope : Scope}
    (within : hand.Within opened scope) :
    Spares config trail (opened ++ others) scope others stretch := by
  induction codes generalizing others scope with
  | done => exact .pure
  | emit allows _ _ ih => exact .emit_bind (allows.within within) (ih within)
  | newLabel _ ih => exact .newLabel_bind fun label => ih label (within.newLabel label)
  | bound perm _ ih =>
      have fewer := within.fewer (List.Subset.trans (List.subset_cons_self _ _) perm.symm.subset)
      exact .perm _ (.bound_bind (ih fewer)) (perm.append_right others)
  | fail _ ih => exact .exitPath_bind fun label => ih label (within.leave label)

theorem Builds.spares {env : EmitEnv} {op : Op} {hand : Hand} {defs : List OperandId}
    {stretch : Asm Unit} (builds : Builds env op hand defs stretch) :
    Spares config trail [] hand.scope [] stretch := by
  induction builds with
  | codes codes => exact codes.spares (.refl _)
  | reject => exact .reject
  | returns => exact .emit (by simp)
  | emit allows _ ih => exact .emit_bind (allows.within (.refl _)) ih
  | leave _ _ ih => exact .exitPath_bind ih
  | look _ ih => exact .allocation_bind fun found _ => ih found
  | callsHelpers _ ih => exact .callsHelpers_bind ih
  | typedWord _ ih => exact .looks_bind .typedWord ih
  | int32Word _ ih => exact .looks_bind .int32Word ih
  | grant _ _ ih | spend _ _ ih => exact ih
  | allocateRegister _ _ ih => exact .allocateRegister_bind ih
  | releaseRegister _ ih => exact Spares.releaseRegister.bind fun _ => ih
  | useRegister _ _ ih => exact .useRegister_bind ih
  | useValueReg _ _ ih => exact .useValueReg_bind ih
  | guardType other _ _ ih => exact (Spares.guardType other).bind ih
  | define _ _ ih => exact .definePayloadReg_bind ih
  | boxIntPtr own _ _ rest =>
      refine .allocateFloat_bind fun float => .emit_bind (by simpa [Hand.scope] using own) ?_
      exact Spares.releaseFloat.bind fun _ => rest.spares (.refl _)
  | convert _ _ _ converts =>
      refine .definePayloadReg_bind fun dst => .int32OrDouble (.head _) fun opened scope float own => ?_
      have held : [dst] ⊆ scope.own := List.cons_subset.mpr ⟨own, List.nil_subset _⟩
      exact (converts dst float).spares ⟨held, List.nil_subset _, List.nil_subset _, List.nil_subset _⟩
  | clamp => exact .guardClampedByte

end Asm

/-- A blank operand stays blank through an operation. -/
theorem Op.emit_spares (env : EmitEnv) (trail : Trail) (op : Op) :
    Asm.Spares env.config trail [] .none [] (op.emit env) :=
  (op.emit_builds env).spares

end InlineCache
