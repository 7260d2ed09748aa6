import InlineCache.Proofs.Emit.BuildsOps
import InlineCache.Proofs.Emit.Tidy

/-!
Every operation is tidy: it emits code, binds the labels it has asked for, and adds exit paths.
-/

namespace InlineCache

attribute [grind =] Inst.isBind

theorem Inst.isBind_of_work {inst : Inst} (work : inst.isWork = true) : inst.isBind = false := by
  cases inst <;> cases work <;> rfl

namespace Asm

namespace Tidy

variable {R : List Label} {α β : Type} {env : EmitEnv} {id : OperandId}

attribute [grind ←] Tidy.pure Tidy.bind Tidy.throw Tidy.violate Tidy.reject Tidy.modifyAllocation
  Tidy.setLocation Tidy.setKnownType Tidy.allocation Tidy.exitPath Tidy.emit Tidy.emit_bind
  Tidy.newLabel_bind

@[grind ←]
theorem operandState : Tidy R (operandState id) := by
  grind [Asm.operandState]

@[grind ←]
theorem exhausted : Tidy R (exhausted : Asm α) := by
  grind [Asm.exhausted]

@[grind ←]
theorem markDefined : Tidy R (markDefined id) := by
  grind [Asm.markDefined]

@[grind ←]
theorem provenPayload : Tidy R (provenPayload id) := by
  grind [Asm.provenPayload]

@[grind ←]
theorem takeSlot : Tidy R takeSlot := by
  grind [Asm.takeSlot]

@[grind ←]
theorem spillOperand : Tidy R spillOperand := by
  unfold Asm.spillOperand
  apply bind allocation
  intro found
  dsimp only
  split
  · apply exhausted
  · apply bind takeSlot
    intro slot
    apply bind (emit rfl)
    intro _
    split <;> grind

@[grind ←]
theorem pin : Tidy R (pin reg) :=
  modifyAllocation _

@[grind ←]
theorem takeRegister : Tidy R takeRegister := by
  grind [Asm.takeRegister]

@[grind ←]
theorem spillFloatOperand : Tidy R spillFloatOperand := by
  unfold Asm.spillFloatOperand
  apply bind allocation
  intro found
  dsimp only
  split
  · apply exhausted
  · apply bind takeSlot
    grind

@[grind ←]
theorem saveFloat : Tidy R (saveFloat reg) := by
  grind [Asm.saveFloat]

@[grind ←]
theorem takeFloat : Tidy R takeFloat := by
  unfold Asm.takeFloat
  apply bind
  · apply bind allocation
    grind
  · grind

@[grind ←]
theorem returnFloat : Tidy R (returnFloat reg) := by
  grind [Asm.returnFloat]

@[grind ←]
theorem freeSlot : Tidy R (freeSlot slot) :=
  modifyAllocation _

@[grind ←]
theorem freeRegister : Tidy R (freeRegister reg) :=
  modifyAllocation _

@[grind ←]
theorem freeLocation : Tidy R (freeLocation location) := by
  cases location with
  | nowhere => exact pure _
  | payloadReg reg type | valueReg reg => exact freeRegister
  | floatReg reg => exact returnFloat
  | payloadSlot slot type | valueSlot slot | floatSlot slot => exact freeSlot

@[grind ←]
theorem allocateRegister : Tidy R allocateRegister := by
  grind [Asm.allocateRegister]

@[grind ←]
theorem allocateFloat : Tidy R allocateFloat := by
  grind [Asm.allocateFloat]

@[grind ←]
theorem releaseRegister : Tidy R (releaseRegister reg) :=
  modifyAllocation _

@[grind ←]
theorem releaseFloat : Tidy R (releaseFloat reg) := by
  grind [Asm.releaseFloat]

@[grind ←]
theorem defineInput : Tidy R (defineInput index) := by
  grind [Asm.defineInput]

@[grind ←]
theorem forM {visit : β → Asm Unit} (tidy : ∀ b, Tidy R (visit b)) (items : List β) :
    Tidy R (items.forM visit) := by
  induction items with
  | nil => exact pure ()
  | cons item items ih => exact bind (tidy item) fun _ => ih

@[grind ←]
theorem defineInputs : Tidy R (defineInputs count) := by
  grind [Asm.defineInputs]

@[grind ←]
theorem beginOp : Tidy R (beginOp index) := by
  grind [Asm.beginOp]

@[grind ←]
theorem definePayloadReg : Tidy R (definePayloadReg id type) := by
  grind [Asm.definePayloadReg]

@[grind ←]
theorem boxInPlace : Tidy R (boxInPlace id reg type) := by
  grind [Asm.boxInPlace]

@[grind ←]
theorem reload : Tidy R (reload slot) := by
  grind [Asm.reload]

@[grind ←]
theorem reloadFloat : Tidy R (reloadFloat slot) := by
  grind [Asm.reloadFloat]

@[grind ←]
theorem boxFloat : Tidy R (boxFloat float) := by
  grind [Asm.boxFloat]

@[grind ←]
theorem notLive : Tidy R (notLive id : Asm α) :=
  violate _

@[grind ←]
theorem useValueReg : Tidy R (useValueReg id) := by
  unfold Asm.useValueReg
  apply bind operandState
  intro operand
  dsimp only
  split <;> grind

@[grind ←]
theorem useRegister : Tidy R (useRegister id) := by
  unfold Asm.useRegister
  apply bind operandState
  intro operand
  dsimp only
  split <;> grind

@[grind ←]
theorem useBoxedNumber : Tidy R (useBoxedNumber id) := by
  grind [Asm.useBoxedNumber]

@[grind ←]
theorem useInt32Number : Tidy R (useInt32Number id) := by
  grind [Asm.useInt32Number]

@[grind ←]
theorem useNumber : Tidy R (useNumber id) := by
  grind [Asm.useNumber]

@[grind ←]
theorem typedWord : Tidy R (typedWord env field type) := by
  grind [Asm.typedWord]

@[grind ←]
theorem int32Word : Tidy R (int32Word env field) := by
  grind [Asm.int32Word]

@[grind ←]
theorem wordSource : Tidy R (wordSource env field word) := by
  grind [Asm.wordSource]

@[grind ←]
theorem loadWord : Tidy R (loadWord env dst field word) := by
  grind [Asm.loadWord]

@[grind ←]
theorem releaseSource : Tidy R (releaseSource source) := by
  cases source with
  | reg reg => exact releaseRegister
  | imm word => exact pure _

@[grind ←]
theorem zeroedRegister : Tidy R (zeroedRegister env object reg) := by
  grind [Asm.zeroedRegister]

@[grind ←]
theorem boxToOutput : Tidy R (boxToOutput src type) := by
  grind [Asm.boxToOutput]

@[grind ←]
theorem guardType : Tidy R (guardType input type) := by
  grind [Asm.guardType, Asm.failurePath]

@[grind ←]
theorem convertOrMinusOne : Tidy R (convertOrMinusOne dst float) := by
  unfold Asm.convertOrMinusOne
  apply newLabel_bind
  intro outOfBounds
  apply newLabel_bind
  intro converted
  apply bind (emit rfl)
  intro _
  apply bind (emit rfl)
  intro _
  apply bind (emit_bind (.tail _ (.head _)))
  intro _
  apply bind (emit rfl)
  intro _
  exact emit_bind (.head _)

@[grind ←]
theorem doublePath {convert : FloatRegister → Asm Unit} (tidy : ∀ float, Tidy R (convert float)) :
    Tidy R (doublePath value convert) := by
  grind [Asm.doublePath]

@[grind ←]
theorem knownDouble {convert : FloatRegister → Asm Unit} (tidy : ∀ float, Tidy R (convert float)) :
    Tidy R (knownDouble id convert) := by
  grind [Asm.knownDouble]

@[grind ←]
theorem int32OrDouble {convert : FloatRegister → Asm Unit} {nonNumber : ExitStatus}
    (tidy : ∀ R float, Tidy R (convert float)) :
    Tidy R (int32OrDouble id dst nonNumber convert) := by
  unfold Asm.int32OrDouble
  apply bind allocation
  intro found
  split
  · apply knownDouble
    grind
  · apply bind (useValueReg)
    intro value
    apply bind allocation
    intro found
    split
    · grind
    · apply newLabel_bind
      intro notInt32
      apply newLabel_bind
      intro done
      apply bind (emit rfl)
      intro _
      apply bind (emit rfl)
      intro _
      apply bind (emit rfl)
      intro _
      grind

@[grind ←]
theorem failurePath : Tidy R failurePath :=
  exitPath _

@[grind ←]
theorem convertOrFail {inst : FloatRegister → Label → Inst}
    (plain : ∀ float fail, (inst float fail).isBind = false) (float : FloatRegister) :
    Tidy R (convertOrFail inst float) := by
  grind [Asm.convertOrFail]

@[grind ←]
theorem guardNumberIndex : Tidy R (guardNumberIndex input flag result) := by
  unfold Asm.guardNumberIndex
  apply bind allocation
  intro found
  split
  · grind
  · apply reject
  · apply bind definePayloadReg
    intro dst
    apply int32OrDouble
    split <;> grind

@[grind ←]
theorem guardClampedByte : Tidy R (guardClampedByte input result) := by
  unfold Asm.guardClampedByte
  apply bind definePayloadReg
  intro dst
  apply bind allocation
  intro found
  split
  · apply knownDouble
    grind
  · apply bind useValueReg
    intro value
    apply newLabel_bind
    intro done
    apply newLabel_bind
    intro isDouble
    apply bind (emit rfl)
    intro _
    apply bind (emit rfl)
    intro _
    apply bind (emit rfl)
    intro _
    apply bind (emit rfl)
    intro _
    grind

@[grind ←]
theorem guardNullish : Tidy R (guardNullish input) := by
  unfold Asm.guardNullish
  apply bind allocation
  intro found
  dsimp only
  split
  · apply pure
  · apply bind useValueReg
    intro value
    apply newLabel_bind
    intro ok
    grind

@[grind ←]
theorem guardNumber : Tidy R (guardNumber input) := by
  grind [Asm.guardNumber]

@[grind ←]
theorem loadValueTag : Tidy R (loadValueTag input result) := by
  grind [Asm.loadValueTag]

@[grind ←]
theorem loadTypedResult : Tidy R (loadTypedResult input) := by
  grind [Asm.loadTypedResult]

end Tidy

/-- What asks the allocator for nothing binds the labels that are open. -/
theorem Codes.tidy {hand : Hand} {opened reserved : List Label} {stretch : Asm Unit}
    (codes : Codes hand opened stretch) (within : opened ⊆ reserved) : Tidy reserved stretch := by
  induction codes generalizing reserved with
  | done => exact .pure ()
  | emit allows _ _ ih => exact (Tidy.emit (Inst.isBind_of_work allows.work)).bind fun _ => ih within
  | newLabel _ ih => exact .newLabel_bind fun label => ih label (List.cons_subset_cons label within)
  | bound perm _ ih =>
      have opened := List.Subset.trans perm.symm.subset within
      exact (Tidy.emit_bind (opened (.head _))).bind fun _ => ih (List.subset_of_cons_subset opened)
  | fail _ ih => exact Tidy.failurePath.bind fun label => ih label within

theorem Builds.tidy {env : EmitEnv} {op : Op} {hand : Hand} {defs : List OperandId}
    {stretch : Asm Unit} (builds : Builds env op hand defs stretch) : Tidy [] stretch := by
  induction builds with
  | codes codes => exact codes.tidy (List.Subset.refl _)
  | reject => exact .reject _
  | returns => exact .emit rfl
  | emit allows _ ih => exact (Tidy.emit (Inst.isBind_of_work allows.work)).bind fun _ => ih
  | leave _ _ ih => exact (Tidy.exitPath _).bind ih
  | look _ ih => exact Tidy.allocation.bind ih
  | callsHelpers _ ih =>
      have marked : Tidy [] (modify fun state => { state with callsHelpers := true }) :=
        .modify (fun _ => rfl) fun _ => rfl
      exact marked.bind fun _ => ih
  | typedWord _ ih => exact Tidy.typedWord.bind ih
  | int32Word _ ih => exact Tidy.int32Word.bind ih
  | grant _ _ ih | spend _ _ ih => exact ih
  | allocateRegister _ _ ih => exact Tidy.allocateRegister.bind ih
  | releaseRegister _ ih => exact Tidy.releaseRegister.bind fun _ => ih
  | useRegister _ _ ih => exact Tidy.useRegister.bind ih
  | useValueReg _ _ ih => exact Tidy.useValueReg.bind ih
  | guardType _ _ _ ih => exact Tidy.guardType.bind ih
  | define _ _ ih => exact Tidy.definePayloadReg.bind ih
  | boxIntPtr _ _ _ rest =>
      refine Tidy.allocateFloat.bind fun float => (Tidy.emit rfl).bind fun _ => ?_
      exact Tidy.releaseFloat.bind fun _ => rest.tidy (List.Subset.refl _)
  | convert _ _ _ converts =>
      refine Tidy.definePayloadReg.bind fun dst => .int32OrDouble fun _ float => ?_
      exact (converts dst float).tidy (List.nil_subset _)
  | clamp => exact .guardClampedByte

end Asm

/-- The code of an operation binds no label but those that it has asked for. -/
theorem Op.emit_tidy (env : EmitEnv) (op : Op) : Asm.Tidy [] (op.emit env) :=
  (op.emit_builds env).tidy

namespace Asm

theorem checkAliasing_tidy : Tidy R checkAliasing := by
  unfold checkAliasing
  apply Tidy.bind .allocation
  intro found
  split
  · apply Tidy.pure
  · apply Tidy.violate

theorem emitOp_tidy (env : EmitEnv) (op : Op × Nat) : Tidy [] (emitOp env op) := by
  apply Tidy.bind .beginOp
  intro _
  apply Tidy.bind (op.1.emit_tidy env)
  intro _
  apply checkAliasing_tidy

theorem prologue_tidy (inputCount : Nat) : Tidy [] (prologue inputCount) := by
  grind [prologue]

end Asm

end InlineCache
