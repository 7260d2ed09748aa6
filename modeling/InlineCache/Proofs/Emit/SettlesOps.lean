import InlineCache.Proofs.Emit.BuildsOps
import InlineCache.Proofs.Emit.Settles

/-!
What each operation does to the account of saved float registers.  An operation begins and ends with
nothing saved: a conversion saves the register that it takes, leaves through an exit path of its own
if it fails, and restores the register otherwise.
-/

namespace InlineCache

/-- An instruction of an operation is a jump, or it goes on. -/
theorem Inst.branch_of_work {inst : Inst} (work : inst.isWork = true) :
    inst.isBranch = true ∨ ∃ label, inst = .jump label := by
  cases inst with
  | jump label => exact .inr ⟨label, rfl⟩
  | _ => cases work <;> exact .inl rfl

namespace Asm

namespace Settles

variable {config : CodeConfig} {labels : Records} {saved later : SavedFloats} {env : EmitEnv}
  {field : Field} {α β : Type}

/-- A branch to a label where the same is saved. -/
theorem branch {inst : Inst} (branch : inst.isBranch = true)
    (records : ∀ label ∈ inst.targets, (label, saved) ∈ labels) {next : Unit → Asm β}
    (rest : Settles config labels saved later (next ())) :
    Settles config labels saved later (emit inst >>= next) :=
  (emit_branch branch records).bind fun _ => rest

theorem straight {inst : Inst} (straight : inst.isStraight = true) {next : Unit → Asm β}
    (rest : Settles config labels saved later (next ())) :
    Settles config labels saved later (emit inst >>= next) :=
  (emit_straight straight).bind fun _ => rest

theorem typedWord {type : FieldType} :
    Settles config labels saved saved (typedWord env field type) := by
  unfold Asm.typedWord
  split
  · exact pure
  · exact throw

theorem int32Word : Settles config labels saved saved (int32Word env field) := by
  unfold Asm.int32Word
  split
  · exact pure
  · exact throw

theorem guardType {input : OperandId} {type : ValueType} (other : type ≠ .double) :
    Settles config labels saved saved (guardType input type) := by
  refine allocation_bind fun found _ => useValueReg.bind fun value => ?_
  split
  · exact exitPath_bind fun fail => branch rfl (by simp) ((setKnownType other).bind fun _ => pure)
  · exact pure

/-- The register of a double is saved while it is converted. -/
theorem doublePath {value : Register} (saves : config.savesFloats = true)
    {convert : FloatRegister → Asm Unit}
    (converts : ∀ float slot, Settles config labels (saved ++ [(float, slot)])
      (saved ++ [(float, slot)]) (convert float)) :
    Settles config labels saved saved (doublePath value convert) := by
  refine allocateFloat_bind saves fun float slot => ?_
  have written : Settles config labels (saved ++ [(float, slot)]) (saved ++ [(float, slot)])
      (emit (.unboxDouble value float)) :=
    emit_float rfl rfl rfl (by simp)
  exact written.bind fun _ => (converts float slot).bind fun _ => releaseFloat saves

theorem int32OrDouble {input : OperandId} {dst : Register} {status : ExitStatus}
    (saves : config.savesFloats = true) {convert : FloatRegister → Asm Unit}
    (converts : ∀ labels saved float, Settles config labels saved saved (convert float)) :
    Settles config labels saved saved (int32OrDouble input dst status convert) := by
  refine allocation_bind fun found single => ?_
  rw [if_neg (single.known input)]
  refine useValueReg.bind fun value => allocation_bind fun found _ => ?_
  split
  · exact emit_straight rfl
  refine newLabel_bind fun notInt32 => newLabel_bind fun done => ?_
  refine branch rfl (by simp) (straight rfl ?_)
  refine (emit_jump (by simp)).bind fun _ => (emit_bind (by simp)).bind fun _ => ?_
  refine exitPath_bind fun fail => branch rfl (by simp) ?_
  exact (doublePath saves fun float _ => converts _ _ float).bind fun _ => emit_bind (by simp)

theorem guardClampedByte {input result : OperandId} (saves : config.savesFloats = true) :
    Settles config labels saved saved (guardClampedByte input result) := by
  refine definePayloadReg.bind fun dst => allocation_bind fun found single => ?_
  rw [if_neg (single.known input)]
  refine useValueReg.bind fun value => newLabel_bind fun done => newLabel_bind fun isDouble => ?_
  refine branch rfl (by simp) (straight rfl (straight rfl ?_))
  refine (emit_jump (by simp)).bind fun _ => (emit_bind (by simp)).bind fun _ => ?_
  refine exitPath_bind fun fail => branch rfl (by simp) ?_
  exact (doublePath saves fun _ _ => emit_straight rfl).bind fun _ => emit_bind (by simp)

end Settles

end Asm

/-- The same is saved wherever one of the labels is gone to. -/
def Records.Hold (records : Records) (saved : SavedFloats) (labels : List Label) : Prop :=
  ∀ label ∈ labels, (label, saved) ∈ records

namespace Records.Hold

variable {records : Records} {saved : SavedFloats} {labels : List Label}

theorem nil : Hold records saved [] :=
  fun _ impossible => nomatch impossible

theorem old (hold : Hold records saved labels) (entry : Label × SavedFloats) :
    Hold (entry :: records) saved labels :=
  fun label member => .tail _ (hold label member)

theorem new (hold : Hold records saved labels) (label : Label) :
    Hold ((label, saved) :: records) saved (label :: labels) :=
  List.forall_mem_cons.mpr ⟨.head _, hold.old _⟩

end Records.Hold

/-- An instruction goes to labels where the same is saved. -/
theorem Hand.Allows.settles {hand : Hand} {opened : List Label} {inst : Inst}
    (allows : hand.Allows opened inst) {config : CodeConfig} {records : Records} {saved : SavedFloats}
    (labels : records.Hold saved opened) (paths : records.Hold saved hand.paths) :
    Asm.Settles config records saved saved (Asm.emit inst) := by
  have target (label : Label) (goes : inst.target? = some label) : (label, saved) ∈ records :=
    (allows.target label goes).elim (labels label) (paths label)
  rcases Inst.branch_of_work allows.work with branch | ⟨label, rfl⟩
  · refine .emit_branch branch fun label member => target label ?_
    rwa [Inst.targets_eq, Option.mem_toList] at member
  · exact .emit_jump (target label rfl)

namespace Asm

/-- What asks the allocator for nothing leaves the account as it is. -/
theorem Codes.settles {hand : Hand} {opened : List Label} {stretch : Asm Unit}
    (codes : Codes hand opened stretch) {config : CodeConfig} {records : Records} {saved : SavedFloats}
    (labels : records.Hold saved opened) (paths : records.Hold saved hand.paths) :
    Settles config records saved saved stretch := by
  induction codes generalizing records with
  | done => exact .pure
  | emit allows _ _ ih => exact (allows.settles labels paths).bind fun _ => ih labels paths
  | newLabel _ ih => exact .newLabel_bind fun label => ih label (labels.new label) (paths.old _)
  | bound perm _ ih =>
      have bound := labels _ (perm.mem_iff.mpr (.head _))
      have others := fun label member => labels label (perm.mem_iff.mpr (.tail _ member))
      exact (Settles.emit_bind bound).bind fun _ => ih others paths
  | fail _ ih => exact .exitPath_bind fun label => ih label (labels.old _) (paths.new label)

/-- Nothing is saved where a stretch of an operation begins, and nothing behind it. -/
theorem Builds.settles {env : EmitEnv} {op : Op} {hand : Hand} {defs : List OperandId}
    {stretch : Asm Unit} (builds : Builds env op hand defs stretch) {config : CodeConfig}
    (saves : config.savesFloats = true) {records : Records} (paths : records.Hold [] hand.paths) :
    Settles config records [] [] stretch := by
  induction builds generalizing records with
  | codes codes => exact codes.settles .nil paths
  | reject => exact .reject
  | returns => exact .emit_ret
  | emit allows _ ih => exact (allows.settles .nil paths).bind fun _ => ih paths
  | leave _ _ ih => exact .exitPath_bind fun label => ih label (paths.new label)
  | look _ ih => exact .allocation_bind fun found _ => ih found paths
  | callsHelpers _ ih => exact Settles.callsHelpers.bind fun _ => ih paths
  | typedWord _ ih => exact Settles.typedWord.bind fun word => ih word paths
  | int32Word _ ih => exact Settles.int32Word.bind fun n => ih n paths
  | grant _ _ ih | spend _ _ ih => exact ih paths
  | allocateRegister _ _ ih => exact Settles.allocateRegister.bind fun reg => ih reg paths
  | releaseRegister _ ih => exact Settles.releaseRegister.bind fun _ => ih .nil
  | useRegister _ _ ih => exact Settles.useRegister.bind fun reg => ih reg paths
  | useValueReg _ _ ih => exact Settles.useValueReg.bind fun reg => ih reg paths
  | guardType other _ _ ih => exact (Settles.guardType other).bind fun reg => ih reg .nil
  | define _ _ ih => exact Settles.definePayloadReg.bind fun reg => ih reg paths
  | @boxIntPtr _ src dst _ _ _ _ rest =>
      refine .allocateFloat_bind saves fun float slot => ?_
      have written : Settles config records [(float, slot)] [(float, slot)]
          (Asm.emit (.boxIntPtr src dst float)) :=
        .emit_float rfl rfl rfl (by simp)
      have behind : Settles config records [] [] _ := rest.settles .nil .nil
      exact written.bind fun _ => (Settles.releaseFloat saves).bind fun _ => behind
  | convert _ _ _ converts =>
      exact Settles.definePayloadReg.bind fun dst =>
        .int32OrDouble saves fun _ _ float => (converts dst float).settles .nil .nil
  | clamp => exact .guardClampedByte saves

end Asm

/-- Nothing is saved before an operation, and nothing behind it. -/
theorem Op.emit_settles (env : EmitEnv) (op : Op) (saves : env.config.savesFloats = true) :
    Asm.Settles env.config [] [] [] (op.emit env) :=
  (op.emit_builds env).settles saves .nil

end InlineCache
