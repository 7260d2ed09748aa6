import InlineCache.Proofs.Emit.BuildsOps

/-!
What the code of each operation writes: it names what it was given, and the labels that it asks for are
bound before it ends.
-/

namespace InlineCache

/-- The site at which a stub with so many inputs is emitted. -/
def EmitEnv.site (env : EmitEnv) (inputs : Nat) : Site :=
  ⟨env.config, inputs, env.data.words.length⟩

attribute [local simp] Inst.needs Need.ofSource

theorem StubData.bound_of_wordOf? {data : StubData} {field : Field} {type : FieldType} {word : UInt64}
    (found : data.wordOf? field.offset type = .ok word) :
    field.offset + 8 ≤ 8 * data.words.length := by
  rw [wordOf?, typed?] at found
  split at found
  · rename_i listed _
    obtain ⟨bound, -⟩ := List.getElem?_eq_some_iff.mp listed
    rw [Field.offset] at bound ⊢
    omega
  · cases found

theorem Field.offset_lt (field : Field) : field.offset < 0x80000000 := by
  have small := field.index.toNat_lt
  rw [Field.offset]
  omega

namespace Asm

namespace Writes

variable {env : EmitEnv} {inputs : Nat} {known opened later : List Label} {α β : Type} [Named α]
  [Named β] {field : Field} {object : OperandId} {reg : Register}

/-- An instruction that goes nowhere. -/
theorem straight {site : Site} {inst : Inst} (plain : inst.bound? = none)
    (other : inst.isInput = false) (targets : inst.targets = [])
    (grants : ∀ need ∈ inst.needs, site.Grants need) :
    Writes site known opened opened (Asm.emit inst) :=
  emit plain other grants fun label member =>
    nomatch (targets ▸ member : label ∈ ([] : List Label))

theorem straight_bind {site : Site} {inst : Inst} {next : Unit → Asm β} (plain : inst.bound? = none)
    (other : inst.isInput = false) (targets : inst.targets = [])
    (grants : ∀ need ∈ inst.needs, site.Grants need)
    (rest : Writes site known opened later (next ())) :
    Writes site known opened later (Asm.emit inst >>= next) :=
  (straight plain other targets grants).bind fun _ _ => rest

/-- A branch to a label that is open, or to that of an exit path. -/
theorem branch_bind {site : Site} {inst : Inst} {next : Unit → Asm β} (plain : inst.bound? = none)
    (other : inst.isInput = false)
    (grants : ∀ need ∈ inst.needs, site.Grants need)
    (targets : ∀ label ∈ inst.targets, label ∈ opened ∨ label ∈ known)
    (rest : Writes site known opened later (next ())) :
    Writes site known opened later (Asm.emit inst >>= next) :=
  (emit plain other grants targets).bind fun _ _ => rest

/-- A word of stub data that was looked up can be loaded. -/
theorem typedWord_bind {type : FieldType} {next : UInt64 → Asm β}
    (rest : ∀ word, (env.site inputs).Grants (.fieldOffset field.offset) →
      Writes (env.site inputs) known opened later (next word)) :
    Writes (env.site inputs) known opened later (typedWord env field type >>= next) := by
  intro state answer after runs
  obtain ⟨word, middle, looks, runs⟩ := runs_bind.mp runs
  unfold typedWord at looks
  split at looks
  · rename_i found
    obtain ⟨rfl, rfl⟩ := runs_pure.mp looks
    exact rest _ (Site.grants_fieldOffset.mpr
      ⟨StubData.bound_of_wordOf? found, field.offset_lt⟩) _ _ _ runs
  · exact absurd looks not_runs_throw

theorem int32Word_bind {next : Int32 → Asm β}
    (rest : ∀ n, (env.site inputs).Grants (.fieldOffset field.offset) →
      Writes (env.site inputs) known opened later (next n)) :
    Writes (env.site inputs) known opened later (int32Word env field >>= next) := by
  intro state answer after runs
  obtain ⟨word, middle, looks, runs⟩ := runs_bind.mp runs
  unfold int32Word at looks
  split at looks
  · rename_i found
    obtain ⟨rfl, rfl⟩ := runs_pure.mp looks
    rw [StubData.int32?] at found
    cases typed : env.data.wordOf? field.offset .rawInt32 with
    | error error =>
        rw [typed] at found
        cases found
    | ok word =>
        exact rest _ (Site.grants_fieldOffset.mpr
          ⟨StubData.bound_of_wordOf? typed, field.offset_lt⟩) _ _ _ runs
  · exact absurd looks not_runs_throw

section

variable {site : Site}

theorem guardType {input : OperandId} {type : ValueType} :
    Writes site known opened opened (guardType input type) := by
  refine allocation_bind fun found => ?_
  refine useValueReg.bind fun value named => ?_
  split
  · refine exitPath_bind fun fail => ?_
    refine branch_bind rfl rfl (by simp_all)
      (by simp) ?_
    exact setKnownType.bind fun _ _ => pure named
  · exact pure named

theorem knownDouble {input : OperandId} {convert : FloatRegister → Asm Unit}
    (converts : ∀ float, site.Grants (.floatRegister float) →
      Writes site known opened opened (convert float)) :
    Writes site known opened opened (knownDouble input convert) :=
  useNumber.bind fun float named => (converts float (by simp_all)).bind fun _ _ => releaseFloat

theorem doublePath {value : Register} (held : site.Grants (.register value))
    {convert : FloatRegister → Asm Unit}
    (converts : ∀ float, site.Grants (.floatRegister float) →
      Writes site known opened opened (convert float)) :
    Writes site known opened opened (doublePath value convert) := by
  refine allocateFloat.bind fun float named => ?_
  refine straight_bind rfl rfl rfl (by simp_all) ?_
  exact (converts float (by simp_all)).bind fun _ _ => releaseFloat

theorem int32OrDouble {input : OperandId} {dst : Register} {status : ExitStatus}
    (held : site.Grants (.register dst)) {convert : FloatRegister → Asm Unit}
    (converts : ∀ known opened float, site.Grants (.floatRegister float) →
      Writes site known opened opened (convert float)) :
    Writes site known opened opened (int32OrDouble input dst status convert) := by
  refine allocation_bind fun found => ?_
  split
  · exact knownDouble fun float => converts _ _ float
  refine useValueReg.bind fun value named => allocation_bind fun found => ?_
  split
  · exact straight rfl rfl rfl (by simp_all)
  refine newLabel_bind fun notInt32 => newLabel_bind fun done => ?_
  refine branch_bind rfl rfl (by simp_all) (by simp) ?_
  refine straight_bind rfl rfl rfl (by simp_all) ?_
  refine branch_bind rfl rfl (by simp_all) (by simp) ?_
  refine perm (notInt32 :: done :: opened) ?_ (.swap ..)
  refine emit_bind.bind fun _ _ => exitPath_bind fun fail => ?_
  refine branch_bind rfl rfl (by simp_all) (by simp) ?_
  exact (doublePath (by simp_all) fun float => converts _ _ float).bind fun _ _ => emit_bind

theorem guardClampedByte {input result : OperandId} :
    Writes site known opened opened (guardClampedByte input result) := by
  refine definePayloadReg.bind fun dst held => ?_
  have clamp (known opened : List Label) (float : FloatRegister)
      (named : site.Grants (.floatRegister float)) :
      Writes site known opened opened (Asm.emit (.clampDoubleToUint8 float dst)) :=
    straight rfl rfl rfl (by simp_all)
  refine allocation_bind fun found => ?_
  split
  · exact knownDouble fun float => clamp _ _ float
  refine useValueReg.bind fun value named => ?_
  refine newLabel_bind fun done => newLabel_bind fun isDouble => ?_
  refine branch_bind rfl rfl (by simp_all) (by simp) ?_
  refine straight_bind rfl rfl rfl (by simp_all) ?_
  refine straight_bind rfl rfl rfl (by simp_all) ?_
  refine branch_bind rfl rfl (by simp_all) (by simp) ?_
  refine emit_bind.bind fun _ _ => exitPath_bind fun fail => ?_
  refine branch_bind rfl rfl (by simp_all) (by simp) ?_
  exact (doublePath (by simp_all) fun float => clamp _ _ float).bind fun _ _ => emit_bind

end

end Writes

end Asm

/-- An instruction names what is at hand, and goes to a label that is open or to that of an exit path. -/
theorem Hand.Allows.writes {hand : Hand} {opened : List Label} {inst : Inst}
    (allows : hand.Allows opened inst) {site : Site} {known others : List Label}
    (grants : ∀ need ∈ hand.named, site.Grants need) (paths : hand.paths ⊆ known) :
    Asm.Writes site known (opened ++ others) (opened ++ others) (Asm.emit inst) := by
  refine .emit (Inst.bound_of_work allows.work) (Inst.isInput_of_work allows.work)
    (fun need member => (allows.needs need member).granted grants) fun label target => ?_
  rw [Inst.targets_eq, Option.mem_toList] at target
  exact (allows.target label target).imp (List.mem_append_left _) fun path => paths path

namespace Asm

/-- What asks the allocator for nothing closes the labels that are open. -/
theorem Codes.writes {hand : Hand} {opened : List Label} {stretch : Asm Unit}
    (codes : Codes hand opened stretch) {site : Site} {known others : List Label}
    (grants : ∀ need ∈ hand.named, site.Grants need) (paths : hand.paths ⊆ known) :
    Writes site known (opened ++ others) others stretch := by
  induction codes generalizing known others with
  | done => exact .pure fun _ impossible => nomatch impossible
  | emit allows _ _ ih => exact (allows.writes grants paths).bind fun _ _ => ih grants paths
  | newLabel _ ih => exact .newLabel_bind fun label => ih label grants paths
  | bound perm _ ih =>
      exact .perm _ (Writes.emit_bind.bind fun _ _ => ih grants paths) (perm.append_right others)
  | fail _ ih => exact .exitPath_bind fun label => ih label grants (List.cons_subset_cons label paths)

theorem Builds.writes {env : EmitEnv} {op : Op} {hand : Hand} {defs : List OperandId}
    {stretch : Asm Unit} (builds : Builds env op hand defs stretch) {inputs : Nat}
    {known opened : List Label} (grants : ∀ need ∈ hand.named, (env.site inputs).Grants need)
    (paths : hand.paths ⊆ known) : Writes (env.site inputs) known opened opened stretch := by
  -- what is named from here on
  have cons {need : Need} {named : List Need} (granted : (env.site inputs).Grants need)
      (grants : ∀ need ∈ named, (env.site inputs).Grants need) :
      ∀ other ∈ need :: named, (env.site inputs).Grants other :=
    List.forall_mem_cons.mpr ⟨granted, grants⟩
  induction builds generalizing known with
  | codes codes => exact codes.writes grants paths
  | reject => exact .reject
  | returns => exact .straight rfl rfl rfl fun _ impossible => nomatch impossible
  | emit allows _ ih => exact (allows.writes grants paths).bind fun _ _ => ih grants paths
  | leave _ _ ih => exact .exitPath_bind fun label => ih label grants (List.cons_subset_cons label paths)
  | look _ ih => exact .allocation_bind fun found => ih found grants paths
  | callsHelpers _ ih => exact Writes.callsHelpers.bind fun _ _ => ih grants paths
  | typedWord _ ih => exact .typedWord_bind fun word there => ih word (cons there grants) paths
  | int32Word _ ih => exact .int32Word_bind fun n there => ih n (cons there grants) paths
  | grant granted _ ih => exact ih (cons (granted.granted grants) grants) paths
  | spend _ _ ih => exact ih grants paths
  | allocateRegister _ _ ih =>
      exact Writes.allocateRegister.bind fun reg named => ih reg (cons (named _ (.head _)) grants) paths
  | releaseRegister _ ih =>
      exact Writes.releaseRegister.bind fun _ _ => ih grants (List.nil_subset _)
  | useRegister _ _ ih =>
      exact Writes.useRegister.bind fun reg named => ih reg (cons (named _ (.head _)) grants) paths
  | useValueReg _ _ ih =>
      exact Writes.useValueReg.bind fun reg named => ih reg (cons (named _ (.head _)) grants) paths
  | guardType _ _ _ ih =>
      exact Writes.guardType.bind fun reg named =>
        ih reg (cons (named _ (.head _)) grants) (List.nil_subset _)
  | define _ _ ih =>
      exact Writes.definePayloadReg.bind fun reg named => ih reg (cons (named _ (.head _)) grants) paths
  | boxIntPtr _ given taken rest =>
      have given := given.granted grants
      have taken := taken.granted grants
      refine Writes.allocateFloat.bind fun float named => ?_
      refine .straight_bind rfl rfl rfl (by simp_all) ?_
      exact Writes.releaseFloat.bind fun _ _ => rest.writes grants (List.nil_subset _)
  | convert _ _ _ converts =>
      refine Writes.definePayloadReg.bind fun dst named => ?_
      have held := named _ (.head _)
      refine .int32OrDouble held fun known opened float number => ?_
      exact (converts dst float).writes (cons held (List.forall_mem_singleton.mpr number)) (List.nil_subset _)
  | clamp => exact .guardClampedByte

end Asm

/-- The code of an operation is drafted on its own: no label is left open behind it. -/
theorem Op.emit_writes (env : EmitEnv) (inputs : Nat) (known opened : List Label) (op : Op) :
    Asm.Writes (env.site inputs) known opened opened (op.emit env) :=
  (op.emit_builds env).writes (fun _ impossible => nomatch impossible) (List.nil_subset _)

end InlineCache
