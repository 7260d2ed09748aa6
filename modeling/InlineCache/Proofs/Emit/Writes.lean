import InlineCache.Proofs.Emit.Written

/-!
What a stretch of code generation writes, as a rule for each way to put stretches together.  A stretch
begins with some labels open and ends with others, it knows of labels of exit paths, and what it answers
may be named by the instructions behind it.
-/

namespace InlineCache

/-- The instruction loads an input. -/
def Inst.isInput : Inst → Bool
  | .loadInput _ _ => true
  | _ => false

theorem Inst.ne_loadInput {inst : Inst} (other : inst.isInput = false) (dst : Register)
    (index : UInt8) : inst ≠ .loadInput dst index := by
  rintro rfl
  cases other

/-- An instruction may rely on this at the site, however many slots there are. -/
def Site.Grants (site : Site) (need : Need) : Prop :=
  ∀ slots saves, need.Within (site.limits slots saves)

namespace Site

variable {site : Site}

@[simp] theorem grants_register {reg : Register} :
    site.Grants (.register reg) ↔ reg.index.toNat < site.registers :=
  ⟨fun grants => grants 0 0, fun inside _ _ => inside⟩

@[simp] theorem grants_floatRegister {reg : FloatRegister} :
    site.Grants (.floatRegister reg) ↔ reg.index.toNat < site.floatRegisters :=
  ⟨fun grants => grants 0 0, fun inside _ _ => inside⟩

@[simp] theorem grants_fieldOffset {offset : Nat} :
    site.Grants (.fieldOffset offset) ↔ offset + 8 ≤ 8 * site.words ∧ offset < 0x80000000 :=
  ⟨fun grants => grants 0 0, fun inside _ _ => inside⟩

@[simp] theorem grants_loadOffset {offset : Int64} :
    site.Grants (.loadOffset offset) ↔ -0x80000000 ≤ offset.toInt ∧ offset.toInt < 0x80000000 :=
  ⟨fun grants => grants 0 0, fun inside _ _ => inside⟩

@[simp] theorem grants_tagCondition {cond : Cond} :
    site.Grants (.tagCondition cond) ↔ cond = .equal ∨ cond = .notEqual :=
  ⟨fun grants => grants 0 0, fun inside _ _ => inside⟩

@[simp] theorem grants_label {label : Label} : site.Grants (.label label) :=
  fun _ _ => trivial

@[simp] theorem grants_helper {helper : Helper} : site.Grants (.helper helper) :=
  fun _ _ => trivial

end Site

/-- Answers of stretches, with what an instruction relies on that names one. -/
class Named (α : Type) where
  needs : α → List Need

instance : Named Unit := ⟨fun _ => []⟩
instance : Named Register := ⟨fun reg => [.register reg]⟩
instance : Named FloatRegister := ⟨fun reg => [.floatRegister reg]⟩
instance : Named Source := ⟨Need.ofSource⟩
instance : Named (Option Register) := ⟨fun reg => (reg.map Need.register).toList⟩
/-- An int32 in stub data is an offset. -/
instance : Named (Int32 × Source) := ⟨fun answer => [.ofOffset answer.2]⟩

namespace Named

@[simp] theorem needs_unit (answer : Unit) : Named.needs answer = [] := rfl

@[simp] theorem needs_register (reg : Register) : Named.needs reg = [.register reg] := rfl

@[simp] theorem needs_floatRegister (reg : FloatRegister) :
    Named.needs reg = [.floatRegister reg] := rfl

@[simp] theorem needs_source (source : Source) : Named.needs source = Need.ofSource source := rfl

@[simp] theorem needs_option (reg : Option Register) :
    Named.needs reg = (reg.map Need.register).toList := rfl

@[simp] theorem needs_offset (answer : Int32 × Source) :
    Named.needs answer = [.ofOffset answer.2] := rfl

end Named

namespace Asm

/-- The stretch goes on with a draft, in balance, and answers with what may be named. -/
def Writes [Named α] (site : Site) (known opened later : List Label) (stretch : Asm α) : Prop :=
  ∀ state answer after, stretch.Runs state answer after → state.Draft site known opened →
    state.allocation.Balanced site.config [] →
    after.Draft site known later ∧ after.allocation.Balanced site.config [] ∧
      ∀ need ∈ Named.needs answer, site.Grants need

namespace Writes

variable {site : Site} {known opened middle later : List Label} {α β : Type} [Named α] [Named β]

theorem pure {answer : α} (grants : ∀ need ∈ Named.needs answer, site.Grants need) :
    Writes site known opened opened (pure answer : Asm α) := by
  intro state _ after runs draft balanced
  obtain ⟨rfl, rfl⟩ := runs_pure.mp runs
  exact ⟨draft, balanced, grants⟩

theorem bind {stretch : Asm α} {next : α → Asm β} (first : Writes site known opened middle stretch)
    (second : ∀ answer, (∀ need ∈ Named.needs answer, site.Grants need) →
      Writes site known middle later (next answer)) :
    Writes site known opened later (stretch >>= next) := by
  intro state answer after runs draft balanced
  obtain ⟨a, between, runsFirst, runsSecond⟩ := runs_bind.mp runs
  obtain ⟨drafted, level, grants⟩ := first _ _ _ runsFirst draft balanced
  exact second a grants _ _ _ runsSecond drafted level

theorem throw {error : CodeError} : Writes site known opened later (throw error : Asm α) :=
  fun _ _ _ runs => absurd runs not_runs_throw

theorem reject {defect : Defect} : Writes site known opened later (reject defect : Asm α) :=
  throw

theorem allocation_bind {next : Allocation → Asm β}
    (rest : ∀ found, Writes site known opened later (next found)) :
    Writes site known opened later (allocation >>= next) := by
  intro state answer after runs
  obtain ⟨_, _, looks, runs⟩ := runs_bind.mp runs
  obtain ⟨rfl, rfl⟩ := runs_allocation.mp looks
  exact rest _ _ _ _ runs

theorem emit {inst : Inst} (plain : inst.bound? = none)
    (other : inst.isInput = false)
    (grants : ∀ need ∈ inst.needs, site.Grants need)
    (targets : ∀ label ∈ inst.targets, label ∈ opened ∨ label ∈ known) :
    Writes site known opened opened (emit inst) := by
  intro state _ after runs draft balanced
  rw [runs_emit.mp runs]
  exact ⟨draft.emitted plain ⟨fun need member => grants need member _ _,
    fun dst index same => absurd same (Inst.ne_loadInput other dst index)⟩ targets, balanced,
    fun _ impossible => nomatch impossible⟩

/-- Binding a label closes it. -/
theorem emit_bind {label : Label} :
    Writes site known (label :: later) later (Asm.emit (.bind label)) := by
  intro state _ after runs draft balanced
  rw [runs_emit.mp runs]
  exact ⟨⟨draft.housed, draft.code.bind, draft.exits, draft.known⟩, balanced,
    fun _ impossible => nomatch impossible⟩

/-- The order of open labels does not matter. -/
theorem perm (other : List Label) {stretch : Asm α} (writes : Writes site known other later stretch)
    (perm : opened.Perm other) : Writes site known opened later stretch :=
  fun state answer after runs draft balanced => writes state answer after runs
    ⟨draft.housed, draft.code.perm (perm.append_right _), draft.exits, draft.known⟩ balanced

theorem newLabel_bind {next : Label → Asm β}
    (rest : ∀ label, Writes site known (label :: opened) later (next label)) :
    Writes site known opened later (newLabel >>= next) := by
  intro state answer after runs draft balanced
  obtain ⟨label, _, asks, runs⟩ := runs_bind.mp runs
  cases asks
  exact rest _ _ _ _ runs ⟨draft.housed, draft.code.newLabel, draft.exits, draft.known⟩ balanced

/-- The label of an exit path is known from here on. -/
theorem exitPath_bind {status : ExitStatus} {next : Label → Asm β}
    (rest : ∀ label, Writes site (label :: known) opened later (next label)) :
    Writes site known opened later (exitPath status >>= next) := by
  intro state answer after runs draft balanced
  obtain ⟨label, between, asks, runs⟩ := runs_bind.mp runs
  obtain ⟨same, -, ⟨path, listed, named, -⟩, added⟩ := runs_exitPath asks
  have drafted : between.Draft site (label :: known) opened := by
    have named : label ∈ between.exits.map ExitPath.label := named ▸ List.mem_map_of_mem listed
    rcases added with rfl | ⟨rfl, asked, exits⟩
    · refine ⟨draft.housed, draft.code, draft.exits, fun other member => ?_⟩
      rcases List.mem_cons.mp member with rfl | before
      · exact named
      · exact draft.known other before
    · have labels : between.exits.map ExitPath.label =
          state.exits.map ExitPath.label ++ [state.buffer.labels] := by
        rw [exits, List.map_append]
        rfl
      refine ⟨same ▸ draft.housed, ?_, fun path member => ?_, fun other member => ?_⟩
      · rw [asked, same, labels, ← List.append_assoc]
        exact draft.code.newLabel.perm (List.perm_append_singleton ..).symm
      · rw [same]
        rw [exits] at member
        rcases List.mem_append.mp member with before | now
        · exact draft.exits path before
        · exact List.mem_singleton.mp now ▸ draft.housed.saved
      · rcases List.mem_cons.mp member with rfl | before
        · exact named
        · exact labels ▸ List.mem_append_left _ (draft.known other before)
  obtain ⟨last, level, grants⟩ := rest label _ _ _ runs drafted (same ▸ balanced)
  exact ⟨⟨last.housed, last.code, last.exits, fun other member => last.known other (.tail _ member)⟩,
    level, grants⟩

theorem setKnownType {id : OperandId} {type : ValueType} :
    Writes site known opened opened (setKnownType id type) := by
  intro state _ after runs draft balanced
  rw [runs_setKnownType.mp runs]
  exact ⟨draft.withAllocation (draft.housed.modifyOperand fun _ => rfl) (Nat.le_refl _)
    (Nat.le_refl _), balanced.setKnownType id type, fun _ impossible => nomatch impossible⟩

theorem callsHelpers : Writes site known opened opened
    (modify fun state => { state with callsHelpers := true } : Asm Unit) := by
  intro state _ after runs draft balanced
  rw [runs_modify.mp runs]
  exact ⟨⟨draft.housed, draft.code, draft.exits, draft.known⟩, balanced,
    fun _ impossible => nomatch impossible⟩

theorem allocateRegister : Writes site known opened opened allocateRegister := by
  intro state reg after runs draft balanced
  obtain ⟨middle, takes, rfl⟩ := runs_allocateRegister runs
  obtain ⟨taken, inside⟩ := takes.draft draft
  exact ⟨taken.withAllocation (taken.housed.hold inside) (Nat.le_refl _) (Nat.le_refl _),
    (takes.balanced balanced).hold, by simpa using inside⟩

theorem releaseRegister {reg : Register} :
    Writes site known opened opened (releaseRegister reg) := by
  intro state _ after runs draft balanced
  rw [runs_releaseRegister.mp runs]
  refine ⟨?_, ?_, fun _ impossible => nomatch impossible⟩
  · split
    · rename_i held
      exact draft.withAllocation (draft.housed.release held) (Nat.le_refl _) (Nat.le_refl _)
    · exact draft
  · split
    · rename_i held
      exact balanced.release held
    · exact balanced

theorem allocateFloat : Writes site known opened opened allocateFloat := by
  intro state float after runs draft balanced
  obtain ⟨middle, takes, rfl⟩ := runs_allocateFloat runs
  obtain ⟨taken, inside⟩ := takes.draft draft
  exact ⟨taken.withAllocation (taken.housed.holdFloat inside) (Nat.le_refl _) (Nat.le_refl _),
    (takes.balanced balanced).holdFloat, by simpa using inside⟩

theorem releaseFloat {float : FloatRegister} :
    Writes site known opened opened (releaseFloat float) := by
  intro state _ after runs draft balanced
  have releases := runs_releaseFloat runs
  refine ⟨?_, releases.balanced balanced, fun _ impossible => nomatch impossible⟩
  cases releases with
  | scratch _ held returns =>
      exact returns.draft (draft.withAllocation (draft.housed.dropFloat float) (Nat.le_refl _)
        (Nat.le_refl _)) (draft.housed.scratchFloats _ held)
  | other => exact draft

theorem useValueReg {id : OperandId} : Writes site known opened opened (useValueReg id) := by
  intro state reg after runs draft balanced
  have level := (useValueReg_balanced runs balanced).1
  obtain ⟨-, fetched, fetches, rfl⟩ := runs_useValueReg runs
  obtain ⟨drafted, inside⟩ := fetches.draft draft
  have listed := drafted.housed.setLocation id.toNat (.valueReg reg)
    (by rintro _ ⟨⟩; exact inside)
  exact ⟨drafted.withAllocation (listed.pin reg) (Nat.le_refl _) (Nat.le_refl _), level,
    by simpa using inside⟩

theorem useRegister {id : OperandId} : Writes site known opened opened (useRegister id) := by
  intro state reg after runs draft balanced
  have level := (useRegister_balanced runs balanced).1
  obtain ⟨-, type, fetched, fetches, rfl⟩ := runs_useRegister runs
  obtain ⟨drafted, inside⟩ := fetches.draft draft
  have listed := drafted.housed.setLocation id.toNat (.payloadReg reg type)
    (by rintro _ ⟨⟩; exact inside)
  exact ⟨drafted.withAllocation (listed.pin reg) (Nat.le_refl _) (Nat.le_refl _), level,
    by simpa using inside⟩

theorem definePayloadReg {id : OperandId} {type : PayloadType} :
    Writes site known opened opened (definePayloadReg id type) := by
  intro state reg after runs draft balanced
  have level := definePayloadReg_balanced runs balanced
  obtain ⟨-, -, middle, takes, rfl⟩ := runs_definePayloadReg runs
  have marked := draft.withAllocation (draft.housed.markDefined id) (Nat.le_refl _) (Nat.le_refl _)
  obtain ⟨taken, inside⟩ := takes.draft marked
  have listed := taken.housed.setLocation id.toNat (.payloadReg reg type)
    (by rintro _ ⟨⟩; exact inside)
  have learned := taken.withAllocation (listed.learn id type)
  refine ⟨learned ?_ ?_, level, by simpa using inside⟩
  all_goals
    unfold Allocation.learn
    cases type.valueType? <;> exact Nat.le_refl _

theorem useNumber {id : OperandId} : Writes site known opened opened (useNumber id) := by
  intro state float after runs draft balanced
  have fetches := runs_useNumber runs
  have level := fetches.balanced balanced
  suffices written : after.Draft site known opened ∧ float.index.toNat < site.floatRegisters from
    ⟨written.1, level, by simpa using written.2⟩
  -- the number of a register that the operand was brought into
  have convert {src : Register} {middle last : Assembler} (inst : Inst)
      (used : middle.Draft site known opened ∧ middle.allocation.Balanced site.config [] ∧
        ∀ need ∈ Named.needs src, site.Grants need)
      (takes : TakesFloat middle float last) (plain : inst.bound? = none)
      (other : inst.isInput = false) (targets : inst.targets = [])
      (needs : inst.needs = [.register src, .floatRegister float]) :
      (last.emitted inst).Draft site known opened ∧ src.index.toNat < site.registers ∧
        float.index.toNat < site.floatRegisters := by
    obtain ⟨taken, inside⟩ := takes.draft used.1
    have held : src.index.toNat < site.registers := by simpa using used.2.2
    refine ⟨taken.emitted plain ⟨?_, fun dst index same => absurd same (Inst.ne_loadInput other dst index)⟩ ?_, held,
      inside⟩
    · rw [needs]
      simpa [Need.Within] using ⟨held, inside⟩
    · rw [targets]
      exact fun _ member => absurd member List.not_mem_nil
  cases fetches with
  | floatReg place =>
      exact ⟨draft.withAllocation (draft.housed.pinFloat float) (Nat.le_refl _) (Nat.le_refl _),
        draft.housed.floatRegister id.toNat (by rw [place]; rfl)⟩
  | floatSlot slot middle place takes =>
      obtain ⟨loaded, inside⟩ := takes.reload_draft draft id.toNat slot
        (by rw [place]; rfl)
      have listed := loaded.housed.setLocation id.toNat (.floatReg float)
        (by rintro _ ⟨⟩; exact inside)
      exact ⟨loaded.withAllocation listed (Nat.le_refl _) (Nat.le_refl _), inside⟩
  | int32 src middle last payload uses takes =>
      have used := useRegister state src middle uses draft balanced
      obtain ⟨converted, -, inside⟩ := convert (.int32ToDouble src float) used takes rfl
        rfl rfl rfl
      exact ⟨converted.withAllocation (converted.housed.holdFloat inside) (Nat.le_refl _)
        (Nat.le_refl _), inside⟩
  | boxed src middle last form uses takes =>
      have used := useValueReg state src middle uses draft balanced
      obtain ⟨converted, -, inside⟩ := convert (.unboxNumber src float) used takes rfl
        rfl rfl rfl
      exact ⟨converted.withAllocation (converted.housed.holdFloat inside) (Nat.le_refl _)
        (Nat.le_refl _), inside⟩
  | double src middle last form proven uses takes =>
      have used := useValueReg state src middle uses draft balanced
      obtain ⟨converted, held, inside⟩ := convert (.unboxDouble src float) used takes rfl
        rfl rfl rfl
      have listed := (converted.housed.yield held).setLocation id.toNat
        (.floatReg float) (by rintro _ ⟨⟩; exact inside)
      exact ⟨converted.withAllocation listed (Nat.le_refl _) (Nat.le_refl _), inside⟩

end Writes

end Asm

end InlineCache
