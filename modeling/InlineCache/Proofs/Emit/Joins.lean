import InlineCache.Proofs.Emit.Marks

/-!
Stretches of code generation whose branches meet.  While a label is still to be bound the allocator is
kept to the placement that the label was asked for under, or comes back to it; operands are moved only
while no label is open.
-/

namespace InlineCache

/-- What a stretch may branch to: labels of exit paths, and labels that are still to be bound, each under
the placement that it was asked for under.  And what is known of the allocation. -/
structure Stage where
  paths : List Label
  opened : List (Label × Placement)
  here : Allocation → Prop

namespace Stage

@[reducible] def quiet (paths : List Label) : Stage :=
  ⟨paths, [], fun _ => True⟩

@[reducible] def placed (paths : List Label) (opened : List (Label × Placement)) (placement : Placement) :
    Stage :=
  ⟨paths, opened, (·.placement = placement)⟩

/-- The stretch may emit the instruction. -/
structure Allows (spot : Spot) (stage : Stage) (inst : Inst) : Prop where
  unbound : inst.isBind = false
  target : ∀ label, inst.target? = some label →
    label ∈ stage.paths ∨ ∀ a, stage.here a → (label, a.placement) ∈ stage.opened
  still : inst.moves = true → stage.opened = [] ∨ Excused spot.ops spot.current inst

@[simp] theorem allows_iff {spot : Spot} {stage : Stage} {inst : Inst} :
    stage.Allows spot inst ↔ inst.isBind = false ∧
      (∀ label, inst.target? = some label →
        label ∈ stage.paths ∨ ∀ a, stage.here a → (label, a.placement) ∈ stage.opened) ∧
      (inst.moves = true → stage.opened = [] ∨ Excused spot.ops spot.current inst) :=
  ⟨fun ⟨unbound, target, still⟩ => ⟨unbound, target, still⟩,
    fun ⟨unbound, target, still⟩ => ⟨unbound, target, still⟩⟩

end Stage

namespace Assembler

structure Steady (spot : Spot) (stage : Stage) (state : Assembler) : Prop where
  balanced : state.allocation.Balanced spot.config []
  single : state.allocation.Single
  here : stage.here state.allocation
  joined : state.Joined spot stage.paths stage.opened

theorem Steady.emitted {spot : Spot} {stage : Stage} {state : Assembler} {inst : Inst}
    (steady : state.Steady spot stage) (allows : stage.Allows spot inst) :
    (state.emitted inst).Steady spot stage := by
  obtain ⟨balanced, single, here, joined⟩ := steady
  refine ⟨balanced, single, here, ?_⟩
  cases target : inst.target? with
  | none => exact joined.plain (Inst.usesLabel_of_unbound allows.unbound target) allows.still
  | some label =>
      exact joined.branch target ((allows.target label target).imp_right fun awaited => awaited _ here)

end Assembler

namespace Placement

/-- A scratch float register goes back into the pool. -/
def giveBack (placement : Placement) (float : FloatRegister) : Placement :=
  { placement with
    availableFloats := placement.availableFloats.insert float.index
    scratchFloats := placement.scratchFloats.remove float.index
    saved := placement.saved.eraseP (·.1 = float) }

/-- A float register is out of the pool for a while. -/
structure Lends (before : Placement) (float : FloatRegister) (after : Placement) : Prop where
  scratch : after.scratchFloats.contains float.index = true
  back : after.giveBack float = before

end Placement

namespace Allocation

/-- An operand is a payload in a register that is held, with its tag proven. -/
structure Houses (allocation : Allocation) (id : OperandId) (type : PayloadType) (reg : Register) : Prop where
  place : allocation.place id.toNat = .payloadReg reg type
  known : type.valueType? ≠ none → allocation.known id.toNat = type.valueType?
  pinned : allocation.pinned.contains reg.index = true

/-- What was taken out of the pool can be put back, and then all is as it was. -/
theorem lends {config : CodeConfig} {allocation later : Allocation} {float : FloatRegister}
    {saved : SavedFloats} (balanced : allocation.Balanced config [])
    (available : allocation.availableFloats.contains float.index = true)
    (recorded : saved.eraseP (·.1 = float) = allocation.saved)
    (taken : later.placement =
      { allocation.placement with
        availableFloats := allocation.availableFloats.remove float.index
        scratchFloats := allocation.scratchFloats.insert float.index
        saved }) : allocation.placement.Lends float later.placement := by
  have idle : allocation.scratchFloats.contains float.index = false := by
    have sum := balanced.ledger (.float float)
    have bound := quota_le_one config (.float float)
    simp only [pool, available, Bool.toNat_true] at sum
    rw [← Bool.toNat_eq_zero]
    omega
  rw [taken]
  refine ⟨RegisterSet.contains_insert_self _ (RegisterSet.lt_of_contains available), ?_⟩
  simp only [Placement.giveBack, RegisterSet.insert_remove available, RegisterSet.remove_insert idle,
    recorded]
  rfl

end Allocation

namespace Asm

variable {config : CodeConfig} {state after : Assembler} {input result : OperandId} {type : PayloadType}
  {dst value : Register}

theorem definePayloadReg_houses (defines : (definePayloadReg result type).Runs state dst after)
    (balanced : state.allocation.Balanced config []) : after.allocation.Houses result type dst := by
  obtain ⟨bound, -, middle, takes, rfl⟩ := runs_definePayloadReg defines
  have inside : result.toNat < middle.allocation.operands.length := by
    rw [takes.length, Assembler.allocation_withAllocation, Allocation.markDefined,
      Allocation.length_modifyOperand]
    exact bound
  refine ⟨(Allocation.place_learn ..).trans (Allocation.place_setLocation_self inside), fun tagged => ?_, ?_⟩
  · obtain ⟨tag, tagged⟩ := Option.ne_none_iff_exists'.mp tagged
    rw [Assembler.allocation_withAllocation,
      Allocation.known_learn ((Allocation.length_setLocation ..).symm ▸ inside), if_pos rfl, tagged]
    rfl
  · rw [Assembler.allocation_withAllocation, (Allocation.pinned_learn ..).1]
    exact takes.pinned balanced.markDefined

/-- The boxed word of an operand is in the register of one that is held only if they are the same. -/
theorem eq_of_useValueReg (uses : (useValueReg input).Runs state dst after)
    (balanced : state.allocation.Balanced config []) (single : state.allocation.Single)
    (houses : state.allocation.Houses result type dst) : input = result := by
  obtain ⟨-, fetched, fetches, rfl⟩ := runs_useValueReg uses
  -- the register is the operand's own, or comes out of the pool
  rcases fetches.fresh balanced (single.place _) with held | free
  · have located := congrArg Location.resource? houses.place
    exact UInt8.toNat_inj.mp
      (balanced.place_unique (Location.resource?_eq_register.mpr held) located)
  · cases free.symm.trans houses.pinned

/-- A payload that is boxed has a tag, which is proven of it. -/
theorem known_of_useValueReg (uses : (useValueReg result).Runs state value after)
    (houses : state.allocation.Houses result type dst) :
    type.valueType? ≠ none ∧ after.allocation.known result.toNat = type.valueType? := by
  have form : (state.allocation.outline result.toNat).form = some (.payload type) := by
    rw [Allocation.form_outline, houses.place]
    rfl
  have boxes := (useValueReg_revises uses).revised
  have tagged := boxes.boxable type form
  refine ⟨tagged, ?_⟩
  rw [← Allocation.known_outline]
  rcases boxes.known with same | ⟨other, held, -, same⟩
  · rw [same, Allocation.known_outline]
    exact houses.known tagged
  · cases form.symm.trans held
    exact same

/-- The branches of the stretch meet their labels. -/
def Joins (spot : Spot) (stage later : Stage) (stretch : Asm α) : Prop :=
  ∀ state answer after, stretch.Runs state answer after → state.Steady spot stage →
    after.Steady spot later

namespace Joins

variable {spot : Spot} {stage middle later : Stage} {paths : List Label}
  {opened : List (Label × Placement)} {here there : Allocation → Prop} {placement : Placement}
  {α β : Type} {inst : Inst} {label : Label}

theorem pure {answer : α} : Joins spot ⟨paths, opened, here⟩ ⟨[], opened, here⟩ (pure answer : Asm α) := by
  intro state _ after runs steady
  obtain ⟨-, rfl⟩ := runs_pure.mp runs
  exact ⟨steady.balanced, steady.single, steady.here, steady.joined.drop⟩

theorem bind {stretch : Asm α} {next : α → Asm β} (first : Joins spot stage middle stretch)
    (second : ∀ answer, Joins spot middle later (next answer)) :
    Joins spot stage later (stretch >>= next) := by
  intro state answer after runs steady
  obtain ⟨a, between, runsFirst, runsSecond⟩ := runs_bind.mp runs
  exact second a _ _ _ runsSecond (first _ _ _ runsFirst steady)

theorem throw {error : CodeError} : Joins spot stage later (throw error : Asm α) :=
  fun _ _ _ runs => absurd runs not_runs_throw

theorem reject {defect : Defect} : Joins spot stage later (reject defect : Asm α) :=
  throw

/-- A stretch that only says something about what follows. -/
theorem of_bind_pure {stretch : Asm α}
    (joins : Joins spot stage later (stretch >>= fun answer => Pure.pure answer)) :
    Joins spot stage later stretch := by
  rwa [bind_pure] at joins

theorem forget {stretch : Asm α} (joins : Joins spot stage ⟨paths, opened, here⟩ stretch) :
    Joins spot stage ⟨paths, opened, fun _ => True⟩ stretch := by
  intro state answer after runs steady
  obtain ⟨balanced, single, -, joined⟩ := joins _ _ _ runs steady
  exact ⟨balanced, single, trivial, joined⟩

/-- The stretch leaves the placement as it finds it. -/
theorem placed {stretch : Asm α}
    (joins : ∀ placement, Joins spot (.placed paths opened placement) (.placed [] opened placement)
      stretch) : Joins spot ⟨paths, opened, here⟩ ⟨[], opened, fun _ => True⟩ stretch := by
  intro state answer after runs steady
  exact (joins state.allocation.placement).forget _ _ _ runs
    ⟨steady.balanced, steady.single, rfl, steady.joined⟩

theorem allocation_bind {next : Allocation → Asm β}
    (rest : ∀ found : Allocation, here found → found.Single →
      Joins spot ⟨paths, opened, here⟩ later (next found)) :
    Joins spot ⟨paths, opened, here⟩ later (allocation >>= next) := by
  intro state answer after runs steady
  obtain ⟨_, _, looks, runs⟩ := runs_bind.mp runs
  obtain ⟨rfl, rfl⟩ := runs_allocation.mp looks
  exact rest _ steady.here steady.single _ _ _ runs steady

theorem emit_bind {next : Unit → Asm β} (allows : stage.Allows spot inst)
    (rest : Joins spot stage later (next ())) : Joins spot stage later (emit inst >>= next) := by
  intro state answer after runs steady
  obtain ⟨_, _, emits, runs⟩ := runs_bind.mp runs
  cases runs_emit.mp emits
  exact rest _ _ _ runs (steady.emitted allows)

theorem emit (allows : Stage.Allows spot ⟨paths, opened, here⟩ inst) :
    Joins spot ⟨paths, opened, here⟩ ⟨[], opened, here⟩ (emit inst) :=
  of_bind_pure (emit_bind allows pure)

theorem bound_bind {next : Unit → Asm β} (rest : Joins spot (.placed paths opened placement) later (next ())) :
    Joins spot (.placed paths ((label, placement) :: opened) placement) later
      (Asm.emit (.bind label) >>= next) := by
  rintro state answer after runs ⟨balanced, single, rfl, joined⟩
  obtain ⟨_, _, emits, runs⟩ := runs_bind.mp runs
  cases runs_emit.mp emits
  exact rest _ _ _ runs ⟨balanced, single, rfl, joined.bind⟩

theorem bound : Joins spot (.placed paths ((label, placement) :: opened) placement)
    (.placed [] opened placement) (Asm.emit (.bind label)) :=
  of_bind_pure (bound_bind pure)

theorem perm (other : List (Label × Placement)) {stretch : Asm α}
    (joins : Joins spot ⟨paths, other, here⟩ later stretch) (perm : opened.Perm other) :
    Joins spot ⟨paths, opened, here⟩ later stretch :=
  fun _ _ _ runs steady => joins _ _ _ runs
    ⟨steady.balanced, steady.single, steady.here, steady.joined.perm perm⟩

theorem newLabel_bind {next : Label → Asm β}
    (rest : ∀ label, Joins spot (.placed paths ((label, placement) :: opened) placement) later
      (next label)) : Joins spot (.placed paths opened placement) later (newLabel >>= next) := by
  rintro state answer after runs ⟨balanced, single, same, joined⟩
  obtain ⟨label, _, asks, runs⟩ := runs_bind.mp runs
  cases asks
  exact rest _ _ _ _ runs ⟨balanced, single, same, joined.newLabel placement⟩

theorem exitPath_bind {status : ExitStatus} {next : Label → Asm β}
    (rest : ∀ label, Joins spot ⟨label :: paths, opened, here⟩ later (next label)) :
    Joins spot ⟨paths, opened, here⟩ later (exitPath status >>= next) := by
  rintro state answer after runs ⟨balanced, single, known, joined⟩
  obtain ⟨label, _, asks, goes⟩ := runs_bind.mp runs
  have same := (runs_exitPath asks).1
  exact rest label _ _ _ goes ⟨same ▸ balanced, same ▸ single, same ▸ known, joined.exitPath asks⟩

theorem callsHelpers_bind {next : Unit → Asm β} (rest : Joins spot stage later (next ())) :
    Joins spot stage later
      ((modify fun state => { state with callsHelpers := true } : Asm Unit) >>= next) := by
  intro state answer after runs steady
  obtain ⟨_, _, modifies, runs⟩ := runs_bind.mp runs
  cases runs_modify.mp modifies
  exact rest _ _ _ runs ⟨steady.balanced, steady.single, steady.here, steady.joined.of_same rfl rfl rfl rfl⟩

theorem setKnownType {id : OperandId} {type : ValueType} (other : type ≠ .double) :
    Joins spot ⟨paths, [], here⟩ (.quiet []) (setKnownType id type) := by
  intro state _ after runs steady
  rw [runs_setKnownType.mp runs]
  exact ⟨steady.balanced.setKnownType id type, steady.single.setKnownType id other, trivial,
    steady.joined.drop.of_same rfl rfl rfl rfl⟩

theorem allocateRegister_bind {next : Register → Asm β}
    (rest : ∀ reg, Joins spot (.quiet paths) later (next reg)) :
    Joins spot ⟨paths, [], here⟩ later (allocateRegister >>= next) := by
  intro state answer after runs steady
  obtain ⟨reg, _, allocates, goes⟩ := runs_bind.mp runs
  obtain ⟨middle, takes, rfl⟩ := runs_allocateRegister allocates
  exact rest reg _ _ _ goes ⟨(takes.balanced steady.balanced).hold,
    (steady.single.alike takes.alike).alike (.of_operands rfl), trivial,
    (steady.joined.takesRegister takes).of_same rfl rfl rfl rfl⟩

theorem releaseRegister {reg : Register} :
    Joins spot ⟨paths, [], here⟩ (.quiet []) (releaseRegister reg) := by
  intro state _ after runs steady
  rw [runs_releaseRegister.mp runs]
  split
  · rename_i held
    exact ⟨steady.balanced.release held, steady.single.alike (.of_operands rfl), trivial,
      steady.joined.drop.of_same rfl rfl rfl rfl⟩
  · exact ⟨steady.balanced, steady.single, trivial, steady.joined.drop⟩

theorem useRegister_bind {id : OperandId} {next : Register → Asm β}
    (rest : ∀ reg, Joins spot (.quiet paths) later (next reg)) :
    Joins spot ⟨paths, [], here⟩ later (useRegister id >>= next) := by
  intro state answer after runs steady
  obtain ⟨reg, _, uses, goes⟩ := runs_bind.mp runs
  have single := steady.single.revises (useRegister_revises uses) Outline.Single.unboxes
  have balanced := (useRegister_balanced uses steady.balanced).1
  obtain ⟨-, type, fetched, fetches, rfl⟩ := runs_useRegister uses
  exact rest reg _ _ _ goes ⟨balanced, single, trivial,
    (steady.joined.fetchesPayload fetches).of_same rfl rfl rfl rfl⟩

theorem definePayloadReg_bind {id : OperandId} {type : PayloadType} {next : Register → Asm β}
    (rest : ∀ reg, Joins spot ⟨paths, [], (·.Houses id type reg)⟩ later (next reg)) :
    Joins spot ⟨paths, [], here⟩ later (definePayloadReg id type >>= next) := by
  intro state answer after runs steady
  obtain ⟨reg, _, defines, goes⟩ := runs_bind.mp runs
  have single := steady.single.revises (definePayloadReg_revises defines) Outline.Single.defines
  have balanced := definePayloadReg_balanced defines steady.balanced
  have houses := definePayloadReg_houses defines steady.balanced
  obtain ⟨-, -, middle, takes, rfl⟩ := runs_definePayloadReg defines
  have marked : (state.withAllocation (state.allocation.markDefined id)).Joined spot paths [] :=
    steady.joined.of_same rfl rfl rfl rfl
  refine rest reg _ _ _ goes ⟨balanced, single, houses,
    (marked.takesRegister takes).of_same rfl rfl rfl ?_⟩
  rw [Assembler.allocation_withAllocation, Allocation.learn]
  cases type.valueType? <;> rfl

theorem useValueReg {id : OperandId} {reg : Register} {state after : Assembler}
    (steady : state.Steady spot ⟨paths, [], here⟩) (uses : (useValueReg id).Runs state reg after) :
    after.Steady spot (.quiet paths) := by
  have single := steady.single.revises (useValueReg_revises uses) Outline.Single.boxes
  have balanced := (useValueReg_balanced uses steady.balanced).1
  obtain ⟨-, fetched, fetches, rfl⟩ := runs_useValueReg uses
  exact ⟨balanced, single, trivial,
    (steady.joined.fetchesValue steady.single fetches).of_same rfl rfl rfl rfl⟩

theorem useValueReg_bind {id : OperandId} {next : Register → Asm β}
    (rest : ∀ reg, Joins spot (.quiet paths) later (next reg)) :
    Joins spot ⟨paths, [], here⟩ later (Asm.useValueReg id >>= next) := by
  intro state answer after runs steady
  obtain ⟨reg, _, uses, goes⟩ := runs_bind.mp runs
  exact rest reg _ _ _ goes (useValueReg steady uses)

/-- The boxed word of an operand that an operation has defined itself is the exception. -/
theorem useValueReg_bind_housed {input result : OperandId} {type : PayloadType} {dst : Register}
    {next : Register → Asm β}
    (rest : ∀ value, (value = dst → input = result) → Joins spot
      ⟨paths, [], fun a => value = dst → type.valueType? ≠ none ∧ a.known input.toNat = type.valueType?⟩
        later (next value)) :
    Joins spot ⟨paths, [], (·.Houses result type dst)⟩ later (Asm.useValueReg input >>= next) := by
  intro state answer after runs steady
  obtain ⟨value, between, uses, goes⟩ := runs_bind.mp runs
  have houses := steady.here
  have own : value = dst → input = result := by
    rintro rfl
    exact eq_of_useValueReg uses steady.balanced steady.single houses
  obtain ⟨balanced, single, -, joined⟩ := useValueReg steady uses
  refine rest value own _ _ _ goes ⟨balanced, single, fun same => ?_, joined⟩
  cases own same
  exact known_of_useValueReg uses houses

theorem guardType {input : OperandId} {type : ValueType} (other : type ≠ .double) :
    Joins spot ⟨paths, [], here⟩ (.quiet []) (guardType input type) := by
  refine allocation_bind fun found _ _ => useValueReg_bind fun value => ?_
  split
  · exact exitPath_bind fun fail => emit_bind (by simp) ((setKnownType other).bind fun _ => pure)
  · exact pure

theorem allocateFloat_bind {next : FloatRegister → Asm β}
    (rest : ∀ float lent, placement.Lends float lent → Joins spot (.placed paths opened lent) later
      (next float)) :
    Joins spot (.placed paths opened placement) later (allocateFloat >>= next) := by
  rintro state answer after runs ⟨balanced, single, rfl, joined⟩
  obtain ⟨float, _, allocates, goes⟩ := runs_bind.mp runs
  obtain ⟨middle, takes, rfl⟩ := runs_allocateFloat allocates
  have level := (takes.balanced balanced).holdFloat
  have alike : (middle.allocation.holdFloat float).Single :=
    (single.alike takes.alike).alike (.of_operands rfl)
  cases takes with
  | pool available unsaved =>
      have none : state.allocation.saved.eraseP (·.1 = float) = state.allocation.saved := by
        rw [balanced.unsaved unsaved]
        rfl
      exact rest float _ (Allocation.lends balanced available none rfl) _ _ _ goes
        ⟨level, alike, rfl, joined.of_same rfl rfl rfl rfl⟩
  | save slot available saves unused =>
      have fresh : ∀ entry ∈ state.allocation.saved, entry.1 ≠ float := by
        rintro entry listed rfl
        have taken := ((balanced.mem_saved (balanced.savesFloats ▸ saves) entry.1).mp
          (List.mem_map_of_mem listed)).2
        cases taken.symm.trans available
      have last : (state.allocation.saved ++ [(float, slot)]).eraseP (·.1 = float) =
          state.allocation.saved := by
        rw [List.eraseP_append_right _ fun entry listed same => fresh entry listed (of_decide_eq_true same),
          List.eraseP_cons_of_pos (by simp), List.append_nil]
      have stored : (state.emitted (.saveFloat float slot)).Joined spot paths opened :=
        joined.plain rfl fun moves => nomatch moves
      exact rest float _ (Allocation.lends balanced available last rfl) _ _ _ goes
        ⟨level, alike, rfl, stored.of_same rfl rfl rfl rfl⟩
  | spill index slot _ held =>
      refine absurd ?_ (single.place index)
      cases place : state.allocation.place index <;> rw [place] at held <;> cases held
      rfl

theorem releaseFloat {float : FloatRegister} {lent : Placement} (lends : placement.Lends float lent) :
    Joins spot (.placed paths opened lent) (.placed [] opened placement) (releaseFloat float) := by
  rintro state answer after runs ⟨balanced, single, rfl, joined⟩
  have releases := runs_releaseFloat runs
  have level := releases.balanced balanced
  have alike := single.alike releases.alike
  cases releases with
  | other free => cases free.symm.trans lends.scratch
  | scratch _ _ returns =>
      cases returns with
      | restore slot =>
          have loaded : (state.emitted (.restoreFloat float slot)).Joined spot paths opened :=
            joined.plain rfl fun moves => nomatch moves
          exact ⟨level, alike, lends.back, loaded.drop.of_same rfl rfl rfl rfl⟩
      | unsaved unsaved =>
          have none : state.allocation.placement.saved.eraseP (·.1 = float) = state.allocation.saved :=
            List.eraseP_of_forall_not fun entry listed same =>
              unsaved entry.2 (of_decide_eq_true same ▸ listed)
          refine ⟨level, alike, Eq.trans ?_ lends.back, joined.drop.of_same rfl rfl rfl rfl⟩
          rw [Placement.giveBack, none]
          rfl

end Joins

end Asm

end InlineCache
