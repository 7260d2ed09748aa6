import InlineCache.Proofs.Emit.Scope

/-!
Stretches of code generation that spare an operand.  An operand that was blank before such a stretch is blank
behind it, and what is accessed through the register of the operand meanwhile is at the address zero.
-/

namespace InlineCache

/-- Nothing will define the operand any more. -/
def Allocation.Fixed (allocation : Allocation) (operand : Nat) : Prop :=
  operand < allocation.operands.length → allocation.defined operand = true

namespace Allocation.Fixed

variable {before after : Allocation} {index operand : Nat}

theorem ne (fixed : before.Fixed operand) (bound : index < before.operands.length)
    (undefined : before.defined index = false) : index ≠ operand := by
  rintro rfl
  cases undefined.symm.trans (fixed bound)

theorem mono (fixed : before.Fixed operand) (length : after.operands.length = before.operands.length)
    (defined : before.defined operand = true → after.defined operand = true) : after.Fixed operand :=
  fun bound => defined (fixed (length ▸ bound))

theorem alike (fixed : before.Fixed operand) (alike : before.Alike after) : after.Fixed operand :=
  fixed.mono alike.length (alike.defined operand).trans

/-- What was defined before a revision is so behind it. -/
theorem revises {change : Outline → Outline → Prop} (fixed : before.Fixed operand)
    (revises : before.Revises index change after)
    (kept : ∀ {o p : Outline}, change o p → o.defined = true → p.defined = true) :
    after.Fixed operand := by
  refine fixed.mono revises.length fun defined => ?_
  rw [← defined_outline] at defined ⊢
  by_cases own : operand = index
  · subst own
    exact kept revises.revised defined
  · rwa [revises.other operand own]

end Allocation.Fixed

/-- The labels of the paths, and others, are among those that have been handed out. -/
structure ExitPaths.Given (paths : ExitPaths) (labels : List Label) (count : Nat) : Prop where
  paths : ∀ path ∈ paths, path.label < count
  labels : ∀ label ∈ labels, label < count

namespace ExitPaths.Given

variable {paths after : ExitPaths} {labels : List Label} {count more : Nat}

theorem of_same (given : paths.Given labels count) (same : after = paths ∧ more = count) :
    after.Given labels more := by
  rwa [same.1, same.2]

theorem drop (given : paths.Given labels count) : paths.Given [] count :=
  ⟨given.paths, nofun⟩

/-- One label more has been handed out, maybe for a path that was added. -/
theorem cons {label : Label} (given : paths.Given labels count) (le : count ≤ more) (new : label < more)
    (added : ∀ path ∈ after, path ∈ paths ∨ path.label = label) : after.Given (label :: labels) more := by
  refine ⟨fun path member => ?_, fun other member => ?_⟩
  · rcases added path member with earlier | same
    · exact Nat.lt_of_lt_of_le (given.paths path earlier) le
    · exact same ▸ new
  · rcases List.mem_cons.mp member with rfl | earlier
    · exact new
    · exact Nat.lt_of_lt_of_le (given.labels other earlier) le

end ExitPaths.Given

namespace Assembler

/-- The operand on a trail is blank where the allocator has it, and the stretch at work has a scope. -/
structure Spared (config : CodeConfig) (trail : Trail) (opened : List Label) (scope : Scope)
    (state : Assembler) : Prop where
  balanced : state.allocation.Balanced config []
  single : state.allocation.Single
  fixed : state.allocation.Fixed trail.operand
  tracks : trail.Tracks opened state
  given : state.exits.Given scope.labels state.buffer.labels
  fits : scope.Fits trail.operand state.allocation

namespace Spared

variable {config : CodeConfig} {trail : Trail} {opened : List Label} {scope : Scope}
  {state : Assembler} {inst : Inst}

theorem drop (spared : state.Spared config trail opened scope) : state.Spared config trail opened .none :=
  ⟨spared.balanced, spared.single, spared.fixed, spared.tracks, spared.given.drop, .none _ _⟩

theorem emitted (spared : state.Spared config trail opened scope) (allows : scope.Allows inst) :
    (state.emitted inst).Spared config trail opened scope := by
  obtain ⟨balanced, single, fixed, tracks, given, fits⟩ := spared
  have apart : inst.Apart (state.allocation.place trail.operand) := by
    intro resource touched located
    rw [Inst.touches_of_plain allows.plain] at touched
    obtain ⟨reg, written, rfl⟩ := Option.map_eq_some_iff.mp (Option.mem_toList.mp touched)
    exact (fits.own reg (allows.written reg written)).2 (Location.resource?_eq_register.mp located)
  refine ⟨balanced, single, fixed, ?_, given, fits⟩
  have kept {guess : Guess} {m n : Machine}
      (blank : (state.allocation.place trail.operand).BlankIn (state.allocation.known trail.operand) m)
      (goes : (inst.speculate trail.run.entry guess m).machine? = some n) :
      (state.allocation.place trail.operand).BlankIn (state.allocation.known trail.operand) n :=
    blank.leaves (Inst.leaves_of_speculate goes) apart
      fun reg named => (fits.held reg (allows.zeroed reg named)).2
  refine tracks.emit (Inst.bound_of_plain allows.plain) (Location.through_eq apart) ?_
    (fun guess m n blank goes => kept blank (congrArg Effect.machine? goes))
    (fun guess m n label blank jumps _ => kept blank (congrArg Effect.machine? jumps)) (.inr ⟨rfl, rfl⟩)
    fun label member => given.labels label (allows.target label (Option.mem_toList.mp (inst.targets_eq ▸ member)))
  · intro m blank base found here
    rcases allows.read base found with own | held
    · exact absurd here (fits.own base own).2
    · have payload := (fits.held base held).2 here
      generalize state.allocation.place trail.operand = place at blank here payload
      cases place <;> cases payload <;> cases here
      exact Location.blankIn_payloadReg.mp blank

/-- The label of an exit path may be gone to. -/
theorem exitPath {status : ExitStatus} {label : Label} {after : Assembler}
    (spared : state.Spared config trail opened scope)
    (asks : (Asm.exitPath status).Runs state label after) :
    after.Spared config trail opened { scope with labels := label :: scope.labels } := by
  obtain ⟨balanced, single, fixed, tracks, given, fits⟩ := spared
  obtain ⟨same, -, ⟨path, listed, labelled, -⟩, added⟩ := Asm.runs_exitPath asks
  rcases added with rfl | ⟨named, asked, added⟩
  · have below : label < after.buffer.labels := labelled ▸ given.paths path listed
    exact ⟨balanced, single, fixed, tracks, given.cons (Nat.le_refl _) below fun _ => .inl,
      ⟨fits.own, fits.held⟩⟩
  · have more : state.buffer.labels < after.buffer.labels := asked ▸ Nat.lt_succ_self _
    have none : ∀ label ∈ ([] : List Label), state.buffer.labels ≤ label := by simp
    have tracked : trail.Tracks ([] ++ opened) after := by
      rw [Trail.Tracks, same, asked]
      exact Trail.Follows.more_labels tracks state.buffer.newLabel.2 rfl (Nat.le_succ _) none
    refine ⟨same ▸ balanced, same ▸ single, same ▸ fixed, tracked,
      given.cons (Nat.le_of_lt more) (named ▸ more) fun path member => ?_, ⟨same ▸ fits.own, same ▸ fits.held⟩⟩
    rw [added] at member
    refine (List.mem_append.mp member).imp_right fun last => ?_
    rw [List.mem_singleton.mp last]

/-- A use of the boxed word of an operand, be it the one on the trail or another. -/
theorem useValueReg {id : OperandId} {reg : Register} {after : Assembler}
    (spared : state.Spared config trail [] scope) (uses : (Asm.useValueReg id).Runs state reg after) :
    after.Spared config trail [] { scope with held := [] } := by
  obtain ⟨balanced, single, fixed, tracks, given, fits⟩ := spared
  have revises := Asm.useValueReg_revises uses
  obtain ⟨level, place⟩ := Asm.useValueReg_balanced uses balanced
  obtain ⟨bound, fetched, fetches, rfl⟩ := Asm.runs_useValueReg uses
  refine ⟨level, single.revises revises Outline.Single.boxes,
    fixed.revises revises fun boxes before => boxes.defined.trans before,
    fetches.tracks balanced (single.place _) bound tracks, given.of_same (fetches.exits (single.place _)), ?_⟩
  · have own : Scope.Fits { scope with held := [] } trail.operand state.allocation := ⟨fits.own, nofun⟩
    exact own.listed (fun _ => fetches.pinned_mono (single.place _)) (fetches.moved (single.place _) _) rfl
      (fetches.fresh balanced (single.place _)) (.inl rfl)

end Spared

end Assembler

namespace Asm

/-- The operand on a trail stays blank through the stretch. -/
def Spares (config : CodeConfig) (trail : Trail) (opened : List Label) (scope : Scope)
    (later : List Label) (stretch : Asm α) : Prop :=
  ∀ state answer after, stretch.Runs state answer after → state.Spared config trail opened scope →
    after.Spared config trail later .none

namespace Spares

variable {config : CodeConfig} {trail : Trail} {opened middle later : List Label} {scope : Scope}
  {α β : Type} {inst : Inst} {label : Label}

theorem pure {answer : α} : Spares config trail opened scope opened (pure answer : Asm α) := by
  intro state _ after runs spared
  obtain ⟨-, rfl⟩ := runs_pure.mp runs
  exact spared.drop

theorem bind {stretch : Asm α} {next : α → Asm β} (first : Spares config trail opened scope middle stretch)
    (second : ∀ answer, Spares config trail middle .none later (next answer)) :
    Spares config trail opened scope later (stretch >>= next) := by
  intro state answer after runs spared
  obtain ⟨a, between, runsFirst, runsSecond⟩ := runs_bind.mp runs
  exact second a _ _ _ runsSecond (first _ _ _ runsFirst spared)

theorem throw {error : CodeError} : Spares config trail opened scope later (throw error : Asm α) :=
  fun _ _ _ runs => absurd runs not_runs_throw

theorem reject {defect : Defect} : Spares config trail opened scope later (reject defect : Asm α) :=
  throw

/-- A stretch that only says something about what follows. -/
theorem of_bind_pure {stretch : Asm α}
    (spares : Spares config trail opened scope later (stretch >>= fun answer => Pure.pure answer)) :
    Spares config trail opened scope later stretch := by
  rwa [bind_pure] at spares

theorem allocation_bind {next : Allocation → Asm β}
    (rest : ∀ found : Allocation, found.Single → Spares config trail opened scope later (next found)) :
    Spares config trail opened scope later (allocation >>= next) := by
  intro state answer after runs spared
  obtain ⟨_, _, looks, runs⟩ := runs_bind.mp runs
  obtain ⟨rfl, rfl⟩ := runs_allocation.mp looks
  exact rest _ spared.single _ _ _ runs spared

theorem emit_bind {next : Unit → Asm β} (allows : scope.Allows inst)
    (rest : Spares config trail opened scope later (next ())) :
    Spares config trail opened scope later (emit inst >>= next) := by
  intro state answer after runs spared
  obtain ⟨_, _, emits, runs⟩ := runs_bind.mp runs
  cases runs_emit.mp emits
  exact rest _ _ _ runs (spared.emitted allows)

theorem emit (allows : scope.Allows inst) : Spares config trail opened scope opened (emit inst) :=
  of_bind_pure (emit_bind allows pure)

theorem bound_bind {next : Unit → Asm β} (rest : Spares config trail opened scope later (next ())) :
    Spares config trail (label :: opened) scope later (Asm.emit (.bind label) >>= next) := by
  intro state answer after runs spared
  obtain ⟨_, _, emits, runs⟩ := runs_bind.mp runs
  cases runs_emit.mp emits
  exact rest _ _ _ runs ⟨spared.balanced, spared.single, spared.fixed, spared.tracks.bind, spared.given,
    spared.fits⟩

theorem bound : Spares config trail (label :: opened) scope opened (Asm.emit (.bind label)) :=
  of_bind_pure (bound_bind pure)

/-- The order of open labels does not matter. -/
theorem perm (other : List Label) {stretch : Asm α}
    (spares : Spares config trail other scope later stretch) (perm : opened.Perm other) :
    Spares config trail opened scope later stretch := by
  intro state answer after runs spared
  obtain ⟨code, here, waits⟩ := spared.tracks
  have tracks : trail.Tracks other state := ⟨code, here, fun label m flow =>
    (waits label m flow).imp id fun blank member => blank (perm.mem_iff.mpr member)⟩
  exact spares _ _ _ runs ⟨spared.balanced, spared.single, spared.fixed, tracks, spared.given,
    spared.fits⟩

theorem newLabel_bind {next : Label → Asm β}
    (rest : ∀ label, Spares config trail (label :: opened) { scope with labels := label :: scope.labels }
      later (next label)) : Spares config trail opened scope later (newLabel >>= next) := by
  intro state answer after runs spared
  obtain ⟨label, _, asks, runs⟩ := runs_bind.mp runs
  cases asks
  obtain ⟨balanced, single, fixed, tracks, given, fits⟩ := spared
  have new : ∀ label ∈ [state.buffer.labels], state.buffer.labels ≤ label := by simp
  have asked : trail.Tracks ([state.buffer.labels] ++ opened)
      { state with buffer := state.buffer.newLabel.2 } :=
    Trail.Follows.more_labels tracks state.buffer.newLabel.2 rfl (Nat.le_succ _) new
  exact rest _ _ _ _ runs ⟨balanced, single, fixed, asked,
    given.cons (Nat.le_succ _) (Nat.lt_succ_self _) fun _ => .inl, ⟨fits.own, fits.held⟩⟩

theorem exitPath_bind {status : ExitStatus} {next : Label → Asm β}
    (rest : ∀ label, Spares config trail opened { scope with labels := label :: scope.labels } later
      (next label)) : Spares config trail opened scope later (exitPath status >>= next) := by
  intro state answer after runs spared
  obtain ⟨label, _, asks, goes⟩ := runs_bind.mp runs
  exact rest label _ _ _ goes (spared.exitPath asks)

theorem callsHelpers_bind {next : Unit → Asm β}
    (rest : Spares config trail opened scope later (next ())) :
    Spares config trail opened scope later
      ((modify fun state => { state with callsHelpers := true } : Asm Unit) >>= next) := by
  intro state answer after runs spared
  obtain ⟨_, _, modifies, runs⟩ := runs_bind.mp runs
  cases runs_modify.mp modifies
  exact rest _ _ _ runs ⟨spared.balanced, spared.single, spared.fixed, spared.tracks, spared.given,
    spared.fits⟩

theorem allocateRegister_bind {next : Register → Asm β}
    (rest : ∀ reg, Spares config trail [] { scope with own := reg :: scope.own } later (next reg)) :
    Spares config trail [] scope later (allocateRegister >>= next) := by
  intro state answer after runs spared
  obtain ⟨reg, _, allocates, goes⟩ := runs_bind.mp runs
  obtain ⟨middle, takes, rfl⟩ := runs_allocateRegister allocates
  obtain ⟨balanced, single, fixed, tracks, given, fits⟩ := spared
  refine rest reg _ _ _ goes ⟨(takes.balanced balanced).hold,
    (single.alike takes.alike).alike (.of_operands rfl), fixed.alike takes.alike |>.alike (.of_operands rfl),
    takes.tracks balanced tracks, given.of_same takes.exits, (takes.fits balanced fits).of_same rfl rfl⟩

theorem releaseRegister {reg : Register} :
    Spares config trail opened scope opened (releaseRegister reg) := by
  intro state _ after runs spared
  rw [runs_releaseRegister.mp runs]
  split
  · rename_i held
    exact ⟨spared.balanced.release held, spared.single.alike (.of_operands rfl), spared.fixed,
      spared.tracks, spared.given.drop, .none _ _⟩
  · exact spared.drop

theorem useRegister_bind {id : OperandId} {next : Register → Asm β}
    (rest : ∀ reg, Spares config trail [] { scope with held := reg :: scope.held } later (next reg)) :
    Spares config trail [] scope later (useRegister id >>= next) := by
  intro state answer after runs spared
  obtain ⟨reg, _, uses, goes⟩ := runs_bind.mp runs
  obtain ⟨balanced, single, fixed, tracks, given, fits⟩ := spared
  have revises := useRegister_revises uses
  obtain ⟨level, _, place⟩ := useRegister_balanced uses balanced
  obtain ⟨bound, type, fetched, fetches, rfl⟩ := runs_useRegister uses
  have listed : scope.Fits trail.operand
      ((fetched.allocation.setLocation id.toNat (.payloadReg reg type)).pin reg) :=
    fits.listed (fun _ => fetches.pinned_mono) (fetches.moved _) rfl (fetches.fresh balanced) (.inr rfl)
  refine rest reg _ _ _ goes ⟨level, single.revises revises Outline.Single.unboxes,
    fixed.revises revises fun unboxes before => unboxes.defined.trans before,
    fetches.tracks balanced bound tracks, given.of_same fetches.exits, ?_⟩
  · have held := (congrArg Location.register? place).trans rfl
    refine Scope.Fits.cons_held listed (RegisterSet.contains_insert_self _ (level.bound_of_place held))
      fun here => ?_
    have same : id.toNat = trail.operand := level.place_unique (Location.resource?_eq_register.mpr held)
      (Location.resource?_eq_register.mpr here)
    rw [← same]
    exact (congrArg (fun location => location.payload?.isSome) place).trans rfl

/-- A payload may lose its place in favour of a boxed word. -/
theorem useValueReg_bind {id : OperandId} {next : Register → Asm β}
    (rest : ∀ reg, Spares config trail [] { scope with held := [] } later (next reg)) :
    Spares config trail [] scope later (useValueReg id >>= next) := by
  intro state answer after runs spared
  obtain ⟨reg, _, uses, goes⟩ := runs_bind.mp runs
  exact rest reg _ _ _ goes (spared.useValueReg uses)

theorem definePayloadReg_bind {id : OperandId} {type : PayloadType} {next : Register → Asm β}
    (rest : ∀ reg, Spares config trail [] { scope with own := reg :: scope.own } later (next reg)) :
    Spares config trail [] scope later (definePayloadReg id type >>= next) := by
  intro state answer after runs spared
  obtain ⟨reg, _, defines, goes⟩ := runs_bind.mp runs
  have level := definePayloadReg_balanced defines spared.balanced
  have revises := definePayloadReg_revises defines
  obtain ⟨balanced, single, fixed, tracks, given, fits⟩ := spared
  obtain ⟨bound, fresh, middle, takes, rfl⟩ := runs_definePayloadReg defines
  have other : id.toNat ≠ trail.operand := fixed.ne bound fresh
  have marked : trail.Tracks [] (state.withAllocation (state.allocation.markDefined id)) :=
    tracks.relabel rfl (Allocation.place_markDefined ..) (Allocation.known_markDefined ..)
  have place : ((middle.allocation.setLocation id.toNat (.payloadReg reg type)).learn id type).place
      trail.operand = middle.allocation.place trail.operand :=
    (Allocation.place_learn ..).trans (Allocation.place_setLocation_ne other)
  have inside : id.toNat < (middle.allocation.setLocation id.toNat (.payloadReg reg type)).operands.length := by
    rw [Allocation.length_setLocation, takes.length, Assembler.allocation_withAllocation,
      Allocation.markDefined, Allocation.length_modifyOperand]
    exact bound
  have known : ((middle.allocation.setLocation id.toNat (.payloadReg reg type)).learn id type).known
      trail.operand = middle.allocation.known trail.operand := by
    rw [Allocation.known_learn inside, if_neg (Ne.symm other)]
    exact Allocation.known_setLocation ..
  have pinned : ((middle.allocation.setLocation id.toNat (.payloadReg reg type)).learn id type).pinned =
      middle.allocation.pinned := (Allocation.pinned_learn ..).1
  have kept := takes.fits balanced.markDefined (fits.of_same rfl (Allocation.place_markDefined ..))
  refine rest reg _ _ _ goes ⟨level, single.revises revises Outline.Single.defines,
    fixed.revises revises fun defines _ => defines.defined,
    (takes.tracks balanced.markDefined marked).relabel rfl place known, given.of_same takes.exits,
    kept.of_same pinned place⟩

/-- A float register is taken from the pool: no operand is in one that could be spilled. -/
theorem allocateFloat_bind {next : FloatRegister → Asm β}
    (rest : ∀ float, Spares config trail opened scope later (next float)) :
    Spares config trail opened scope later (allocateFloat >>= next) := by
  intro state answer after runs spared
  obtain ⟨float, _, allocates, goes⟩ := runs_bind.mp runs
  obtain ⟨middle, takes, rfl⟩ := runs_allocateFloat allocates
  obtain ⟨balanced, single, fixed, tracks, given, fits⟩ := spared
  have level := (takes.balanced balanced).holdFloat
  have alike : (middle.allocation.holdFloat float).Single :=
    (single.alike takes.alike).alike (.of_operands rfl)
  cases takes with
  | pool => exact rest float _ _ _ goes ⟨level, alike, fixed, tracks, given, fits.of_same rfl rfl⟩
  | save slot =>
      exact rest float _ _ _ goes ⟨level, alike, fixed, tracks.apart rfl rfl rfl rfl nofun, given,
        fits.of_same rfl rfl⟩
  | spill index slot _ held =>
      refine absurd ?_ (single.place index)
      cases place : state.allocation.place index <;> rw [place] at held <;> cases held
      rfl

theorem releaseFloat {float : FloatRegister} :
    Spares config trail opened scope opened (releaseFloat float) := by
  intro state answer after runs spared
  have releases := runs_releaseFloat runs
  obtain ⟨balanced, single, fixed, tracks, given, fits⟩ := spared
  have level := releases.balanced balanced
  have alike := single.alike releases.alike
  cases releases with
  | other => exact ⟨level, alike, fixed, tracks, given.drop, .none _ _⟩
  | scratch _ _ returns =>
      cases returns with
      | unsaved => exact ⟨level, alike, fixed, tracks, given.drop, .none _ _⟩
      | restore slot =>
          exact ⟨level, alike, fixed, tracks.apart rfl rfl rfl rfl nofun, given.drop, .none _ _⟩

/-- A guard lets a blank operand pass only if it has the tag already. -/
theorem guardType {input : OperandId} {type : ValueType} (other : type ≠ .double) :
    Spares config trail [] scope [] (guardType input type) := by
  intro state answer after runs spared
  obtain ⟨_, _, looks, runs⟩ := runs_bind.mp runs
  obtain ⟨rfl, rfl⟩ := runs_allocation.mp looks
  obtain ⟨value, used, uses, runs⟩ := runs_bind.mp runs
  have boxed := (useValueReg_balanced uses spared.balanced).2
  have spared := (spared.useValueReg uses).drop
  split at runs
  · obtain ⟨fail, between, asks, runs⟩ := runs_bind.mp runs
    obtain ⟨_, _, emits, runs⟩ := runs_bind.mp runs
    obtain ⟨_, _, learns, runs⟩ := runs_bind.mp runs
    cases runs_emit.mp emits
    cases runs_setKnownType.mp learns
    obtain ⟨-, rfl⟩ := runs_pure.mp runs
    have place : between.allocation.place input.toNat = .valueReg value :=
      (runs_exitPath asks).1 ▸ boxed
    obtain ⟨balanced, single, fixed, tracks, given, -⟩ := spared.exitPath asks
    refine ⟨balanced.setKnownType _ _, single.setKnownType _ other,
      fixed.mono (Allocation.length_modifyOperand ..) (Allocation.defined_setKnownType ..).trans, ?_,
      given.drop, .none _ _⟩
    have bound : fail < between.buffer.labels := given.labels fail (.head _)
    have targets : ∀ label ∈ (Inst.branchTestType .notEqual value type fail).targets,
        label < between.buffer.labels := by simpa using bound
    show trail.Follows [] ((between.allocation.setKnownType input type).place trail.operand)
      ((between.allocation.setKnownType input type).known trail.operand) _
    rw [Allocation.place_setKnownType, Allocation.known_setKnownType]
    refine tracks.emit rfl rfl (fun _ _ _ found => nomatch found) ?_ (fun _ _ _ _ _ _ member => nomatch member)
      (.inl rfl) targets
    intro guess m n blank goes
    have branches : Effect.branch (Word.hasType (m.regs value) type = false) fail m = .next n := goes
    obtain ⟨rfl, passes⟩ : m = n ∧ Word.hasType (m.regs value) type = true := by
      cases passes : Word.hasType (m.regs value) type <;> rw [passes] at branches <;> cases branches
      exact ⟨rfl, rfl⟩
    split
    · rename_i own
      rw [← own.1, place, Location.blankIn_valueReg] at blank ⊢
      obtain ⟨held, tagged, -, word⟩ := blank
      rw [word] at passes ⊢
      exact ⟨held, tagged, (Word.valueType?_of_hasType_box tagged passes).symm, rfl⟩
    · exact blank
  · obtain ⟨-, rfl⟩ := runs_pure.mp runs
    exact spared

end Spares

end Asm

end InlineCache
