import InlineCache.Proofs.Emit.Exits
import InlineCache.Proofs.Emit.Stubs
import InlineCache.Proofs.Emit.WritesOps

/-!
Compiled code is well formed.  The main statement: whatever the program, the stub data and the settings,
code that is emitted names nothing outside its frame, goes only forward to labels that are bound once,
and comes to an end; the check before it is run can refuse it for a missing helper only.
-/

namespace InlineCache

namespace Asm

variable {site : Site} {known opened : List Label} {state after : Assembler}

theorem DefinesInput.draft {index : Nat} (defines : DefinesInput state index after)
    (small : index < 256) (declared : index < site.inputs) (draft : state.Draft site known opened) :
    after.Draft site known opened := by
  have marked : (state.withAllocation
      (state.allocation.markDefined (UInt8.ofNat index)).unpin).Draft site known opened :=
    draft.withAllocation (draft.housed.markDefined _).unpin (Nat.le_refl _) (Nat.le_refl _)
  cases defines with
  | unused => exact marked
  | loaded reg middle takes =>
      obtain ⟨taken, inside⟩ := takes.draft marked
      have listed := taken.housed.setLocation index (.valueReg reg)
        (by rintro _ ⟨⟩; exact inside)
      refine (taken.withAllocation listed (Nat.le_refl _) (Nat.le_refl _)).emitted rfl ⟨?_, ?_⟩
        fun _ impossible => nomatch impossible
      · simpa [Inst.needs, Need.Within, Allocation.limits, Site.limits] using inside
      · rintro _ _ ⟨⟩
        rw [UInt8.toNat_ofNat_of_lt' small]
        exact declared

theorem Frees.draft {index : Nat} {location : Location} (freed : Frees state location after)
    (place : state.allocation.place index = location) (draft : state.Draft site known opened) :
    after.Draft site known opened := by
  cases freed with
  | nowhere => exact draft
  | register reg held =>
      exact draft.withAllocation (draft.housed.free (draft.housed.register index (place ▸ held)))
        (Nat.le_refl _) (Nat.le_refl _)
  | slot slot held =>
      exact draft.withAllocation (draft.housed.vacate slot) (Nat.le_refl _) (Nat.le_refl _)
  | float reg _ returns =>
      exact returns.draft draft (draft.housed.floatRegister index (by rw [place]; rfl))

namespace Writes

theorem defineInputs {count : Nat} (declared : count ≤ site.inputs) :
    Writes site known opened opened (defineInputs count) := by
  intro state _ after runs draft balanced
  refine ⟨?_, defineInputs_balanced runs balanced, fun _ impossible => nomatch impossible⟩
  refine defineInputs_induct (P := fun index state => index ≤ count → state.Draft site known opened)
    ?_ runs (fun _ => draft) (Nat.le_refl _)
  intro index state after before small _ _ defines enough
  exact defines.draft small (by omega) (before (by omega))

theorem prologue {count : Nat} (declared : count ≤ site.inputs) :
    Writes site known opened opened (prologue count) := by
  refine allocateRegister.bind fun reg _ => ?_
  refine straight_bind rfl rfl rfl (by simp_all [Inst.needs]) ?_
  refine straight_bind rfl rfl rfl (by simp_all [Inst.needs]) ?_
  exact releaseRegister.bind fun _ _ => defineInputs declared

theorem beginOp {index : Nat} : Writes site known opened opened (beginOp index) := by
  intro state _ after runs draft balanced
  refine ⟨?_, beginOp_balanced runs balanced, fun _ impossible => nomatch impossible⟩
  refine beginOp_induct (P := fun state => state.Draft site known opened) ?_ runs
    (draft.withAllocation (draft.housed.turn index) (Nat.le_refl _) (Nat.le_refl _))
  intro state middle id draft _ _ freed
  have left := freed.draft rfl draft
  exact left.withAllocation (left.housed.setLocation _ _ (by rintro _ ⟨⟩)) (Nat.le_refl _)
    (Nat.le_refl _)

theorem checkAliasing : Writes site known opened opened checkAliasing := by
  intro state answer after runs draft balanced
  cases runs_checkAliasing runs
  exact ⟨draft, balanced, fun _ impossible => nomatch impossible⟩

theorem forM {visit : α → Asm Unit} (writes : ∀ a, Writes site known opened opened (visit a))
    (items : List α) : Writes site known opened opened (items.forM visit) := by
  induction items with
  | nil => exact pure (by simp)
  | cons item rest ih => exact (writes item).bind fun _ _ => ih

theorem emitOp {env : EmitEnv} {inputs : Nat} (op : Op × Nat) :
    Writes (env.site inputs) known opened opened (emitOp env op) :=
  beginOp.bind fun _ _ => (op.1.emit_writes env inputs known opened).bind fun _ _ => checkAliasing

theorem body {env : EmitEnv} {inputs : Nat} {ops : List Op} :
    Writes (env.site inputs) known opened opened (body env inputs ops) :=
  (prologue (Nat.le_refl _)).bind fun _ _ => forM emitOp _

end Writes

end Asm

namespace ExitPaths

variable {limits : Limits} {exits : Exits} {buffer : CodeBuffer}

theorem exitOf_draft (pending : List Label) (status : ExitStatus)
    (draft : buffer.Draft limits (pending ++ exits.map Prod.snd)) :
    ∃ label after code, exitOf exits buffer status = (label, after, code) ∧
      code.Draft limits (pending ++ after.map Prod.snd) ∧ label ∈ after.map Prod.snd := by
  rw [exitOf]
  cases found : exits.find? (·.1 = status) with
  | some exit =>
      exact ⟨exit.2, exits, buffer, rfl, draft,
        List.mem_map_of_mem (List.mem_of_find?_eq_some found)⟩
  | none =>
      refine ⟨buffer.labels, exits ++ [(status, buffer.labels)], buffer.newLabel.2, rfl, ?_, ?_⟩
      · rw [List.map_append, ← List.append_assoc]
        exact draft.newLabel.perm (List.perm_append_singleton ..).symm
      · rw [List.map_append]
        exact List.mem_append_right _ (.head _)

theorem restore_draft {pending : List Label} (saved : SavedFloats)
    (within : SavedFloats.Within limits saved) (draft : buffer.Draft limits pending) : (restore saved buffer).Draft limits pending := by
  induction saved generalizing buffer with
  | nil => exact draft
  | cons entry rest ih =>
      obtain ⟨held, there⟩ := within entry (.head _)
      refine ih (fun other member => within other (.tail _ member))
        (draft.emit rfl ⟨?_, nofun⟩ fun _ impossible => nomatch impossible)
      simpa [Inst.needs, Need.Within] using ⟨there, held⟩

/-- A path is bound, and goes to an exit that is bound behind it. -/
theorem emitPath_draft {pending : List Label} {path : ExitPath}
    (within : SavedFloats.Within limits path.saved)
    (draft : buffer.Draft limits (path.label :: (pending ++ exits.map Prod.snd))) :
    (emitPath exits buffer path).2.Draft limits
        (pending ++ (emitPath exits buffer path).1.map Prod.snd) ∧
      (emitPath exits buffer path).1 ≠ [] := by
  obtain ⟨label, after, code, asked, drafted, listed⟩ :=
    exitOf_draft (path.label :: pending) path.status draft
  rw [emitPath_of_exitOf asked]
  have restored := restore_draft path.saved.reverse
    (fun entry member => within entry (List.mem_reverse.mp member)) drafted.bind
  refine ⟨restored.emit rfl ⟨by simp [Inst.needs, Need.Within], fun _ _ => Inst.noConfusion⟩ ?_, ?_⟩
  · intro other member
    cases List.mem_singleton.mp member
    exact List.mem_append_right _ listed
  · rintro rfl
    cases listed

/-- Without an exit nothing was emitted. -/
theorem emitPaths_draft (paths : ExitPaths) (exits : Exits) {buffer : CodeBuffer}
    (within : ∀ path ∈ paths, SavedFloats.Within limits path.saved)
    (draft : buffer.Draft limits (paths.map ExitPath.label ++ exits.map Prod.snd)) :
    ∃ after code, paths.foldl (fun (exits, buffer) path => emitPath exits buffer path)
        (exits, buffer) = (after, code) ∧
      code.Draft limits (after.map Prod.snd) ∧ (after = [] → exits = [] ∧ code = buffer) := by
  induction paths generalizing exits buffer with
  | nil => exact ⟨exits, buffer, rfl, draft, fun none => ⟨none, rfl⟩⟩
  | cons path rest ih =>
      obtain ⟨drafted, some⟩ := emitPath_draft (within path (.head _)) draft
      obtain ⟨after, code, emitted, last, empty⟩ :=
        ih _ (fun later member => within later (.tail _ member)) drafted
      exact ⟨after, code, emitted, last, fun none => absurd (empty none).1 some⟩

theorem emitExits_draft (draft : buffer.Draft limits (exits.map Prod.snd)) :
    (exits.foldl emitExit buffer).Draft limits [] := by
  induction exits generalizing buffer with
  | nil => exact draft
  | cons exit rest ih =>
      refine ih (draft.bind.emit rfl ⟨by simp [Inst.needs], nofun⟩ fun _ impossible =>
        nomatch impossible)

/-- Behind the exits the code returns. -/
theorem emitExits_returns (some : exits ≠ []) :
    ∃ status, (exits.foldl emitExit buffer).insts.toList.getLast? = .some (.ret status) := by
  rcases List.eq_nil_or_concat exits with rfl | ⟨front, exit, rfl⟩
  · exact absurd rfl some
  · refine ⟨exit.1, ?_⟩
    rw [List.concat_eq_append, List.foldl_append]
    simp only [List.foldl_cons, List.foldl_nil, emitExit, CodeBuffer.emit, Array.toList_push,
      List.getLast?_concat]

/-- Code that has returned gets the exits behind it. -/
theorem emit_draft {paths : ExitPaths}
    (within : ∀ path ∈ paths, SavedFloats.Within limits path.saved)
    (draft : buffer.Draft limits (paths.map ExitPath.label))
    (returns : ∃ status, buffer.insts.toList.getLast? = some (.ret status)) :
    (paths.emit buffer).Draft limits [] ∧
      ∃ status, (paths.emit buffer).insts.toList.getLast? = some (.ret status) := by
  obtain ⟨exits, code, emitted, drafted, empty⟩ :=
    emitPaths_draft paths [] within (by rwa [List.map_nil, List.append_nil])
  rw [emit, emitted]
  refine ⟨emitExits_draft drafted, ?_⟩
  by_cases none : exits = []
  · obtain ⟨-, rfl⟩ := empty none
    rw [none]
    exact returns
  · exact emitExits_returns none

end ExitPaths

theorem Cursor.Terminated.last_eq {cursor : Cursor} {ops : List Op} (terminated : cursor.Terminated ops) :
    ∃ front, ops = front ++ [⟨.returnFromIc, ()⟩] := by
  induction terminated with
  | @last _ _ op reads terminal =>
      obtain ⟨opcode, args⟩ := op
      cases of_decide_eq_true terminal
      exact ⟨[], rfl⟩
  | @cons _ _ op ops reads plain rest ih =>
      obtain ⟨front, rfl⟩ := ih
      exact ⟨op :: front, rfl⟩

/-- The code of the operations returns at its end. -/
theorem Asm.body_returns {env : EmitEnv} {count : Nat} {cursor : Cursor} {ops : List Op}
    {state after : Assembler} (terminated : cursor.Terminated ops)
    (runs : (body env count ops).Runs state () after) :
    ∃ status, after.buffer.insts.toList.getLast? = some (.ret status) := by
  obtain ⟨front, rfl⟩ := terminated.last_eq
  obtain ⟨_, -, runs⟩ := runs_body.mp runs
  rw [List.zipIdx_append] at runs
  obtain ⟨_, -, runs⟩ := runs_forM_append.mp runs
  obtain ⟨_, runs, done⟩ := runs_forM_cons.mp runs
  cases runs_forM_nil.mp done
  obtain ⟨begun, -, emits⟩ := runs_emitOp runs
  rw [runs_emit.mp emits]
  exact ⟨.returned, by
    simp only [Assembler.buffer_emitted, CodeBuffer.emit, Array.toList_push, List.getLast?_concat]⟩

/-- What can be relied on of the code of a stub. -/
structure WellFormed (config : CodeConfig) (inputs words : Nat) (summary : EmitSummary)
    (code : CodeBuffer) : Prop where
  /-- A label that an instruction goes to was handed out, and is bound once, behind it. -/
  target : ∀ front inst back, code.insts.toList = front ++ inst :: back → ∀ label ∈ inst.targets,
    label < code.labels ∧ code.insts.toList.count (.bind label) = 1 ∧ .bind label ∈ back
  last : ∃ status, code.insts.toList.getLast? = some (.ret status)
  /-- A run leaves through a return, unless it stops at a read where there is nothing. -/
  ends : ∀ entry machine, (∃ status after, code.flow entry machine = .exited status after) ∨
    code.flow entry machine = .faulted
  registers : ∀ inst ∈ code.insts.toList, ∀ reg, .register reg ∈ inst.needs →
    reg.index.toNat < min config.generalRegisters.toNat 32
  floatRegisters : ∀ inst ∈ code.insts.toList, ∀ float, .floatRegister float ∈ inst.needs →
    float.index.toNat < min config.floatRegisters.toNat 32
  slots : ∀ inst ∈ code.insts.toList, ∀ slot, .slot slot ∈ inst.needs → slot < summary.slots
  slotLimit : summary.slots ≤ config.spillSlots.toNat
  saves : ∀ inst ∈ code.insts.toList, ∀ slot, .save slot ∈ inst.needs → slot < summary.saves
  inputs : ∀ dst index, .loadInput dst index ∈ code.insts.toList → index.toNat < inputs
  words : ∀ dst offset, .loadStubWord dst offset ∈ code.insts.toList → offset + 8 ≤ 8 * words
  tags : ∀ inst ∈ code.insts.toList, ∀ cond, .tagCondition cond ∈ inst.needs →
    cond = .equal ∨ cond = .notEqual
  offsets : ∀ inst ∈ code.insts.toList, ∀ offset, .loadOffset offset ∈ inst.needs →
    -0x80000000 ≤ offset.toInt ∧ offset.toInt < 0x80000000

theorem CodeBuffer.Draft.wellFormed {site : Site} {summary : EmitSummary} {code : CodeBuffer}
    (draft : code.Draft (site.limits summary.slots summary.saves) [])
    (returns : ∃ status, code.insts.toList.getLast? = some (.ret status))
    (slots : summary.slots ≤ site.config.spillSlots.toNat) :
    WellFormed site.config site.inputs site.words summary code where
  target _ _ _ split _ member := draft.target split member
  last := returns
  ends _ _ := (draft.forward.mono fun _ => List.not_mem_nil).ends (fun _ => nofun) returns
  registers inst member _ needed := (draft.within inst member).needs _ needed
  floatRegisters inst member _ needed := (draft.within inst member).needs _ needed
  slots inst member _ needed := (draft.within inst member).needs _ needed
  slotLimit := slots
  saves inst member _ needed := (draft.within inst member).needs _ needed
  inputs dst index member := (draft.within _ member).input dst index rfl
  words _ _ member := ((draft.within _ member).needs _ (.head _)).1
  tags inst member _ needed := (draft.within inst member).needs _ needed
  offsets inst member _ needed := (draft.within inst member).needs _ needed

theorem Assembler.Draft.start {site : Site} {ops : List Op} {count : Nat} {allocation : Allocation}
    (started : Allocation.start ops count site.config = .ok allocation) :
    (Assembler.start allocation).Draft site [] [] where
  housed := .start started
  code := .empty _
  exits _ impossible := nomatch impossible
  known _ impossible := nomatch impossible

/-- Code that is emitted is drafted to its end. -/
theorem emitStub_draft {program : StubProgram} {data : StubData} {config : CodeConfig}
    {summary : EmitSummary} {code : CodeBuffer}
    (emits : emitStub program data config = .ok (summary, code)) :
    code.Draft (((⟨data, config⟩ : EmitEnv).site program.inputCount.toNat).limits summary.slots
        summary.saves) [] ∧
      (∃ status, code.insts.toList.getLast? = some (.ret status)) ∧
      summary.slots ≤ config.spillSlots.toNat := by
  obtain ⟨ops, allocation, state, read, -, started, runs, rfl, rfl⟩ := emitStub_ok emits
  have begun : (Assembler.start allocation).Draft
      ((⟨data, config⟩ : EmitEnv).site program.inputCount.toNat) [] [] := .start started
  obtain ⟨drafted, balanced, -⟩ := Asm.Writes.body _ _ _ runs begun (.start started)
  obtain ⟨complete, returns⟩ := ExitPaths.emit_draft drafted.exits drafted.code
    (Asm.body_returns (Cursor.terminated read) runs)
  exact ⟨complete, returns, balanced.spillLimit ▸ drafted.housed.slots⟩

/-- Emitted code is well formed, and nothing but a missing helper keeps it from being run. -/
theorem emitted_code_well_formed (program : StubProgram) (data : StubData) (config : CodeConfig)
    (summary : EmitSummary) (code : CodeBuffer)
    (emits : emitStub program data config = .ok (summary, code)) :
    WellFormed config program.inputCount.toNat data.words.length summary code ∧
      ∀ helpers error, compileStub helpers config program data = .error error →
        ∃ inst ∈ code.insts.toList, ∃ helper, .helper helper ∈ inst.needs ∧ helper ∉ helpers ∧
          error = .malformed (.helperMissing helper) := by
  obtain ⟨draft, returns, slots⟩ := emitStub_draft emits
  refine ⟨draft.wellFormed returns slots, fun helpers error fails => ?_⟩
  rw [compileStub, emits] at fails
  simp only [bind, Except.bind] at fails
  split at fails
  · cases fails
  · rename_i defect refused
    cases fails
    obtain ⟨inst, member, helper, needed, missing, rfl⟩ := Frame.check_error refused draft returns
      (Nat.min_le_left ..) (Nat.min_le_left ..) (Nat.le_refl _) (Nat.le_refl _) rfl
    exact ⟨inst, member, helper, needed, missing, rfl⟩

/-- Five labels are in use here, and the call of the helper leaves one input in a slot. -/
theorem well_formed_under_spill :
    let program : StubProgram := ⟨[1, 0, 3, 6, 1, 4, 10, 2, 5, 24, 3, 4, 5, 2, 0, 0], 6, 3⟩
    let config : CodeConfig := ⟨4, 1, 6, true, .address, true⟩
    ∃ summary code, emitStub program .empty config = .ok (summary, code) ∧ summary.slots = 1 ∧
      WellFormed config 3 0 summary code ∧
      ∀ error, compileStub [] config program .empty = .error error →
        ∃ inst ∈ code.insts.toList, ∃ helper, .helper helper ∈ inst.needs ∧
          error = .malformed (.helperMissing helper) := by
  intro program config
  have emitted : (emitStub program .empty config).toOption.map (·.1.slots) = some 1 := by
    decide +kernel
  cases emits : emitStub program .empty config with
  | error reason =>
      rw [emits] at emitted
      cases emitted
  | ok stub =>
      obtain ⟨summary, code⟩ := stub
      rw [emits] at emitted
      obtain ⟨wellFormed, missing⟩ :=
        emitted_code_well_formed program .empty config summary code emits
      refine ⟨summary, code, rfl, Option.some.inj emitted, wellFormed, fun error fails => ?_⟩
      obtain ⟨inst, member, helper, needed, -, rfl⟩ := missing [] error fails
      exact ⟨inst, member, helper, needed, rfl⟩

end InlineCache
