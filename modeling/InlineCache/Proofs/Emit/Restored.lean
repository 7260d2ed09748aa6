import InlineCache.Proofs.Emit.SettlesOps
import InlineCache.Proofs.Emit.WellFormed

/-!
Caller-owned float registers are preserved.  Between operations nothing is saved, an exit path restores
what was saved where it is taken, and so a run over the code of a stub leaves with the floats that it
began with, whichever way it leaves.
-/

namespace InlineCache

namespace Asm

variable {config : CodeConfig} {labels : Records} {saved : SavedFloats} {state middle after : Assembler}

theorem DefinesInput.settled {index : Nat} (defines : DefinesInput state index after)
    (small : index < 256) (bound : index < state.allocation.operands.length)
    (undefined : state.allocation.defined index = false) (settled : state.Settled config labels saved) :
    after.Settled config labels saved := by
  have balanced := defines.balanced small bound undefined settled.balanced
  have single := settled.single.revises (defines.revises small bound) Outline.Single.enters
  cases defines with
  | unused => exact ⟨balanced, single, settled.recorded, settled.accounts.of_same rfl rfl⟩
  | loaded reg middle takes =>
      have marked : (state.withAllocation
          (state.allocation.markDefined (UInt8.ofNat index)).unpin).Accounts labels saved :=
        settled.accounts.of_same rfl rfl
      obtain ⟨accounts, same⟩ := marked.takesRegister takes
      exact ⟨balanced, single, same.trans settled.recorded, (accounts.straight rfl).of_same rfl rfl⟩

theorem Frees.single {index : Nat} {location : Location} (freed : Frees state location middle)
    (single : state.allocation.Single) : (middle.allocation.setLocation index .nowhere).Single := by
  have alike : middle.allocation.Single := single.alike (.of_operands freed.operands)
  refine alike.revises (.clear _ index) ?_
  rintro o _ single rfl
  exact ⟨nofun, single.2⟩

/-- No operand that loses its place is in a float register. -/
theorem Frees.settled {index : Nat} (freed : Frees state (state.allocation.place index) middle)
    (single : state.allocation.Single) (recorded : state.allocation.saved = saved)
    (accounts : state.Accounts labels saved) :
    (middle.allocation.setLocation index .nowhere).Single ∧ middle.allocation.saved = saved ∧
      middle.Accounts labels saved := by
  have cleared : (middle.allocation.setLocation index .nowhere).Single := freed.single single
  generalize place : state.allocation.place index = location at freed
  cases freed with
  | nowhere => exact ⟨cleared, recorded, accounts⟩
  | register | slot => exact ⟨cleared, recorded, accounts.of_same rfl rfl⟩
  | float => exact absurd (place ▸ rfl) (single.place index)

namespace Settles

variable {env : EmitEnv}

theorem defineInputs {count : Nat} : Settles config labels saved saved (defineInputs count) := by
  intro state answer after runs settled
  exact defineInputs_induct (P := fun _ state => state.Settled config labels saved)
    (fun settled small bound undefined defines => defines.settled small bound undefined settled) runs
    settled

theorem prologue {count : Nat} : Settles config labels saved saved (prologue count) :=
  allocateRegister.bind fun _ => straight rfl <| straight rfl <| releaseRegister.bind fun _ =>
    defineInputs

theorem beginOp {index : Nat} : Settles config labels saved saved (beginOp index) := by
  intro state answer after runs settled
  obtain ⟨single, recorded, accounts⟩ := beginOp_induct
    (P := fun state => state.allocation.Single ∧ state.allocation.saved = saved ∧
      state.Accounts labels saved)
    (fun ⟨single, recorded, accounts⟩ _ _ freed =>
      have ⟨cleared, same, settled⟩ := freed.settled single recorded accounts
      ⟨cleared, same, settled.of_same rfl rfl⟩)
    runs ⟨settled.single.alike (.of_operands rfl), settled.recorded, settled.accounts.of_same rfl rfl⟩
  exact ⟨beginOp_balanced runs settled.balanced, single, recorded, accounts⟩

theorem checkAliasing : Settles config labels saved saved checkAliasing := by
  intro state answer after runs settled
  cases runs_checkAliasing runs
  exact settled

theorem forM {visit : α → Asm Unit} (settles : ∀ a, Settles config labels saved saved (visit a))
    (items : List α) : Settles config labels saved saved (items.forM visit) := by
  induction items with
  | nil => exact pure
  | cons item rest ih => exact (settles item).bind fun _ => ih

theorem emitOp (saves : env.config.savesFloats = true) (op : Op × Nat) :
    Settles env.config [] [] [] (emitOp env op) :=
  beginOp.bind fun _ => (op.1.emit_settles env saves).bind fun _ => checkAliasing

theorem body (saves : env.config.savesFloats = true) {count : Nat} {ops : List Op} :
    Settles env.config [] [] [] (body env count ops) :=
  prologue.bind fun _ => forM (emitOp saves) _

end Settles

end Asm

theorem Assembler.Settled.start {ops : List Op} {count : Nat} {config : CodeConfig}
    {allocation : Allocation} (started : Allocation.start ops count config = .ok allocation) :
    (Assembler.start allocation).Settled config [] [] := by
  have balanced : allocation.Balanced config [] := .start started
  obtain ⟨table, -, rfl⟩ := Allocation.start_ok started
  exact ⟨balanced, .start config table, rfl, .start _⟩

/-- Code does not go on behind a return. -/
theorem Walks.ends {owed : List SavedFloats} {here there : Option SavedFloats} {insts : List Inst}
    {status : ExitStatus} (walks : Walks owed here insts there)
    (returns : insts.getLast? = some (.ret status)) : there = none := by
  induction walks with
  | nil => cases returns
  | @cons _ _ there inst rest stands walks ih =>
      cases rest with
      | nil =>
          cases returns
          cases walks
          cases stands with
          | ret | dead => rfl
          | plain _ stays => exact absurd rfl (stays status)
      | cons => exact ih (by rwa [List.getLast?_cons_cons] at returns)

namespace ExitPaths

variable {owed : List SavedFloats} {exits : Exits} {buffer : CodeBuffer} {paths : ExitPaths}

/-- What is saved where the labels of exits and of paths are gone to, nothing in the case of exits. -/
structure Recorded (owed : List SavedFloats) (exits : Exits) (paths : ExitPaths) : Prop where
  exits : ∀ exit ∈ exits, owed[exit.2]? = some []
  paths : ∀ path ∈ paths, owed[path.label]? = some path.saved

theorem Recorded.append (recorded : Recorded owed exits paths) (more : List SavedFloats) :
    Recorded (owed ++ more) exits paths := by
  have kept {label : Label} {saved : SavedFloats} (record : owed[label]? = some saved) :
      (owed ++ more)[label]? = some saved :=
    (List.getElem?_append_left (List.getElem?_eq_some_iff.mp record).1).trans record
  exact ⟨fun exit member => kept (recorded.exits exit member),
    fun path member => kept (recorded.paths path member)⟩

/-- The registers that are saved are restored, in whatever order. -/
theorem restore_walked {saved : SavedFloats} (restored : SavedFloats) (same : saved.Perm restored)
    (walked : buffer.Walked owed (some saved)) : (restore restored buffer).Walked owed (some []) := by
  induction restored generalizing saved buffer with
  | nil =>
      cases same.eq_nil
      exact walked
  | cons entry rest ih =>
      have listed : entry ∈ saved := same.mem_iff.mpr (.head _)
      have stands : Stands owed (some saved) (.restoreFloat entry.1 entry.2)
          (some (saved.erase entry)) :=
        .plain rfl (fun _ => Inst.noConfusion) (fun _ impossible => nomatch impossible)
          (fun _ impossible => nomatch impossible) (if_pos listed)
      refine ih ?_ (walked.emit stands)
      have erased := same.erase entry
      rwa [List.erase_cons_head] at erased

/-- An exit has nothing saved. -/
theorem exitOf_walked (status : ExitStatus) (recorded : Recorded owed exits paths)
    {here : Option SavedFloats} (walked : buffer.Walked owed here) :
    ∃ label after code more, exitOf exits buffer status = (label, after, code) ∧
      code.Walked (owed ++ more) here ∧ Recorded (owed ++ more) after paths ∧
      (owed ++ more)[label]? = some [] := by
  rw [exitOf]
  cases found : exits.find? (·.1 = status) with
  | some exit =>
      refine ⟨exit.2, exits, buffer, [], rfl, ?_⟩
      rw [List.append_nil]
      exact ⟨walked, recorded, recorded.exits exit (List.mem_of_find?_eq_some found)⟩
  | none =>
      obtain ⟨asked, new⟩ := walked.newLabel []
      have kept := recorded.append [[]]
      refine ⟨buffer.labels, exits ++ [(status, buffer.labels)], buffer.newLabel.2, [[]], rfl, asked,
        ⟨fun exit member => ?_, kept.paths⟩, new⟩
      rcases List.mem_append.mp member with before | now
      · exact kept.exits exit before
      · cases List.mem_singleton.mp now
        exact new

theorem emitPath_walked {path : ExitPath} (recorded : Recorded owed exits (path :: paths))
    (walked : buffer.Walked owed none) :
    ∃ more, (emitPath exits buffer path).2.Walked (owed ++ more) none ∧
      Recorded (owed ++ more) (emitPath exits buffer path).1 paths := by
  obtain ⟨label, after, code, more, asked, walked, recorded, exit⟩ :=
    exitOf_walked path.status recorded walked
  rw [emitPath_of_exitOf asked]
  have landed := walked.emit (.bind (recorded.paths path (.head _))
    fun _ same => absurd same.symm (Option.some_ne_none _))
  have restored := restore_walked path.saved.reverse (List.reverse_perm _).symm landed
  exact ⟨more, restored.emit (.jump exit), recorded.exits,
    fun later member => recorded.paths later (.tail _ member)⟩

theorem emitPaths_walked (paths : ExitPaths) {exits : Exits} {buffer : CodeBuffer}
    (recorded : Recorded owed exits paths) (walked : buffer.Walked owed none) :
    ∃ after code owed, paths.foldl (fun (exits, buffer) path => emitPath exits buffer path)
        (exits, buffer) = (after, code) ∧
      code.Walked owed none ∧ Recorded owed after [] := by
  induction paths generalizing owed exits buffer with
  | nil => exact ⟨exits, buffer, owed, rfl, walked, recorded⟩
  | cons path rest ih =>
      obtain ⟨more, walked, recorded⟩ := emitPath_walked recorded walked
      exact ih recorded walked

theorem emitExits_walked (recorded : ∀ exit ∈ exits, owed[exit.2]? = some [])
    (walked : buffer.Walked owed none) : (exits.foldl emitExit buffer).Walked owed none := by
  induction exits generalizing buffer with
  | nil => exact walked
  | cons exit rest ih =>
      have landed := walked.emit (.bind (recorded exit (.head _)) fun _ => nofun)
      exact ih (fun later member => recorded later (.tail _ member)) (landed.emit .ret)

/-- Each path restores what is saved where its label is gone to. -/
theorem emit_walked (recorded : ∀ path ∈ paths, owed[path.label]? = some path.saved)
    (walked : buffer.Walked owed none) : ∃ owed, (paths.emit buffer).Walked owed none := by
  have none_yet : Recorded owed [] paths := ⟨fun _ impossible => (nomatch impossible), recorded⟩
  obtain ⟨after, code, owed, emitted, walked, recorded⟩ := emitPaths_walked paths none_yet walked
  rw [emit, emitted]
  exact ⟨owed, emitExits_walked recorded.exits walked⟩

end ExitPaths

/-- The code of a stub goes by a record of what is saved where its labels are gone to. -/
theorem emitStub_walked {program : StubProgram} {data : StubData} {config : CodeConfig}
    {summary : EmitSummary} {buffer : CodeBuffer} (saves : config.savesFloats = true)
    (emits : emitStub program data config = .ok (summary, buffer)) :
    ∃ owed, buffer.Walked owed none := by
  obtain ⟨ops, allocation, state, read, -, started, runs, -, rfl⟩ := emitStub_ok emits
  have settles : Asm.Settles config [] [] [] (Asm.body ⟨data, config⟩ program.inputCount.toNat ops) :=
    .body saves
  have settled := settles _ _ _ runs (.start started)
  obtain ⟨status, returns⟩ := Asm.body_returns (Cursor.terminated read) runs
  obtain ⟨owed, here, walked, -, exits, -⟩ := settled.accounts
  cases walked.walks.ends returns
  exact ExitPaths.emit_walked exits walked

/-- A run over the code of a stub that leaves, whichever way, leaves with the floats of the caller.  On
its way each save was of a register that was not saved, to a free slot, each restore took back one save,
and none is left. -/
theorem floats_are_restored {program : StubProgram} {data : StubData} {config : CodeConfig}
    {summary : EmitSummary} {buffer : CodeBuffer} (saves : config.savesFloats = true)
    (emits : emitStub program data config = .ok (summary, buffer)) {entry : Entry} {m after : Machine}
    {status : ExitStatus} (leaves : runCode entry buffer.insts.toList none m = some (status, after)) :
    after.floats = m.floats ∧
      SavedFloats.along? [] (trail entry buffer.insts.toList none m) = some [] := by
  obtain ⟨owed, walked⟩ := emitStub_walked saves emits
  exact walked.walks.returns (.inl ⟨rfl, rfl⟩) (.start m) leaves

/-- An index that is no integer leaves through the path of its guard, with the register of the
conversion saved and then restored. -/
theorem fractional_index_restores_floats :
    let program : StubProgram := ⟨[12, 0, 1, 38, 1, 0], 2, 1⟩
    let config : CodeConfig := ⟨2, 1, 0, true, .constant, true⟩
    let entry : Entry := ⟨[0x3FF8000000000000], []⟩
    let m : Machine := { Machine.start .empty with floats := fun _ => .nan }
    ∃ summary buffer after, emitStub program .empty config = .ok (summary, buffer) ∧
      runCode entry buffer.insts.toList none m = some (.bailout, after) ∧
      (trail entry buffer.insts.toList none m).contains (.saveFloat ⟨0⟩ 0) = true ∧
      after.floats = m.floats ∧
      SavedFloats.along? [] (trail entry buffer.insts.toList none m) = some [] := by
  intro program config entry m
  have emitted : (emitStub program .empty config).toOption.any (fun stub =>
      ((runCode entry stub.2.insts.toList none m).map Prod.fst == some .bailout) &&
        (trail entry stub.2.insts.toList none m).contains (.saveFloat ⟨0⟩ 0)) = true := by
    decide +kernel
  obtain ⟨⟨summary, buffer⟩, found, holds⟩ := (Option.any_eq_true _ _).mp emitted
  obtain ⟨ran, saved⟩ := Bool.and_eq_true_iff.mp holds
  obtain ⟨⟨_, after⟩, leaves, rfl⟩ := Option.map_eq_some_iff.mp (beq_iff_eq.mp ran)
  have emits := eq_ok_of_toOption found
  obtain ⟨floats, restored⟩ := floats_are_restored rfl emits leaves
  exact ⟨summary, buffer, after, emits, leaves, saved, floats, restored⟩

end InlineCache
