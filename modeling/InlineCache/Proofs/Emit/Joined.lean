import InlineCache.Proofs.Emit.Exits
import InlineCache.Proofs.Emit.JoinsOps
import InlineCache.Proofs.Emit.Restored

/-!
Whole stubs.  The main statement: wherever code branches to a label that is bound within an operation, the
allocator stands there as it stands at the label, and operands keep still between the two.
-/

namespace InlineCache

namespace Asm

variable {env : EmitEnv} {spot : Spot} {ops : List Op} {current : Option Nat}
  {state middle after : Assembler}

theorem Frees.joined {index : Nat} {paths : List Label}
    (freed : Frees state (state.allocation.place index) middle) (single : state.allocation.Single)
    (joined : state.Joined spot paths []) : middle.Joined spot paths [] := by
  generalize place : state.allocation.place index = location at freed
  cases freed with
  | nowhere => exact joined
  | register | slot => exact joined.of_same rfl rfl rfl rfl
  | float => exact absurd (place ▸ rfl) (single.place index)

theorem DefinesInput.steady {index : Nat} (defines : DefinesInput state index after)
    (small : index < 256) (bound : index < state.allocation.operands.length)
    (undefined : state.allocation.defined index = false) (steady : state.Steady spot (.quiet [])) :
    after.Steady spot (.quiet []) := by
  have balanced := defines.balanced small bound undefined steady.balanced
  have single := steady.single.revises (defines.revises small bound) Outline.Single.enters
  cases defines with
  | unused => exact ⟨balanced, single, trivial, steady.joined.of_same rfl rfl rfl rfl⟩
  | loaded reg middle takes =>
      have marked : (state.withAllocation
          (state.allocation.markDefined (UInt8.ofNat index)).unpin).Joined spot [] [] :=
        steady.joined.of_same rfl rfl rfl rfl
      have taken := marked.takesRegister takes
      exact ⟨balanced, single, trivial, (taken.plain rfl fun _ => .inl rfl).of_same rfl rfl rfl rfl⟩

namespace Joins

theorem defineInputs {count : Nat} : Joins spot (.quiet []) (.quiet []) (defineInputs count) := by
  intro state answer after runs steady
  exact defineInputs_induct (P := fun _ state => state.Steady spot (.quiet []))
    (fun steady small bound undefined defines => defines.steady small bound undefined steady) runs steady

theorem prologue {count : Nat} : Joins spot (.quiet []) (.quiet []) (prologue count) :=
  allocateRegister_bind fun _ => emit_bind (by simp) <| emit_bind (by simp) <|
    releaseRegister.bind fun _ => defineInputs

end Joins

theorem beginOp_steady {index : Nat} (runs : (beginOp index).Runs state () after)
    (steady : state.Steady ⟨env.config, ops, current⟩ (.quiet [])) :
    after.Steady ⟨env.config, ops, some index⟩ (.quiet []) := by
  obtain ⟨single, joined⟩ := beginOp_induct
    (P := fun state => state.allocation.Single ∧ state.Joined ⟨env.config, ops, some index⟩ [] [])
    (fun ⟨single, joined⟩ _ _ freed =>
      ⟨freed.single single, (freed.joined single joined).of_same rfl rfl rfl rfl⟩)
    runs ⟨steady.single.alike (.of_operands rfl), steady.joined.turn rfl rfl rfl rfl⟩
  exact ⟨beginOp_balanced runs steady.balanced, single, trivial, joined⟩

theorem emitOp_steady {op : Op × Nat} (named : ops[op.2]? = some op.1)
    (runs : (emitOp env op).Runs state () after)
    (steady : state.Steady ⟨env.config, ops, current⟩ (.quiet [])) :
    after.Steady ⟨env.config, ops, some op.2⟩ (.quiet []) := by
  obtain ⟨begun, begins, emits⟩ := runs_emitOp runs
  exact op.1.emit_joins env rfl named _ _ _ emits (beginOp_steady begins steady)

theorem forM_steady {items : List (Op × Nat)} (named : ∀ item ∈ items, ops[item.2]? = some item.1)
    (runs : (items.forM (emitOp env)).Runs state () after)
    (steady : state.Steady ⟨env.config, ops, current⟩ (.quiet [])) :
    ∃ last, after.Steady ⟨env.config, ops, last⟩ (.quiet []) := by
  induction items generalizing state current with
  | nil =>
      cases runs_forM_nil.mp runs
      exact ⟨current, steady⟩
  | cons item rest ih =>
      obtain ⟨middle, emits, runs⟩ := runs_forM_cons.mp runs
      exact ih (fun other member => named other (.tail _ member)) runs
        (emitOp_steady (named item (.head _)) emits steady)

/-- Behind the last operation every label is bound, and has been met. -/
theorem body_steady {count : Nat} (runs : (body env count ops).Runs state () after)
    (steady : state.Steady ⟨env.config, ops, none⟩ (.quiet [])) :
    ∃ last, after.Steady ⟨env.config, ops, last⟩ (.quiet []) := by
  obtain ⟨middle, begins, runs⟩ := runs_body.mp runs
  exact forM_steady (fun item member => List.mk_mem_zipIdx_iff_getElem?.mp member) runs
    (Joins.prologue _ _ _ begins steady)

end Asm

namespace ExitPaths

/-- The code goes on from a front, and behind it goes only to labels from a bound on. -/
def GoesPast (low : Label) (front : List Inst) (buffer : CodeBuffer) : Prop :=
  ∃ more, buffer.insts.toList = front ++ more ∧
    ∀ inst ∈ more, ∀ label, inst.target? = some label → low ≤ label

variable {low : Label} {front : List Inst} {buffer : CodeBuffer} {exits : Exits}

theorem GoesPast.emit {inst : Inst} (past : GoesPast low front buffer)
    (target : ∀ label, inst.target? = some label → low ≤ label) :
    GoesPast low front (buffer.emit inst) := by
  obtain ⟨more, code, bound⟩ := past
  refine ⟨more ++ [inst], ?_, fun other member => ?_⟩
  · rw [CodeBuffer.emit, Array.toList_push, code, List.append_assoc]
  · rcases List.mem_append.mp member with before | last
    · exact bound other before
    · rw [List.mem_singleton.mp last]
      exact target

theorem GoesPast.plain {inst : Inst} (past : GoesPast low front buffer) (nowhere : inst.target? = none) :
    GoesPast low front (buffer.emit inst) :=
  past.emit fun _ target => nomatch (nowhere.symm.trans target)

theorem GoesPast.restore (saved : SavedFloats) (past : GoesPast low front buffer) :
    GoesPast low front (ExitPaths.restore saved buffer) := by
  induction saved generalizing buffer with
  | nil => exact past
  | cons first rest ih => exact ih (past.plain rfl)

theorem emitPath_goesPast (path : ExitPath) (sound : exits.Sound low buffer.labels)
    (least : low ≤ buffer.labels) (past : GoesPast low front buffer) :
    (emitPath exits buffer path).1.Sound low (emitPath exits buffer path).2.labels ∧
      low ≤ (emitPath exits buffer path).2.labels ∧
      GoesPast low front (emitPath exits buffer path).2 := by
  obtain ⟨exit, after, code, asked, soundAfter, leastAfter, listed, -, same⟩ :=
    exitOf_spec path.status sound least
  have labels : ((restore path.saved.reverse (code.emit (.bind path.label))).emit
      (.jump exit)).labels = code.labels := labels_restore _ _
  have begun : GoesPast low front code := by
    rw [GoesPast, same]
    exact past
  rw [emitPath_of_exitOf asked, labels]
  refine ⟨soundAfter, leastAfter, ((begun.plain rfl).restore _).emit ?_⟩
  rintro _ ⟨⟩
  exact (soundAfter.given _ listed).1

theorem emitPaths_goesPast (paths : ExitPaths) (sound : exits.Sound low buffer.labels)
    (least : low ≤ buffer.labels) (past : GoesPast low front buffer) :
    ∃ after code, paths.foldl (fun (exits, buffer) path => emitPath exits buffer path)
        (exits, buffer) = (after, code) ∧ GoesPast low front code := by
  induction paths generalizing exits buffer with
  | nil => exact ⟨exits, buffer, rfl, past⟩
  | cons path rest ih =>
      obtain ⟨sound, least, past⟩ := emitPath_goesPast path sound least past
      exact ih sound least past

theorem emitExits_goesPast (exits : Exits) (past : GoesPast low front buffer) :
    GoesPast low front (exits.foldl emitExit buffer) := by
  induction exits generalizing buffer with
  | nil => exact past
  | cons exit rest ih => exact ih ((past.plain rfl).plain rfl)

theorem emit_goesPast (paths : ExitPaths) (buffer : CodeBuffer) :
    GoesPast buffer.labels buffer.insts.toList (paths.emit buffer) := by
  have none : Exits.Sound [] buffer.labels buffer.labels := ⟨nofun, List.nodup_nil⟩
  have begun : GoesPast buffer.labels buffer.insts.toList buffer :=
    ⟨[], (List.append_nil _).symm, nofun⟩
  obtain ⟨exits, code, emitted, past⟩ := emitPaths_goesPast paths none (Nat.le_refl _) begun
  rw [emit, emitted]
  exact emitExits_goesPast exits past

end ExitPaths

/-- What is computed of the state behind the operations holds of it. -/
theorem Asm.body_checked {program : StubProgram} (data : StubData) {config : CodeConfig} {ops : List Op}
    {allocation : Allocation} {state : Assembler} (check : Assembler → Bool)
    (checked : (program.terminatedOps.toOption.any fun ops =>
      (Allocation.start ops program.operandCount.toNat config).toOption.any fun allocation =>
        check (body ⟨data, config⟩ program.inputCount.toNat ops (.start allocation)).2) = true)
    (read : program.terminatedOps = .ok ops)
    (started : Allocation.start ops program.operandCount.toNat config = .ok allocation)
    (runs : (body ⟨data, config⟩ program.inputCount.toNat ops).Runs (.start allocation) () state) :
    check state = true := by
  rw [Runs] at runs
  simpa only [read, started, runs, Except.toOption, Option.any_some] using checked

/-- Wherever code goes to a label that is bound within an operation, it goes forward, within the code of
that operation, and the allocator has everything where it has it at the label.  Between the two no operand
is moved, and none is boxed or unboxed where it is, unless the operation clamps the operand that it
defines. -/
theorem branches_meet_their_labels {program : StubProgram} {data : StubData} {config : CodeConfig}
    {summary : EmitSummary} {buffer : CodeBuffer}
    (emits : emitStub program data config = .ok (summary, buffer)) :
    ∃ ops allocation state, program.terminatedOps = .ok ops ∧
      Allocation.start ops program.operandCount.toNat config = .ok allocation ∧
      (Asm.body ⟨data, config⟩ program.inputCount.toNat ops).Runs (.start allocation) () state ∧
      buffer = state.exits.emit state.buffer ∧
      ∀ j label, state.buffer.insts.toList[j]? = some (.bind label) →
        (∃ b, (j, b) ∈ state.marks.toList) ∧
        ∀ i inst, buffer.insts.toList[i]? = some inst → inst.target? = some label →
          (∃ a, (i, a) ∈ state.marks.toList) ∧
          ∀ a b, (i, a) ∈ state.marks.toList → (j, b) ∈ state.marks.toList →
            Meets ops buffer.insts.toList i j a b := by
  obtain ⟨ops, allocation, state, read, -, started, runs, -, rfl⟩ := emitStub_ok emits
  refine ⟨ops, allocation, state, read, started, runs, rfl, fun j label bound => ?_⟩
  have steady : (Assembler.start allocation).Steady ⟨config, ops, none⟩ (.quiet []) := by
    have balanced : allocation.Balanced config [] := .start started
    obtain ⟨table, -, rfl⟩ := Allocation.start_ok started
    exact ⟨balanced, .start config table, trivial, .start config ops rfl⟩
  obtain ⟨last, -, -, -, joined⟩ := Asm.body_steady runs steady
  obtain ⟨more, code, past⟩ := ExitPaths.emit_goesPast state.exits state.buffer
  refine ⟨joined.marked.covers j _ bound rfl, fun i inst here target => ?_⟩
  rw [code] at here ⊢
  -- behind the operations there are exit paths, which go to newer labels only
  rcases Nat.lt_or_ge i state.buffer.insts.toList.length with inside | behind
  · rw [List.getElem?_append_left inside] at here
    refine ⟨joined.marked.covers i inst here (Inst.usesLabel_of_target target), fun a b mark other => ?_⟩
    exact (joined.marked.meets i j a b inst label mark other here target bound).append
      (joined.marked.bounded _ other) more
  · rw [List.getElem?_append_right behind] at here
    have new := past inst (List.mem_of_getElem? here) label target
    have given := joined.sound.bound label (List.mem_of_getElem? bound)
    exact absurd new (Nat.not_le_of_lt given)

/-- The number of an index is converted in a register that is saved, and put back, on one of two ways that
come together again. -/
theorem converted_index_meets_its_labels :
    let program : StubProgram := ⟨[14, 0, 1, 1, 42, 1, 0], 2, 1⟩
    let config : CodeConfig := ⟨2, 1, 0, true, .constant, true⟩
    ∃ summary buffer ops a b, emitStub program .empty config = .ok (summary, buffer) ∧
      buffer.insts.toList[5]? = some (.jump 1) ∧ buffer.insts.toList[8]? = some (.saveFloat ⟨0⟩ 0) ∧
      buffer.insts.toList[16]? = some (.bind 1) ∧ Meets ops buffer.insts.toList 5 16 a b := by
  intro program config
  have emitted : (emitStub program .empty config).toOption.any (fun stub =>
      (stub.2.insts.toList[5]? == some (.jump 1)) &&
        ((stub.2.insts.toList[8]? == some (.saveFloat ⟨0⟩ 0)) &&
          (stub.2.insts.toList[16]? == some (.bind 1)))) = true := by
    decide +kernel
  obtain ⟨⟨summary, buffer⟩, found, holds⟩ := (Option.any_eq_true _ _).mp emitted
  simp only [Bool.and_eq_true, beq_iff_eq] at holds
  obtain ⟨jumps, saves, binds⟩ := holds
  have emits := eq_ok_of_toOption found
  obtain ⟨ops, allocation, state, read, started, runs, -, meets⟩ := branches_meet_their_labels emits
  have bound := Asm.body_checked .empty
    (fun state => state.buffer.insts.toList[16]? == some (.bind 1)) (by decide +kernel) read started runs
  obtain ⟨⟨b, other⟩, meets⟩ := meets 16 1 (beq_iff_eq.mp bound)
  obtain ⟨⟨a, mark⟩, meets⟩ := meets 5 (.jump 1) jumps rfl
  exact ⟨summary, buffer, ops, a, b, emits, jumps, saves, binds, meets a b mark other⟩

/-- An operand that is clamped and defined by one operation is unboxed where it is, on one of the two ways
to a label. -/
theorem clamped_operand_is_unboxed_before_a_label :
    let program : StubProgram := ⟨[16, 1, 1, 38, 1, 0], 2, 1⟩
    let config : CodeConfig := ⟨8, 2, 16, true, .constant, true⟩
    ∃ summary buffer, emitStub program .empty config = .ok (summary, buffer) ∧
      buffer.insts.toList[3]? = some (.branchTestType .notEqual ⟨0⟩ .int32 1) ∧
      buffer.insts.toList[4]? = some (.unboxPayload ⟨0⟩ ⟨0⟩ .int32) ∧
      buffer.insts.toList[7]? = some (.bind 1) ∧
      ∃ ops allocation state a, program.terminatedOps = .ok ops ∧
        Allocation.start ops program.operandCount.toNat config = .ok allocation ∧
        (Asm.body ⟨.empty, config⟩ program.inputCount.toNat ops).Runs (.start allocation) () state ∧
        (3, a) ∈ state.marks.toList ∧ a.location 1 = .valueReg ⟨0⟩ := by
  intro program config
  have emitted : (emitStub program .empty config).toOption.any (fun stub =>
      (stub.2.insts.toList[3]? == some (.branchTestType .notEqual ⟨0⟩ .int32 1)) &&
        ((stub.2.insts.toList[4]? == some (.unboxPayload ⟨0⟩ ⟨0⟩ .int32)) &&
          (stub.2.insts.toList[7]? == some (.bind 1)))) = true := by
    decide +kernel
  obtain ⟨⟨summary, buffer⟩, found, holds⟩ := (Option.any_eq_true _ _).mp emitted
  simp only [Bool.and_eq_true, beq_iff_eq] at holds
  obtain ⟨branches, unboxes, binds⟩ := holds
  have emits := eq_ok_of_toOption found
  obtain ⟨ops, allocation, state, read, -, started, runs, -, -⟩ := emitStub_ok emits
  have marked := Asm.body_checked .empty
    (fun state => state.marks.toList.any fun mark =>
      (mark.1 == 3) && (mark.2.location 1 == .valueReg ⟨0⟩)) (by decide +kernel) read started runs
  obtain ⟨⟨_, a⟩, mark, holds⟩ := List.any_eq_true.mp marked
  simp only [Bool.and_eq_true, beq_iff_eq] at holds
  obtain ⟨rfl, located⟩ := holds
  exact ⟨summary, buffer, emits, branches, unboxes, binds, ops, allocation, state, a, read, started, runs,
    mark, located⟩

end InlineCache
