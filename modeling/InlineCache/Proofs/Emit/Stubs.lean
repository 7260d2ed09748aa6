import InlineCache.Proofs.Emit.Aliasing
import InlineCache.Proofs.Emit.Fails
import InlineCache.Proofs.Emit.Liveness
import InlineCache.Proofs.Emit.TidyOps

/-!
The stages of compiling a stub.  Its operations end with the one terminal operation, their code is
emitted one after the other, and the exit paths stand behind it.
-/

namespace InlineCache

theorem eq_ok_of_toOption {ε α : Type} {result : Except ε α} {a : α}
    (answers : result.toOption = some a) : result = .ok a := by
  cases result with
  | error error => cases answers
  | ok b => exact congrArg Except.ok (Option.some.inj answers)

/-- The operations of a program, as they are read from a cursor: the terminal one is the last. -/
inductive Cursor.Terminated : Cursor → List Op → Prop
  | last {cursor next : Cursor} {op : Op} (reads : Op.read cursor = (.ok op, next))
      (terminal : op.isTerminal = true) : Terminated cursor [op]
  | cons {cursor next : Cursor} {op : Op} {ops : List Op} (reads : Op.read cursor = (.ok op, next))
      (plain : op.isTerminal = false) (rest : Terminated next ops) : Terminated cursor (op :: ops)

theorem Cursor.terminated {cursor : Cursor} {index : Nat} {ops : List Op}
    (read : cursor.terminatedOps index = .ok ops) : cursor.Terminated ops := by
  fun_induction Cursor.terminatedOps cursor index generalizing ops with
  | case1 | case2 | case3 => cases read
  | case4 cursor index _ op next reads terminal =>
      cases read
      exact .last reads terminal
  | case5 cursor index _ op next reads plain rest more ih =>
      cases read
      exact .cons reads (Bool.eq_false_iff.mpr plain) (ih more)
  | case6 => cases read

/-- Operations that cannot be read are unsupported, or no operations. -/
theorem Cursor.terminatedOps_error {cursor : Cursor} {index : Nat} {error : CodeError}
    (fails : cursor.terminatedOps index = .error error) :
    (∃ op opcode, error = .unsupportedOp op opcode) ∨ ∃ cause, error = .decode cause := by
  fun_induction Cursor.terminatedOps cursor index generalizing error with
  | case1 =>
      cases fails
      exact .inr ⟨_, rfl⟩
  | case2 =>
      cases fails
      exact .inl ⟨_, _, rfl⟩
  | case3 =>
      cases fails
      exact .inr ⟨_, rfl⟩
  | case4 | case5 => cases fails
  | case6 cursor index _ op next reads plain cause more ih =>
      cases fails
      exact ih more

/-- An emission that fails has failed in one of its stages. -/
theorem emitStub_error {program : StubProgram} {data : StubData} {config : CodeConfig}
    {error : CodeError} (fails : emitStub program data config = .error error) :
    (∃ op opcode, error = .unsupportedOp op opcode) ∨ (∃ cause, error = .decode cause) ∨
      (∃ defect, error = .malformed defect) ∨
      ∃ ops allocation, program.terminatedOps = .ok ops ∧
        program.inputCount.toNat ≤ program.operandCount.toNat ∧
        Allocation.start ops program.operandCount.toNat config = .ok allocation ∧
        (Asm.body ⟨data, config⟩ program.inputCount.toNat ops).Fails (.start allocation) error := by
  rw [emitStub] at fails
  cases read : program.terminatedOps with
  | error cause =>
      rw [read] at fails
      cases fails
      rcases Cursor.terminatedOps_error read with unsupported | undecodable
      · exact .inl unsupported
      · exact .inr (.inl undecodable)
  | ok ops =>
      rw [read] at fails
      simp only [bind, Except.bind] at fails
      split at fails
      · cases fails
        exact .inr (.inr (.inl ⟨_, rfl⟩))
      rename_i enough
      cases started : Allocation.start ops program.operandCount.toNat config with
      | error cause =>
          rw [started] at fails
          cases fails
          obtain ⟨_, _, rfl⟩ := Allocation.start_error started
          exact .inr (.inr (.inl ⟨_, rfl⟩))
      | ok allocation =>
          rw [started] at fails
          dsimp only at fails
          split at fails
          · rename_i cause state failed
            cases fails
            exact .inr (.inr (.inr ⟨ops, allocation, rfl, Nat.le_of_not_lt enough, started,
              congrArg Prod.fst failed⟩))
          · cases fails

/-- An emission that succeeds has gone through all its stages. -/
theorem emitStub_ok {program : StubProgram} {data : StubData} {config : CodeConfig}
    {summary : EmitSummary} {buffer : CodeBuffer}
    (emits : emitStub program data config = .ok (summary, buffer)) :
    ∃ ops allocation state, program.terminatedOps = .ok ops ∧
      program.inputCount.toNat ≤ program.operandCount.toNat ∧
      Allocation.start ops program.operandCount.toNat config = .ok allocation ∧
      (Asm.body ⟨data, config⟩ program.inputCount.toNat ops).Runs (.start allocation) () state ∧
      summary = state.summary ops.length ∧ buffer = state.exits.emit state.buffer := by
  rw [emitStub] at emits
  cases read : program.terminatedOps with
  | error error =>
      rw [read] at emits
      cases emits
  | ok ops =>
      rw [read] at emits
      simp only [bind, Except.bind] at emits
      split at emits
      · cases emits
      rename_i enough
      cases started : Allocation.start ops program.operandCount.toNat config with
      | error error =>
          rw [started] at emits
          cases emits
      | ok allocation =>
          rw [started] at emits
          dsimp only at emits
          split at emits
          · cases emits
          · rename_i state ran
            cases emits
            exact ⟨ops, allocation, state, rfl, Nat.le_of_not_lt enough, started, ran, rfl, rfl⟩

theorem Asm.runs_body {env : EmitEnv} {count : Nat} {ops : List Op}
    {state after : Assembler} :
    (body env count ops).Runs state () after ↔
      ∃ middle, (prologue count).Runs state () middle ∧
        (ops.zipIdx.forM (emitOp env)).Runs middle () after := by
  simp only [body, runs_bind]
  exact ⟨fun ⟨_, middle, first, rest⟩ => ⟨middle, first, rest⟩,
    fun ⟨middle, first, rest⟩ => ⟨(), middle, first, rest⟩⟩

theorem Asm.runs_checkAliasing {state after : Assembler}
    (runs : checkAliasing.Runs state () after) : after = state := by
  simp only [checkAliasing, runs_bind, runs_allocation] at runs
  obtain ⟨_, _, ⟨rfl, rfl⟩, runs⟩ := runs
  split at runs
  · exact (runs_pure.mp runs).2.symm
  · exact absurd runs not_runs_violate

theorem Asm.runs_emitOp {env : EmitEnv} {op : Op × Nat} {state after : Assembler}
    (runs : (emitOp env op).Runs state () after) :
    ∃ begun, (beginOp op.2).Runs state () begun ∧ (op.1.emit env).Runs begun () after := by
  simp only [emitOp, runs_bind] at runs
  obtain ⟨_, begun, begins, _, emitted, emits, checks⟩ := runs
  cases runs_checkAliasing checks
  exact ⟨begun, begins, emits⟩

theorem Assembler.Sound.start (allocation : Allocation) : (Assembler.start allocation).Sound where
  given := fun _ member => nomatch member
  distinct := List.nodup_nil
  unbound := fun _ member => nomatch member
  bound := fun _ member => nomatch member

end InlineCache
