import InlineCache.Proofs.Emit.ObjectGuards
import InlineCache.Proofs.Stub.Building
import InlineCache.Proofs.ValueGuards

/-!
Mitigation of mispredicted guards on objects.  With mitigations on, a run that falls through such a guard
where it should leave has nothing behind the object from there on: the register that the guard tested is set
to zero, and whatever the allocator does with the operand later, it takes the zero along.
-/

namespace InlineCache

/-- A test that is mispredicted among code without tests, and the one test behind it, is that one. -/
theorem Speculation.Misses.last {run : Speculation} {first insts more : List Inst} {test : Inst} {i : Nat}
    (misses : run.Misses (first ++ insts ++ [test] ++ more) i) (behindFirst : first.length ≤ i)
    (below : i < (first ++ insts ++ [test]).length) (untested : ∀ inst ∈ insts, inst.isTest = false) :
    ∃ m label n, run.flow (first ++ insts) = .running none m ∧
      (run.guess (first ++ insts).length).falls = true ∧
      test.speculate run.entry { run.guess (first ++ insts).length with falls := false } m =
        .jump label n := by
  obtain ⟨inst, m, label, n, found, tests, flow, falls, jumps⟩ := misses
  rw [List.append_assoc] at found flow
  rw [List.length_append] at below
  rcases Nat.lt_or_eq_of_le (Nat.le_of_lt_succ below) with earlier | rfl
  · rw [List.getElem?_append_left earlier, List.getElem?_append_right behindFirst] at found
    cases tests.symm.trans (untested inst (List.mem_of_getElem? found))
  · rw [List.getElem?_append_right (Nat.le_refl _), Nat.sub_self] at found
    cases found
    rw [List.take_left] at flow
    exact ⟨m, label, n, flow, falls, jumps⟩

section

variable {run : Speculation} {before behind : Assembler} {code : List Inst} {index i : Nat}

/-- Behind a test that a run has mispredicted, the register that it names is zero. -/
theorem Assembler.Tested.blank {operand : Nat} {first : List Inst}
    (tested : behind.Tested index first operand)
    (longer : behind.buffer.insts.toList <+: code) (behindFirst : first.length ≤ i)
    (below : i < behind.buffer.insts.size) (misses : run.Misses code i) :
    (behind.allocation.lastUse operand).all (· < index + 1) = true ∨
      ∀ m, run.flow behind.buffer.insts.toList = .running none m →
        (behind.allocation.place operand).BlankIn (behind.allocation.known operand) m := by
  obtain ⟨insts, test, reg, type, listed, untested, place, named⟩ := tested
  obtain ⟨more, rfl⟩ := longer
  rw [← Array.length_toList, listed] at below
  rw [listed] at misses ⊢
  refine named.imp_right fun named m flow => ?_
  obtain ⟨n, label, _, before, falls, jumps⟩ := misses.last behindFirst below untested
  obtain ⟨after, goes, zero⟩ := Inst.zeroes_of_falls named falls jumps
  rw [Speculation.flow_concat, before] at flow
  cases (congrArg Flow.ofEffect goes).symm.trans flow
  rw [place, Location.blankIn_payloadReg]
  exact zero

/-- A guard that a run has mispredicted leaves its object blank, or it was the last to use it. -/
theorem Assembler.Idle.guarded {env : EmitEnv} {guard : Op} {object : OperandId} {other : Nat}
    (idle : before.Idle env.config run other index) (mitigates : env.config.spectre = true)
    (guards : guard.testedObject? = some object)
    (runs : (Asm.emitOp env (guard, index)).Runs before () behind)
    (longer : behind.buffer.insts.toList <+: code) (behindFront : before.buffer.insts.size ≤ i)
    (below : i < behind.buffer.insts.size) (misses : run.Misses code i) :
    behind.Idle env.config run object.toNat (index + 1) := by
  obtain ⟨begun, begins, buffer, emits, spared⟩ := idle.emits runs
  have balanced := Asm.beginOp_balanced begins idle.balanced
  have poised : begun.Poised index before.buffer.insts.toList :=
    ⟨Asm.beginOp_current begins, [], by rw [buffer, List.append_nil], nofun⟩
  have tested := guard.emit_tests guards mitigates balanced poised emits
  have defined : behind.allocation.defined object.toNat = true := by
    obtain ⟨_, _, _, _, -, -, place, -⟩ := tested
    exact spared.balanced.placed _ (by rw [place]; exact nofun)
  exact ⟨spared.balanced, spared.single, fun _ => defined, spared.given.drop,
    fun label m flow => (spared.tracks.waits label m flow).1, tested.blank longer behindFront below misses⟩

end

/-- With mitigations on, let a run mispredict the test of a guard on an object, in whatever way it predicts
the rest.  Through the code of every later operation the object is blank wherever the allocator has it, and
what is accessed through the register of the object is at the address zero. -/
theorem mispredicted_guard_blanks_object (program : StubProgram) (data : StubData) (config : CodeConfig)
    (run : Speculation) {summary : EmitSummary} {code : CodeBuffer} {front later rest : List Op}
    {guard op : Op} {object : OperandId} {before behind : Assembler} {i : Nat}
    (emits : emitStub program data config = .ok (summary, code)) (mitigates : config.spectre = true)
    (read : program.terminatedOps = .ok (front ++ guard :: (later ++ op :: rest)))
    (guards : guard.testedObject? = some object)
    (reached : program.EmitsTo data config front before)
    (passed : program.EmitsTo data config (front ++ [guard]) behind)
    (behindFront : before.buffer.insts.size ≤ i) (below : i < behind.buffer.insts.size)
    (misses : run.Misses code.insts.toList i) :
    ∃ state begun after insts, program.EmitsTo data config (front ++ guard :: later) state ∧
      (Asm.beginOp (front.length + 1 + later.length)).Runs state () begun ∧
      program.EmitsTo data config (front ++ guard :: later ++ [op]) after ∧
      after.buffer.insts.toList = state.buffer.insts.toList ++ insts ∧
      after.buffer.insts.toList <+: code.insts.toList ∧
      (begun.allocation.place object.toNat).along insts = after.allocation.place object.toNat ∧
      run.BlankAlong state.buffer.insts.toList (begun.allocation.place object.toNat) insts := by
  obtain ⟨allocation, _, last, started, runs, others, -, -, rfl⟩ := emitStub_append read emits
  cases reached.unique ⟨_, allocation, read, started, runs⟩
  obtain ⟨_, guardRuns, others⟩ := Asm.runs_forM_cons.mp others
  cases passed.unique ⟨_, allocation, read, started, Asm.runs_body_snoc runs guardRuns⟩
  have grows {ops : List (Op × Nat)} {state : Assembler}
      (runs : (ops.forM (Asm.emitOp ⟨data, config⟩)).Runs state () last) :
      state.buffer.insts.toList <+: (last.exits.emit last.buffer).insts.toList :=
    ((Asm.Tidy.forM (Asm.emitOp_tidy _) _).grows runs).code.trans (ExitPaths.emit_extends ..)
  have idle : before.Idle config run allocation.operands.length front.length :=
    .body ⟨data, config⟩ started (Nat.le_refl _) runs
  have idle : behind.Idle config run object.toNat (front.length + 1) :=
    idle.guarded mitigates guards guardRuns (grows others) behindFront below misses
  -- so it stays through the operations up to the one in question
  rw [List.zipIdx_append] at others
  obtain ⟨state, laterRuns, others⟩ := Asm.runs_forM_append.mp others
  obtain ⟨after, opRuns, others⟩ := Asm.runs_forM_cons.mp others
  have bodyRuns : (Asm.body ⟨data, config⟩ program.inputCount.toNat (front ++ guard :: later)).Runs
      (.start allocation) () state :=
    Asm.runs_body_append runs (Asm.runs_forM_cons.mpr ⟨behind, guardRuns, laterRuns⟩)
  have count : (front ++ guard :: later).length = front.length + 1 + later.length := by
    rw [List.length_append, List.length_cons, Nat.add_assoc, Nat.add_comm 1]
  have idle : state.Idle config run object.toNat (front.length + 1 + later.length) :=
    Assembler.Idle.forM idle laterRuns
  obtain ⟨begun, begins, buffer, -, spared⟩ := idle.emits opRuns
  obtain ⟨insts, added, along, blank⟩ := spared.tracks.code
  rw [Speculation.trail, buffer] at added blank
  exact ⟨state, begun, after, insts, ⟨_, allocation, read, started, bodyRuns⟩, begins,
    ⟨_, allocation, read, started, Asm.runs_body_snoc bodyRuns (count ▸ opRuns)⟩, added, grows others, along,
    blank⟩

/-! An object that has passed a mispredicted guard makes way for another operand, and is loaded again. -/

namespace Mispredicted

def first : Op := ⟨.guardToObject, (0, 1, ())⟩

def guard : Op := ⟨.guardShape, (1, ⟨0⟩, ())⟩

def again : Op := ⟨.guardToObject, (0, 2, ())⟩

def load : Op := ⟨.loadFixedSlotResult, (1, ⟨1⟩, ())⟩

def ops : List Op := [first, guard, again, load, ⟨.returnFromIc, ()⟩]

def program : StubProgram := ⟨ops.flatMap Op.encode, 3, 1⟩

def data : StubData := ⟨[0x1000, 32], [.shape, .rawInt32]⟩

def config : CodeConfig := ⟨2, 1, 4, true, .constant, true⟩

def code : CodeBuffer where
  insts := #[.movImm ⟨0⟩ Value.undefined.bits, .storeOutput ⟨0⟩, .loadInput ⟨0⟩ 0,
    .branchTestType .notEqual ⟨0⟩ .object 0, .unboxPayload ⟨0⟩ ⟨1⟩ .object,
    .spill 0 ⟨0⟩, .branchTestShape .notEqual ⟨1⟩ (.imm 0x1000) ⟨0⟩ (some ⟨1⟩) 0,
    .restore ⟨0⟩ 0, .spill 0 ⟨1⟩, .unboxPayload ⟨0⟩ ⟨1⟩ .object,
    .restore ⟨0⟩ 0, .load64 ⟨1⟩ ⟨0⟩ (.imm 32), .storeOutput ⟨1⟩,
    .ret .returned, .bind 0, .jump 1, .bind 1, .ret .bailout]
  labels := 2

/-- The input points to no cell, and the run falls through every test. -/
def run : Speculation := ⟨⟨[0x7FFC000000000007], data.words⟩, .start .empty, fun _ => ⟨0, 0, true⟩⟩

theorem emits : emitStub program data config = .ok (⟨5, 1, 1, 0, false⟩, code) := by
  have emitted : (emitStub program data config).toOption = some (⟨5, 1, 1, 0, false⟩, code) := by
    decide +kernel
  exact eq_ok_of_toOption emitted

theorem decoded : program.terminatedOps = .ok ops :=
  program.terminatedOps_eq
    (Cursor.decodes_encode [first, guard, again, load] ⟨.returnFromIc, ()⟩ (by decide) rfl 0)

/-- What code generation has emitted behind some operations. -/
def behind (front : List Op) : Assembler :=
  (Asm.body ⟨data, config⟩ 1 front (.start (.blank config [some 2, some 3, some 2]))).2

theorem emitsTo (front : List Op)
    (succeeds : (Asm.body ⟨data, config⟩ 1 front
      (.start (.blank config [some 2, some 3, some 2]))).1.isOk = true) :
    program.EmitsTo data config front (behind front) :=
  ⟨ops, .blank config [some 2, some 3, some 2], decoded, rfl, Asm.runs_of_isOk succeeds⟩

end Mispredicted

open Mispredicted in
/-- The object is in a slot when the operation that reads it begins.  It is blank there, and blank in the
register that it is loaded into. -/
theorem mispredicted_guard_blanks_reloaded_object :
    run.Misses code.insts.toList 6 ∧ (behind [first]).buffer.insts.size ≤ 6 ∧
      6 < (behind [first, guard]).buffer.insts.size ∧
      (behind [first, guard, again]).allocation.place 1 = .payloadSlot 0 .object ∧
      ∃ begun after insts, (Asm.beginOp 3).Runs (behind [first, guard, again]) () begun ∧
        program.EmitsTo data config [first, guard, again, load] after ∧
        after.buffer.insts.toList = (behind [first, guard, again]).buffer.insts.toList ++ insts ∧
        after.buffer.insts.toList <+: code.insts.toList ∧
        (begun.allocation.place 1).along insts = after.allocation.place 1 ∧
        run.BlankAlong (behind [first, guard, again]).buffer.insts.toList (begun.allocation.place 1)
          insts := by
  have misses : run.Misses code.insts.toList 6 := ⟨_, _, 0, _, rfl, rfl, rfl, rfl, rfl⟩
  have before : (behind [first]).buffer.insts.size ≤ 6 := by decide +kernel
  have below : 6 < (behind [first, guard]).buffer.insts.size := by decide +kernel
  have listed : program.terminatedOps = .ok ([first] ++ guard :: ([again] ++ load :: [⟨.returnFromIc, ()⟩])) :=
    decoded
  obtain ⟨state, begun, after, insts, reached, begins, passed, rest⟩ :=
    mispredicted_guard_blanks_object program data config run emits rfl listed rfl
      (emitsTo [first] (by decide +kernel)) (emitsTo [first, guard] (by decide +kernel)) before below misses
  rw [reached.unique (emitsTo [first, guard, again] (by decide +kernel))] at begins rest
  exact ⟨misses, before, below, by decide +kernel, begun, after, insts, begins, passed, rest⟩

end InlineCache
