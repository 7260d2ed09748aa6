import InlineCache.Proofs.Code.RegisterMembers
import InlineCache.Proofs.Emit.AsksOps
import InlineCache.Proofs.Emit.ExitCode
import InlineCache.Proofs.Emit.Room
import InlineCache.Proofs.Emit.Stubs

/-!
Code generation does not keep doubles.  A float register is borrowed for the time of a conversion, always
the first one, and is given back before the operation ends; so no more than one is ever saved, and an exit
path has nothing to restore or just that one.
-/

namespace InlineCache

/-- The account of float registers while at most one of them is lent. -/
def FloatAccount.lending (config : CodeConfig) (count : Nat) : Option FloatRegister → FloatAccount
  | none =>
      { available := .first config.floatRegisters.toNat
        scratch := .empty
        saves := config.savesFloats
        saved := []
        saveCount := count }
  | some float =>
      { available := (RegisterSet.first config.floatRegisters.toNat).remove float.index
        scratch := RegisterSet.empty.insert float.index
        saves := config.savesFloats
        saved := if config.savesFloats then [(float, 0)] else []
        saveCount := count }

/-- A float register leaves the pool, and is saved to the first free slot if the caller owns it. -/
def FloatAccount.take (account : FloatAccount) (reg : FloatRegister) : FloatAccount :=
  let slot := Allocation.leastFree (account.saved.map Prod.snd)
  let account := { account with available := account.available.remove reg.index }
  if account.saves then
    { account with
      saved := account.saved ++ [(reg, slot)]
      saveCount := max account.saveCount (slot + 1) }
  else account

/-- A float register goes back to the pool, with the caller's number in it. -/
def FloatAccount.give (account : FloatAccount) (reg : FloatRegister) : FloatAccount :=
  { account with
    available := account.available.insert reg.index
    saved := account.saved.eraseP (·.1 = reg) }

/-- A float register is no longer scratch. -/
def FloatAccount.drop (account : FloatAccount) (reg : FloatRegister) : FloatAccount :=
  { account with scratch := account.scratch.remove reg.index }

theorem FloatAccount.give_lending {config : CodeConfig} {count : Nat} {float : FloatRegister}
    (inPool : (RegisterSet.first config.floatRegisters.toNat).contains float.index = true) :
    ((lending config count (some float)).drop float).give float = lending config count none := by
  simp only [give, drop, lending, RegisterSet.insert_remove inPool, RegisterSet.remove_insert_empty]
  cases config.savesFloats <;> simp

theorem FloatAccount.scratch_take (account : FloatAccount) (reg : FloatRegister) :
    (account.take reg).scratch = account.scratch := by
  unfold take
  dsimp only
  split <;> rfl

theorem FloatAccount.take_lending (config : CodeConfig) (count : Nat) (float : FloatRegister) :
    { (lending config count none).take float with scratch := RegisterSet.empty.insert float.index } =
      lending config (if config.savesFloats then max count 1 else count) (some float) := by
  unfold take lending
  cases config.savesFloats <;> rfl

theorem ExitPaths.pairs_add (paths : ExitPaths) (buffer : CodeBuffer) (status : ExitStatus)
    (saved : SavedFloats) :
    (paths.add buffer status saved).2.1.map ExitPath.pair =
      if (status, saved) ∈ paths.map ExitPath.pair then paths.map ExitPath.pair
      else paths.map ExitPath.pair ++ [(status, saved)] := by
  rw [add]
  cases found : paths.find? fun path => path.status = status && path.saved = saved with
  | some path =>
      have same := List.find?_some found
      rw [Bool.and_eq_true, decide_eq_true_eq, decide_eq_true_eq] at same
      rw [if_pos (List.mem_map.mpr ⟨path, List.mem_of_find?_eq_some found, Prod.ext same.1 same.2⟩)]
  | none =>
      rw [List.find?_eq_none] at found
      rw [if_neg, List.map_append]
      · rfl
      · intro listed
        obtain ⟨path, member, same⟩ := List.mem_map.mp listed
        obtain ⟨rfl, rfl⟩ := Prod.mk.inj same
        exact found path member (by simp)

namespace Assembler

/-- What an exit path returns and restores. -/
def waysOut : List (ExitStatus × SavedFloats) :=
  [(.bailout, []), (.bailout, [(⟨0⟩, 0)]), (.malformed, []), (.exception, [])]

/-- No operand is a double, at most one float register is lent, and exit paths are for few needs. -/
structure Frugal (config : CodeConfig) (lent : Option FloatRegister) (state : Assembler) : Prop where
  single : state.allocation.Single
  floats : ∃ count ≤ 1, state.allocation.floats = .lending config count lent
  first : ∀ float, lent = some float →
    float = ⟨0⟩ ∧ (RegisterSet.first config.floatRegisters.toNat).contains 0 = true
  ways : state.exits.map ExitPath.pair ⊆ waysOut
  pairs : (state.exits.map ExitPath.pair).Nodup

namespace Frugal

variable {config : CodeConfig} {lent later : Option FloatRegister} {state after : Assembler}

theorem start {ops : List Op} {count : Nat} {allocation : Allocation}
    (started : Allocation.start ops count config = .ok allocation) :
    (Assembler.start allocation).Frugal config none := by
  obtain ⟨table, -, rfl⟩ := Allocation.start_ok started
  exact ⟨.start config table, ⟨0, by decide, rfl⟩, nofun, List.nil_subset _, List.nodup_nil⟩

theorem edited (frugal : state.Frugal config lent) (edited : state.Edited false after) :
    after.Frugal config lent := by
  obtain ⟨floats, exits⟩ := edited.sameFloats
  exact ⟨edited.single frugal.single, floats ▸ frugal.floats, frugal.first, exits ▸ frugal.ways,
    exits ▸ frugal.pairs⟩

theorem saved (frugal : state.Frugal config none) : state.allocation.saved = [] := by
  obtain ⟨count, -, same⟩ := frugal.floats
  exact congrArg FloatAccount.saved same

theorem exitPath {status : ExitStatus} (frugal : state.Frugal config lent)
    (listed : (status, state.allocation.saved) ∈ waysOut) :
    (Asm.exitPath status state).2.Frugal config lent := by
  have pairs : (Asm.exitPath status state).2.exits.map ExitPath.pair = _ :=
    ExitPaths.pairs_add state.exits state.buffer status state.allocation.saved
  refine ⟨frugal.single, frugal.floats, frugal.first, ?_, ?_⟩
  · rw [pairs]
    split
    · exact frugal.ways
    · exact List.append_subset.mpr ⟨frugal.ways, fun _ now => List.mem_singleton.mp now ▸ listed⟩
  · rw [pairs]
    split
    · exact frugal.pairs
    · rename_i fresh
      exact List.nodup_append'.mpr
        ⟨frugal.pairs, List.nodup_singleton _, List.disjoint_singleton.mpr fresh⟩

/-- A conversion that fails has the first float register to restore, if registers are saved. -/
theorem listed {float : FloatRegister} (frugal : state.Frugal config (some float)) :
    (.bailout, state.allocation.saved) ∈ waysOut := by
  obtain ⟨count, -, same⟩ := frugal.floats
  obtain ⟨rfl, -⟩ := frugal.first float rfl
  have saved : state.allocation.saved = if config.savesFloats then [(⟨0⟩, 0)] else [] :=
    congrArg FloatAccount.saved same
  rw [saved]
  cases config.savesFloats <;> decide

end Frugal

end Assembler

namespace Asm

open Assembler

theorem ReturnsFloat.floats {float : FloatRegister} (returns : ReturnsFloat state float after) :
    after.exits = state.exits ∧ after.allocation.floats = state.allocation.floats.give float := by
  cases returns with
  | restore => exact ⟨rfl, rfl⟩
  | unsaved unsaved =>
      have none : state.allocation.floats.saved.eraseP (·.1 = float) = state.allocation.floats.saved :=
        List.eraseP_of_forall_not fun ⟨reg, slot⟩ listed same =>
          unsaved slot (of_decide_eq_true same ▸ listed)
      refine ⟨rfl, ?_⟩
      rw [FloatAccount.give, none]
      rfl

/-- With no double to spill, a float register is the least one of the pool. -/
theorem runs_takeFloat {float : FloatRegister} (runs : takeFloat.Runs state float after)
    (single : state.allocation.Single) :
    IsLeast (state.allocation.availableFloats.members : Set ℕ) float.index.toNat ∧
      after.allocation.operands = state.allocation.operands ∧ after.exits = state.exits ∧
      after.allocation.floats = state.allocation.floats.take float := by
  simp only [takeFloat, runs_bind, runs_allocation] at runs
  obtain ⟨_, _, ⟨rfl, rfl⟩, runs⟩ := runs
  split at runs
  · rename_i taken
    obtain ⟨least, rfl⟩ := RegisterSet.takeLowest_isLeast taken
    simp only [runs_bind, runs_modifyAllocation, runs_pure] at runs
    obtain ⟨_, _, rfl, _, _, saves, _, _, ⟨rfl, rfl⟩, _, _, rfl, rfl, rfl⟩ := runs
    refine ⟨least, ?_⟩
    simp only [saveFloat, runs_bind, runs_allocation] at saves
    obtain ⟨_, _, ⟨rfl, rfl⟩, saves⟩ := saves
    split at saves
    · rename_i enabled
      simp only [runs_bind, runs_allocation, runs_emit, runs_modifyAllocation] at saves
      obtain ⟨_, _, ⟨rfl, rfl⟩, _, _, rfl, rfl⟩ := saves
      exact ⟨rfl, rfl, (if_pos enabled).symm⟩
    · rename_i disabled
      obtain ⟨-, rfl⟩ := runs_pure.mp saves
      exact ⟨rfl, rfl, (if_neg disabled).symm⟩
  · simp only [runs_bind] at runs
    obtain ⟨_, _, spilled, -⟩ := runs
    obtain ⟨index, _, held, -⟩ := runs_spillFloatOperand spilled
    exact absurd (Location.form?_of_floatRegister? held) (single.place index)

end Asm

namespace Assembler.Frugal

open Asm

variable {config : CodeConfig} {lent later : Option FloatRegister} {state after : Assembler}
  {float : FloatRegister}

/-- What is lent is the least of all float registers, as none is in use. -/
theorem borrow (frugal : state.Frugal config none) (runs : allocateFloat.Runs state float after) :
    after.Frugal config (some float) := by
  simp only [allocateFloat, runs_bind, runs_modifyAllocation, runs_pure] at runs
  obtain ⟨found, middle, takes, _, _, rfl, same, rfl⟩ := runs
  obtain rfl : found = float := same
  obtain ⟨least, operands, exits, taken⟩ := runs_takeFloat takes frugal.single
  obtain ⟨count, small, before⟩ := frugal.floats
  rw [show state.allocation.availableFloats = .first config.floatRegisters.toNat from
    congrArg FloatAccount.available before] at least
  have zero : found = ⟨0⟩ := by
    rw [RegisterSet.members_first] at least
    have positive : 0 ∈ Finset.range (min config.floatRegisters.toNat 32) :=
      Finset.mem_range.mpr (Nat.lt_of_le_of_lt (Nat.zero_le _) (Finset.mem_range.mp least.1))
    exact congrArg FloatRegister.mk (UInt8.toNat_inj.mp (Nat.le_zero.mp (least.2 positive)))
  have scratch : middle.allocation.scratchFloats = .empty := by
    rw [before] at taken
    exact (congrArg FloatAccount.scratch taken).trans (FloatAccount.scratch_take _ _)
  refine ⟨frugal.single.alike (.of_operands operands), ?_, ?_, exits ▸ frugal.ways,
    exits ▸ frugal.pairs⟩
  · refine ⟨if config.savesFloats then max count 1 else count, by split <;> omega, ?_⟩
    rw [← FloatAccount.take_lending, ← before, ← taken, ← scratch]
    rfl
  · rintro _ ⟨⟩
    subst zero
    exact ⟨rfl, RegisterSet.toNat_mem_members.mp least.1⟩

theorem giveBack (frugal : state.Frugal config (some float))
    (runs : (releaseFloat float).Runs state () after) : after.Frugal config none := by
  obtain ⟨count, small, before⟩ := frugal.floats
  obtain ⟨rfl, inPool⟩ := frugal.first float rfl
  cases runs_releaseFloat runs with
  | other free =>
      have scratch : state.allocation.scratchFloats = RegisterSet.empty.insert 0 :=
        congrArg FloatAccount.scratch before
      rw [scratch, RegisterSet.contains_insert_self _ (by decide)] at free
      cases free
  | scratch _ _ returns =>
      obtain ⟨exits, given⟩ := returns.floats
      have same : after.allocation.floats = (state.allocation.floats.drop ⟨0⟩).give ⟨0⟩ := given
      refine ⟨frugal.single.alike (.of_operands returns.operands), ⟨count, small, ?_⟩, nofun,
        exits ▸ frugal.ways, exits ▸ frugal.pairs⟩
      rw [same, before, FloatAccount.give_lending inPool]

/-- What a stretch asks for comes to no more than the one float register. -/
theorem asks {α : Type} {stretch : Asm α} {answer : α} {defs : List OperandId}
    (asks : Asks lent later defs stretch) (runs : stretch.Runs state answer after)
    (frugal : state.Frugal config lent) : after.Frugal config later := by
  induction asks generalizing state after with
  | pure =>
      obtain ⟨-, rfl⟩ := runs_pure.mp runs
      exact frugal
  | throw => exact absurd runs not_runs_throw
  | bind _ _ first second =>
      obtain ⟨_, _, runs, later⟩ := runs_bind.mp runs
      exact second _ later (first runs frugal)
  | look _ rest =>
      obtain ⟨_, _, looks, runs⟩ := runs_bind.mp runs
      obtain ⟨rfl, rfl⟩ := runs_allocation.mp looks
      exact rest _ frugal.single runs frugal
  | write spare => exact frugal.edited ((Edits.emit spare).runs frugal.single runs)
  | newLabel => exact frugal.edited (Edits.newLabel.runs frugal.single runs)
  | callsHelpers => exact frugal.edited (Edits.callsHelpers.runs frugal.single runs)
  | @leave status early =>
      cases runs
      refine frugal.exitPath ?_
      rw [frugal.saved]
      cases status with
      | returned => exact absurd rfl early
      | bailout | exception | malformed => decide
  | bail =>
      cases runs
      exact frugal.exitPath frugal.listed
  | allocateRegister => exact frugal.edited (Edits.allocateRegister.runs frugal.single runs)
  | releaseRegister => exact frugal.edited (Edits.releaseRegister.runs frugal.single runs)
  | useValueReg => exact frugal.edited (Edits.useValueReg.runs frugal.single runs)
  | useRegister => exact frugal.edited (Edits.useRegister.runs frugal.single runs)
  | prove other => exact frugal.edited ((Edits.setKnownType other).runs frugal.single runs)
  | define _ rest =>
      obtain ⟨_, _, defines, runs⟩ := runs_bind.mp runs
      exact rest _ runs (frugal.edited (Edits.definePayloadReg.runs frugal.single defines))
  | borrow _ rest =>
      obtain ⟨_, _, borrows, runs⟩ := runs_bind.mp runs
      exact rest _ runs (frugal.borrow borrows)
  | giveBack => exact frugal.giveBack runs

end Assembler.Frugal

/-! ### Whole stubs -/

namespace Asm

open Assembler

namespace Edits

variable {floats : Bool} {env : EmitEnv} {count : Nat}

theorem prologue : Edits floats (prologue count) :=
  allocateRegister.bind fun _ => (emit rfl).bind fun _ => (emit rfl).bind fun _ =>
    releaseRegister.bind fun _ => defineInputs

theorem checkAliasing : Edits floats checkAliasing := by
  refine allocation_bind fun found _ => ?_
  split
  · exact pure
  · exact violate

theorem emitOp (op : Op × Nat) : Edits true (emitOp env op) :=
  beginOp.bind fun _ => (op.1.emit_asks env).edits.bind fun _ => checkAliasing

theorem body (ops : List Op) : Edits true (body env count ops) :=
  prologue.bind fun _ => forM fun op _ => emitOp op

end Edits

theorem body_append (env : EmitEnv) (count : Nat) (front back : List Op) :
    body env count (front ++ back) =
      body env count front >>= fun _ => (back.zipIdx front.length).forM (emitOp env) := by
  simp only [body, List.zipIdx_append, List.forM_eq_forM, List.forM_append, bind_assoc, Nat.zero_add]

theorem Edits.body_onward (env : EmitEnv) (count : Nat) (front back : List Op)
    (single : (Asm.body env count front state).2.allocation.Single) :
    (Asm.body env count front state).2.Edited true (Asm.body env count (front ++ back) state).2 := by
  rw [body_append]
  exact onward (fun _ => .forM fun op _ => .emitOp op) single

end Asm

namespace Assembler.Frugal

open Asm

variable {config : CodeConfig} {env : EmitEnv} {state after : Assembler}

theorem emitOp {op : Op × Nat} (frugal : state.Frugal config none)
    (runs : (emitOp env op).Runs state () after) : after.Frugal config none := by
  obtain ⟨begun, begins, emits⟩ := runs_emitOp runs
  exact asks (op.1.emit_asks env) emits (frugal.edited (Edits.beginOp.runs frugal.single begins))

theorem forM {ops : List (Op × Nat)} (frugal : state.Frugal config none)
    (runs : (ops.forM (Asm.emitOp env)).Runs state () after) : after.Frugal config none := by
  induction ops generalizing state with
  | nil => exact runs_forM_nil.mp runs ▸ frugal
  | cons op rest ih =>
      obtain ⟨_, first, runs⟩ := runs_forM_cons.mp runs
      exact ih (frugal.emitOp first) runs

theorem body {count : Nat} {ops : List Op} (frugal : state.Frugal config none)
    (runs : (body env count ops).Runs state () after) : after.Frugal config none := by
  obtain ⟨middle, prologue, rest⟩ := runs_body.mp runs
  exact (frugal.edited (Edits.prologue.runs frugal.single prologue)).forM rest

end Assembler.Frugal

namespace ExitPaths

theorem spare_code {paths : ExitPaths} {exits : Exits} :
    ∀ inst ∈ code paths exits, inst.keepsDouble = false := by
  intro inst member
  rcases List.mem_append.mp member with inPaths | inExits
  · obtain ⟨path, -, member⟩ := List.mem_flatMap.mp inPaths
    rcases List.mem_append.mp member with restores | jumps
    · cases restores with
      | head => rfl
      | tail _ restores =>
          obtain ⟨_, -, rfl⟩ := List.mem_map.mp restores
          rfl
    · rw [List.mem_singleton.mp jumps]
      rfl
  · obtain ⟨exit, -, member⟩ := List.mem_flatMap.mp inExits
    rcases List.mem_pair.mp member with rfl | rfl <;> rfl

theorem spare_emit {state : Assembler} (spare : state.Spare) :
    ∀ inst ∈ (state.exits.emit state.buffer).insts.toList, inst.keepsDouble = false := by
  intro inst member
  obtain ⟨exits, -, -, code⟩ := emit_eq state.exits state.buffer
  rw [code] at member
  exact (List.mem_append.mp member).elim (spare inst) (spare_code inst)

end ExitPaths

namespace Assembler

/-- No operand has the tag of a double or the place of one, and no instruction is there for one. -/
structure KeepsNoDouble (state : Assembler) : Prop where
  untagged : ∀ operand ∈ state.allocation.operands, operand.knownType ≠ some .double
  elsewhere : ∀ operand ∈ state.allocation.operands,
    (∀ float, operand.location ≠ .floatReg float) ∧ ∀ slot, operand.location ≠ .floatSlot slot
  spare : ∀ inst ∈ state.buffer.insts.toList, inst.keepsDouble = false

/-- No float register is in use: all of them are free, none is scratch, and none is saved. -/
structure FloatsIdle (config : CodeConfig) (state : Assembler) : Prop where
  available : state.allocation.availableFloats = .first config.floatRegisters.toNat
  scratch : state.allocation.scratchFloats = .empty
  saved : state.allocation.saved = []

variable {config : CodeConfig} {state after : Assembler}

theorem Spare.keepsNoDouble (spare : state.Spare) (single : state.allocation.Single) :
    state.KeepsNoDouble where
  untagged operand member := by
    obtain ⟨index, found⟩ := List.getElem?_of_mem member
    have other := (single index).2
    rwa [Allocation.known_outline, Allocation.known, found] at other
  elsewhere operand member :=
    ⟨fun float same => single.of_mem member (same ▸ rfl),
      fun slot same => single.of_mem member (same ▸ rfl)⟩
  spare := spare

theorem Frugal.idle (frugal : state.Frugal config none) : state.FloatsIdle config := by
  obtain ⟨count, -, same⟩ := frugal.floats
  exact ⟨congrArg FloatAccount.available same, congrArg FloatAccount.scratch same, frugal.saved⟩

theorem Frugal.length_exits {lent : Option FloatRegister} (frugal : state.Frugal config lent) :
    state.exits.length ≤ 4 := by
  have short := frugal.pairs.length_le_of_subset frugal.ways
  rwa [List.length_map] at short

end Assembler

/-- Code generation makes changes to its state, one at a time, and no operand is a double behind any of
them, whether it succeeds or fails.  Between two operations no float register is in use.  So there is no
instruction for a double, at most one float register is saved, and there are at most four ways out. -/
theorem no_double_is_kept (program : StubProgram) (data : StubData) (config : CodeConfig)
    {ops : List Op} {allocation : Allocation} (read : program.terminatedOps = .ok ops)
    (started : Allocation.start ops program.operandCount.toNat config = .ok allocation) :
    let start := Assembler.start allocation
    let emission (front : List Op) := Asm.body ⟨data, config⟩ program.inputCount.toNat front start
    (∀ state, start.Edited true state → state.KeepsNoDouble) ∧
      (∀ front back, ops = front ++ back →
        start.Edited true (emission front).2 ∧ (emission front).2.Edited true (emission ops).2 ∧
          ∀ state, emission front = (.ok (), state) → state.FloatsIdle config) ∧
      ∀ summary buffer, emitStub program data config = .ok (summary, buffer) →
        (∀ inst ∈ buffer.insts.toList, inst.keepsDouble = false) ∧
          summary.saves ≤ 1 ∧ summary.exitPaths ≤ 4 := by
  intro start emission
  have frugal : start.Frugal config none := .start started
  have spare : start.Spare := nofun
  refine ⟨fun state edited => (edited.spare spare).keepsNoDouble (edited.single frugal.single), ?_, ?_⟩
  · rintro front back rfl
    have edited : start.Edited true (emission front).2 := Asm.Edits.body front start frugal.single
    have onward : (emission front).2.Edited true (emission (front ++ back)).2 :=
      Asm.Edits.body_onward _ _ front back (edited.single frugal.single)
    exact ⟨edited, onward, fun state runs => (frugal.body runs).idle⟩
  · intro summary buffer emits
    obtain ⟨_, _, state, readAgain, -, startedAgain, runs, rfl, rfl⟩ := emitStub_ok emits
    cases read.symm.trans readAgain
    cases started.symm.trans startedAgain
    have behind := frugal.body runs
    obtain ⟨count, small, same⟩ := behind.floats
    refine ⟨ExitPaths.spare_emit ?_, ?_, behind.length_exits⟩
    · exact ((Asm.Edits.body ops).runs frugal.single runs).spare spare
    · exact Nat.le_trans (Nat.le_of_eq (congrArg FloatAccount.saveCount same)) small

/-- With an index and an int32 made of numbers, and with a helper called, a float register is saved and all
four ways out are there. -/
theorem converted_numbers_take_four_ways_out :
    let program : StubProgram :=
      ⟨[1, 0, 4, 6, 1, 5, 12, 2, 6, 14, 3, 0, 7, 24, 4, 5, 6, 0], 8, 4⟩
    let config : CodeConfig := ⟨8, 2, 16, true, .constant, true⟩
    ∃ ops allocation state summary buffer, program.terminatedOps = .ok ops ∧
      Allocation.start ops program.operandCount.toNat config = .ok allocation ∧
      emitStub program .empty config = .ok (summary, buffer) ∧
      summary.saves = 1 ∧ summary.exitPaths = 4 ∧
      (Assembler.start allocation).Edited true state ∧ state.KeepsNoDouble ∧ state.FloatsIdle config ∧
      ∀ inst ∈ buffer.insts.toList, inst.keepsDouble = false := by
  intro program config
  have emitted : (emitStub program .empty config).toOption.any
      (fun stub => stub.1.saves == 1 && stub.1.exitPaths == 4) = true := by
    decide +kernel
  obtain ⟨⟨summary, buffer⟩, found, holds⟩ := (Option.any_eq_true _ _).mp emitted
  rw [Bool.and_eq_true, beq_iff_eq, beq_iff_eq] at holds
  have emits := eq_ok_of_toOption found
  obtain ⟨ops, allocation, state, read, -, started, runs, -, -⟩ := emitStub_ok emits
  obtain ⟨points, between, stubs⟩ := no_double_is_kept program .empty config read started
  obtain ⟨edited, -, idle⟩ := between ops [] (List.append_nil ops).symm
  dsimp only at edited
  rw [show Asm.body ⟨.empty, config⟩ program.inputCount.toNat ops (.start allocation) = _ from runs]
    at edited
  exact ⟨ops, allocation, state, summary, buffer, read, started, emits, holds.1, holds.2, edited,
    points state edited, idle state runs, (stubs summary buffer emits).1⟩

end InlineCache
