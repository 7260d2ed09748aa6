import InlineCache.Proofs.Emit.Idle

/-!
The code of guards on objects.  Such a guard brings the object into a register, takes what it needs beside,
and ends in its only test.  With mitigations on the test names that register as the one to set to zero, unless
no later operation uses the object.
-/

namespace InlineCache

/-- The object that a guard tests by its shape. -/
def Op.testedObject? : Op → Option OperandId
  | ⟨.guardShape, object, _⟩ | ⟨.guardClass, object, _⟩ | ⟨.guardAnyClass, object, _⟩ => some object
  | _ => none

theorem Allocation.stale_of_usedLater {allocation : Allocation} {index : Nat} {id : OperandId}
    (current : allocation.currentOp = some index) (unused : allocation.usedLater id = false) :
    (allocation.lastUse id.toNat).all (· < index + 1) = true := by
  rw [usedLater, current] at unused
  rw [lastUse]
  cases last : allocation.operands[id.toNat]?.bind (·.lastUse) with
  | none => rfl
  | some last =>
      rw [operand?, last] at unused
      exact decide_eq_true (Nat.lt_succ_of_le (Nat.le_of_not_lt (of_decide_eq_false unused)))

namespace Assembler

/-- The code of an operation is under way behind some code, and has tested nothing so far. -/
structure Poised (index : Nat) (code : List Inst) (state : Assembler) : Prop where
  current : state.allocation.currentOp = some index
  untested : ∃ insts, state.buffer.insts.toList = code ++ insts ∧ ∀ inst ∈ insts, inst.isTest = false

/-- An operation has the payload of an operand in a register. -/
structure Holds (operand : Nat) (reg : Register) (state : Assembler) : Prop where
  place : ∃ type, state.allocation.place operand = .payloadReg reg type
  pinned : state.allocation.pinned.contains reg.index = true

/-- The code of a guard ends in its only test. -/
structure Tested (index : Nat) (code : List Inst) (operand : Nat) (state : Assembler) : Prop where
  only : ∃ insts test reg type, state.buffer.insts.toList = code ++ insts ++ [test] ∧
    (∀ inst ∈ insts, inst.isTest = false) ∧ state.allocation.place operand = .payloadReg reg type ∧
    ((state.allocation.lastUse operand).all (· < index + 1) = true ∨ test.zeroed? = some reg)

/-- What is under way and what is held is so behind a stretch, and the accounts are in balance. -/
structure Readies (before after : Assembler) : Prop where
  balanced : ∀ {config}, before.allocation.Balanced config [] → after.allocation.Balanced config []
  poised : ∀ {index code}, before.Poised index code → after.Poised index code
  holds : ∀ {operand reg}, before.Holds operand reg → after.Holds operand reg

variable {index operand : Nat} {code : List Inst} {reg : Register} {state before middle after : Assembler}
  {inst : Inst}

theorem Poised.of_same (poised : before.Poised index code)
    (current : after.allocation.currentOp = before.allocation.currentOp)
    (buffer : after.buffer.insts = before.buffer.insts) : after.Poised index code :=
  ⟨current.trans poised.current, buffer ▸ poised.untested⟩

theorem Poised.emitted (poised : state.Poised index code) (plain : inst.isTest = false) :
    (state.emitted inst).Poised index code := by
  obtain ⟨current, insts, same, untested⟩ := poised
  refine ⟨current, insts ++ [inst], ?_, fun other member => ?_⟩
  · show (state.buffer.insts.push inst).toList = _
    rw [Array.toList_push, same, List.append_assoc]
  · rcases List.mem_append.mp member with earlier | last
    · exact untested other earlier
    · cases List.mem_singleton.mp last
      exact plain

theorem Readies.refl (state : Assembler) : state.Readies state :=
  ⟨id, id, id⟩

theorem Readies.trans (first : before.Readies middle) (second : middle.Readies after) :
    before.Readies after :=
  ⟨fun balanced => second.balanced (first.balanced balanced),
    fun poised => second.poised (first.poised poised), fun holds => second.holds (first.holds holds)⟩

end Assembler

namespace Asm

open Assembler

variable {index : Nat} {code : List Inst} {reg : Register} {id : OperandId} {env : EmitEnv}
  {field : Field} {state after : Assembler}

theorem TakesRegister.poised (takes : TakesRegister state reg after)
    (poised : state.Poised index code) : after.Poised index code := by
  cases takes with
  | pool => exact poised.of_same rfl rfl
  | spill => exact (poised.emitted rfl).of_same rfl rfl

/-- A register that is held is not spilled. -/
theorem TakesRegister.holds {operand : Nat} {other : Register} (takes : TakesRegister state reg after)
    (holds : state.Holds operand other) : after.Holds operand other := by
  refine ⟨?_, takes.pinned_mono holds.pinned⟩
  cases takes with
  | pool => exact holds.place
  | spill victim slot _ held unpinned =>
      obtain ⟨type, place⟩ := holds.place
      have elsewhere : victim ≠ operand := by
        rintro rfl
        rw [place] at held
        cases held
        cases unpinned.symm.trans holds.pinned
      exact ⟨type, (Allocation.place_setLocation_ne elsewhere).trans place⟩

theorem FetchesPayload.poised {type : PayloadType} (fetches : FetchesPayload state id reg type after)
    (poised : state.Poised index code) : after.Poised index code := by
  cases fetches with
  | payloadReg => exact poised
  | valueReg => exact poised.emitted rfl
  | payloadSlot slot middle _ takes => exact ((takes.poised poised).emitted rfl).of_same rfl rfl
  | valueSlot slot middle _ _ takes =>
      exact (((takes.poised poised).emitted rfl).emitted rfl).of_same rfl rfl

theorem useRegister_holds {config : CodeConfig} (uses : (useRegister id).Runs state reg after)
    (balanced : state.allocation.Balanced config []) (poised : state.Poised index code) :
    after.allocation.Balanced config [] ∧ after.Poised index code ∧ after.Holds id.toNat reg := by
  obtain ⟨level, placed⟩ := useRegister_balanced uses balanced
  obtain ⟨-, type, fetched, fetches, rfl⟩ := runs_useRegister uses
  refine ⟨level, (fetches.poised poised).of_same rfl rfl, placed, ?_⟩
  obtain ⟨_, place⟩ := placed
  have held := (congrArg Location.register? place).trans rfl
  exact RegisterSet.contains_insert_self _ (level.bound_of_place held)

theorem allocateRegister_readies (runs : allocateRegister.Runs state reg after) :
    state.Readies after := by
  obtain ⟨middle, takes, rfl⟩ := runs_allocateRegister runs
  exact ⟨fun balanced => (takes.balanced balanced).hold,
    fun poised => (takes.poised poised).of_same rfl rfl,
    fun holds => ⟨(takes.holds holds).place, (takes.holds holds).pinned⟩⟩

theorem exitPath_readies {status : ExitStatus} {label : Label}
    (runs : (exitPath status).Runs state label after) : state.Readies after := by
  obtain ⟨same, -, -, added⟩ := runs_exitPath runs
  refine ⟨fun balanced => same ▸ balanced, fun poised => poised.of_same (same ▸ rfl) ?_,
    fun holds => ⟨same ▸ holds.place, same ▸ holds.pinned⟩⟩
  rcases added with rfl | ⟨-, asked, -⟩
  · rfl
  · rw [asked]
    rfl

theorem fieldSource_readies {type : FieldType} {source : Source}
    (runs : (fieldSource env field type).Runs state source after) : state.Readies after := by
  obtain ⟨word, middle, looks, runs⟩ := runs_bind.mp runs
  cases Looks.typedWord _ _ _ looks
  unfold wordSource at runs
  split at runs
  · obtain ⟨-, rfl⟩ := runs_pure.mp runs
    exact .refl _
  · obtain ⟨reg, taken, allocates, runs⟩ := runs_bind.mp runs
    obtain ⟨_, _, emits, runs⟩ := runs_bind.mp runs
    cases runs_emit.mp emits
    obtain ⟨-, rfl⟩ := runs_pure.mp runs
    refine (allocateRegister_readies allocates).trans ⟨id, fun poised => poised.emitted rfl, ?_⟩
    exact fun holds => ⟨holds.place, holds.pinned⟩

theorem releaseRegister_still {answer : Unit} (runs : (releaseRegister reg).Runs state answer after) :
    after.buffer = state.buffer ∧ after.allocation.operands = state.allocation.operands := by
  cases runs_releaseRegister.mp runs
  refine ⟨rfl, ?_⟩
  rw [Assembler.allocation_withAllocation]
  split <;> rfl

theorem releaseSource_still {source : Source} {answer : Unit}
    (runs : (releaseSource source).Runs state answer after) :
    after.buffer = state.buffer ∧ after.allocation.operands = state.allocation.operands := by
  cases source with
  | reg reg => exact releaseRegister_still runs
  | imm word =>
      obtain ⟨-, rfl⟩ := runs_pure.mp runs
      exact ⟨rfl, rfl⟩

/-- The end of a guard on an object: the test, which names the register of the object if it must. -/
theorem tests_object (make : Option Register → Inst) {scratch : Register} {source : Source}
    (names : ∀ zeroed, (make zeroed).zeroed? = zeroed) (mitigates : env.config.spectre = true)
    (poised : state.Poised index code) (holds : state.Holds id.toNat reg)
    (runs : Asm.Runs (do
      emit (make (← zeroedRegister env id reg))
      releaseRegister scratch
      releaseSource source) state () after) : after.Tested index code id.toNat := by
  obtain ⟨current, insts, same, untested⟩ := poised
  obtain ⟨⟨type, place⟩, -⟩ := holds
  obtain ⟨zeroed, _, looks, runs⟩ := runs_bind.mp runs
  obtain ⟨_, _, finds, decides⟩ := runs_bind.mp looks
  obtain ⟨rfl, rfl⟩ := runs_allocation.mp finds
  obtain ⟨named, rfl⟩ := runs_pure.mp decides
  obtain ⟨_, _, emits, runs⟩ := runs_bind.mp runs
  cases runs_emit.mp emits
  obtain ⟨_, released, releases, runs⟩ := runs_bind.mp runs
  obtain ⟨buffer, operands⟩ := releaseRegister_still releases
  obtain ⟨sameBuffer, sameOperands⟩ := releaseSource_still runs
  have listed : after.buffer.insts.toList = code ++ insts ++ [make zeroed] := by
    rw [sameBuffer, buffer, ← same]
    exact Array.toList_push
  have kept : after.allocation.operands = state.allocation.operands := sameOperands.trans operands
  refine ⟨insts, make zeroed, reg, type, listed, untested, ?_, ?_⟩
  · rw [Allocation.place, kept]
    exact place
  · rw [names, Allocation.lastUse, kept, ← named, mitigates, Bool.true_and]
    cases used : state.allocation.usedLater id with
    | true => exact .inr (if_pos rfl)
    | false => exact .inl (Allocation.stale_of_usedLater current used)

variable {object : OperandId} {config : CodeConfig}

theorem guardShape_tests {shape : Field} (mitigates : env.config.spectre = true)
    (balanced : state.allocation.Balanced config []) (poised : state.Poised index code)
    (runs : (guardShape env object shape).Runs state () after) :
    after.Tested index code object.toNat := by
  obtain ⟨reg, used, uses, runs⟩ := runs_bind.mp runs
  obtain ⟨expected, found, fields, runs⟩ := runs_bind.mp runs
  obtain ⟨scratch, taken, allocates, runs⟩ := runs_bind.mp runs
  obtain ⟨fail, asked, asks, runs⟩ := runs_bind.mp runs
  obtain ⟨-, poised, holds⟩ := useRegister_holds uses balanced poised
  have readies := (fieldSource_readies fields).trans
    ((allocateRegister_readies allocates).trans (exitPath_readies asks))
  exact tests_object (.branchTestShape .notEqual reg expected scratch · fail)
    (fun _ => rfl) mitigates (readies.poised poised) (readies.holds holds) runs

theorem guardClass_tests {classWord : Source} (mitigates : env.config.spectre = true)
    (balanced : state.allocation.Balanced config []) (poised : state.Poised index code)
    (runs : (guardClass env object classWord).Runs state () after) :
    after.Tested index code object.toNat := by
  obtain ⟨reg, used, uses, runs⟩ := runs_bind.mp runs
  obtain ⟨scratch, taken, allocates, runs⟩ := runs_bind.mp runs
  obtain ⟨fail, asked, asks, runs⟩ := runs_bind.mp runs
  obtain ⟨-, poised, holds⟩ := useRegister_holds uses balanced poised
  have readies := (allocateRegister_readies allocates).trans (exitPath_readies asks)
  exact tests_object (.branchTestClass .notEqual reg classWord scratch · fail)
    (fun _ => rfl) mitigates (readies.poised poised) (readies.holds holds) runs

end Asm

theorem Op.emit_tests {env : EmitEnv} {op : Op} {object : OperandId} {index : Nat} {code : List Inst}
    {config : CodeConfig} {state after : Assembler} (guards : op.testedObject? = some object)
    (mitigates : env.config.spectre = true) (balanced : state.allocation.Balanced config [])
    (poised : state.Poised index code) (runs : (op.emit env).Runs state () after) :
    after.Tested index code object.toNat := by
  obtain ⟨opcode, args⟩ := op
  cases opcode with
  | guardShape =>
      cases guards
      exact Asm.guardShape_tests mitigates balanced poised runs
  | guardClass =>
      cases guards
      exact Asm.guardClass_tests mitigates balanced poised runs
  | guardAnyClass =>
      cases guards
      obtain ⟨word, found, fields, runs⟩ := Asm.runs_bind.mp runs
      have readies := Asm.fieldSource_readies fields
      exact Asm.guardClass_tests mitigates (readies.balanced balanced) (readies.poised poised) runs
  | _ => cases guards

end InlineCache
