import InlineCache.Proofs.Emit.RoomOps
import InlineCache.Proofs.Emit.Stubs

/-!
Whole stubs do not run out of registers.  The main statement: with four registers, a float register and
a slot for each operand, no program at all exhausts the allocator.
-/

namespace InlineCache

namespace Allocation

/-- While inputs are defined: nothing is scratch. -/
structure Vacant (config : CodeConfig) (allocation : Allocation) : Prop where
  balanced : allocation.Balanced config []
  slots : allocation.operands.length ≤ config.spillSlots.toNat
  scratch : allocation.scratch = .empty
  clear : allocation.pinnedFloats = .empty
  idle : allocation.scratchFloats = .empty

variable {config : CodeConfig} {allocation : Allocation}

theorem Vacant.settled (vacant : allocation.Vacant config) : allocation.Settled config :=
  ⟨vacant.balanced, vacant.slots, vacant.idle⟩

/-- With nothing pinned there is room for all that an operation takes. -/
theorem Vacant.roomy (vacant : allocation.Vacant config) (unpinned : allocation.pinned = .empty) :
    allocation.Roomy config 0 where
  balanced := vacant.balanced
  slots := vacant.slots
  grip := {
    scratch := fun r held => by
      rw [grip, vacant.scratch, RegisterSet.contains_empty] at held
      cases held
    few := ⟨[], Nat.le_refl 0, fun r held => by
      rw [grip, unpinned, RegisterSet.contains_empty] at held
      cases held⟩
    clear := vacant.clear
    idle := vacant.idle }

theorem Vacant.start {ops : List Op} {count : Nat}
    (started : Allocation.start ops count config = .ok allocation)
    (slots : count ≤ config.spillSlots.toNat) :
    allocation.Vacant config ∧ allocation.pinned = .empty := by
  have balanced := Balanced.start started
  obtain ⟨table, uses, rfl⟩ := start_ok started
  refine ⟨⟨balanced, ?_, rfl, rfl, rfl⟩, rfl⟩
  rwa [blank, List.length_map, length_lastUses uses]

end Allocation

namespace Asm

variable {config : CodeConfig} {state : Assembler}

theorem Frees.grip {location : Location} {after : Assembler}
    (freed : Frees state location after) (clear : state.allocation.pinnedFloats = .empty) :
    after.allocation.grip = state.allocation.grip := by
  cases freed with
  | nowhere | register | slot => rfl
  | float reg _ returns => exact returns.grip.trans (Grip.returnFloat_clear clear reg)

/-- An operation begins with nothing held. -/
theorem beginOp_roomy (index : Nat) (settled : state.allocation.Settled config) :
    Ensures Spared (beginOp index) state fun _ after => after.allocation.Roomy config 0 := by
  refine ⟨fun _ after runs => ?_, fun error fails => absurd fails not_fails_beginOp⟩
  have balanced := beginOp_balanced runs settled.balanced
  have kept := beginOp_induct
    (P := fun middle => middle.allocation.operands.length = state.allocation.operands.length ∧
      middle.allocation.grip = ⟨.empty, .empty, .empty, .empty⟩)
    (by
      rintro before middle id ⟨length, grip⟩ - - freed
      refine ⟨(Allocation.length_setLocation ..).trans ?_,
        (freed.grip (congrArg Grip.pinnedFloats grip)).trans grip⟩
      rw [freed.operands, length])
    runs
    ⟨rfl, by
      show Grip.mk _ _ _ state.allocation.scratchFloats = _
      rw [settled.idle]
      rfl⟩
  obtain ⟨length, grip⟩ := kept
  have vacant : after.allocation.Vacant config :=
    ⟨balanced, length ▸ settled.slots, congrArg Grip.scratch grip,
      congrArg Grip.pinnedFloats grip, congrArg Grip.scratchFloats grip⟩
  exact vacant.roomy (congrArg Grip.pinned grip)

theorem checkAliasing_settled (settled : state.allocation.Settled config) :
    Ensures Spared checkAliasing state fun _ after => after.allocation.Settled config := by
  refine .allocation_bind ?_
  split
  · exact .pure settled
  · exact .violate fun _ => nofun

theorem DefinesInput.vacant {index : Nat} {after : Assembler}
    (defines : DefinesInput state index after) (small : index < 256)
    (bound : index < state.allocation.operands.length)
    (undefined : state.allocation.defined index = false)
    (vacant : state.allocation.Vacant config) : after.allocation.Vacant config := by
  have balanced := defines.balanced small bound undefined vacant.balanced
  have length : (state.allocation.markDefined (UInt8.ofNat index)).unpin.operands.length =
      state.allocation.operands.length := Allocation.length_modifyOperand ..
  cases defines with
  | unused => exact ⟨balanced, length ▸ vacant.slots, vacant.scratch, vacant.clear, vacant.idle⟩
  | loaded reg middle takes =>
      refine ⟨balanced, ?_, ?_, ?_, ?_⟩
      · exact (Allocation.length_setLocation ..).trans (takes.length.trans length) ▸ vacant.slots
      · exact (congrArg Grip.scratch takes.grip).trans vacant.scratch
      · exact (congrArg Grip.pinnedFloats takes.grip).trans vacant.clear
      · exact (congrArg Grip.scratchFloats takes.grip).trans vacant.idle

/-- A scratch register that is given back at once leaves nothing behind. -/
theorem TakesRegister.vacant {reg : Register} {after : Assembler}
    (takes : TakesRegister state reg after) (vacant : state.allocation.Vacant config) :
    (after.allocation.hold reg).scratch.contains reg.index = true ∧
      ((after.allocation.hold reg).release reg).Vacant config := by
  have taken := takes.balanced vacant.balanced
  have scratch : (after.allocation.hold reg).scratch = RegisterSet.empty.insert reg.index := by
    rw [← vacant.scratch]
    exact congrArg (·.scratch.insert reg.index) takes.grip
  have held : (after.allocation.hold reg).scratch.contains reg.index = true := by
    rw [scratch]
    exact RegisterSet.contains_insert_self _ (taken.bound_of_flight (.head _))
  refine ⟨held, taken.hold.release held, takes.length ▸ vacant.slots, ?_, ?_, ?_⟩
  · rw [Allocation.release, scratch, RegisterSet.remove_insert_empty]
  · exact (congrArg Grip.pinnedFloats takes.grip).trans vacant.clear
  · exact (congrArg Grip.scratchFloats takes.grip).trans vacant.idle

section

variable (registers : 4 ≤ config.generalRegisters.toNat)
include registers

/-- An input is loaded into a register that another input may have to leave. -/
theorem defineInput_vacant {index : Nat} (small : index < 256)
    (vacant : state.allocation.Vacant config) :
    Ensures Spared (defineInput index) state fun _ after => after.allocation.Vacant config := by
  refine ⟨fun _ after runs => ?_, fun error fails => ?_⟩
  · obtain ⟨bound, undefined, defines⟩ := runs_defineInput runs
    rw [Nat.mod_eq_of_lt small] at bound undefined
    exact defines.vacant small bound undefined vacant
  · cases fails_defineInput fails with
    | register op exhausted =>
        have unpinned : (state.allocation.markDefined (UInt8.ofNat index)).unpin.Vacant config :=
          ⟨vacant.balanced.markDefined.unpin,
            (Allocation.length_modifyOperand ..).symm ▸ vacant.slots, vacant.scratch,
            vacant.clear, vacant.idle⟩
        exact absurd exhausted ((unpinned.roomy rfl).not_registersExhausted registers (by omega))
    | outside | twice => exact fun _ => nofun

theorem prologue_vacant {count : Nat} (small : count ≤ 256)
    (vacant : state.allocation.Vacant config) (unpinned : state.allocation.pinned = .empty) :
    Ensures Spared (prologue count) state fun _ after => after.allocation.Vacant config := by
  have allocates : Ensures Spared allocateRegister state fun reg after =>
      after.allocation.scratch.contains reg.index = true ∧
        (after.allocation.release reg).Vacant config := by
    refine ⟨fun reg after runs => ?_, fun _ fails => ?_⟩
    · obtain ⟨middle, takes, rfl⟩ := runs_allocateRegister runs
      exact takes.vacant vacant
    · exact (Fits.allocateRegister registers 0 state (by omega) (vacant.roomy unpinned)).fails _ fails
  refine allocates.bind fun reg taken ⟨held, vacant⟩ => .modify_bind (.modify_bind (.modify_bind ?_))
  refine Ensures.forM (fun indices after =>
    (∀ index ∈ indices, index < 256) ∧ after.allocation.Vacant config) ?_ ?_ |>.mono
      fun _ _ done => done.2
  · rintro index rest state ⟨below, vacant⟩
    exact (defineInput_vacant registers (below index (.head _)) vacant).mono fun _ _ later =>
      ⟨fun other member => below other (.tail _ member), later⟩
  · refine ⟨fun index member => Nat.lt_of_lt_of_le (List.mem_range.mp member) small, ?_⟩
    show Allocation.Vacant config (if _ then _ else _)
    exact (if_pos held).symm ▸ vacant

variable (floats : 1 ≤ config.floatRegisters.toNat)
include floats

theorem emitOp_settled {env : EmitEnv} (op : Op × Nat) (settled : state.allocation.Settled config) :
    Ensures Spared (emitOp env op) state fun _ after => after.allocation.Settled config :=
  (beginOp_roomy op.2 settled).bind fun _ begun roomy =>
    (op.1.emit_finishes registers floats env 0 begun (by omega) roomy).bind
      fun _ _ settled => checkAliasing_settled settled

theorem body_settled {env : EmitEnv} {count : Nat} (small : count ≤ 256) (ops : List Op)
    (vacant : state.allocation.Vacant config) (unpinned : state.allocation.pinned = .empty) :
    Ensures Spared (body env count ops) state fun _ after => after.allocation.Settled config :=
  (prologue_vacant registers small vacant unpinned).bind fun _ _ vacant =>
    Ensures.forM (fun _ after => after.allocation.Settled config)
      (fun op _ _ settled => emitOp_settled registers floats op settled) vacant.settled

end

end Asm

/-- With four general registers, a float register, and a slot for each operand, the allocator has
always a register to give. -/
theorem four_registers_suffice (program : StubProgram) (data : StubData) (config : CodeConfig)
    (registers : 4 ≤ config.generalRegisters.toNat) (floats : 1 ≤ config.floatRegisters.toNat)
    (slots : program.operandCount.toNat ≤ config.spillSlots.toNat) :
    ¬∃ op, emitStub program data config = .error (.exhausted op) := by
  rintro ⟨op, exhausted⟩
  rcases emitStub_error exhausted with ⟨_, _, other⟩ | ⟨_, other⟩ | ⟨_, other⟩ |
    ⟨ops, allocation, -, -, started, fails⟩
  · cases other
  · cases other
  · cases other
  · obtain ⟨vacant, unpinned⟩ := Allocation.Vacant.start started slots
    have small : program.inputCount.toNat ≤ 256 := Nat.le_of_lt program.inputCount.toNat_lt
    exact (Asm.body_settled registers floats small ops vacant unpinned).fails _ fails op rfl

/-- The call of a helper holds all four registers, so the input that is used behind it is spilled. -/
theorem four_registers_suffice_for_call :
    let program : StubProgram := ⟨[1, 0, 3, 6, 1, 4, 10, 2, 5, 24, 3, 4, 5, 2, 0, 0], 6, 3⟩
    let config : CodeConfig := ⟨4, 1, 6, true, .address, true⟩
    4 ≤ config.generalRegisters.toNat ∧ 1 ≤ config.floatRegisters.toNat ∧
      program.operandCount.toNat ≤ config.spillSlots.toNat ∧
      (emitStub program .empty config).toOption.map (·.1.slots) = some 1 ∧
      ¬∃ op, emitStub program .empty config = .error (.exhausted op) := by
  intro program config
  exact ⟨by decide, by decide, by decide, by decide +kernel,
    four_registers_suffice program .empty config (by decide) (by decide) (by decide)⟩

/-- Three registers are too few for it. -/
example :
    (match emitStub ⟨[1, 0, 3, 6, 1, 4, 10, 2, 5, 24, 3, 4, 5, 2, 0, 0], 6, 3⟩ .empty
        ⟨3, 1, 6, true, .address, true⟩ with
      | .error (.exhausted (some 3)) => true
      | _ => false) = true := by
  decide +kernel

end InlineCache
