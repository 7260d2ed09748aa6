import InlineCache.Emit.Call
import InlineCache.Proofs.Emit.Balance
import InlineCache.Proofs.Emit.Uses

/-!
The calls of the allocator keep the accounts in balance, in any order.
-/

namespace InlineCache

namespace Location

variable {location : Location}

theorem resource?_eq_register {reg : Register} :
    location.resource? = some (.register reg) ↔ location.register? = some reg := by
  cases location <;> simp [resource?, register?]

theorem resource?_eq_float {reg : FloatRegister} :
    location.resource? = some (.float reg) ↔ location.floatRegister? = some reg := by
  cases location <;> simp [resource?, floatRegister?]

theorem resource?_eq_slot {slot : Nat} :
    location.resource? = some (.slot slot) ↔ location.slot? = some slot := by
  cases location <;> simp [resource?, slot?]

theorem slot?_of_register? {reg : Register} (held : location.register? = some reg) :
    location.slot? = none := by
  cases location <;> cases held <;> rfl

theorem slot?_of_floatRegister? {reg : FloatRegister}
    (held : location.floatRegister? = some reg) : location.slot? = none := by
  cases location <;> cases held <;> rfl

theorem register?_of_slot? {slot : Nat} (held : location.slot? = some slot) :
    location.register? = none := by
  cases location <;> cases held <;> rfl

theorem floatRegister?_of_slot? {slot : Nat} (held : location.slot? = some slot) :
    location.floatRegister? = none := by
  cases location <;> cases held <;> rfl

theorem resource?_spilled (location : Location) (slot : Nat) :
    (location.spilled slot).resource? = some (.slot slot) := by
  cases location <;> rfl

theorem ne_nowhere_of_resource? {resource : Resource}
    (held : location.resource? = some resource) : location ≠ .nowhere := by
  rintro rfl
  cases held

theorem resource?_of_ne_nowhere (somewhere : location ≠ .nowhere) :
    ∃ resource, location.resource? = some resource := by
  cases location with
  | nowhere => exact absurd rfl somewhere
  | _ => exact ⟨_, rfl⟩

end Location

namespace Allocation

theorem setLocation_setLocation (allocation : Allocation) (index : Nat) (first second : Location) :
    (allocation.setLocation index first).setLocation index second =
      allocation.setLocation index second := by
  simp only [setLocation, modifyOperand, List.modify_modify_eq]
  rfl

theorem setLocation_comm (allocation : Allocation) {i j : Nat} (different : i ≠ j)
    (first second : Location) :
    (allocation.setLocation i first).setLocation j second =
      (allocation.setLocation j second).setLocation i first := by
  simp only [setLocation, modifyOperand, List.modify_modify_ne _ _ _ different]

end Allocation

namespace Allocation.Balanced

variable {config : CodeConfig} {flight : List Resource} {allocation : Allocation}

/-- An operand that has a place moves to what is in flight, which takes its place. -/
theorem move (index : Nat) (location : Location) (source : Resource) {target : Resource}
    (balanced : allocation.Balanced config (target :: flight))
    (held : (allocation.place index).resource? = some source)
    (aim : location.resource? = some target) :
    (allocation.setLocation index location).Balanced config (source :: flight) := by
  have somewhere := Location.ne_nowhere_of_resource? held
  have moved := Balanced.exchange index location (by rw [aim]; exact balanced)
    (balanced.placed index somewhere)
  rw [held] at moved
  exact moved

theorem bound_of_place (balanced : allocation.Balanced config flight) {index : Nat} {reg : Register}
    (held : (allocation.place index).register? = some reg) : reg.index.toNat < 32 := by
  have occupied : 1 ≤ allocation.occupants (.register reg) :=
    countPlaces_pos rfl (decide_eq_true (Location.resource?_eq_register.mpr held))
  have sum := balanced.ledger (.register reg)
  have full : config.quota (.register reg) = 1 := by
    have once := quota_le_one config (.register reg)
    omega
  simp only [CodeConfig.quota, Bool.toNat_eq_one, decide_eq_true_eq] at full
  omega

/-- An operand that is not defined has no place. -/
theorem place_of_undefined (balanced : allocation.Balanced config flight) {index : Nat}
    (undefined : allocation.defined index = false) : allocation.place index = .nowhere := by
  cases place : allocation.place index with
  | nowhere => rfl
  | _ =>
      have defined := balanced.placed index (by simp [place])
      rw [undefined] at defined
      cases defined

theorem learn (balanced : allocation.Balanced config flight) (id : OperandId)
    (type : PayloadType) : (allocation.learn id type).Balanced config flight := by
  unfold Allocation.learn
  cases type.valueType? with
  | none => exact balanced
  | some tag => exact balanced.setKnownType id _

end Allocation.Balanced

namespace Asm

variable {config : CodeConfig} {flight : List Resource}

theorem TakesRegister.balanced (takes : TakesRegister state reg after)
    (balanced : state.allocation.Balanced config flight) :
    after.allocation.Balanced config (.register reg :: flight) := by
  cases takes with
  | pool available =>
      have grabbed := balanced.grab available
      exact grabbed.pin (grabbed.not_available_of_flight (.head _))
  | spill index slot _ held _ unused bound =>
      have moved := (balanced.occupy unused bound).move index
        ((state.allocation.place index).spilled slot) (.register reg)
        (Location.resource?_eq_register.mpr held)
        (Location.resource?_spilled (state.allocation.place index) slot)
      exact moved.pin (moved.not_available_of_flight (.head _))

theorem TakesFloat.balanced (takes : TakesFloat state reg after)
    (balanced : state.allocation.Balanced config flight) :
    after.allocation.Balanced config (.float reg :: flight) := by
  cases takes with
  | pool available unsaved => exact (balanced.grabFloat available unsaved).pinFloat
  | save slot available saves unused =>
      exact (balanced.grabSaved available saves unused).pinFloat
  | spill index slot _ held unused bound =>
      have moved := (balanced.occupy unused bound).move index (.floatSlot slot) (.float reg)
        (Location.resource?_eq_float.mpr held) rfl
      exact moved.pinFloat

theorem ReturnsFloat.balanced (returns : ReturnsFloat state reg after)
    (balanced : state.allocation.Balanced config (.float reg :: flight)) :
    after.allocation.Balanced config flight := by
  cases returns with
  | restore slot saved => exact balanced.restoreFloat saved
  | unsaved unsaved => exact balanced.giveFloat unsaved

/-- An operand may leave a float register before the register is given back or after. -/
theorem ReturnsFloat.balanced_setLocation (returns : ReturnsFloat state reg after)
    (balanced : (state.allocation.setLocation index location).Balanced config
      (.float reg :: flight)) :
    (after.allocation.setLocation index location).Balanced config flight := by
  cases returns with
  | restore slot saved => exact balanced.restoreFloat saved
  | unsaved unsaved => exact balanced.giveFloat unsaved

/-- Taking a register does not look at an operand that is in none. -/
theorem TakesRegister.cleared (takes : TakesRegister state reg after) (index : Nat)
    (elsewhere : (state.allocation.place index).register? = none) :
    TakesRegister (state.withAllocation (state.allocation.setLocation index .nowhere)) reg
      (after.withAllocation (after.allocation.setLocation index .nowhere)) := by
  cases takes with
  | pool available => exact .pool available
  | spill victim slot exhausted held unpinned unused bound =>
      have different : index ≠ victim := by
        rintro rfl
        rw [elsewhere] at held
        cases held
      have same : (state.allocation.setLocation index .nowhere).place victim =
          state.allocation.place victim := Allocation.place_setLocation_ne different
      have spilled : TakesRegister
          (state.withAllocation (state.allocation.setLocation index .nowhere)) reg _ :=
        .spill victim slot exhausted (same ▸ held) unpinned unused bound
      have order : ((state.allocation.setLocation index .nowhere).spill victim slot).pin reg =
          ((state.allocation.spill victim slot).pin reg).setLocation index .nowhere := by
        rw [Allocation.spill, same]
        exact congrArg (Allocation.pin · reg)
          (Allocation.setLocation_comm (state.allocation.occupy slot) different _ _)
      simp only [Assembler.allocation_withAllocation, order] at spilled
      exact spilled

/-- An operand whose slot is free already goes to the register that is taken for it. -/
theorem TakesRegister.balanced_stale (takes : TakesRegister state reg after) {index : Nat}
    (elsewhere : (state.allocation.place index).register? = none)
    (defined : state.allocation.defined index = true)
    (stale : (state.allocation.setLocation index .nowhere).Balanced config flight) :
    (after.allocation.setLocation index (.valueReg reg)).Balanced config flight := by
  have listed := ((takes.cleared index elsewhere).balanced stale).exchange index (.valueReg reg) (by
    rw [Assembler.allocation_withAllocation, Allocation.defined_setLocation]
    exact (takes.defined index).trans defined)
  simp only [Assembler.allocation_withAllocation, Allocation.setLocation_setLocation,
    Allocation.place_clear] at listed
  exact listed

/-- An operand leaves its slot before it has another place. -/
theorem balanced_vacate {allocation : Allocation} (balanced : allocation.Balanced config flight)
    {index slot : Nat} (place : allocation.place index = .floatSlot slot) :
    ((allocation.vacate slot).setLocation index .nowhere).Balanced config flight := by
  have left := balanced.exchange index .nowhere (balanced.placed index (by simp [place]))
  rw [place] at left
  exact left.vacate

theorem FetchesValue.balanced {id : OperandId} (fetches : FetchesValue state id reg fetched)
    (balanced : state.allocation.Balanced config flight) :
    (fetched.allocation.setLocation id.toNat (.valueReg reg)).Balanced config flight := by
  cases fetches with
  | valueReg place => exact balanced.relist (by simp [place]) (by rw [place])
  | payloadReg type tag place =>
      refine (balanced.setKnownType id tag).relist ?_ ?_ <;> rw [Allocation.place_setKnownType, place]
      · simp
      · rfl
  | valueSlot slot middle place takes =>
      have same := takes.place id.toNat (by rw [place]; rfl)
      have moved := (takes.balanced balanced).move id.toNat (.valueReg reg) (.slot slot)
        (by rw [same, place]; rfl) rfl
      exact moved.vacate
  | payloadSlot slot type tag middle place takes =>
      have same := takes.place id.toNat (by rw [place]; rfl)
      have moved := ((takes.balanced balanced).setKnownType id tag).move id.toNat
        (.valueReg reg) (.slot slot)
        (by rw [Allocation.place_setKnownType, same, place]; rfl) rfl
      exact moved.vacate
  | floatReg float middle _ place takes returns =>
      have same := takes.place id.toNat (by rw [place]; rfl)
      have moved := (takes.balanced balanced).move id.toNat (.valueReg reg) (.float float)
        (by rw [same, place]; rfl) rfl
      exact returns.balanced_setLocation moved
  | floatSlot slot float first middle _ place takesFloat takes returns =>
      have same := (takesFloat.place id.toNat (by rw [place]; rfl)).trans place
      have loaded := takesFloat.balanced balanced
      exact returns.balanced_setLocation (takes.balanced_stale
        (by
          show (first.allocation.place id.toNat).register? = none
          rw [same]
          rfl)
        (loaded.placed id.toNat (by simp [same])) (balanced_vacate loaded same))

theorem FetchesValue.length {id : OperandId} (fetches : FetchesValue state id reg fetched) :
    fetched.allocation.operands.length = state.allocation.operands.length := by
  cases fetches with
  | valueReg place => rfl
  | payloadReg type tag => exact Allocation.length_modifyOperand ..
  | valueSlot slot middle place takes => exact takes.length
  | payloadSlot slot type tag middle place takes =>
      exact (Allocation.length_modifyOperand ..).trans takes.length
  | floatReg float middle _ place takes returns =>
      rw [returns.operands]
      exact takes.length
  | floatSlot slot float first middle _ place takesFloat takes returns =>
      rw [returns.operands]
      exact takes.length.trans takesFloat.length

theorem FetchesPayload.length {id : OperandId}
    (fetches : FetchesPayload state id reg type fetched) :
    fetched.allocation.operands.length = state.allocation.operands.length := by
  cases fetches with
  | payloadReg | valueReg => rfl
  | payloadSlot slot middle place takes | valueSlot slot middle place proven takes =>
      exact takes.length

theorem FetchesPayload.balanced {id : OperandId}
    (fetches : FetchesPayload state id reg type fetched)
    (balanced : state.allocation.Balanced config flight) :
    (fetched.allocation.setLocation id.toNat (.payloadReg reg type)).Balanced config flight := by
  cases fetches with
  | payloadReg place => exact balanced.relist (by simp [place]) (by rw [place])
  | valueReg place =>
      exact balanced.relist (by simp [place]) (by simp only [place]; rfl)
  | payloadSlot slot middle place takes | valueSlot slot middle place proven takes =>
      have same := takes.place id.toNat (by rw [place]; rfl)
      have moved := (takes.balanced balanced).move id.toNat (.payloadReg reg type) (.slot slot)
        (by rw [same, place]; rfl) rfl
      exact moved.vacate

theorem useValueReg_balanced {id : OperandId} (runs : (useValueReg id).Runs state reg after)
    (balanced : state.allocation.Balanced config flight) :
    after.allocation.Balanced config flight ∧
      after.allocation.place id.toNat = .valueReg reg := by
  obtain ⟨bound, fetched, fetches, rfl⟩ := runs_useValueReg runs
  have listed := fetches.balanced balanced
  have place : (fetched.allocation.setLocation id.toNat (.valueReg reg)).place id.toNat =
      .valueReg reg := Allocation.place_setLocation_self (fetches.length ▸ bound)
  refine ⟨listed.pin (listed.not_available_of_place id.toNat ?_), place⟩
  rw [place]
  rfl

theorem useRegister_balanced {id : OperandId} (runs : (useRegister id).Runs state reg after)
    (balanced : state.allocation.Balanced config flight) :
    after.allocation.Balanced config flight ∧
      ∃ type, after.allocation.place id.toNat = .payloadReg reg type := by
  obtain ⟨bound, type, fetched, fetches, rfl⟩ := runs_useRegister runs
  have listed := fetches.balanced balanced
  have place : (fetched.allocation.setLocation id.toNat (.payloadReg reg type)).place id.toNat =
      .payloadReg reg type := Allocation.place_setLocation_self (fetches.length ▸ bound)
  refine ⟨listed.pin (listed.not_available_of_place id.toNat ?_), type, place⟩
  rw [place]
  rfl

theorem FetchesNumber.balanced {id : OperandId} (fetches : FetchesNumber state id reg after)
    (balanced : state.allocation.Balanced config flight) :
    after.allocation.Balanced config flight := by
  cases fetches with
  | floatReg place => exact balanced.pinFloat
  | floatSlot slot middle place takes =>
      have same := takes.place id.toNat (by rw [place]; rfl)
      have moved := (takes.balanced balanced).move id.toNat (.floatReg reg) (.slot slot)
        (by rw [same, place]; rfl) rfl
      exact moved.vacate
  | int32 src middle last payload uses takes =>
      exact (takes.balanced (useRegister_balanced uses balanced).1).holdFloat
  | boxed src middle last form uses takes =>
      exact (takes.balanced (useValueReg_balanced uses balanced).1).holdFloat
  | double src middle last form proven uses takes =>
      obtain ⟨used, place⟩ := useValueReg_balanced uses balanced
      have same := takes.place id.toNat (by rw [place]; rfl)
      have moved := (takes.balanced used).move id.toNat (.floatReg reg) (.register src)
        (by rw [same, place]; rfl) rfl
      exact moved.yield

theorem ReleasesFloat.balanced (releases : ReleasesFloat state reg after)
    (balanced : state.allocation.Balanced config flight) :
    after.allocation.Balanced config flight := by
  cases releases with
  | scratch _ held returns => exact returns.balanced (balanced.dropFloat held)
  | other => exact balanced

/-- A register that is taken for an operand that has no place yet goes to the operand. -/
theorem TakesRegister.balanced_define (takes : TakesRegister state reg after) (index : Nat)
    (location : Location)
    (balanced : state.allocation.Balanced config flight)
    (defined : state.allocation.defined index = true)
    (nowhere : state.allocation.place index = .nowhere)
    (aim : location.resource? = some (.register reg)) :
    (after.allocation.setLocation index location).Balanced config flight := by
  have same := takes.place index (by rw [nowhere]; rfl)
  have taken := takes.balanced balanced
  have listed := Allocation.Balanced.exchange index location (by rw [aim]; exact taken)
    ((takes.defined _).trans defined)
  rw [same, nowhere] at listed
  exact listed

theorem defineValueReg_balanced {id : OperandId} (runs : (defineValueReg id).Runs state reg after)
    (balanced : state.allocation.Balanced config flight) :
    after.allocation.Balanced config flight := by
  obtain ⟨bound, undefined, middle, takes, rfl⟩ := runs_defineValueReg runs
  exact takes.balanced_define id.toNat (.valueReg reg) balanced.markDefined
    (Allocation.defined_markDefined _ _ bound)
    ((Allocation.place_markDefined _ _ _).trans (balanced.place_of_undefined undefined)) rfl

theorem definePayloadReg_balanced {id : OperandId}
    (runs : (definePayloadReg id type).Runs state reg after)
    (balanced : state.allocation.Balanced config flight) :
    after.allocation.Balanced config flight := by
  obtain ⟨bound, undefined, middle, takes, rfl⟩ := runs_definePayloadReg runs
  have listed := takes.balanced_define id.toNat (.payloadReg reg type) balanced.markDefined
    (Allocation.defined_markDefined _ _ bound)
    ((Allocation.place_markDefined _ _ _).trans (balanced.place_of_undefined undefined)) rfl
  exact listed.learn id type

theorem DefinesInput.balanced (defines : DefinesInput state index after) (small : index < 256)
    (bound : index < state.allocation.operands.length)
    (undefined : state.allocation.defined index = false)
    (balanced : state.allocation.Balanced config flight) :
    after.allocation.Balanced config flight := by
  have marked : (state.allocation.markDefined (UInt8.ofNat index)).unpin.Balanced config flight :=
    balanced.markDefined.unpin
  cases defines with
  | unused => exact marked
  | loaded reg middle takes =>
      have same : (UInt8.ofNat index).toNat = index := UInt8.toNat_ofNat_of_lt' small
      have defined := Allocation.defined_markDefined state.allocation (UInt8.ofNat index) (by rw [same]; exact bound)
      rw [same] at defined
      exact takes.balanced_define index (.valueReg reg) marked defined
        ((Allocation.place_markDefined _ _ _).trans (balanced.place_of_undefined undefined)) rfl

theorem Frees.pinned (freed : Frees state location after) :
    after.allocation.pinned = state.allocation.pinned := by
  cases freed with
  | nowhere | register | slot => rfl
  | float reg _ returns => cases returns <;> rfl

/-- An operand that is not pinned loses its place. -/
theorem Frees.balanced (freed : Frees state (state.allocation.place index) middle)
    (somewhere : state.allocation.place index ≠ .nowhere)
    (unpinned : state.allocation.pinned = .empty)
    (balanced : state.allocation.Balanced config flight) :
    (middle.allocation.setLocation index .nowhere).Balanced config flight := by
  have left := balanced.exchange index .nowhere
    (balanced.placed index somewhere)
  cases place : state.allocation.place index with
  | nowhere => exact absurd place somewhere
  | payloadReg reg type | valueReg reg =>
      rw [place] at freed left
      cases freed with
      | register freed held =>
          cases held
          exact left.free (by
            show state.allocation.pinned.contains _ = false
            rw [unpinned, RegisterSet.contains_empty])
      | slot slot held => cases held
  | floatReg reg =>
      rw [place] at freed left
      cases freed with
      | register freed held => cases held
      | slot slot held => cases held
      | float _ _ returns => exact returns.balanced_setLocation left
  | payloadSlot slot type | valueSlot slot | floatSlot slot =>
      rw [place] at freed left
      cases freed with
      | register freed held => cases held
      | slot slot held =>
          cases held
          exact left.vacate

theorem beginOp_balanced (runs : (beginOp index).Runs state answer after)
    (balanced : state.allocation.Balanced config flight) :
    after.allocation.Balanced config flight := by
  refine (beginOp_induct
    (P := fun state => state.allocation.Balanced config flight ∧ state.allocation.pinned = .empty)
    ?_ runs ⟨balanced.turn index, rfl⟩).1
  rintro state middle id ⟨balanced, unpinned⟩ - somewhere freed
  exact ⟨freed.balanced somewhere unpinned balanced, freed.pinned.trans unpinned⟩

theorem defineInputs_balanced (runs : (defineInputs count).Runs state answer after)
    (balanced : state.allocation.Balanced config flight) :
    after.allocation.Balanced config flight :=
  defineInputs_induct (P := fun _ state => state.allocation.Balanced config flight)
    (fun balanced small bound undefined defines =>
      defines.balanced small bound undefined balanced) runs balanced

end Asm

namespace AllocatorCall

/-- Every call that succeeds keeps the accounts in balance. -/
theorem balanced {config : CodeConfig} {flight : List Resource} {call : AllocatorCall}
    (runs : call.run.Runs state answer after)
    (balanced : state.allocation.Balanced config flight) :
    after.allocation.Balanced config flight := by
  cases call with
  | defineInputs count =>
      obtain ⟨_, runs, -⟩ := Asm.runs_answer.mp runs
      exact Asm.defineInputs_balanced runs balanced
  | beginOp index =>
      obtain ⟨_, runs, -⟩ := Asm.runs_answer.mp runs
      exact Asm.beginOp_balanced runs balanced
  | allocateRegister =>
      obtain ⟨_, runs, -⟩ := Asm.runs_answer.mp runs
      obtain ⟨middle, takes, rfl⟩ := Asm.runs_allocateRegister runs
      exact (takes.balanced balanced).hold
  | releaseRegister reg =>
      obtain ⟨_, runs, -⟩ := Asm.runs_answer.mp runs
      rw [Asm.runs_releaseRegister.mp runs]
      split
      · rename_i scratch
        exact balanced.release scratch
      · exact balanced
  | allocateFloat =>
      obtain ⟨_, runs, -⟩ := Asm.runs_answer.mp runs
      obtain ⟨middle, takes, rfl⟩ := Asm.runs_allocateFloat runs
      exact (takes.balanced balanced).holdFloat
  | releaseFloat reg =>
      obtain ⟨_, runs, -⟩ := Asm.runs_answer.mp runs
      exact (Asm.runs_releaseFloat runs).balanced balanced
  | defineValueReg id =>
      obtain ⟨_, runs, -⟩ := Asm.runs_answer.mp runs
      exact Asm.defineValueReg_balanced runs balanced
  | definePayloadReg id type =>
      obtain ⟨_, runs, -⟩ := Asm.runs_answer.mp runs
      exact Asm.definePayloadReg_balanced runs balanced
  | useValueReg id =>
      obtain ⟨_, runs, -⟩ := Asm.runs_answer.mp runs
      exact (Asm.useValueReg_balanced runs balanced).1
  | useRegister id =>
      obtain ⟨_, runs, -⟩ := Asm.runs_answer.mp runs
      exact (Asm.useRegister_balanced runs balanced).1
  | useNumber id =>
      obtain ⟨_, runs, -⟩ := Asm.runs_answer.mp runs
      exact (Asm.runs_useNumber runs).balanced balanced
  | setKnownType id type =>
      obtain ⟨_, runs, -⟩ := Asm.runs_answer.mp runs
      rw [Asm.runs_setKnownType.mp runs]
      exact balanced.setKnownType id _

/-- Makes calls one after the other. -/
def runAll (calls : List AllocatorCall) : Asm Unit :=
  calls.forM fun call => discard call.run

theorem runAll_balanced {config : CodeConfig} {flight : List Resource}
    {calls : List AllocatorCall} (runs : (runAll calls).Runs state answer after)
    (balanced : state.allocation.Balanced config flight) :
    after.allocation.Balanced config flight := by
  unfold runAll at runs
  induction calls generalizing state with
  | nil => exact Asm.runs_forM_nil.mp runs ▸ balanced
  | cons call calls ih =>
      obtain ⟨middle, first, rest⟩ := Asm.runs_forM_cons.mp runs
      obtain ⟨answer, runs⟩ := Asm.runs_discard.mp first
      exact ih rest (AllocatorCall.balanced runs balanced)

end AllocatorCall

end InlineCache
