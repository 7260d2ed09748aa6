import InlineCache.Proofs.Emit.Steps

/-!
What bringing an operand into a form can do.  The word of the operand is fetched first, in a way that
depends on where it is; then the operand is listed at the register that it was fetched into.
-/

namespace InlineCache.Asm

theorem runs_reload (runs : (reload slot).Runs state reg after) :
    ∃ middle, TakesRegister state reg middle ∧
      after = (middle.emitted (.restore reg slot)).withAllocation
        (middle.allocation.vacate slot) := by
  simp only [reload, runs_bind, runs_emit, runs_freeSlot, runs_pure] at runs
  obtain ⟨_, middle, takes, _, _, rfl, _, _, rfl, rfl, rfl⟩ := runs
  exact ⟨middle, takesRegister takes, rfl⟩

theorem runs_reloadFloat (runs : (reloadFloat slot).Runs state reg after) :
    ∃ middle, TakesFloat state reg middle ∧
      after = (middle.emitted (.reloadFloat reg slot)).withAllocation
        (middle.allocation.vacate slot) := by
  simp only [reloadFloat, runs_bind, runs_emit, runs_freeSlot, runs_pure] at runs
  obtain ⟨_, middle, takes, _, _, rfl, _, _, rfl, rfl, rfl⟩ := runs
  exact ⟨middle, takesFloat takes, rfl⟩

theorem runs_boxFloat (runs : (boxFloat float).Runs state reg after) :
    ∃ middle, TakesRegister state reg middle ∧
      ReturnsFloat (middle.emitted (.boxDouble float reg)) float after := by
  simp only [boxFloat, runs_bind, runs_emit, runs_pure] at runs
  obtain ⟨_, middle, takes, _, _, rfl, _, _, returns, rfl, rfl⟩ := runs
  exact ⟨middle, takesRegister takes, returnsFloat returns⟩

theorem runs_boxInPlace {id : OperandId}
    (runs : (boxInPlace id reg type).Runs state answer after) :
    ∃ tag, type.valueType? = some tag ∧
      after = (state.emitted (.boxPayload reg reg type)).withAllocation
        (state.allocation.setKnownType id tag) := by
  unfold boxInPlace at runs
  split at runs
  · exact absurd runs not_runs_violate
  · rename_i tag tagged
    simp only [runs_bind, runs_emit, runs_setKnownType] at runs
    obtain ⟨_, _, rfl, rfl⟩ := runs
    exact ⟨tag, tagged, rfl⟩

/-- The ways to fetch the boxed word of an operand. -/
inductive FetchesValue (state : Assembler) (id : OperandId) (reg : Register) : Assembler → Prop
  | valueReg (place : state.allocation.place id.toNat = .valueReg reg) :
      FetchesValue state id reg state
  | payloadReg (type : PayloadType) (tag : ValueType)
      (place : state.allocation.place id.toNat = .payloadReg reg type)
      (tagged : type.valueType? = some tag) :
      FetchesValue state id reg
        ((state.emitted (.boxPayload reg reg type)).withAllocation
          (state.allocation.setKnownType id tag))
  | valueSlot (slot : Nat) (middle : Assembler)
      (place : state.allocation.place id.toNat = .valueSlot slot)
      (takes : TakesRegister state reg middle) :
      FetchesValue state id reg
        ((middle.emitted (.restore reg slot)).withAllocation (middle.allocation.vacate slot))
  | payloadSlot (slot : Nat) (type : PayloadType) (tag : ValueType) (middle : Assembler)
      (place : state.allocation.place id.toNat = .payloadSlot slot type)
      (takes : TakesRegister state reg middle) (tagged : type.valueType? = some tag) :
      FetchesValue state id reg
        (((middle.emitted (.restore reg slot)).emitted (.boxPayload reg reg type)).withAllocation
          ((middle.allocation.vacate slot).setKnownType id tag))
  | floatReg (float : FloatRegister) (middle after : Assembler)
      (place : state.allocation.place id.toNat = .floatReg float)
      (takes : TakesRegister state reg middle)
      (returns : ReturnsFloat (middle.emitted (.boxDouble float reg)) float after) :
      FetchesValue state id reg after
  | floatSlot (slot : Nat) (float : FloatRegister) (first middle after : Assembler)
      (place : state.allocation.place id.toNat = .floatSlot slot)
      (takesFloat : TakesFloat state float first)
      (takes : TakesRegister
        ((first.emitted (.reloadFloat float slot)).withAllocation (first.allocation.vacate slot))
        reg middle)
      (returns : ReturnsFloat (middle.emitted (.boxDouble float reg)) float after) :
      FetchesValue state id reg after

theorem runs_useValueReg {id : OperandId} (runs : (useValueReg id).Runs state reg after) :
    id.toNat < state.allocation.operands.length ∧
      ∃ fetched, FetchesValue state id reg fetched ∧
        after = fetched.withAllocation
          ((fetched.allocation.setLocation id.toNat (.valueReg reg)).pin reg) := by
  simp only [useValueReg, runs_bind, runs_operandState] at runs
  obtain ⟨operand, _, ⟨found, rfl⟩, runs⟩ := runs
  have place := Allocation.place_of_getElem? found
  obtain ⟨bound, -⟩ := List.getElem?_eq_some_iff.mp found
  refine ⟨bound, ?_⟩
  split at runs
  all_goals rename_i location
  all_goals rw [location] at place
  all_goals
    simp only [runs_bind, runs_pure, runs_setLocation, runs_pin] at runs
  · obtain ⟨_, _, ⟨rfl, rfl⟩, _, _, rfl, _, _, rfl, rfl, rfl⟩ := runs
    exact ⟨_, .valueReg place, rfl⟩
  · obtain ⟨_, _, boxes, _, _, ⟨rfl, rfl⟩, _, _, rfl, _, _, rfl, rfl, rfl⟩ := runs
    obtain ⟨tag, tagged, rfl⟩ := runs_boxInPlace boxes
    exact ⟨_, .payloadReg _ tag place tagged, rfl⟩
  · obtain ⟨_, _, reloads, _, _, rfl, _, _, rfl, rfl, rfl⟩ := runs
    obtain ⟨middle, takes, rfl⟩ := runs_reload reloads
    exact ⟨_, .valueSlot _ middle place takes, rfl⟩
  · obtain ⟨_, _, reloads, _, _, boxes, _, _, ⟨rfl, rfl⟩, _, _, rfl, _, _, rfl, rfl, rfl⟩ := runs
    obtain ⟨middle, takes, rfl⟩ := runs_reload reloads
    obtain ⟨tag, tagged, rfl⟩ := runs_boxInPlace boxes
    exact ⟨_, .payloadSlot _ _ tag middle place takes tagged, rfl⟩
  · obtain ⟨_, _, boxes, _, _, rfl, _, _, rfl, rfl, rfl⟩ := runs
    obtain ⟨middle, takes, returns⟩ := runs_boxFloat boxes
    exact ⟨_, .floatReg _ middle _ place takes returns, rfl⟩
  · obtain ⟨_, _, reloads, _, _, boxes, _, _, rfl, _, _, rfl, rfl, rfl⟩ := runs
    obtain ⟨first, takesFloat, rfl⟩ := runs_reloadFloat reloads
    obtain ⟨middle, takes, returns⟩ := runs_boxFloat boxes
    exact ⟨_, .floatSlot _ _ first middle _ place takesFloat takes returns, rfl⟩
  · obtain ⟨_, _, failed, -⟩ := runs
    exact absurd failed not_runs_notLive

/-- The payload type that a tag proven of an operand gives it. -/
def Proven (state : Assembler) (id : OperandId) (type : PayloadType) : Prop :=
  (state.allocation.known id.toNat).bind PayloadType.ofValueType? = some type

/-- The ways to fetch the payload of an operand. -/
inductive FetchesPayload (state : Assembler) (id : OperandId) (reg : Register)
    (type : PayloadType) : Assembler → Prop
  | payloadReg (place : state.allocation.place id.toNat = .payloadReg reg type) :
      FetchesPayload state id reg type state
  | valueReg (place : state.allocation.place id.toNat = .valueReg reg)
      (proven : Proven state id type) :
      FetchesPayload state id reg type (state.emitted (.unboxPayload reg reg type))
  | payloadSlot (slot : Nat) (middle : Assembler)
      (place : state.allocation.place id.toNat = .payloadSlot slot type)
      (takes : TakesRegister state reg middle) :
      FetchesPayload state id reg type
        ((middle.emitted (.restore reg slot)).withAllocation (middle.allocation.vacate slot))
  | valueSlot (slot : Nat) (middle : Assembler)
      (place : state.allocation.place id.toNat = .valueSlot slot)
      (proven : Proven state id type) (takes : TakesRegister state reg middle) :
      FetchesPayload state id reg type
        (((middle.emitted (.restore reg slot)).withAllocation
          (middle.allocation.vacate slot)).emitted (.unboxPayload reg reg type))

theorem runs_useRegister {id : OperandId} (runs : (useRegister id).Runs state reg after) :
    id.toNat < state.allocation.operands.length ∧
      ∃ type fetched, FetchesPayload state id reg type fetched ∧
        after = fetched.withAllocation
          ((fetched.allocation.setLocation id.toNat (.payloadReg reg type)).pin reg) := by
  simp only [useRegister, runs_bind, runs_operandState] at runs
  obtain ⟨operand, _, ⟨found, rfl⟩, runs⟩ := runs
  have place := Allocation.place_of_getElem? found
  obtain ⟨bound, -⟩ := List.getElem?_eq_some_iff.mp found
  refine ⟨bound, ?_⟩
  split at runs
  all_goals rename_i location
  all_goals rw [location] at place
  all_goals
    simp only [runs_bind, runs_pure, runs_setLocation, runs_pin, runs_emit, runs_provenPayload] at runs
  · obtain ⟨_, _, ⟨rfl, rfl⟩, _, _, rfl, _, _, rfl, rfl, rfl⟩ := runs
    exact ⟨_, _, .payloadReg place, rfl⟩
  · obtain ⟨type, _, ⟨proven, rfl⟩, _, _, rfl, _, _, ⟨rfl, rfl⟩, _, _, rfl, _, _, rfl, rfl, rfl⟩ :=
      runs
    exact ⟨_, _, .valueReg place proven, rfl⟩
  · obtain ⟨_, _, reloads, _, _, ⟨rfl, rfl⟩, _, _, rfl, _, _, rfl, rfl, rfl⟩ := runs
    obtain ⟨middle, takes, rfl⟩ := runs_reload reloads
    exact ⟨_, _, .payloadSlot _ middle place takes, rfl⟩
  · obtain ⟨type, _, ⟨proven, rfl⟩, _, _, reloads, _, _, rfl, _, _, ⟨rfl, rfl⟩,
      _, _, rfl, _, _, rfl, rfl, rfl⟩ := runs
    obtain ⟨middle, takes, rfl⟩ := runs_reload reloads
    exact ⟨_, _, .valueSlot _ middle place proven takes, rfl⟩
  · obtain ⟨_, _, failed, -⟩ := runs
    exact absurd failed not_runs_violate
  · obtain ⟨_, _, failed, -⟩ := runs
    exact absurd failed not_runs_violate
  · obtain ⟨_, _, failed, -⟩ := runs
    exact absurd failed not_runs_notLive

/-- The ways to bring the number of an operand into a float register. -/
inductive FetchesNumber (state : Assembler) (id : OperandId) (reg : FloatRegister) :
    Assembler → Prop
  | floatReg (place : state.allocation.place id.toNat = .floatReg reg) :
      FetchesNumber state id reg (state.withAllocation (state.allocation.pinFloat reg))
  | floatSlot (slot : Nat) (middle : Assembler)
      (place : state.allocation.place id.toNat = .floatSlot slot)
      (takes : TakesFloat state reg middle) :
      FetchesNumber state id reg
        ((middle.emitted (.reloadFloat reg slot)).withAllocation
          ((middle.allocation.vacate slot).setLocation id.toNat (.floatReg reg)))
  | int32 (src : Register) (middle last : Assembler)
      (payload : (state.allocation.place id.toNat).payload? = some .int32)
      (uses : (useRegister id).Runs state src middle) (takes : TakesFloat middle reg last) :
      FetchesNumber state id reg
        ((last.withAllocation (last.allocation.holdFloat reg)).emitted (.int32ToDouble src reg))
  | boxed (src : Register) (middle last : Assembler)
      (form : (state.allocation.place id.toNat).form? = some .boxed)
      (uses : (useValueReg id).Runs state src middle) (takes : TakesFloat middle reg last) :
      FetchesNumber state id reg
        ((last.withAllocation (last.allocation.holdFloat reg)).emitted (.unboxNumber src reg))
  | double (src : Register) (middle last : Assembler)
      (form : (state.allocation.place id.toNat).form? = some .boxed)
      (proven : state.allocation.known id.toNat = some .double)
      (uses : (useValueReg id).Runs state src middle) (takes : TakesFloat middle reg last) :
      FetchesNumber state id reg
        ((last.emitted (.unboxDouble src reg)).withAllocation
          ((last.allocation.yield src).setLocation id.toNat (.floatReg reg)))

theorem runs_allocateFloat (runs : allocateFloat.Runs state reg after) :
    ∃ middle, TakesFloat state reg middle ∧
      after = middle.withAllocation (middle.allocation.holdFloat reg) := by
  simp only [allocateFloat, runs_bind, runs_modifyAllocation, runs_pure] at runs
  obtain ⟨_, middle, takes, _, _, rfl, rfl, rfl⟩ := runs
  exact ⟨middle, takesFloat takes, rfl⟩

theorem runs_useInt32Number {id : OperandId}
    (payload : (state.allocation.place id.toNat).payload? = some .int32)
    (runs : (useInt32Number id).Runs state reg after) : FetchesNumber state id reg after := by
  simp only [useInt32Number, runs_bind, runs_emit, runs_pure] at runs
  obtain ⟨src, middle, uses, _, _, allocates, _, _, rfl, rfl, rfl⟩ := runs
  obtain ⟨last, takes, rfl⟩ := runs_allocateFloat allocates
  exact .int32 src middle last payload uses takes

theorem runs_useBoxedNumber {id : OperandId}
    (form : (state.allocation.place id.toNat).form? = some .boxed)
    (runs : (useBoxedNumber id).Runs state reg after) : FetchesNumber state id reg after := by
  simp only [useBoxedNumber, runs_bind, runs_allocation] at runs
  obtain ⟨_, _, ⟨rfl, rfl⟩, src, middle, uses, runs⟩ := runs
  split at runs
  · rename_i proven
    simp only [runs_bind, runs_emit, runs_modifyAllocation, runs_setLocation, runs_pure] at runs
    obtain ⟨_, last, takes, _, _, rfl, _, _, rfl, _, _, rfl, rfl, rfl⟩ := runs
    exact .double src middle last form proven uses (takesFloat takes)
  · simp only [runs_bind, runs_emit, runs_pure] at runs
    obtain ⟨_, _, allocates, _, _, rfl, rfl, rfl⟩ := runs
    obtain ⟨last, takes, rfl⟩ := runs_allocateFloat allocates
    exact .boxed src middle last form uses takes

theorem runs_useNumber {id : OperandId} (runs : (useNumber id).Runs state reg after) :
    FetchesNumber state id reg after := by
  simp only [useNumber, runs_bind, runs_operandState] at runs
  obtain ⟨operand, _, ⟨found, rfl⟩, runs⟩ := runs
  have place := Allocation.place_of_getElem? found
  split at runs
  all_goals rename_i location
  all_goals rw [location] at place
  · simp only [runs_bind, runs_modifyAllocation, runs_pure] at runs
    obtain ⟨_, _, rfl, rfl, rfl⟩ := runs
    exact .floatReg place
  · simp only [runs_bind, runs_setLocation, runs_pure] at runs
    obtain ⟨_, _, reloads, _, _, rfl, rfl, rfl⟩ := runs
    obtain ⟨middle, takes, rfl⟩ := runs_reloadFloat reloads
    exact .floatSlot _ middle place takes
  · split at runs
    · rename_i int32
      subst int32
      exact runs_useInt32Number (by rw [place]; rfl) runs
    · exact absurd runs not_runs_violate
  · split at runs
    · rename_i int32
      subst int32
      exact runs_useInt32Number (by rw [place]; rfl) runs
    · exact absurd runs not_runs_violate
  · exact runs_useBoxedNumber (by rw [place]; rfl) runs
  · exact runs_useBoxedNumber (by rw [place]; rfl) runs
  · exact absurd runs not_runs_notLive

theorem runs_allocateRegister (runs : allocateRegister.Runs state reg after) :
    ∃ middle, TakesRegister state reg middle ∧
      after = middle.withAllocation (middle.allocation.hold reg) := by
  simp only [allocateRegister, runs_bind, runs_modifyAllocation, runs_pure] at runs
  obtain ⟨_, middle, takes, _, _, rfl, rfl, rfl⟩ := runs
  exact ⟨middle, takesRegister takes, rfl⟩

/-- The ways to give back a float register that may be scratch. -/
inductive ReleasesFloat (state : Assembler) (reg : FloatRegister) : Assembler → Prop
  | scratch (after : Assembler)
      (held : state.allocation.scratchFloats.contains reg.index = true)
      (returns : ReturnsFloat (state.withAllocation (state.allocation.dropFloat reg)) reg after) :
      ReleasesFloat state reg after
  | other (free : state.allocation.scratchFloats.contains reg.index = false) :
      ReleasesFloat state reg state

theorem runs_releaseFloat (runs : (releaseFloat reg).Runs state answer after) :
    ReleasesFloat state reg after := by
  simp only [releaseFloat, runs_bind, runs_allocation] at runs
  obtain ⟨_, _, ⟨rfl, rfl⟩, runs⟩ := runs
  split at runs
  · rename_i held
    simp only [runs_bind, runs_modifyAllocation] at runs
    obtain ⟨_, _, rfl, returns⟩ := runs
    exact .scratch _ held (returnsFloat returns)
  · rename_i free
    obtain ⟨-, rfl⟩ := runs_pure.mp runs
    exact .other (Bool.eq_false_iff.mpr free)

theorem runs_defineValueReg {id : OperandId} (runs : (defineValueReg id).Runs state reg after) :
    id.toNat < state.allocation.operands.length ∧ state.allocation.defined id.toNat = false ∧
      ∃ middle,
        TakesRegister (state.withAllocation (state.allocation.markDefined id)) reg middle ∧
        after = middle.withAllocation (middle.allocation.setLocation id.toNat (.valueReg reg)) := by
  simp only [defineValueReg, runs_bind, runs_setLocation, runs_pure] at runs
  obtain ⟨_, _, marks, _, middle, takes, _, _, rfl, rfl, rfl⟩ := runs
  obtain ⟨bound, undefined, rfl⟩ := runs_markDefined marks
  exact ⟨bound, undefined, middle, takesRegister takes, rfl⟩

theorem runs_definePayloadReg {id : OperandId}
    (runs : (definePayloadReg id type).Runs state reg after) :
    id.toNat < state.allocation.operands.length ∧ state.allocation.defined id.toNat = false ∧
      ∃ middle,
        TakesRegister (state.withAllocation (state.allocation.markDefined id)) reg middle ∧
        after = middle.withAllocation
          ((middle.allocation.setLocation id.toNat (.payloadReg reg type)).learn id type) := by
  simp only [definePayloadReg, runs_bind, runs_setLocation] at runs
  obtain ⟨_, _, marks, _, middle, takes, _, _, rfl, runs⟩ := runs
  obtain ⟨bound, undefined, rfl⟩ := runs_markDefined marks
  refine ⟨bound, undefined, middle, ?_⟩
  unfold Allocation.learn
  split at runs
  · rename_i tagged
    simp only [runs_bind, runs_setKnownType, runs_pure] at runs
    obtain ⟨_, _, rfl, rfl, rfl⟩ := runs
    rw [tagged]
    exact ⟨takesRegister takes, rfl⟩
  · rename_i untagged
    simp only [runs_pure] at runs
    obtain ⟨rfl, rfl⟩ := runs
    rw [untagged]
    exact ⟨takesRegister takes, rfl⟩

/-- The ways to define an input: one that nothing mentions is not loaded. -/
inductive DefinesInput (state : Assembler) (index : Nat) : Assembler → Prop
  | loaded (reg : Register) (middle : Assembler)
      (takes : TakesRegister
        (state.withAllocation (state.allocation.markDefined (UInt8.ofNat index)).unpin) reg middle) :
      DefinesInput state index
        ((middle.emitted (.loadInput reg (UInt8.ofNat index))).withAllocation
          (middle.allocation.setLocation index (.valueReg reg)))
  | unused (unmentioned : state.allocation.lastUse (index % 256) = none) :
      DefinesInput state index
        (state.withAllocation (state.allocation.markDefined (UInt8.ofNat index)).unpin)

theorem runs_defineInput (runs : (defineInput index).Runs state answer after) :
    index % 256 < state.allocation.operands.length ∧
      state.allocation.defined (index % 256) = false ∧ DefinesInput state index after := by
  simp only [defineInput, runs_bind, runs_modifyAllocation, runs_operandState] at runs
  obtain ⟨_, _, marks, _, _, rfl, operand, _, ⟨found, rfl⟩, runs⟩ := runs
  obtain ⟨bound, undefined, rfl⟩ := runs_markDefined marks
  have mentioned : state.allocation.lastUse (UInt8.ofNat index).toNat = operand.lastUse := by
    have marked : ((state.allocation.markDefined (UInt8.ofNat index)).operands[
        (UInt8.ofNat index).toNat]?).bind (·.lastUse) = operand.lastUse :=
      congrArg (·.bind (·.lastUse)) found
    rw [Allocation.markDefined, Allocation.operand?_modifyOperand, if_pos rfl, Option.bind_map]
      at marked
    exact marked
  rw [UInt8.toNat_ofNat'] at bound undefined mentioned
  refine ⟨bound, undefined, ?_⟩
  split at runs
  · simp only [runs_bind, runs_emit, runs_setLocation] at runs
    obtain ⟨reg, middle, takes, _, _, rfl, rfl⟩ := runs
    exact .loaded reg middle (takesRegister takes)
  · rename_i unused
    obtain ⟨-, rfl⟩ := runs_pure.mp runs
    exact .unused (mentioned.trans (Option.not_isSome_iff_eq_none.mp unused))

/-- The ways to give back what a location occupies. -/
inductive Frees (state : Assembler) : Location → Assembler → Prop
  | nowhere : Frees state .nowhere state
  | register {location : Location} (reg : Register) (held : location.register? = some reg) :
      Frees state location (state.withAllocation (state.allocation.free reg))
  | slot {location : Location} (slot : Nat) (held : location.slot? = some slot) :
      Frees state location (state.withAllocation (state.allocation.vacate slot))
  | float (reg : FloatRegister) (after : Assembler) (returns : ReturnsFloat state reg after) :
      Frees state (.floatReg reg) after

theorem frees (runs : (freeLocation location).Runs state answer after) :
    Frees state location after := by
  cases location with
  | nowhere =>
      obtain ⟨-, rfl⟩ := runs_pure.mp runs
      exact .nowhere
  | payloadReg reg type | valueReg reg =>
      rw [runs_freeRegister.mp runs]
      exact .register reg rfl
  | floatReg reg => exact .float reg after (returnsFloat runs)
  | payloadSlot slot type | valueSlot slot | floatSlot slot =>
      rw [runs_freeSlot.mp runs]
      exact .slot slot rfl

/-- An operand loses its place. -/
def evict (dead : OperandState × Nat) : Asm Unit := do
  freeLocation dead.1.location
  setLocation dead.2 .nowhere

theorem runs_evict {dead : OperandState × Nat} (runs : (evict dead).Runs state answer after) :
    ∃ middle, Frees state dead.1.location middle ∧
      after = middle.withAllocation (middle.allocation.setLocation dead.2 .nowhere) := by
  simp only [evict, runs_bind, runs_setLocation] at runs
  obtain ⟨_, middle, freed, rfl⟩ := runs
  exact ⟨middle, frees freed, rfl⟩

theorem runs_beginOp (runs : (beginOp index).Runs state answer after) :
    ∃ dead : List (OperandState × Nat),
      dead.Sublist state.allocation.operands.zipIdx ∧
      (∀ operand ∈ state.allocation.operands.zipIdx, operand ∈ dead ↔
        operand.1.location ≠ .nowhere ∧ operand.1.lastUse.all (· < index) = true) ∧
      (dead.forM evict).Runs (state.withAllocation (state.allocation.turn index)) () after := by
  simp only [beginOp, runs_bind, runs_modifyAllocation, runs_allocation] at runs
  obtain ⟨_, _, rfl, _, _, ⟨rfl, rfl⟩, runs⟩ := runs
  refine ⟨_, List.filter_sublist, fun operand member => ?_, runs⟩
  rw [List.mem_filter, Bool.and_eq_true_iff, Location.isSomewhere, decide_eq_true_iff]
  exact (and_iff_right member).trans and_comm

theorem Frees.operands (freed : Frees state location after) :
    after.allocation.operands = state.allocation.operands := by
  cases freed with
  | nowhere | register | slot => rfl
  | float reg _ returns => cases returns <;> rfl

section

variable {P : Assembler → Prop} {Stale : Nat → Prop}
  (step : ∀ {state middle : Assembler} {id : Nat}, P state → Stale id →
    state.allocation.place id ≠ .nowhere → Frees state (state.allocation.place id) middle →
    P (middle.withAllocation (middle.allocation.setLocation id .nowhere)))
include step

theorem evict_induct {dead : List (OperandState × Nat)}
    (runs : (dead.forM evict).Runs state answer after) (start : P state)
    (stale : ∀ operand ∈ dead, Stale operand.2)
    (somewhere : ∀ operand ∈ dead, operand.1.location ≠ .nowhere)
    (located : ∀ operand ∈ dead, state.allocation.place operand.2 = operand.1.location)
    (distinct : (dead.map Prod.snd).Nodup) : P after := by
  induction dead generalizing state with
  | nil => exact runs_forM_nil.mp runs ▸ start
  | cons first rest ih =>
      obtain ⟨_, evicts, runs⟩ := runs_forM_cons.mp runs
      obtain ⟨middle, freed, rfl⟩ := runs_evict evicts
      have place := located first (.head _)
      have leaves := step start (stale first (.head _)) (place ▸ somewhere first (.head _)) (place ▸ freed)
      rw [List.map_cons, List.nodup_cons] at distinct
      refine ih runs leaves (fun operand member => stale operand (.tail _ member))
        (fun operand member => somewhere operand (.tail _ member)) ?_ distinct.2
      intro operand member
      have different : first.2 ≠ operand.2 :=
        fun same => distinct.1 (same ▸ List.mem_map_of_mem member)
      rw [Assembler.allocation_withAllocation, Allocation.place_setLocation_ne different,
        Allocation.place, freed.operands]
      exact located operand (.tail _ member)

end

theorem place_of_evicted {dead : List (OperandState × Nat)} {id : Nat}
    (runs : (dead.forM evict).Runs state answer after)
    (evicted : (∃ operand ∈ dead, operand.2 = id) ∨ state.allocation.place id = .nowhere) :
    after.allocation.place id = .nowhere := by
  induction dead generalizing state with
  | nil =>
      cases runs_forM_nil.mp runs
      exact evicted.resolve_left fun ⟨_, impossible, _⟩ => nomatch impossible
  | cons first rest ih =>
      obtain ⟨_, evicts, runs⟩ := runs_forM_cons.mp runs
      obtain ⟨middle, freed, rfl⟩ := runs_evict evicts
      refine ih runs ?_
      rw [Assembler.allocation_withAllocation]
      by_cases own : first.2 = id
      · exact .inr (own ▸ Allocation.place_clear ..)
      · rw [Allocation.place_setLocation_ne own, Allocation.place, freed.operands]
        refine evicted.imp_left ?_
        rintro ⟨operand, member, same⟩
        cases member with
        | head => exact absurd same own
        | tail _ member => exact ⟨operand, member, same⟩

/-- What holds at the start of a turn and is kept as operands lose their places, one after the other,
holds at the end. -/
theorem beginOp_induct {P : Assembler → Prop}
    (step : ∀ {before middle : Assembler} {id : Nat}, P before →
      (state.allocation.lastUse id).all (· < index) = true → before.allocation.place id ≠ .nowhere →
      Frees before (before.allocation.place id) middle →
      P (middle.withAllocation (middle.allocation.setLocation id .nowhere)))
    (runs : (beginOp index).Runs state answer after)
    (start : P (state.withAllocation (state.allocation.turn index))) : P after := by
  obtain ⟨dead, sublist, evicted, runs⟩ := runs_beginOp runs
  have leaves {operand : OperandState × Nat} (member : operand ∈ dead) :=
    (evicted operand (sublist.subset member)).mp member
  refine evict_induct step runs start ?_ (fun operand member => (leaves member).1) ?_ ?_
  · intro operand member
    rw [lastUse_of_mem_zipIdx state.allocation (sublist.subset member)]
    exact (leaves member).2
  · exact fun operand member =>
      place_of_mem_zipIdx state.allocation (sublist.subset member)
  · refine (sublist.map Prod.snd).nodup ?_
    rw [List.zipIdx_map_snd]
    exact List.nodup_range'

/-- Among them, every operand that no operation from there on mentions. -/
theorem beginOp_evicts {id : Nat} (runs : (beginOp index).Runs state answer after)
    (stale : (state.allocation.lastUse id).all (· < index) = true) :
    after.allocation.place id = .nowhere := by
  obtain ⟨dead, sublist, evicted, runs⟩ := runs_beginOp runs
  have evicts : (∃ operand ∈ dead, operand.2 = id) ∨ state.allocation.place id = .nowhere := by
    rw [Allocation.lastUse] at stale
    rw [Allocation.place]
    cases found : state.allocation.operands[id]? with
    | none => exact .inr rfl
    | some operand =>
        rw [found] at stale
        by_cases nowhere : operand.location = .nowhere
        · exact .inr nowhere
        · have listed : (operand, id) ∈ state.allocation.operands.zipIdx :=
            List.mem_zipIdx_iff_getElem?.mpr found
          exact .inl ⟨_, (evicted _ listed).mpr ⟨nowhere, stale⟩, rfl⟩
  exact place_of_evicted runs evicts

theorem DefinesInput.defined (defines : DefinesInput state index after)
    (other : Nat) (already : state.allocation.defined other = true) :
    after.allocation.defined other = true := by
  have marked := Allocation.defined_markDefined_of_defined (UInt8.ofNat index) already
  cases defines with
  | unused => exact marked
  | loaded reg middle takes =>
      exact (Allocation.defined_setLocation ..).trans ((takes.defined other).trans marked)

theorem DefinesInput.defined_self (defines : DefinesInput state index after) (small : index < 256)
    (bound : index < state.allocation.operands.length) :
    after.allocation.defined index = true := by
  have same : (UInt8.ofNat index).toNat = index := UInt8.toNat_ofNat_of_lt' small
  have marked := Allocation.defined_markDefined state.allocation (UInt8.ofNat index) (by rw [same]; exact bound)
  rw [same] at marked
  cases defines with
  | unused => exact marked
  | loaded reg middle takes =>
      exact (Allocation.defined_setLocation ..).trans ((takes.defined index).trans marked)

/-- What holds before any input is defined and is kept as they are defined, one after the other, holds
when all are.  An input past the last id there is would be defined twice. -/
theorem defineInputs_induct {P : Nat → Assembler → Prop}
    (step : ∀ {index : Nat} {state after : Assembler}, P index state → index < 256 →
      index < state.allocation.operands.length → state.allocation.defined index = false →
      DefinesInput state index after → P (index + 1) after)
    (runs : (defineInputs count).Runs state answer after) (start : P 0 state) : P count after := by
  suffices all : P count after ∧ ∀ index < count, after.allocation.defined (index % 256) = true from
    all.1
  unfold defineInputs at runs
  induction count generalizing after with
  | zero =>
      rw [List.range_zero, runs_forM_nil] at runs
      exact ⟨runs ▸ start, fun _ impossible => absurd impossible (Nat.not_lt_zero _)⟩
  | succ count ih =>
      rw [List.range_succ, runs_forM_append] at runs
      obtain ⟨middle, front, last⟩ := runs
      obtain ⟨before, defined⟩ := ih front
      obtain ⟨_, defines, done⟩ := runs_forM_cons.mp last
      obtain rfl := runs_forM_nil.mp done
      obtain ⟨bound, undefined, defines⟩ := runs_defineInput defines
      have small : count < 256 := by
        by_cases small : count < 256
        · exact small
        · rw [← Nat.mod_mod_of_dvd count (Nat.dvd_refl 256),
            defined (count % 256) (by omega)] at undefined
          cases undefined
      rw [Nat.mod_eq_of_lt small] at bound undefined
      refine ⟨step before small bound undefined defines, ?_⟩
      intro index below
      rcases Nat.lt_or_eq_of_le (Nat.lt_succ_iff.mp below) with earlier | rfl
      · exact defines.defined _ (defined index earlier)
      · rw [Nat.mod_eq_of_lt small]
        exact defines.defined_self small bound

end InlineCache.Asm
