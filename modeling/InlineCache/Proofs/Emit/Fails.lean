import InlineCache.Proofs.Emit.Uses

/-!
Why code generation fails.  A sequence of stretches fails when one of them does behind those that have
succeeded, and what the basic stretches of register allocation can fail for is a case each.  A statement
of all that a stretch may end with, success or failure, is read off both sides.
-/

namespace InlineCache

namespace Asm

/-- The stretch fails in the state with an error. -/
def Fails (stretch : Asm α) (state : Assembler) (error : CodeError) : Prop :=
  (stretch state).1 = .error error

theorem fails_bind {stretch : Asm α} {next : α → Asm β} :
    (stretch >>= next).Fails state error ↔
      stretch.Fails state error ∨
        ∃ first middle, stretch.Runs state first middle ∧ (next first).Fails middle error := by
  simp only [Fails, Runs, bind_apply]
  rcases stretch state with ⟨cause | first, middle⟩
  · constructor
    · intro failed
      cases failed
      exact .inl rfl
    · rintro (failed | ⟨_, _, impossible, _⟩)
      · cases failed
        rfl
      · cases congrArg Prod.fst impossible
  · constructor
    · intro failed
      exact .inr ⟨first, middle, rfl, failed⟩
    · rintro (impossible | ⟨_, _, same, failed⟩)
      · cases impossible
      · cases same
        exact failed

theorem fails_throw {cause : CodeError} :
    (throw cause : Asm α).Fails state error ↔ cause = error :=
  ⟨fun failed => Except.error.inj failed, congrArg Except.error⟩

theorem fails_violate {violation : Violation} :
    (violate violation : Asm α).Fails state error ↔ .invariant violation = error :=
  fails_throw

theorem fails_reject {defect : Defect} :
    (reject defect : Asm α).Fails state error ↔ .malformed defect = error :=
  fails_throw

theorem not_fails_pure {answer : α} : ¬(pure answer : Asm α).Fails state error :=
  fun failed => nomatch failed

theorem not_fails_allocation : ¬allocation.Fails state error :=
  fun failed => nomatch failed

theorem not_fails_modify {change : Assembler → Assembler} :
    ¬(modify change : Asm Unit).Fails state error :=
  fun failed => nomatch failed

theorem not_fails_modifyAllocation {change : Allocation → Allocation} :
    ¬(modifyAllocation change).Fails state error :=
  not_fails_modify

theorem not_fails_emit : ¬(emit inst).Fails state error :=
  not_fails_modify

theorem not_fails_setLocation : ¬(setLocation index location).Fails state error :=
  not_fails_modify

theorem not_fails_setKnownType {id : OperandId} : ¬(setKnownType id type).Fails state error :=
  not_fails_modify

theorem not_fails_freeSlot : ¬(freeSlot slot).Fails state error :=
  not_fails_modify

theorem not_fails_pin : ¬(pin reg).Fails state error :=
  not_fails_modify

theorem fails_exhausted :
    (exhausted : Asm α).Fails state error ↔ .exhausted state.allocation.currentOp = error := by
  simp only [exhausted, fails_bind, not_fails_allocation, runs_allocation, fails_throw, false_or]
  constructor
  · rintro ⟨_, _, ⟨rfl, rfl⟩, same⟩
    exact same
  · intro same
    exact ⟨_, _, ⟨rfl, rfl⟩, same⟩

theorem fails_operandState {id : OperandId} (fails : (operandState id).Fails state error) :
    state.allocation.operands[id.toNat]? = none ∧
      error = .malformed (.operandOutOfRange id state.allocation.operands.length) := by
  simp only [operandState, fails_bind, not_fails_allocation, runs_allocation, false_or] at fails
  obtain ⟨_, _, ⟨rfl, rfl⟩, fails⟩ := fails
  split at fails
  · exact absurd fails not_fails_pure
  · rename_i absent
    exact ⟨absent, (fails_reject.mp fails).symm⟩

/-- A stretch that begins with an operand fails because there is none, or goes on with it. -/
theorem fails_operandState_bind {id : OperandId} {next : OperandState → Asm α}
    (fails : (operandState id >>= next).Fails state error) :
    error = .malformed (.operandOutOfRange id state.allocation.operands.length) ∨
      ∃ operand, state.allocation.operands[id.toNat]? = some operand ∧ (next operand).Fails state error := by
  rw [fails_bind] at fails
  rcases fails with outside | ⟨operand, _, runs, fails⟩
  · exact .inl (fails_operandState outside).2
  · obtain ⟨found, rfl⟩ := runs_operandState.mp runs
    exact .inr ⟨operand, found, fails⟩

theorem fails_markDefined {id : OperandId} (fails : (markDefined id).Fails state error) :
    error = .malformed (.operandOutOfRange id state.allocation.operands.length) ∨
      state.allocation.defined id.toNat = true ∧ error = .invariant (.definedTwice id) := by
  simp only [markDefined, fails_bind, runs_operandState, not_fails_modifyAllocation,
    runs_modifyAllocation, false_or] at fails
  rcases fails with outside | ⟨operand, _, ⟨found, rfl⟩, _, _, rfl, fails⟩
  · exact .inl (fails_operandState outside).2
  · split at fails
    · rename_i defined
      refine .inr ⟨?_, (fails_violate.mp fails).symm⟩
      simpa only [Allocation.defined, found, Option.any_some] using defined
    · exact absurd fails not_fails_pure

theorem fails_provenPayload {id : OperandId} (fails : (provenPayload id).Fails state error) :
    error = .invariant (.tagNotProven id) := by
  simp only [provenPayload, fails_bind, not_fails_allocation, runs_allocation, false_or] at fails
  obtain ⟨_, _, ⟨rfl, rfl⟩, fails⟩ := fails
  split at fails
  · exact absurd fails not_fails_pure
  · exact (fails_violate.mp fails).symm

end Asm

namespace Allocation

/-- No slot is left. -/
def SlotsFull (allocation : Allocation) : Prop :=
  allocation.spillLimit ≤ leastFree allocation.usedSlots

/-- No register can be had: the pool is empty, and no operand can be spilled. -/
inductive RegistersExhausted (allocation : Allocation) : Prop
  | pinned (empty : ∀ r, allocation.available.contains r = false)
      (held : ∀ index reg, (allocation.place index).register? = some reg →
        allocation.pinned.contains reg.index = true)
  | full (index : Nat) (reg : Register)
      (held : (allocation.place index).register? = some reg) (slots : allocation.SlotsFull)

/-- No float register can be had. -/
inductive FloatsExhausted (allocation : Allocation) : Prop
  | pinned (empty : ∀ r, allocation.availableFloats.contains r = false)
      (held : ∀ index reg, (allocation.place index).floatRegister? = some reg →
        allocation.pinnedFloats.contains reg.index = true)
  | full (index : Nat) (reg : FloatRegister)
      (held : (allocation.place index).floatRegister? = some reg) (slots : allocation.SlotsFull)

end Allocation

namespace Asm

theorem fails_takeSlot (fails : takeSlot.Fails state error) :
    state.allocation.SlotsFull ∧ error = .exhausted state.allocation.currentOp := by
  simp only [takeSlot, fails_bind, not_fails_allocation, runs_allocation, false_or] at fails
  obtain ⟨_, _, ⟨rfl, rfl⟩, _, _, ⟨rfl, rfl⟩, fails⟩ := fails
  split at fails
  · simp only [fails_bind, not_fails_modifyAllocation, not_fails_pure, and_false, exists_false,
      or_false] at fails
  · rename_i unbounded
    exact ⟨Nat.le_of_not_lt unbounded, (fails_exhausted.mp fails).symm⟩

/-- An operand is listed with its index. -/
theorem mem_zipIdx_of_place {allocation : Allocation} {index : Nat}
    (somewhere : allocation.place index ≠ .nowhere) :
    ∃ operand, (operand, index) ∈ allocation.operands.zipIdx ∧
      operand.location = allocation.place index := by
  have bound := Allocation.lt_of_place somewhere
  have found := List.getElem?_eq_getElem bound
  exact ⟨allocation.operands[index], List.mk_mem_zipIdx_iff_getElem?.mpr found,
    (Allocation.place_of_getElem? found).symm⟩

theorem fails_spillOperand (fails : spillOperand.Fails state error) :
    ((∀ index reg, (state.allocation.place index).register? = some reg →
        state.allocation.pinned.contains reg.index = true) ∨
      ∃ index reg, (state.allocation.place index).register? = some reg ∧
        state.allocation.SlotsFull) ∧
      error = .exhausted state.allocation.currentOp := by
  simp only [spillOperand, fails_bind, not_fails_allocation, runs_allocation, false_or] at fails
  obtain ⟨_, _, ⟨rfl, rfl⟩, fails⟩ := fails
  split at fails
  · rename_i none
    refine ⟨.inl fun index reg held => ?_, (fails_exhausted.mp fails).symm⟩
    have somewhere : state.allocation.place index ≠ .nowhere := by
      intro nowhere
      rw [nowhere] at held
      cases held
    obtain ⟨operand, member, location⟩ := mem_zipIdx_of_place somewhere
    have passed := List.findSome?_eq_none_iff.mp none _ member
    dsimp only at passed
    rw [location, held] at passed
    dsimp only at passed
    split at passed
    · assumption
    · cases passed
  · rename_i location reg index found
    obtain ⟨⟨operand, _⟩, member, selected⟩ := List.exists_of_findSome?_eq_some found
    simp only [fails_bind, not_fails_emit, runs_emit, false_or] at fails
    rcases fails with full | ⟨_, _, _, _, _, rfl, fails⟩
    · obtain ⟨slots, rfl⟩ := fails_takeSlot full
      refine ⟨.inr ⟨index, reg, ?_, slots⟩, rfl⟩
      dsimp only at selected
      split at selected
      · rename_i held
        split at selected
        · cases selected
        · cases selected
          rw [place_of_mem_zipIdx _ member]
          exact held
      · cases selected
    · exfalso
      split at fails <;>
        simp only [fails_bind, not_fails_setLocation, not_fails_pure, and_false, exists_false,
          or_false] at fails

theorem fails_takeRegister (fails : takeRegister.Fails state error) :
    state.allocation.RegistersExhausted ∧ error = .exhausted state.allocation.currentOp := by
  simp only [takeRegister, fails_bind, not_fails_allocation, runs_allocation, false_or] at fails
  obtain ⟨_, _, ⟨rfl, rfl⟩, fails⟩ := fails
  split at fails <;>
    simp only [fails_bind, not_fails_modifyAllocation, not_fails_pin, not_fails_pure, and_false,
      exists_false, or_false] at fails
  · rename_i taken
    obtain ⟨held | ⟨index, reg, held, slots⟩, rfl⟩ := fails_spillOperand fails
    · exact ⟨.pinned (RegisterSet.takeLowest_eq_none taken) held, rfl⟩
    · exact ⟨.full index reg held slots, rfl⟩

theorem fails_spillFloatOperand (fails : spillFloatOperand.Fails state error) :
    ((∀ index reg, (state.allocation.place index).floatRegister? = some reg →
        state.allocation.pinnedFloats.contains reg.index = true) ∨
      ∃ index reg, (state.allocation.place index).floatRegister? = some reg ∧
        state.allocation.SlotsFull) ∧
      error = .exhausted state.allocation.currentOp := by
  simp only [spillFloatOperand, fails_bind, not_fails_allocation, runs_allocation, false_or] at fails
  obtain ⟨_, _, ⟨rfl, rfl⟩, fails⟩ := fails
  split at fails
  · rename_i none
    refine ⟨.inl fun index reg held => ?_, (fails_exhausted.mp fails).symm⟩
    have somewhere : state.allocation.place index ≠ .nowhere := by
      intro nowhere
      rw [nowhere] at held
      cases held
    obtain ⟨operand, member, location⟩ := mem_zipIdx_of_place somewhere
    have passed := List.findSome?_eq_none_iff.mp none _ member
    dsimp only at passed
    rw [location, held] at passed
    dsimp only at passed
    split at passed
    · assumption
    · cases passed
  · rename_i reg index found
    obtain ⟨⟨operand, _⟩, member, selected⟩ := List.exists_of_findSome?_eq_some found
    simp only [fails_bind, not_fails_emit, runs_emit, not_fails_setLocation, not_fails_pure,
      and_false, exists_false, or_false] at fails
    obtain ⟨slots, rfl⟩ := fails_takeSlot fails
    refine ⟨.inr ⟨index, reg, ?_, slots⟩, rfl⟩
    dsimp only at selected
    split at selected
    · rename_i held
      split at selected
      · cases selected
      · cases selected
        rw [place_of_mem_zipIdx _ member]
        exact held
    · cases selected

theorem not_fails_saveFloat : ¬(saveFloat reg).Fails state error := by
  intro fails
  simp only [saveFloat, fails_bind, not_fails_allocation, runs_allocation, false_or] at fails
  obtain ⟨_, _, ⟨rfl, rfl⟩, fails⟩ := fails
  split at fails
  · simp only [fails_bind, not_fails_allocation, not_fails_emit, not_fails_modifyAllocation,
      and_false, exists_false, or_false] at fails
  · exact absurd fails not_fails_pure

theorem fails_takeFloat (fails : takeFloat.Fails state error) :
    state.allocation.FloatsExhausted ∧ error = .exhausted state.allocation.currentOp := by
  simp only [takeFloat, fails_bind, not_fails_allocation, runs_allocation, false_or] at fails
  obtain ⟨_, _, ⟨rfl, rfl⟩, fails⟩ := fails
  split at fails <;>
    simp only [fails_bind, not_fails_modifyAllocation, not_fails_saveFloat, not_fails_pure,
      and_false, exists_false, or_false] at fails
  · rename_i taken
    obtain ⟨held | ⟨index, reg, held, slots⟩, rfl⟩ := fails_spillFloatOperand fails
    · exact ⟨.pinned (RegisterSet.takeLowest_eq_none taken) held, rfl⟩
    · exact ⟨.full index reg held slots, rfl⟩

theorem not_fails_returnFloat : ¬(returnFloat reg).Fails state error := by
  intro fails
  simp only [returnFloat, fails_bind, not_fails_allocation, runs_allocation, false_or] at fails
  obtain ⟨_, _, ⟨rfl, rfl⟩, fails⟩ := fails
  split at fails <;>
    simp only [fails_bind, not_fails_modifyAllocation, not_fails_emit, and_false, exists_false,
      or_false] at fails

theorem fails_reload (fails : (reload slot).Fails state error) :
    state.allocation.RegistersExhausted ∧ error = .exhausted state.allocation.currentOp := by
  simp only [reload, fails_bind, not_fails_emit, not_fails_freeSlot, not_fails_pure, and_false,
    exists_false, or_false] at fails
  exact fails_takeRegister fails

theorem fails_reloadFloat (fails : (reloadFloat slot).Fails state error) :
    state.allocation.FloatsExhausted ∧ error = .exhausted state.allocation.currentOp := by
  simp only [reloadFloat, fails_bind, not_fails_emit, not_fails_freeSlot, not_fails_pure, and_false,
    exists_false, or_false] at fails
  exact fails_takeFloat fails

theorem fails_boxFloat (fails : (boxFloat float).Fails state error) :
    state.allocation.RegistersExhausted ∧ error = .exhausted state.allocation.currentOp := by
  simp only [boxFloat, fails_bind, not_fails_emit, not_fails_returnFloat, not_fails_pure, and_false,
    exists_false, or_false] at fails
  exact fails_takeRegister fails

theorem fails_boxInPlace {id : OperandId} (fails : (boxInPlace id reg type).Fails state error) :
    type.valueType? = none ∧ error = .invariant (.noBoxedForm id type) := by
  unfold boxInPlace at fails
  split at fails
  · rename_i untagged
    exact ⟨untagged, (fails_violate.mp fails).symm⟩
  · simp only [fails_bind, not_fails_emit, not_fails_setKnownType, and_false, exists_false,
      or_false] at fails

/-- What fetching the boxed word of an operand can fail for. -/
inductive RefusesValue (state : Assembler) (id : OperandId) : CodeError → Prop
  | outside (count : Nat) : RefusesValue state id (.malformed (.operandOutOfRange id count))
  | nowhere (place : state.allocation.place id.toNat = .nowhere) :
      RefusesValue state id (.invariant (.notLive id))
  | untagged (type : PayloadType)
      (form : (state.allocation.place id.toNat).form? = some (.payload type))
      (untagged : type.valueType? = none) :
      RefusesValue state id (.invariant (.noBoxedForm id type))
  | register (op : Option Nat) (exhausted : state.allocation.RegistersExhausted) :
      RefusesValue state id (.exhausted op)
  | float (op : Option Nat) (exhausted : state.allocation.FloatsExhausted) :
      RefusesValue state id (.exhausted op)
  | reloaded (op : Option Nat) (slot : Nat) (float : FloatRegister) (loaded : Assembler)
      (place : state.allocation.place id.toNat = .floatSlot slot)
      (takes : TakesFloat state float loaded)
      (exhausted : (loaded.allocation.vacate slot).RegistersExhausted) :
      RefusesValue state id (.exhausted op)

theorem fails_useValueReg {id : OperandId} (fails : (useValueReg id).Fails state error) :
    RefusesValue state id error := by
  rcases fails_operandState_bind fails with rfl | ⟨operand, found, fails⟩
  · exact .outside _
  have place := Allocation.place_of_getElem? found
  split at fails
  all_goals rename_i location
  all_goals rw [location] at place
  all_goals
    simp only [fails_bind, not_fails_setLocation, not_fails_pin, not_fails_pure, and_false,
      exists_false, or_false] at fails
  · rw [(fails_boxInPlace fails).2]
    exact .untagged _ (by rw [place]; rfl) (fails_boxInPlace fails).1
  · obtain ⟨exhausted, rfl⟩ := fails_reload fails
    exact .register _ exhausted
  · rcases fails with fails | ⟨_, _, _, fails⟩
    · obtain ⟨exhausted, rfl⟩ := fails_reload fails
      exact .register _ exhausted
    · rw [(fails_boxInPlace fails).2]
      exact .untagged _ (by rw [place]; rfl) (fails_boxInPlace fails).1
  · obtain ⟨exhausted, rfl⟩ := fails_boxFloat fails
    exact .register _ exhausted
  · rcases fails with fails | ⟨_, _, reloads, fails⟩
    · obtain ⟨exhausted, rfl⟩ := fails_reloadFloat fails
      exact .float _ exhausted
    · obtain ⟨loaded, takes, rfl⟩ := runs_reloadFloat reloads
      obtain ⟨exhausted, rfl⟩ := fails_boxFloat fails
      exact .reloaded _ _ _ loaded place takes exhausted
  · rw [notLive, fails_violate] at fails
    subst fails
    exact .nowhere place

/-- What fetching the payload of an operand can fail for. -/
inductive RefusesPayload (state : Assembler) (id : OperandId) : CodeError → Prop
  | outside (count : Nat) : RefusesPayload state id (.malformed (.operandOutOfRange id count))
  | nowhere (place : state.allocation.place id.toNat = .nowhere) :
      RefusesPayload state id (.invariant (.notLive id))
  | unproven (form : (state.allocation.place id.toNat).form? = some .boxed) :
      RefusesPayload state id (.invariant (.tagNotProven id))
  | double (form : (state.allocation.place id.toNat).form? = some .double) :
      RefusesPayload state id (.invariant (.holdsDouble id))
  | register (op : Option Nat) (exhausted : state.allocation.RegistersExhausted) :
      RefusesPayload state id (.exhausted op)

theorem fails_useRegister {id : OperandId} (fails : (useRegister id).Fails state error) :
    RefusesPayload state id error := by
  rcases fails_operandState_bind fails with rfl | ⟨operand, found, fails⟩
  · exact .outside _
  have place := Allocation.place_of_getElem? found
  split at fails
  all_goals rename_i location
  all_goals rw [location] at place
  all_goals
    simp only [fails_bind, not_fails_setLocation, not_fails_pin, not_fails_emit, not_fails_pure,
      runs_provenPayload, and_false, exists_false, or_false] at fails
  · rw [fails_provenPayload fails]
    exact .unproven (by rw [place]; rfl)
  · obtain ⟨exhausted, rfl⟩ := fails_reload fails
    exact .register _ exhausted
  · rcases fails with fails | ⟨_, _, ⟨_, rfl⟩, fails⟩
    · rw [fails_provenPayload fails]
      exact .unproven (by rw [place]; rfl)
    · obtain ⟨exhausted, rfl⟩ := fails_reload fails
      exact .register _ exhausted
  · cases fails_violate.mp fails
    exact .double (by rw [place]; rfl)
  · cases fails_violate.mp fails
    exact .double (by rw [place]; rfl)
  · rw [notLive, fails_violate] at fails
    subst fails
    exact .nowhere place

/-- What defining an operand can fail for. -/
inductive RefusesDefinition (state : Assembler) (id : OperandId) : CodeError → Prop
  | outside (count : Nat) : RefusesDefinition state id (.malformed (.operandOutOfRange id count))
  | twice (defined : state.allocation.defined id.toNat = true) :
      RefusesDefinition state id (.invariant (.definedTwice id))
  | register (op : Option Nat) (exhausted : (state.allocation.markDefined id).RegistersExhausted) :
      RefusesDefinition state id (.exhausted op)

theorem fails_definePayloadReg {id : OperandId} (fails : (definePayloadReg id type).Fails state error) :
    RefusesDefinition state id error := by
  simp only [definePayloadReg, fails_bind, not_fails_setLocation, false_or] at fails
  rcases fails with marks | ⟨_, _, marked, takes | ⟨_, _, _, _, _, _, fails⟩⟩
  · rcases fails_markDefined marks with rfl | ⟨defined, rfl⟩
    · exact .outside _
    · exact .twice defined
  · obtain ⟨-, -, rfl⟩ := runs_markDefined marked
    obtain ⟨exhausted, rfl⟩ := fails_takeRegister takes
    exact .register _ exhausted
  · split at fails <;>
      simp only [fails_bind, not_fails_setKnownType, not_fails_pure, and_false, exists_false,
        or_false] at fails

theorem fails_allocateFloat (fails : allocateFloat.Fails state error) :
    state.allocation.FloatsExhausted ∧ error = .exhausted state.allocation.currentOp := by
  simp only [allocateFloat, fails_bind, not_fails_modifyAllocation, not_fails_pure, and_false,
    exists_false, or_false] at fails
  exact fails_takeFloat fails

/-- What fetching the number of an operand can fail for. -/
inductive RefusesNumber (state : Assembler) (id : OperandId) : CodeError → Prop
  | outside (count : Nat) : RefusesNumber state id (.malformed (.operandOutOfRange id count))
  | nowhere (place : state.allocation.place id.toNat = .nowhere) :
      RefusesNumber state id (.invariant (.notLive id))
  | payload (type : PayloadType)
      (form : (state.allocation.place id.toNat).form? = some (.payload type)) :
      RefusesNumber state id (.invariant (.numberHolds id type))
  | float (op : Option Nat) (exhausted : state.allocation.FloatsExhausted) :
      RefusesNumber state id (.exhausted op)
  | fetchPayload (error : CodeError)
      (form : (state.allocation.place id.toNat).form? = some (.payload .int32))
      (fails : (useRegister id).Fails state error) : RefusesNumber state id error
  | fetchValue (error : CodeError)
      (form : (state.allocation.place id.toNat).form? = some .boxed)
      (fails : (useValueReg id).Fails state error) : RefusesNumber state id error
  | payloadFloat (op : Option Nat) (src : Register) (fetched : Assembler)
      (uses : (useRegister id).Runs state src fetched)
      (exhausted : fetched.allocation.FloatsExhausted) : RefusesNumber state id (.exhausted op)
  | valueFloat (op : Option Nat) (src : Register) (fetched : Assembler)
      (uses : (useValueReg id).Runs state src fetched)
      (exhausted : fetched.allocation.FloatsExhausted) : RefusesNumber state id (.exhausted op)

theorem fails_useInt32Number {id : OperandId}
    (form : (state.allocation.place id.toNat).form? = some (.payload .int32))
    (fails : (useInt32Number id).Fails state error) : RefusesNumber state id error := by
  simp only [useInt32Number, fails_bind, not_fails_emit, not_fails_pure, and_false, exists_false,
    or_false] at fails
  rcases fails with fails | ⟨src, fetched, uses, fails⟩
  · exact .fetchPayload _ form fails
  · obtain ⟨exhausted, rfl⟩ := fails_allocateFloat fails
    exact .payloadFloat _ src fetched uses exhausted

theorem fails_useBoxedNumber {id : OperandId}
    (form : (state.allocation.place id.toNat).form? = some .boxed)
    (fails : (useBoxedNumber id).Fails state error) : RefusesNumber state id error := by
  simp only [useBoxedNumber, fails_bind, not_fails_allocation, runs_allocation, false_or] at fails
  obtain ⟨_, _, ⟨rfl, rfl⟩, fails | ⟨src, fetched, uses, fails⟩⟩ := fails
  · exact .fetchValue _ form fails
  · split at fails <;>
      simp only [fails_bind, not_fails_emit, not_fails_modifyAllocation, not_fails_setLocation,
        not_fails_pure, and_false, exists_false, or_false] at fails
    · obtain ⟨exhausted, rfl⟩ := fails_takeFloat fails
      exact .valueFloat _ src fetched uses exhausted
    · obtain ⟨exhausted, rfl⟩ := fails_allocateFloat fails
      exact .valueFloat _ src fetched uses exhausted

theorem fails_useNumber {id : OperandId} (fails : (useNumber id).Fails state error) :
    RefusesNumber state id error := by
  rcases fails_operandState_bind fails with rfl | ⟨operand, found, fails⟩
  · exact .outside _
  have place := Allocation.place_of_getElem? found
  split at fails
  all_goals rename_i location
  all_goals rw [location] at place
  · simp only [fails_bind, not_fails_modifyAllocation, not_fails_pure, and_false, exists_false,
      or_false] at fails
  · simp only [fails_bind, not_fails_setLocation, not_fails_pure, and_false, exists_false,
      or_false] at fails
    obtain ⟨exhausted, rfl⟩ := fails_reloadFloat fails
    exact .float _ exhausted
  · split at fails
    · rename_i int32
      subst int32
      exact fails_useInt32Number (by rw [place]; rfl) fails
    · cases fails_violate.mp fails
      exact .payload _ (by rw [place]; rfl)
  · split at fails
    · rename_i int32
      subst int32
      exact fails_useInt32Number (by rw [place]; rfl) fails
    · cases fails_violate.mp fails
      exact .payload _ (by rw [place]; rfl)
  · exact fails_useBoxedNumber (by rw [place]; rfl) fails
  · exact fails_useBoxedNumber (by rw [place]; rfl) fails
  · rw [notLive, fails_violate] at fails
    subst fails
    exact .nowhere place

theorem not_fails_freeLocation : ¬(freeLocation location).Fails state error := by
  intro fails
  cases location with
  | nowhere => exact not_fails_pure fails
  | payloadReg | valueReg | payloadSlot | valueSlot | floatSlot => exact not_fails_modify fails
  | floatReg reg => exact not_fails_returnFloat fails

theorem not_fails_beginOp {index : Nat} : ¬(beginOp index).Fails state error := by
  simp only [beginOp, fails_bind, not_fails_modifyAllocation, not_fails_allocation,
    runs_modifyAllocation, runs_allocation, false_or]
  rintro ⟨_, _, rfl, _, _, ⟨rfl, rfl⟩, fails⟩
  have evicts (dead : List (OperandState × Nat)) (state : Assembler) :
      ¬(dead.forM evict).Fails state error := by
    induction dead generalizing state with
    | nil => exact not_fails_pure
    | cons first rest ih =>
        show ¬(evict first >>= fun _ => rest.forM evict).Fails state error
        simp only [evict, fails_bind, not_fails_freeLocation, not_fails_setLocation, ih, and_false,
          exists_false, or_false, not_false_eq_true]
  exact evicts _ _ fails

/-- What defining an input can fail for. -/
inductive RefusesInput (state : Assembler) (index : Nat) : CodeError → Prop
  | outside (count : Nat) :
      RefusesInput state index (.malformed (.operandOutOfRange (UInt8.ofNat index) count))
  | twice (defined : state.allocation.defined (index % 256) = true) :
      RefusesInput state index (.invariant (.definedTwice (UInt8.ofNat index)))
  | register (op : Option Nat)
      (exhausted : (state.allocation.markDefined (UInt8.ofNat index)).unpin.RegistersExhausted) :
      RefusesInput state index (.exhausted op)

theorem fails_defineInput (fails : (defineInput index).Fails state error) :
    RefusesInput state index error := by
  simp only [defineInput, fails_bind, not_fails_modifyAllocation, runs_modifyAllocation,
    runs_operandState, false_or] at fails
  rcases fails with fails | ⟨_, _, marks, _, _, rfl, fails | ⟨operand, _, ⟨-, rfl⟩, fails⟩⟩
  · rcases fails_markDefined fails with rfl | ⟨defined, rfl⟩
    · exact .outside _
    · exact .twice (UInt8.toNat_ofNat' ▸ defined)
  · rw [(fails_operandState fails).2]
    exact .outside _
  · obtain ⟨-, -, rfl⟩ := runs_markDefined marks
    split at fails
    · simp only [fails_bind, not_fails_emit, not_fails_setLocation, and_false, exists_false,
        or_false] at fails
      obtain ⟨exhausted, rfl⟩ := fails_takeRegister fails
      exact .register _ exhausted
    · exact absurd fails not_fails_pure

end Asm

end InlineCache
