import InlineCache.Proofs.Code.RegisterSet
import InlineCache.Proofs.Emit.Place
import InlineCache.Proofs.Emit.Runs

/-!
What the basic stretches of register allocation can do.  Taking a register has two ways to go, out of
the pool or from an operand that is spilled; each is a constructor that holds everything one may know
of it.  All that is said of allocation later is read off these cases.
-/

namespace InlineCache

namespace Allocation

theorem leastFree_not_mem (used : List Nat) : leastFree used ∉ used := by
  unfold leastFree
  cases found : (List.range used.length).find? (· ∉ used) with
  | some slot => simpa using List.find?_some found
  | none =>
      intro member
      have covered : List.range (used.length + 1) ⊆ used := by
        intro slot inRange
        rcases Nat.lt_or_eq_of_le (Nat.lt_succ_iff.mp (List.mem_range.mp inRange)) with
          bound | rfl
        · simpa using List.find?_eq_none.mp found slot (List.mem_range.mpr bound)
        · exact member
      have tooLong := List.nodup_range.length_le_of_subset covered
      rw [List.length_range] at tooLong
      omega

def pin (allocation : Allocation) (reg : Register) : Allocation :=
  { allocation with pinned := allocation.pinned.insert reg.index }

def pinFloat (allocation : Allocation) (reg : FloatRegister) : Allocation :=
  { allocation with pinnedFloats := allocation.pinnedFloats.insert reg.index }

/-- Takes a register out of the pool. -/
def grab (allocation : Allocation) (reg : Register) : Allocation :=
  { allocation with available := allocation.available.remove reg.index }

def grabFloat (allocation : Allocation) (reg : FloatRegister) : Allocation :=
  { allocation with availableFloats := allocation.availableFloats.remove reg.index }

/-- Puts a register back into the pool. -/
def free (allocation : Allocation) (reg : Register) : Allocation :=
  { allocation with available := allocation.available.insert reg.index }

def occupy (allocation : Allocation) (slot : Nat) : Allocation :=
  { allocation with
    usedSlots := slot :: allocation.usedSlots
    slotCount := max allocation.slotCount (slot + 1) }

def vacate (allocation : Allocation) (slot : Nat) : Allocation :=
  { allocation with usedSlots := allocation.usedSlots.filter (· ≠ slot) }

/-- Keeps a register as scratch. -/
def hold (allocation : Allocation) (reg : Register) : Allocation :=
  { allocation with scratch := allocation.scratch.insert reg.index }

def holdFloat (allocation : Allocation) (reg : FloatRegister) : Allocation :=
  { allocation with scratchFloats := allocation.scratchFloats.insert reg.index }

/-- Gives a scratch register back to the pool. -/
def release (allocation : Allocation) (reg : Register) : Allocation :=
  { allocation with
    scratch := allocation.scratch.remove reg.index
    pinned := allocation.pinned.remove reg.index
    available := allocation.available.insert reg.index }

/-- Gives a register that an operand has left back to the pool. -/
def yield (allocation : Allocation) (reg : Register) : Allocation :=
  { allocation with
    pinned := allocation.pinned.remove reg.index
    available := allocation.available.insert reg.index }

def recordSave (allocation : Allocation) (reg : FloatRegister) (slot : Nat) : Allocation :=
  { allocation with
    saved := allocation.saved ++ [(reg, slot)]
    saveCount := max allocation.saveCount (slot + 1) }

def dropSave (allocation : Allocation) (reg : FloatRegister) : Allocation :=
  { allocation with saved := allocation.saved.eraseP (·.1 = reg) }

def freeFloat (allocation : Allocation) (reg : FloatRegister) : Allocation :=
  { allocation with
    pinnedFloats := allocation.pinnedFloats.remove reg.index
    availableFloats := allocation.availableFloats.insert reg.index }

/-- Takes a float register from the scratch ones. -/
def dropFloat (allocation : Allocation) (reg : FloatRegister) : Allocation :=
  { allocation with scratchFloats := allocation.scratchFloats.remove reg.index }

def markDefined (allocation : Allocation) (id : OperandId) : Allocation :=
  allocation.modifyOperand id.toNat fun operand => { operand with isDefined := true }

/-- Takes the tag of a payload as proven of an operand, if it has one. -/
def learn (allocation : Allocation) (id : OperandId) (type : PayloadType) : Allocation :=
  type.valueType?.elim allocation (allocation.setKnownType id)

/-- Moves an operand from its register to a slot. -/
def spill (allocation : Allocation) (index slot : Nat) : Allocation :=
  (allocation.occupy slot).setLocation index ((allocation.place index).spilled slot)

def spillFloat (allocation : Allocation) (index slot : Nat) : Allocation :=
  (allocation.occupy slot).setLocation index (.floatSlot slot)

def unpin (allocation : Allocation) : Allocation :=
  { allocation with pinned := .empty }

/-- Forgets what the last operation held. -/
def turn (allocation : Allocation) (index : Nat) : Allocation :=
  { allocation with
    available := allocation.available.union allocation.scratch
    scratch := .empty
    currentOp := some index
    pinned := .empty
    pinnedFloats := .empty }

theorem defined_markDefined (allocation : Allocation) (id : OperandId)
    (bound : id.toNat < allocation.operands.length) :
    (allocation.markDefined id).defined id.toNat = true := by
  simp only [defined, markDefined, operand?_modifyOperand,
    if_true, List.getElem?_eq_getElem bound]
  rfl

theorem place_markDefined (allocation : Allocation) (id : OperandId) (index : Nat) :
    (allocation.markDefined id).place index = allocation.place index :=
  place_modifyOperand _ _ _ fun _ => rfl

theorem known_markDefined (allocation : Allocation) (id : OperandId) (index : Nat) :
    (allocation.markDefined id).known index = allocation.known index := by
  simp only [known, markDefined, operand?_modifyOperand]
  split
  · cases allocation.operands[index]? <;> rfl
  · rfl

theorem defined_markDefined_of_defined {allocation : Allocation} (id : OperandId) {index : Nat}
    (defined : allocation.defined index = true) :
    (allocation.markDefined id).defined index = true := by
  by_cases same : id.toNat = index
  · subst same
    exact defined_markDefined _ _ (lt_of_defined defined)
  · rw [Allocation.defined, markDefined, operand?_modifyOperand, if_neg same]
    exact defined

theorem pinned_learn (allocation : Allocation) (id : OperandId) (type : PayloadType) :
    (allocation.learn id type).pinned = allocation.pinned ∧
      (allocation.learn id type).scratch = allocation.scratch := by
  unfold learn
  cases type.valueType? <;> exact ⟨rfl, rfl⟩

theorem place_learn (allocation : Allocation) (id : OperandId) (type : PayloadType) (i : Nat) :
    (allocation.learn id type).place i = allocation.place i := by
  unfold learn
  cases type.valueType? with
  | none => rfl
  | some tag => exact place_setKnownType _ _ _ _

theorem defined_learn (allocation : Allocation) (id : OperandId) (type : PayloadType) (i : Nat) :
    (allocation.learn id type).defined i = allocation.defined i := by
  unfold learn
  cases type.valueType? with
  | none => rfl
  | some tag => exact defined_setKnownType _ _ _ _

theorem known_learn {allocation : Allocation} {id : OperandId} {type : PayloadType}
    (bound : id.toNat < allocation.operands.length) (i : Nat) :
    (allocation.learn id type).known i =
      if i = id.toNat then type.valueType?.or (allocation.known i) else allocation.known i := by
  unfold learn
  cases type.valueType? with
  | none => rw [Option.elim_none, Option.none_or, ite_self]
  | some tag =>
      rw [Option.elim_some, known_setKnownType, Option.some_or]
      by_cases own : i = id.toNat
      · rw [if_pos ⟨own.symm, own ▸ bound⟩, if_pos own]
      · rw [if_neg fun same => own same.1.symm, if_neg own]

end Allocation

namespace Asm

theorem runs_operandState {id : OperandId} :
    (operandState id).Runs state operand after ↔
      state.allocation.operands[id.toNat]? = some operand ∧ state = after := by
  simp only [operandState, runs_bind, runs_allocation, Allocation.operand?]
  constructor
  · rintro ⟨_, _, ⟨rfl, rfl⟩, runs⟩
    split at runs
    · rename_i found
      obtain ⟨rfl, rfl⟩ := runs_pure.mp runs
      exact ⟨found, rfl⟩
    · exact absurd runs not_runs_reject
  · rintro ⟨found, rfl⟩
    refine ⟨_, _, ⟨rfl, rfl⟩, ?_⟩
    simp only [found]
    exact runs_pure.mpr ⟨rfl, rfl⟩

theorem runs_markDefined {id : OperandId} (runs : (markDefined id).Runs state answer after) :
    id.toNat < state.allocation.operands.length ∧ state.allocation.defined id.toNat = false ∧
      after = state.withAllocation (state.allocation.markDefined id) := by
  simp only [markDefined, runs_bind, runs_operandState, runs_modifyAllocation] at runs
  obtain ⟨operand, _, ⟨found, rfl⟩, _, _, rfl, runs⟩ := runs
  split at runs
  · exact absurd runs not_runs_violate
  · rename_i undefined
    obtain ⟨bound, -⟩ := List.getElem?_eq_some_iff.mp found
    refine ⟨bound, ?_, (runs_pure.mp runs).2.symm⟩
    simpa only [Allocation.defined, found, Option.any_some, Bool.not_eq_true] using undefined

theorem runs_provenPayload {id : OperandId} :
    (provenPayload id).Runs state type after ↔
      (state.allocation.known id.toNat).bind PayloadType.ofValueType? = some type ∧
        state = after := by
  simp only [provenPayload, runs_bind, runs_allocation, Allocation.knownType_eq_known]
  constructor
  · rintro ⟨_, _, ⟨rfl, rfl⟩, runs⟩
    split at runs
    · rename_i found
      obtain ⟨rfl, rfl⟩ := runs_pure.mp runs
      exact ⟨found, rfl⟩
    · exact absurd runs not_runs_violate
  · rintro ⟨found, rfl⟩
    refine ⟨_, _, ⟨rfl, rfl⟩, ?_⟩
    simp only [found]
    exact runs_pure.mpr ⟨rfl, rfl⟩

theorem runs_freeSlot :
    (freeSlot slot).Runs state answer after ↔
      after = state.withAllocation (state.allocation.vacate slot) :=
  runs_modifyAllocation

theorem runs_pin :
    (pin reg).Runs state answer after ↔
      after = state.withAllocation (state.allocation.pin reg) :=
  runs_modifyAllocation

theorem runs_freeRegister :
    (freeRegister reg).Runs state answer after ↔
      after = state.withAllocation (state.allocation.free reg) :=
  runs_modifyAllocation

theorem runs_releaseRegister :
    (releaseRegister reg).Runs state answer after ↔
      after = state.withAllocation
        (if state.allocation.scratch.contains reg.index then state.allocation.release reg
        else state.allocation) :=
  runs_modifyAllocation

theorem runs_takeSlot (runs : takeSlot.Runs state slot after) :
    slot ∉ state.allocation.usedSlots ∧ slot < state.allocation.spillLimit ∧
      after = state.withAllocation (state.allocation.occupy slot) := by
  simp only [takeSlot, runs_bind, runs_allocation] at runs
  obtain ⟨_, _, ⟨rfl, rfl⟩, _, _, ⟨rfl, rfl⟩, runs⟩ := runs
  split at runs
  · rename_i bound
    simp only [runs_bind, runs_modifyAllocation, runs_pure] at runs
    obtain ⟨_, _, rfl, rfl, rfl⟩ := runs
    exact ⟨Allocation.leastFree_not_mem _, bound, rfl⟩
  · exact absurd runs not_runs_exhausted

theorem place_of_mem_zipIdx (allocation : Allocation) {operand : OperandState} {index : Nat}
    (member : (operand, index) ∈ allocation.operands.zipIdx) :
    allocation.place index = operand.location :=
  Allocation.place_of_getElem? (List.mk_mem_zipIdx_iff_getElem?.mp member)

theorem lastUse_of_mem_zipIdx (allocation : Allocation) {operand : OperandState} {index : Nat}
    (member : (operand, index) ∈ allocation.operands.zipIdx) :
    allocation.lastUse index = operand.lastUse :=
  congrArg (fun found : Option OperandState => found.bind (·.lastUse))
    (List.mk_mem_zipIdx_iff_getElem?.mp member)

theorem runs_spillOperand (runs : spillOperand.Runs state reg after) :
    ∃ index slot,
      (state.allocation.place index).register? = some reg ∧
      state.allocation.pinned.contains reg.index = false ∧
      slot ∉ state.allocation.usedSlots ∧
      slot < state.allocation.spillLimit ∧
      after = (state.emitted (.spill slot reg)).withAllocation
        (state.allocation.spill index slot) := by
  simp only [spillOperand, runs_bind, runs_allocation] at runs
  obtain ⟨_, _, ⟨rfl, rfl⟩, runs⟩ := runs
  split at runs
  · exact absurd runs not_runs_exhausted
  · rename_i location victim index found
    simp only [runs_bind, runs_emit] at runs
    obtain ⟨slot, _, takes, _, _, rfl, runs⟩ := runs
    obtain ⟨unused, bound, rfl⟩ := runs_takeSlot takes
    obtain ⟨⟨operand, _⟩, member, selected⟩ := List.exists_of_findSome?_eq_some found
    dsimp only at selected
    split at selected
    · rename_i held
      split at selected
      · cases selected
      · rename_i unpinned
        cases selected
        have place := place_of_mem_zipIdx _ member
        rw [← place] at held runs
        refine ⟨index, slot, ?_⟩
        cases location : state.allocation.place index with
        | payloadReg reg type | valueReg reg =>
            rw [location] at held runs
            simp only [runs_bind, runs_setLocation, runs_pure] at runs
            obtain ⟨_, _, rfl, rfl, rfl⟩ := runs
            refine ⟨held, Bool.eq_false_iff.mpr unpinned, unused, bound, ?_⟩
            simp only [Allocation.spill, location]
            rfl
        | _ =>
            rw [location] at held
            cases held
    · cases selected

/-- The ways to come by a register. -/
inductive TakesRegister (state : Assembler) (reg : Register) : Assembler → Prop
  | pool (available : state.allocation.available.contains reg.index = true) :
      TakesRegister state reg (state.withAllocation ((state.allocation.grab reg).pin reg))
  | spill (index slot : Nat)
      (exhausted : ∀ r, state.allocation.available.contains r = false)
      (held : (state.allocation.place index).register? = some reg)
      (unpinned : state.allocation.pinned.contains reg.index = false)
      (unused : slot ∉ state.allocation.usedSlots)
      (bound : slot < state.allocation.spillLimit) :
      TakesRegister state reg
        ((state.emitted (.spill slot reg)).withAllocation
          ((state.allocation.spill index slot).pin reg))

theorem takesRegister (runs : takeRegister.Runs state reg after) :
    TakesRegister state reg after := by
  simp only [takeRegister, runs_bind, runs_allocation] at runs
  obtain ⟨_, _, ⟨rfl, rfl⟩, runs⟩ := runs
  split at runs
  · rename_i taken
    simp only [runs_bind, runs_modifyAllocation, runs_pure, runs_pin] at runs
    obtain ⟨_, _, rfl, _, _, ⟨rfl, rfl⟩, _, _, rfl, rfl, rfl⟩ := runs
    obtain ⟨available, rfl⟩ := RegisterSet.takeLowest_eq_some taken
    exact .pool available
  · rename_i taken
    simp only [runs_bind, runs_pure, runs_pin] at runs
    obtain ⟨_, _, spilled, _, _, rfl, rfl, rfl⟩ := runs
    obtain ⟨index, slot, held, unpinned, unused, bound, rfl⟩ := runs_spillOperand spilled
    exact .spill index slot (RegisterSet.takeLowest_eq_none taken) held unpinned unused bound

theorem runs_spillFloatOperand (runs : spillFloatOperand.Runs state reg after) :
    ∃ index slot,
      (state.allocation.place index).floatRegister? = some reg ∧
      slot ∉ state.allocation.usedSlots ∧
      slot < state.allocation.spillLimit ∧
      after = (state.emitted (.spillFloat slot reg)).withAllocation
        (state.allocation.spillFloat index slot) := by
  simp only [spillFloatOperand, runs_bind, runs_allocation] at runs
  obtain ⟨_, _, ⟨rfl, rfl⟩, runs⟩ := runs
  split at runs
  · exact absurd runs not_runs_exhausted
  · rename_i victim index found
    simp only [runs_bind, runs_emit, runs_setLocation, runs_pure] at runs
    obtain ⟨slot, _, takes, _, _, rfl, _, _, rfl, rfl, rfl⟩ := runs
    obtain ⟨unused, bound, rfl⟩ := runs_takeSlot takes
    obtain ⟨⟨operand, _⟩, member, selected⟩ := List.exists_of_findSome?_eq_some found
    dsimp only at selected
    split at selected
    · rename_i held
      split at selected
      · cases selected
      · cases selected
        rw [← place_of_mem_zipIdx _ member] at held
        exact ⟨index, slot, held, unused, bound, rfl⟩
    · cases selected

/-- The ways to come by a float register. -/
inductive TakesFloat (state : Assembler) (reg : FloatRegister) : Assembler → Prop
  | pool (available : state.allocation.availableFloats.contains reg.index = true)
      (unsaved : state.allocation.savesFloats = false) :
      TakesFloat state reg (state.withAllocation ((state.allocation.grabFloat reg).pinFloat reg))
  | save (slot : Nat) (available : state.allocation.availableFloats.contains reg.index = true)
      (saves : state.allocation.savesFloats = true)
      (unused : slot ∉ state.allocation.saved.map Prod.snd) :
      TakesFloat state reg
        ((state.emitted (.saveFloat reg slot)).withAllocation
          (((state.allocation.grabFloat reg).recordSave reg slot).pinFloat reg))
  | spill (index slot : Nat)
      (exhausted : ∀ r, state.allocation.availableFloats.contains r = false)
      (held : (state.allocation.place index).floatRegister? = some reg)
      (unused : slot ∉ state.allocation.usedSlots)
      (bound : slot < state.allocation.spillLimit) :
      TakesFloat state reg
        ((state.emitted (.spillFloat slot reg)).withAllocation
          ((state.allocation.spillFloat index slot).pinFloat reg))

theorem takesFloat (runs : takeFloat.Runs state reg after) : TakesFloat state reg after := by
  simp only [takeFloat, runs_bind, runs_allocation] at runs
  obtain ⟨_, _, ⟨rfl, rfl⟩, runs⟩ := runs
  split at runs
  · rename_i taken
    simp only [runs_bind, runs_modifyAllocation, runs_pure] at runs
    obtain ⟨_, _, rfl, _, _, saves, _, _, ⟨rfl, rfl⟩, _, _, rfl, rfl, rfl⟩ := runs
    obtain ⟨available, rfl⟩ := RegisterSet.takeLowest_eq_some taken
    simp only [saveFloat, runs_bind, runs_allocation] at saves
    obtain ⟨_, _, ⟨rfl, rfl⟩, saves⟩ := saves
    split at saves
    · rename_i enabled
      simp only [runs_bind, runs_allocation, runs_emit, runs_modifyAllocation] at saves
      obtain ⟨_, _, ⟨rfl, rfl⟩, _, _, rfl, rfl⟩ := saves
      exact .save _ available enabled (Allocation.leastFree_not_mem _)
    · rename_i disabled
      obtain ⟨-, rfl⟩ := runs_pure.mp saves
      exact .pool available (Bool.eq_false_iff.mpr disabled)
  · rename_i taken
    simp only [runs_bind, runs_modifyAllocation, runs_pure] at runs
    obtain ⟨_, _, spilled, _, _, rfl, rfl, rfl⟩ := runs
    obtain ⟨index, slot, held, unused, bound, rfl⟩ := runs_spillFloatOperand spilled
    exact .spill index slot (RegisterSet.takeLowest_eq_none taken) held unused bound

/-- The ways to give a float register back. -/
inductive ReturnsFloat (state : Assembler) (reg : FloatRegister) : Assembler → Prop
  | restore (slot : Nat) (saved : (reg, slot) ∈ state.allocation.saved) :
      ReturnsFloat state reg
        ((state.emitted (.restoreFloat reg slot)).withAllocation
          ((state.allocation.dropSave reg).freeFloat reg))
  | unsaved (unsaved : ∀ slot, (reg, slot) ∉ state.allocation.saved) :
      ReturnsFloat state reg (state.withAllocation (state.allocation.freeFloat reg))

theorem returnsFloat (runs : (returnFloat reg).Runs state answer after) :
    ReturnsFloat state reg after := by
  simp only [returnFloat, runs_bind, runs_allocation] at runs
  obtain ⟨_, _, ⟨rfl, rfl⟩, runs⟩ := runs
  split at runs
  · rename_i found
    simp only [runs_bind, runs_modifyAllocation, runs_emit] at runs
    obtain ⟨_, _, rfl, _, _, rfl, rfl⟩ := runs
    have same := List.find?_some found
    have member := List.mem_of_find?_eq_some found
    simp only [decide_eq_true_eq] at same
    subst same
    exact .restore _ member
  · rename_i found
    rw [runs_modifyAllocation] at runs
    subst runs
    refine .unsaved fun slot member => ?_
    simpa using List.find?_eq_none.mp found _ member

/-- An operand that is in no register is not moved. -/
theorem TakesRegister.place (takes : TakesRegister state reg after) (index : Nat)
    (elsewhere : (state.allocation.place index).register? = none) :
    after.allocation.place index = state.allocation.place index := by
  cases takes with
  | pool available => rfl
  | spill victim slot _ held _ _ _ =>
      refine Allocation.place_setLocation_ne ?_
      rintro rfl
      rw [elsewhere] at held
      cases held

theorem TakesFloat.place (takes : TakesFloat state reg after) (index : Nat)
    (elsewhere : (state.allocation.place index).floatRegister? = none) :
    after.allocation.place index = state.allocation.place index := by
  cases takes with
  | pool | save => rfl
  | spill victim slot _ held _ _ =>
      refine Allocation.place_setLocation_ne ?_
      rintro rfl
      rw [elsewhere] at held
      cases held

theorem TakesRegister.defined (takes : TakesRegister state reg after) (index : Nat) :
    after.allocation.defined index = state.allocation.defined index := by
  cases takes with
  | pool available => rfl
  | spill victim slot => exact Allocation.defined_setLocation ..

theorem TakesRegister.length (takes : TakesRegister state reg after) :
    after.allocation.operands.length = state.allocation.operands.length := by
  cases takes with
  | pool available => rfl
  | spill victim slot => exact Allocation.length_setLocation ..

theorem TakesFloat.length (takes : TakesFloat state reg after) :
    after.allocation.operands.length = state.allocation.operands.length := by
  cases takes with
  | pool | save => rfl
  | spill victim slot => exact Allocation.length_setLocation ..

theorem ReturnsFloat.operands (returns : ReturnsFloat state reg after) :
    after.allocation.operands = state.allocation.operands := by
  cases returns <;> rfl

end Asm

end InlineCache
