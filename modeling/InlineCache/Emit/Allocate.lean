import InlineCache.Emit.Assembler

/-!
Handing out registers.  They are taken in ascending order; when none is free, the first operand that
the current operation does not hold is moved to the first free slot.  An operand gives up its place
after the last operation that mentions it.
-/

namespace InlineCache.Asm

/-- The state of an operand, which must be one of the program's. -/
def operandState (id : OperandId) : Asm OperandState := do
  let allocation ← allocation
  match allocation.operand? id with
  | some operand => return operand
  | none => reject (.operandOutOfRange id allocation.operands.length)

def exhausted : Asm α := do
  throw (.exhausted (← allocation).currentOp)

/-- Marks an operand as defined, which happens once. -/
def markDefined (id : OperandId) : Asm Unit := do
  let operand ← operandState id
  modifyAllocation (·.modifyOperand id.toNat fun operand => { operand with isDefined := true })
  if operand.isDefined then violate (.definedTwice id)

def notLive (id : OperandId) : Asm α :=
  violate (.notLive id)

/-- The payload of the tag that was proven of an operand. -/
def provenPayload (id : OperandId) : Asm PayloadType := do
  match ((← allocation).knownType id).bind PayloadType.ofValueType? with
  | some type => return type
  | none => violate (.tagNotProven id)

def freeSlot (slot : Nat) : Asm Unit :=
  modifyAllocation fun allocation =>
    { allocation with usedSlots := allocation.usedSlots.filter (· ≠ slot) }

/-- The first free slot below the limit. -/
def takeSlot : Asm Nat := do
  let slot := Allocation.leastFree (← allocation).usedSlots
  if slot < (← allocation).spillLimit then
    modifyAllocation fun allocation =>
      { allocation with
        usedSlots := slot :: allocation.usedSlots
        slotCount := max allocation.slotCount (slot + 1) }
    return slot
  else exhausted

/-- Moves the first operand whose register is not pinned to a slot. -/
def spillOperand : Asm Register := do
  let allocation ← allocation
  let victim := allocation.operands.zipIdx.findSome? fun (operand, index) =>
    match operand.location.register? with
    | some reg =>
        if allocation.pinned.contains reg.index then none else some (operand.location, reg, index)
    | none => none
  match victim with
  | none => exhausted
  | some (location, reg, index) =>
      let slot ← takeSlot
      emit (.spill slot reg)
      match location with
      | .payloadReg _ type => setLocation index (.payloadSlot slot type)
      | _ => setLocation index (.valueSlot slot)
      return reg

def pin (reg : Register) : Asm Unit :=
  modifyAllocation fun allocation =>
    { allocation with pinned := allocation.pinned.insert reg.index }

def takeRegister : Asm Register := do
  let reg ← match (← allocation).available.takeLowest with
    | some (r, available) => do
        modifyAllocation fun allocation => { allocation with available }
        pure ⟨r⟩
    | none => spillOperand
  pin reg
  return reg

/-- Moves the first operand whose float register is not pinned to a slot. -/
def spillFloatOperand : Asm FloatRegister := do
  let allocation ← allocation
  let victim := allocation.operands.zipIdx.findSome? fun (operand, index) =>
    match operand.location.floatRegister? with
    | some reg => if allocation.pinnedFloats.contains reg.index then none else some (reg, index)
    | none => none
  match victim with
  | none => exhausted
  | some (reg, index) =>
      let slot ← takeSlot
      emit (.spillFloat slot reg)
      setLocation index (.floatSlot slot)
      return reg

/-- Saves a float register that the caller owns to the first free save slot. -/
def saveFloat (reg : FloatRegister) : Asm Unit := do
  if (← allocation).savesFloats then
    let slot := Allocation.leastFree ((← allocation).saved.map Prod.snd)
    emit (.saveFloat reg slot)
    modifyAllocation fun allocation =>
      { allocation with
        saved := allocation.saved ++ [(reg, slot)]
        saveCount := max allocation.saveCount (slot + 1) }

def takeFloat : Asm FloatRegister := do
  let reg ← match (← allocation).availableFloats.takeLowest with
    | some (f, availableFloats) => do
        modifyAllocation fun allocation => { allocation with availableFloats }
        saveFloat ⟨f⟩
        pure ⟨f⟩
    | none => spillFloatOperand
  modifyAllocation fun allocation =>
    { allocation with pinnedFloats := allocation.pinnedFloats.insert reg.index }
  return reg

/-- Gives a float register back, with the caller's number in it. -/
def returnFloat (reg : FloatRegister) : Asm Unit := do
  match (← allocation).saved.find? (·.1 = reg) with
  | some (_, slot) =>
      modifyAllocation fun allocation =>
        { allocation with saved := allocation.saved.eraseP (·.1 = reg) }
      emit (.restoreFloat reg slot)
  | none => pure ()
  modifyAllocation fun allocation =>
    { allocation with
      pinnedFloats := allocation.pinnedFloats.remove reg.index
      availableFloats := allocation.availableFloats.insert reg.index }

def freeRegister (reg : Register) : Asm Unit :=
  modifyAllocation fun allocation =>
    { allocation with available := allocation.available.insert reg.index }

/-- Gives back what a location occupies. -/
def freeLocation : Location → Asm Unit
  | .nowhere => return ()
  | .payloadReg reg _ | .valueReg reg => freeRegister reg
  | .floatReg reg => returnFloat reg
  | .payloadSlot slot _ | .valueSlot slot | .floatSlot slot => freeSlot slot

def allocateRegister : Asm Register := do
  let reg ← takeRegister
  modifyAllocation fun allocation =>
    { allocation with scratch := allocation.scratch.insert reg.index }
  return reg

def releaseRegister (reg : Register) : Asm Unit :=
  modifyAllocation fun allocation =>
    if allocation.scratch.contains reg.index then
      { allocation with
        scratch := allocation.scratch.remove reg.index
        pinned := allocation.pinned.remove reg.index
        available := allocation.available.insert reg.index }
    else allocation

def allocateFloat : Asm FloatRegister := do
  let reg ← takeFloat
  modifyAllocation fun allocation =>
    { allocation with scratchFloats := allocation.scratchFloats.insert reg.index }
  return reg

def releaseFloat (reg : FloatRegister) : Asm Unit := do
  if (← allocation).scratchFloats.contains reg.index then
    modifyAllocation fun allocation =>
      { allocation with scratchFloats := allocation.scratchFloats.remove reg.index }
    returnFloat reg

/-- Defines an input, and loads it if some operation mentions it. -/
def defineInput (index : Nat) : Asm Unit := do
  let id := UInt8.ofNat index
  markDefined id
  modifyAllocation fun allocation => { allocation with pinned := .empty }
  if (← operandState id).lastUse.isSome then
    let reg ← takeRegister
    emit (.loadInput reg id)
    setLocation index (.valueReg reg)

/-- Defines the first operands as the inputs of the program. -/
def defineInputs (count : Nat) : Asm Unit :=
  (List.range count).forM defineInput

/-- Moves on to an operation: scratch registers and the places of dead operands become free. -/
def beginOp (index : Nat) : Asm Unit := do
  modifyAllocation fun allocation =>
    { allocation with
      available := allocation.available.union allocation.scratch
      scratch := .empty
      currentOp := some index
      pinned := .empty
      pinnedFloats := .empty }
  let dead := (← allocation).operands.zipIdx.filter fun (operand, _) =>
    operand.lastUse.all (· < index) && operand.location.isSomewhere
  dead.forM fun (operand, id) => do
    freeLocation operand.location
    setLocation id .nowhere

end InlineCache.Asm
