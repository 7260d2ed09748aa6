import InlineCache.Emit.Allocate

/-!
Bringing operands into the form that an instruction wants: boxed, as a payload, or as a number in a
float register.
-/

namespace InlineCache.Asm

def defineValueReg (id : OperandId) : Asm Register := do
  markDefined id
  let reg ← takeRegister
  setLocation id.toNat (.valueReg reg)
  return reg

def definePayloadReg (id : OperandId) (type : PayloadType) : Asm Register := do
  markDefined id
  let reg ← takeRegister
  setLocation id.toNat (.payloadReg reg type)
  match type.valueType? with
  | some tag => setKnownType id tag
  | none => pure ()
  return reg

/-- Gives a payload its tag, where it is. -/
def boxInPlace (id : OperandId) (reg : Register) (type : PayloadType) : Asm Unit :=
  match type.valueType? with
  | none => violate (.noBoxedForm id type)
  | some tag => do
      emit (.boxPayload reg reg type)
      setKnownType id tag

/-- Takes a register and loads a slot into it, which becomes free. -/
def reload (slot : Nat) : Asm Register := do
  let reg ← takeRegister
  emit (.restore reg slot)
  freeSlot slot
  return reg

def reloadFloat (slot : Nat) : Asm FloatRegister := do
  let reg ← takeFloat
  emit (.reloadFloat reg slot)
  freeSlot slot
  return reg

def boxFloat (float : FloatRegister) : Asm Register := do
  let reg ← takeRegister
  emit (.boxDouble float reg)
  returnFloat float
  return reg

/-- The operand in boxed form, in a register. -/
def useValueReg (id : OperandId) : Asm Register := do
  let operand ← operandState id
  let reg ← match operand.location with
    | .valueReg reg => pure reg
    | .payloadReg reg type => do
        boxInPlace id reg type
        pure reg
    | .valueSlot slot => reload slot
    | .payloadSlot slot type => do
        let reg ← reload slot
        boxInPlace id reg type
        pure reg
    | .floatReg float => boxFloat float
    | .floatSlot slot => do boxFloat (← reloadFloat slot)
    | .nowhere => notLive id
  setLocation id.toNat (.valueReg reg)
  pin reg
  return reg

/-- The payload of the operand, in a register. -/
def useRegister (id : OperandId) : Asm Register := do
  let operand ← operandState id
  let (reg, type) ← match operand.location with
    | .payloadReg reg type => pure (reg, type)
    | .valueReg reg => do
        let type ← provenPayload id
        emit (.unboxPayload reg reg type)
        pure (reg, type)
    | .payloadSlot slot type => do pure (← reload slot, type)
    | .valueSlot slot => do
        let type ← provenPayload id
        let reg ← reload slot
        emit (.unboxPayload reg reg type)
        pure (reg, type)
    | .floatReg _ | .floatSlot _ => violate (.holdsDouble id)
    | .nowhere => notLive id
  setLocation id.toNat (.payloadReg reg type)
  pin reg
  return reg

/-- The number that a boxed operand is.  One that is proven to be a double moves to a float register,
any other is converted into a scratch register. -/
def useBoxedNumber (id : OperandId) : Asm FloatRegister := do
  let isDouble := (← allocation).knownType id = some .double
  let src ← useValueReg id
  if isDouble then
    let dst ← takeFloat
    emit (.unboxDouble src dst)
    modifyAllocation fun allocation =>
      { allocation with
        pinned := allocation.pinned.remove src.index
        available := allocation.available.insert src.index }
    setLocation id.toNat (.floatReg dst)
    return dst
  else
    let dst ← allocateFloat
    emit (.unboxNumber src dst)
    return dst

/-- The number that an int32 payload is, in a scratch register. -/
def useInt32Number (id : OperandId) : Asm FloatRegister := do
  let src ← useRegister id
  let dst ← allocateFloat
  emit (.int32ToDouble src dst)
  return dst

/-- The operand as a number, in a float register. -/
def useNumber (id : OperandId) : Asm FloatRegister := do
  let operand ← operandState id
  match operand.location with
  | .floatReg reg =>
      modifyAllocation fun allocation =>
        { allocation with pinnedFloats := allocation.pinnedFloats.insert reg.index }
      return reg
  | .floatSlot slot =>
      let reg ← reloadFloat slot
      setLocation id.toNat (.floatReg reg)
      return reg
  | .payloadReg _ type | .payloadSlot _ type =>
      if type = .int32 then useInt32Number id else violate (.numberHolds id type)
  | .valueReg _ | .valueSlot _ => useBoxedNumber id
  | .nowhere => notLive id

end InlineCache.Asm
