import InlineCache.Code.Payload
import InlineCache.Code.Register

/-!
Where the value of an operand is kept while code is generated, and in which form.
-/

namespace InlineCache

inductive Location
  | nowhere
  | payloadReg (reg : Register) (type : PayloadType)
  | valueReg (reg : Register)
  | payloadSlot (slot : Nat) (type : PayloadType)
  | valueSlot (slot : Nat)
  | floatReg (reg : FloatRegister)
  | floatSlot (slot : Nat)
  deriving DecidableEq, Repr

namespace Location

def isSomewhere (location : Location) : Bool :=
  location ≠ .nowhere

def register? : Location → Option Register
  | .payloadReg reg _ | .valueReg reg => some reg
  | _ => none

def floatRegister? : Location → Option FloatRegister
  | .floatReg reg => some reg
  | _ => none

def slot? : Location → Option Nat
  | .payloadSlot slot _ | .valueSlot slot | .floatSlot slot => some slot
  | _ => none

/-- The payload that is held, if the operand is held without its tag in a general register or slot. -/
def payload? : Location → Option PayloadType
  | .payloadReg _ type | .payloadSlot _ type => some type
  | _ => none

/-- The place and the form in short. -/
def label : Location → String
  | .nowhere => "-"
  | .payloadReg reg type => reg.name ++ ":" ++ type.label
  | .valueReg reg => reg.name ++ ":boxed"
  | .payloadSlot slot type => s!"s{slot}:{type.label}"
  | .valueSlot slot => s!"s{slot}:boxed"
  | .floatReg reg => reg.name ++ ":double"
  | .floatSlot slot => s!"s{slot}:double"

end Location

end InlineCache
