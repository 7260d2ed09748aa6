import InlineCache.Emit.Aliasing
import InlineCache.Emit.Use

/-!
The calls that a client of the allocator can make, as data, so that one can speak of any sequence of
them.
-/

namespace InlineCache

inductive AllocatorCall
  | defineInputs (count : Nat)
  | beginOp (index : Nat)
  | allocateRegister
  | releaseRegister (reg : Register)
  | allocateFloat
  | releaseFloat (reg : FloatRegister)
  | defineValueReg (id : OperandId)
  | definePayloadReg (id : OperandId) (type : PayloadType)
  | useValueReg (id : OperandId)
  | useRegister (id : OperandId)
  | useNumber (id : OperandId)
  | setKnownType (id : OperandId) (type : ValueType)
  deriving DecidableEq, Repr

namespace AllocatorCall

/-- What a call answers. -/
inductive Answer
  | done
  | reg (reg : Register)
  | floatReg (reg : FloatRegister)
  deriving DecidableEq, Repr

def run : AllocatorCall → Asm Answer
  | .defineInputs count => do
      Asm.defineInputs count
      return .done
  | .beginOp index => do
      Asm.beginOp index
      return .done
  | .allocateRegister => return .reg (← Asm.allocateRegister)
  | .releaseRegister reg => do
      Asm.releaseRegister reg
      return .done
  | .allocateFloat => return .floatReg (← Asm.allocateFloat)
  | .releaseFloat reg => do
      Asm.releaseFloat reg
      return .done
  | .defineValueReg id => return .reg (← Asm.defineValueReg id)
  | .definePayloadReg id type => return .reg (← Asm.definePayloadReg id type)
  | .useValueReg id => return .reg (← Asm.useValueReg id)
  | .useRegister id => return .reg (← Asm.useRegister id)
  | .useNumber id => return .floatReg (← Asm.useNumber id)
  | .setKnownType id type => do
      Asm.setKnownType id type
      return .done

end AllocatorCall

end InlineCache
