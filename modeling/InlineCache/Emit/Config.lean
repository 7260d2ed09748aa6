/-!
The settings of code generation.
-/

namespace InlineCache

/-- Whether code holds the words of stub data itself, or loads them when it runs. -/
inductive FieldPolicy
  | constant
  | address
  deriving DecidableEq, Repr

def FieldPolicy.label : FieldPolicy → String
  | .constant => "Constant"
  | .address => "Address"

structure CodeConfig where
  generalRegisters : UInt8
  floatRegisters : UInt8
  spillSlots : UInt32
  /-- Zero the object of a guard, and mask the index of an element, on mispredicted paths. -/
  spectre : Bool
  policy : FieldPolicy
  /-- Float registers belong to the caller, so they are saved and restored around their use. -/
  savesFloats : Bool
  deriving DecidableEq, Repr

def CodeConfig.default : CodeConfig :=
  { generalRegisters := 8
    floatRegisters := 2
    spillSlots := 16
    spectre := true
    policy := .constant
    savesFloats := true }

end InlineCache
