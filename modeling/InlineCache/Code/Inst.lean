import InlineCache.CallOut
import InlineCache.Code.Payload
import InlineCache.Code.Register

/-!
The instructions of compiled stubs.  They work on registers, labels and slots of the frame; a branch
that is not taken falls through.
-/

namespace InlineCache

/-- How compiled code ends. -/
inductive ExitStatus
  | returned
  | bailout
  | exception
  | malformed
  deriving DecidableEq, Repr

namespace ExitStatus

def all : List ExitStatus := [.returned, .bailout, .exception, .malformed]

def code (status : ExitStatus) : Nat := all.idxOf status

def ofCode? (code : Nat) : Option ExitStatus := all[code]?

def name : ExitStatus → String
  | .returned => "return"
  | .bailout => "bailout"
  | .exception => "exception"
  | .malformed => "malformed"

def label : ExitStatus → String
  | .returned => "Return"
  | .bailout => "Bailout"
  | .exception => "Exception"
  | .malformed => "Malformed"

end ExitStatus

abbrev Label := Nat

/-- A comparison; below and above compare without sign. -/
inductive Cond
  | equal
  | notEqual
  | lessThan
  | lessThanOrEqual
  | greaterThan
  | greaterThanOrEqual
  | below
  | belowOrEqual
  | above
  | aboveOrEqual
  deriving DecidableEq, Repr

namespace Cond

def all : List Cond :=
  [.equal, .notEqual, .lessThan, .lessThanOrEqual, .greaterThan, .greaterThanOrEqual, .below,
    .belowOrEqual, .above, .aboveOrEqual]

/-- The comparison that holds exactly when this one does not. -/
def negate : Cond → Cond
  | .equal => .notEqual
  | .notEqual => .equal
  | .lessThan => .greaterThanOrEqual
  | .lessThanOrEqual => .greaterThan
  | .greaterThan => .lessThanOrEqual
  | .greaterThanOrEqual => .lessThan
  | .below => .aboveOrEqual
  | .belowOrEqual => .above
  | .above => .belowOrEqual
  | .aboveOrEqual => .below

def label : Cond → String
  | .equal => "Equal"
  | .notEqual => "NotEqual"
  | .lessThan => "LessThan"
  | .lessThanOrEqual => "LessThanOrEqual"
  | .greaterThan => "GreaterThan"
  | .greaterThanOrEqual => "GreaterThanOrEqual"
  | .below => "Below"
  | .belowOrEqual => "BelowOrEqual"
  | .above => "Above"
  | .aboveOrEqual => "AboveOrEqual"

def holds64 (a b : UInt64) : Cond → Bool
  | .equal => a = b
  | .notEqual => a ≠ b
  | .lessThan => a.toInt64 < b.toInt64
  | .lessThanOrEqual => a.toInt64 ≤ b.toInt64
  | .greaterThan => b.toInt64 < a.toInt64
  | .greaterThanOrEqual => b.toInt64 ≤ a.toInt64
  | .below => a < b
  | .belowOrEqual => a ≤ b
  | .above => b < a
  | .aboveOrEqual => b ≤ a

def holds32 (a b : UInt32) : Cond → Bool
  | .equal => a = b
  | .notEqual => a ≠ b
  | .lessThan => a.toInt32 < b.toInt32
  | .lessThanOrEqual => a.toInt32 ≤ b.toInt32
  | .greaterThan => b.toInt32 < a.toInt32
  | .greaterThanOrEqual => b.toInt32 ≤ a.toInt32
  | .below => a < b
  | .belowOrEqual => a ≤ b
  | .above => b < a
  | .aboveOrEqual => b ≤ a

end Cond

/-- A register, or a word that stands in the code. -/
inductive Source
  | reg (r : Register)
  | imm (w : UInt64)
  deriving DecidableEq, Repr

inductive Inst
  | bind (label : Label)
  | jump (label : Label)
  | ret (status : ExitStatus)
  | loadInput (dst : Register) (index : UInt8)
  | storeOutput (src : Register)
  | movImm (dst : Register) (imm : UInt64)
  | mov (dst src : Register)
  | loadStubWord (dst : Register) (offset : Nat)
  | load64 (dst base : Register) (offset : Source)
  | load32 (dst base : Register) (offset : Int32)
  | loadIndexed64 (dst base index : Register)
  | spill (slot : Nat) (src : Register)
  | restore (dst : Register) (slot : Nat)
  | spillFloat (slot : Nat) (src : FloatRegister)
  | reloadFloat (dst : FloatRegister) (slot : Nat)
  | saveFloat (src : FloatRegister) (slot : Nat)
  | restoreFloat (dst : FloatRegister) (slot : Nat)
  | branchTestType (cond : Cond) (value : Register) (type : ValueType) (target : Label)
  | branchTestNumber (cond : Cond) (value : Register) (target : Label)
  | branch32 (cond : Cond) (lhs : Register) (rhs : Source) (target : Label)
  | branchPtr (cond : Cond) (lhs : Register) (rhs : Source) (target : Label)
  | branchTestShape (cond : Cond) (obj : Register) (shape : Source) (scratch : Register)
      (zeroed : Option Register) (target : Label)
  | branchTestClass (cond : Cond) (obj : Register) (classWord : Source) (scratch : Register)
      (zeroed : Option Register) (target : Label)
  | cmpSet (cond : Cond) (lhs : Register) (rhs : Source) (dst : Register)
  | andImm (reg : Register) (imm : UInt64)
  | unboxPayload (src dst : Register) (type : PayloadType)
  | boxPayload (src dst : Register) (type : PayloadType)
  | loadValueTag (src dst : Register)
  | unboxDouble (src : Register) (dst : FloatRegister)
  | boxDouble (src : FloatRegister) (dst : Register)
  | unboxNumber (src : Register) (dst : FloatRegister)
  | int32ToDouble (src : Register) (dst : FloatRegister)
  | doubleToInt32Exact (src : FloatRegister) (dst : Register) (fail : Label)
  | doubleToIntPtrExact (src : FloatRegister) (dst : Register) (fail : Label)
  | truncateDoubleModUint32 (src : FloatRegister) (dst : Register) (fail : Label)
  | clampDoubleToUint8 (src : FloatRegister) (dst : Register)
  | clampInt32ToUint8 (reg : Register)
  | int32ToIntPtr (src dst : Register)
  | boxIntPtr (src dst : Register) (scratch : FloatRegister)
  | spectreMaskIndex (index length dst : Register)
  | callHelper (helper : Helper) (a b c dst : Register) (exception : Label)
  deriving DecidableEq, Repr

def Inst.isJump : Inst → Bool
  | .jump _ => true
  | _ => false

/-- The instruction binds a label, or may go to one. -/
def Inst.usesLabel : Inst → Bool
  | .bind _ | .jump _ | .branchTestType .. | .branchTestNumber .. | .branch32 .. | .branchPtr ..
  | .branchTestShape .. | .branchTestClass .. | .doubleToInt32Exact .. | .doubleToIntPtrExact ..
  | .truncateDoubleModUint32 .. | .callHelper .. => true
  | _ => false

/-- Code under construction: the instructions so far, and how many labels were handed out. -/
structure CodeBuffer where
  insts : Array Inst
  labels : Nat
  deriving DecidableEq, Repr

namespace CodeBuffer

def empty : CodeBuffer := ⟨#[], 0⟩

def newLabel (buffer : CodeBuffer) : Label × CodeBuffer :=
  (buffer.labels, { buffer with labels := buffer.labels + 1 })

def emit (buffer : CodeBuffer) (inst : Inst) : CodeBuffer :=
  { buffer with insts := buffer.insts.push inst }

end CodeBuffer

end InlineCache
