import InlineCache.Code.Error
import InlineCache.Code.Location
import InlineCache.Emit.Config
import InlineCache.Emit.ExitPath

/-!
The state of code generation: where operands are kept, which registers and slots are free, and the
code so far.
-/

namespace InlineCache

structure OperandState where
  location : Location
  /-- The tag that a guard has proven. -/
  knownType : Option ValueType
  isDefined : Bool
  /-- The last operation that mentions the operand. -/
  lastUse : Option Nat
  deriving DecidableEq, Repr

structure Allocation where
  operands : List OperandState
  available : RegisterSet
  availableFloats : RegisterSet
  currentOp : Option Nat
  /-- The registers that the current operation holds, which are not spilled. -/
  pinned : RegisterSet
  pinnedFloats : RegisterSet
  scratch : RegisterSet
  scratchFloats : RegisterSet
  spillLimit : Nat
  usedSlots : List Nat
  /-- How many slots were ever needed at once. -/
  slotCount : Nat
  savesFloats : Bool
  saved : SavedFloats
  saveCount : Nat
  deriving DecidableEq, Repr

namespace Allocation

/-- For each operand the last of the operations that mentions it. -/
def lastUses (ops : List Op) (count : Nat) : Except CodeError (List (Option Nat)) :=
  ops.zipIdx.foldlM
    (fun table (op, index) =>
      op.operands.foldlM
        (fun table id =>
          if id.toNat < count then .ok (table.set id.toNat (some index))
          else .error (.malformed (.operandUndeclared index id count)))
        table)
    (List.replicate count none)

def start (ops : List Op) (count : Nat) (config : CodeConfig) : Except CodeError Allocation := do
  let uses ← lastUses ops count
  return {
    operands := uses.map fun lastUse =>
      { location := .nowhere, knownType := none, isDefined := false, lastUse }
    available := .first config.generalRegisters.toNat
    availableFloats := .first config.floatRegisters.toNat
    currentOp := none
    pinned := .empty
    pinnedFloats := .empty
    scratch := .empty
    scratchFloats := .empty
    spillLimit := config.spillSlots.toNat
    usedSlots := []
    slotCount := 0
    savesFloats := config.savesFloats
    saved := []
    saveCount := 0 }

def operand? (allocation : Allocation) (id : OperandId) : Option OperandState :=
  allocation.operands[id.toNat]?

def location (allocation : Allocation) (id : OperandId) : Location :=
  (allocation.operand? id).elim .nowhere (·.location)

def knownType (allocation : Allocation) (id : OperandId) : Option ValueType :=
  (allocation.operand? id).bind (·.knownType)

def payload? (allocation : Allocation) (id : OperandId) : Option PayloadType :=
  (allocation.location id).payload?

/-- Some operation behind the current one mentions the operand. -/
def usedLater (allocation : Allocation) (id : OperandId) : Bool :=
  match (allocation.operand? id).bind (·.lastUse), allocation.currentOp with
  | some last, some current => current < last
  | some _, none => true
  | none, _ => false

def modifyOperand (allocation : Allocation) (index : Nat) (f : OperandState → OperandState) :
    Allocation :=
  { allocation with operands := allocation.operands.modify index f }

def setLocation (allocation : Allocation) (index : Nat) (location : Location) : Allocation :=
  allocation.modifyOperand index fun operand => { operand with location }

def setKnownType (allocation : Allocation) (id : OperandId) (type : ValueType) : Allocation :=
  allocation.modifyOperand id.toNat fun operand => { operand with knownType := some type }

/-- The least number that is not in a list. -/
def leastFree (used : List Nat) : Nat :=
  ((List.range used.length).find? (· ∉ used)).getD used.length

end Allocation

structure Assembler where
  allocation : Allocation
  buffer : CodeBuffer
  exits : ExitPaths
  callsHelpers : Bool
  /-- A history variable, which nothing reads: where the branches and the bound labels are, with the
  allocation at each of them. -/
  marks : Array (Nat × Allocation)

def Assembler.start (allocation : Allocation) : Assembler :=
  ⟨allocation, .empty, [], false, #[]⟩

/-- A stretch of code generation.  What it did to the state stays done when it fails. -/
abbrev Asm := ExceptT CodeError (StateM Assembler)

namespace Asm

def violate (violation : Violation) : Asm α :=
  throw (.invariant violation)

def reject (defect : Defect) : Asm α :=
  throw (.malformed defect)

def allocation : Asm Allocation :=
  return (← get).allocation

def modifyAllocation (f : Allocation → Allocation) : Asm Unit :=
  modify fun state => { state with allocation := f state.allocation }

def emit (inst : Inst) : Asm Unit :=
  modify fun state =>
    { state with
      buffer := state.buffer.emit inst
      marks :=
        match inst.usesLabel with
        | true => state.marks.push (state.buffer.insts.size, state.allocation)
        | false => state.marks }

def newLabel : Asm Label :=
  modifyGet fun state =>
    let (label, buffer) := state.buffer.newLabel
    (label, { state with buffer })

def setLocation (index : Nat) (location : Location) : Asm Unit :=
  modifyAllocation (·.setLocation index location)

def setKnownType (id : OperandId) (type : ValueType) : Asm Unit :=
  modifyAllocation (·.setKnownType id type)

end Asm

end InlineCache
