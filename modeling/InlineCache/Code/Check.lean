import InlineCache.Code.Error

/-!
The last check before code is run: every name in it means something.  Registers and slots lie in the
frame, labels are bound once and ahead of the end, and the helpers that are called are there.
-/

namespace InlineCache

/-- How much room code has, and which helpers it can call. -/
structure Frame where
  registers : Nat
  floatRegisters : Nat
  slots : Nat
  saves : Nat
  labels : Nat
  helpers : List Helper
  deriving DecidableEq, Repr

/-- A thing that an instruction relies on. -/
inductive Need
  | register (r : Register)
  | floatRegister (f : FloatRegister)
  | slot (index : Nat)
  | save (index : Nat)
  | label (label : Label)
  | fieldOffset (offset : Nat)
  | loadOffset (offset : Int64)
  | tagCondition (cond : Cond)
  | helper (helper : Helper)
  deriving DecidableEq, Repr

namespace Need

/-- The defect of a need that a frame does not meet. -/
def unmet? (frame : Frame) : Need → Option Defect
  | .register r =>
      if r.index.toNat < frame.registers then none else some (.registerOutside r.index.toNat)
  | .floatRegister f =>
      if f.index.toNat < frame.floatRegisters then none
      else some (.floatRegisterOutside f.index.toNat)
  | .slot index => if index < frame.slots then none else some (.slotOutside index)
  | .save index => if index < frame.saves then none else some (.saveOutside index)
  | .label target => if target < frame.labels then none else some (.labelNotCreated target)
  | .fieldOffset offset => if offset < 0x80000000 then none else some (.fieldOffset offset)
  | .loadOffset offset =>
      if -0x80000000 ≤ offset.toInt ∧ offset.toInt < 0x80000000 then none else some (.loadOffset offset)
  | .tagCondition cond =>
      if cond = .equal ∨ cond = .notEqual then none else some (.tagCondition cond)
  | .helper called => if called ∈ frame.helpers then none else some (.helperMissing called)

def ofSource : Source → List Need
  | .reg r => [.register r]
  | .imm _ => []

/-- An offset that stands in the code has 32 bits. -/
def ofOffset : Source → Need
  | .reg r => .register r
  | .imm w => .loadOffset w.toInt64

end Need

/-- What an instruction relies on, in the order in which it is looked at. -/
def Inst.needs : Inst → List Need
  | .bind label | .jump label => [.label label]
  | .ret _ => []
  | .loadInput dst _ | .movImm dst _ => [.register dst]
  | .storeOutput src => [.register src]
  | .mov dst src => [.register src, .register dst]
  | .loadStubWord dst offset => [.fieldOffset offset, .register dst]
  | .load64 dst base offset => [.register base, .ofOffset offset, .register dst]
  | .load32 dst base _ => [.register base, .register dst]
  | .loadIndexed64 dst base index => [.register base, .register index, .register dst]
  | .spill slot src => [.slot slot, .register src]
  | .restore dst slot => [.slot slot, .register dst]
  | .spillFloat slot src => [.slot slot, .floatRegister src]
  | .reloadFloat dst slot => [.slot slot, .floatRegister dst]
  | .saveFloat src slot => [.save slot, .floatRegister src]
  | .restoreFloat dst slot => [.save slot, .floatRegister dst]
  | .branchTestType cond value _ target | .branchTestNumber cond value target =>
      [.tagCondition cond, .register value, .label target]
  | .branch32 _ lhs rhs target | .branchPtr _ lhs rhs target =>
      .register lhs :: (Need.ofSource rhs ++ [.label target])
  | .branchTestShape _ obj word scratch zeroed target
  | .branchTestClass _ obj word scratch zeroed target =>
      [.register obj, .register scratch] ++ Need.ofSource word ++ [.label target] ++
        (zeroed.map Need.register).toList
  | .cmpSet _ lhs rhs dst => .register lhs :: (Need.ofSource rhs ++ [.register dst])
  | .andImm reg _ | .clampInt32ToUint8 reg => [.register reg]
  | .unboxPayload src dst _ | .boxPayload src dst _ | .loadValueTag src dst
  | .int32ToIntPtr src dst => [.register src, .register dst]
  | .unboxDouble src dst | .unboxNumber src dst | .int32ToDouble src dst =>
      [.register src, .floatRegister dst]
  | .boxDouble src dst | .clampDoubleToUint8 src dst => [.floatRegister src, .register dst]
  | .doubleToInt32Exact src dst fail | .doubleToIntPtrExact src dst fail
  | .truncateDoubleModUint32 src dst fail =>
      [.floatRegister src, .label fail, .register dst]
  | .boxIntPtr src dst scratch => [.register src, .floatRegister scratch, .register dst]
  | .spectreMaskIndex index length dst => [.register index, .register length, .register dst]
  | .callHelper helper a b c dst exception =>
      [.helper helper, .register a, .register b, .register c, .register dst, .label exception]

/-- The labels that an instruction binds or may go to. -/
def Inst.labels (inst : Inst) : List Label :=
  inst.needs.filterMap fun
    | .label label => some label
    | _ => none

/-- Control never passes the instruction. -/
def Inst.isFinal : Inst → Bool
  | .jump _ | .ret _ => true
  | _ => false

namespace Frame

/-- Checks instructions in order, with the labels bound so far. -/
def checkInsts (frame : Frame) : List Label → List Inst → Except Defect Unit
  | _, [] => .ok ()
  | bound, inst :: rest =>
      match inst.needs.findSome? (Need.unmet? frame), inst with
      | some defect, _ => .error defect
      | none, .bind label =>
          if label ∈ bound then .error (.labelBoundTwice label)
          else frame.checkInsts (label :: bound) rest
      | none, _ => frame.checkInsts bound rest

/-- Checks that code ends where control cannot pass, and that every label it names is bound. -/
def checkEnd (insts : List Inst) : Except Defect Unit :=
  if insts.getLast?.elim false Inst.isFinal then
    let named := insts.flatMap Inst.labels
    let unbound := named.filter fun label => Inst.bind label ∉ insts
    match unbound.min? with
    | some label => .error (.labelNotBound label)
    | none => .ok ()
  else .error .openEnd

def check (frame : Frame) (insts : List Inst) : Except Defect Unit := do
  frame.checkInsts [] insts
  checkEnd insts

end Frame

end InlineCache
