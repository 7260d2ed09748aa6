import InlineCache.Code.Inst
import InlineCache.Heap.Memory

/-!
The machine that runs compiled stubs.  All jumps lead forward, so a run goes over the code once: a
taken branch looks for its label in the code ahead.
-/

namespace InlineCache

/-- What code is entered with. -/
structure Entry where
  inputs : List UInt64
  words : List UInt64
  deriving DecidableEq, Repr

/-- A read of the heap: the block and the displacement into it. -/
structure HeapRead where
  base : Address
  displacement : UInt64
  deriving DecidableEq, Repr

structure Machine where
  regs : Register → UInt64
  floats : FloatRegister → Double
  slots : Nat → UInt64
  saves : Nat → Double
  output : UInt64
  context : Context
  /-- The reads of the heap so far, the last one first. -/
  reads : List HeapRead

namespace Machine

def start (context : Context) : Machine :=
  { regs := fun _ => 0
    floats := fun _ => .zero
    slots := fun _ => 0
    saves := fun _ => .zero
    output := Value.undefined.bits
    context
    reads := [] }

def setReg (machine : Machine) (r : Register) (w : UInt64) : Machine :=
  { machine with regs := fun q => if q = r then w else machine.regs q }

def setFloat (machine : Machine) (f : FloatRegister) (d : Double) : Machine :=
  { machine with floats := fun g => if g = f then d else machine.floats g }

def setSlot (machine : Machine) (slot : Nat) (w : UInt64) : Machine :=
  { machine with slots := fun n => if n = slot then w else machine.slots n }

def setSave (machine : Machine) (slot : Nat) (d : Double) : Machine :=
  { machine with saves := fun n => if n = slot then d else machine.saves n }

@[simp] theorem regs_setReg (machine : Machine) (r q : Register) (w : UInt64) :
    (machine.setReg r w).regs q = if q = r then w else machine.regs q := rfl

@[simp] theorem floats_setFloat (machine : Machine) (f g : FloatRegister) (d : Double) :
    (machine.setFloat f d).floats g = if g = f then d else machine.floats g := rfl

def source (machine : Machine) : Source → UInt64
  | .reg r => machine.regs r
  | .imm w => w

/-- Reads a word of the heap. -/
def load64? (machine : Machine) (base : Address) (displacement : UInt64) :
    Option (UInt64 × Machine) :=
  (machine.context.heap.load64? base displacement).map fun w =>
    (w, { machine with reads := ⟨base, displacement⟩ :: machine.reads })

def load32? (machine : Machine) (base : Address) (displacement : UInt64) :
    Option (UInt32 × Machine) :=
  (machine.context.heap.load32? base displacement).map fun w =>
    (w, { machine with reads := ⟨base, displacement⟩ :: machine.reads })

end Machine

/-- What comes after an instruction. -/
inductive Effect
  | next (machine : Machine)
  | jump (label : Label) (machine : Machine)
  | exit (status : ExitStatus) (machine : Machine)
  /-- A read outside the heap, the inputs or the stub data. -/
  | fault

namespace Effect

/-- Goes on with the next instruction, or nowhere without a machine. -/
def ofOption : Option Machine → Effect
  | some machine => .next machine
  | none => .fault

def branch (taken : Bool) (label : Label) (machine : Machine) : Effect :=
  if taken then .jump label machine else .next machine

end Effect

namespace Double

/-- Rounds, then clamps to the byte range, then takes the integer; a NaN becomes zero. -/
def roundClampByte (d : Double) : Int32 :=
  Int32.ofInt (((d.roundEven.max .zero).min (.ofInt 255)).saturate (-0x80000000) 0x7FFFFFFF)

end Double

namespace Inst

/-- Compares a word of an object's shape; the branch that is not taken zeroes a register only when it
was mispredicted, which shows in no result. -/
def compareWord (machine : Machine) (cond : Cond) (actual : UInt64) (expected : Source)
    (scratch : Register) (target : Label) : Effect :=
  let machine := machine.setReg scratch actual
  .branch (cond.holds64 actual (machine.source expected)) target machine

def exec (entry : Entry) (machine : Machine) : Inst → Effect
  | .bind _ => .next machine
  | .jump label => .jump label machine
  | .ret status => .exit status machine
  | .loadInput dst index => .ofOption (entry.inputs[index.toNat]?.map (machine.setReg dst))
  | .storeOutput src => .next { machine with output := machine.regs src }
  | .movImm dst imm => .next (machine.setReg dst imm)
  | .mov dst src => .next (machine.setReg dst (machine.regs src))
  | .loadStubWord dst offset => .ofOption (entry.words[offset / 8]?.map (machine.setReg dst))
  | .load64 dst base offset =>
      .ofOption
        ((machine.load64? (machine.regs base) (machine.source offset)).map
          fun (w, machine) => machine.setReg dst w)
  | .load32 dst base offset =>
      .ofOption
        ((machine.load32? (machine.regs base) (Word.ofInt32 offset)).map
          fun (w, machine) => machine.setReg dst w.toUInt64)
  | .loadIndexed64 dst base index =>
      .ofOption
        ((machine.load64? (machine.regs base) ((machine.regs index).toUInt32.toUInt64 * 8)).map
          fun (w, machine) => machine.setReg dst w)
  | .spill slot src => .next (machine.setSlot slot (machine.regs src))
  | .restore dst slot => .next (machine.setReg dst (machine.slots slot))
  | .spillFloat slot src => .next (machine.setSlot slot (machine.floats src).bits)
  | .reloadFloat dst slot => .next (machine.setFloat dst ⟨machine.slots slot⟩)
  | .saveFloat src slot => .next (machine.setSave slot (machine.floats src))
  | .restoreFloat dst slot => .next (machine.setFloat dst (machine.saves slot))
  | .branchTestType cond value type target =>
      .branch (Word.hasType (machine.regs value) type = (cond = .equal : Bool)) target machine
  | .branchTestNumber cond value target =>
      .branch (Word.isNumber (machine.regs value) = (cond = .equal : Bool)) target machine
  | .branch32 cond lhs rhs target =>
      .branch (cond.holds32 (machine.regs lhs).toUInt32 (machine.source rhs).toUInt32) target machine
  | .branchPtr cond lhs rhs target =>
      .branch (cond.holds64 (machine.regs lhs) (machine.source rhs)) target machine
  | .branchTestShape cond obj shape scratch _ target =>
      match machine.load64? (machine.regs obj) (UInt64.ofNat layout.shape) with
      | some (actual, machine) => compareWord machine cond actual shape scratch target
      | none => .fault
  | .branchTestClass cond obj classWord scratch _ target =>
      match machine.load64? (machine.regs obj) (UInt64.ofNat layout.shape) with
      | some (shape, machine) =>
          match machine.load64? shape (UInt64.ofNat layout.shapeClass) with
          | some (actual, machine) => compareWord machine cond actual classWord scratch target
          | none => .fault
      | none => .fault
  | .cmpSet cond lhs rhs dst =>
      .next (machine.setReg dst (Word.ofBool (cond.holds64 (machine.regs lhs) (machine.source rhs))))
  | .andImm reg imm => .next (machine.setReg reg (machine.regs reg &&& imm))
  | .unboxPayload src dst type => .next (machine.setReg dst (Word.unbox (machine.regs src) type))
  | .boxPayload src dst type => .next (machine.setReg dst (Word.box (machine.regs src) type))
  | .loadValueTag src dst => .next (machine.setReg dst (Word.tagByte (machine.regs src)))
  | .unboxDouble src dst => .next (machine.setFloat dst (Word.unboxDouble (machine.regs src)))
  | .boxDouble src dst => .next (machine.setReg dst (Word.boxDouble (machine.floats src)))
  | .unboxNumber src dst => .next (machine.setFloat dst (Word.unboxNumber (machine.regs src)))
  | .int32ToDouble src dst =>
      .next (machine.setFloat dst (.ofInt (machine.regs src).toUInt32.toInt32.toInt))
  | .doubleToInt32Exact src dst fail =>
      let d := machine.floats src
      if d.within (-0x80000000) 0x7FFFFFFF then
        let n := d.saturate (-0x80000000) 0x7FFFFFFF
        .branch (!(Double.ofInt n).numEq d) fail
          (machine.setReg dst (Word.ofInt32 (Int32.ofInt n)))
      else .jump fail machine
  | .doubleToIntPtrExact src dst fail =>
      let d := machine.floats src
      if d.withinBelow (-0x8000000000000000) 0x8000000000000000 then
        let n := d.saturate (-0x8000000000000000) 0x7FFFFFFFFFFFFFFF
        .branch (!(Double.ofInt n).numEq d) fail (machine.setReg dst (Int64.ofInt n).toUInt64)
      else .jump fail machine
  | .truncateDoubleModUint32 src dst fail =>
      let d := machine.floats src
      if d.withinBelow (-0x8000000000000000) 0x8000000000000000 then
        let n := d.saturate (-0x8000000000000000) 0x7FFFFFFFFFFFFFFF
        .next (machine.setReg dst (Word.signExtend (Int64.ofInt n).toUInt64))
      else .jump fail machine
  | .clampDoubleToUint8 src dst =>
      .next (machine.setReg dst (Word.ofInt32 (machine.floats src).roundClampByte))
  | .clampInt32ToUint8 reg =>
      .next
        (machine.setReg reg (Word.ofInt32 (clampInt32 (machine.regs reg).toUInt32.toInt32)))
  | .int32ToIntPtr src dst => .next (machine.setReg dst (Word.signExtend (machine.regs src)))
  | .boxIntPtr src dst scratch =>
      let n := machine.regs src
      .next ((machine.setFloat scratch (.ofInt n.toInt64.toInt)).setReg dst (Word.boxIntPtr n))
  | .spectreMaskIndex index length dst =>
      let outside := (machine.regs length).toUInt32 ≤ (machine.regs index).toUInt32
      .next (machine.setReg dst (if outside then 0 else machine.regs index))
  | .callHelper helper a b c dst exception =>
      let (answer, context) :=
        helper.enter machine.context (machine.regs a) (machine.regs b) (machine.regs c)
      .branch (answer = Helper.exceptionSentinel) exception
        ({ machine with context }.setReg dst answer)

end Inst

/-- Runs code from a machine, at its start or from a label that is ahead. -/
def runCode (entry : Entry) : List Inst → Option Label → Machine → Option (ExitStatus × Machine)
  | [], _, _ => none
  | inst :: rest, some label, machine =>
      runCode entry rest (if inst = .bind label then none else some label) machine
  | inst :: rest, none, machine =>
      match inst.exec entry machine with
      | .next machine => runCode entry rest none machine
      | .jump label machine => runCode entry rest (some label) machine
      | .exit status machine => some (status, machine)
      | .fault => none

end InlineCache
