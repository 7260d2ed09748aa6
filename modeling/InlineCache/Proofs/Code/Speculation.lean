import InlineCache.Proofs.Code.Draft
import InlineCache.Proofs.Code.Saves

/-!
Code under speculation.  A machine that runs ahead of its checks may take a load from nowhere for any word,
and may fall through a test of an object whose condition holds; the test then sets a register to zero, if it
names one.  All else goes as ever.
-/

namespace InlineCache

/-- What a speculating machine makes of an instruction. -/
structure Guess where
  /-- What is taken for the shape of an object where there is none. -/
  shape : UInt64
  /-- What any other load gives where there is nothing. -/
  word : UInt64
  /-- Whether a test of an object falls through although its condition holds. -/
  falls : Bool

namespace Machine

/-- Reads a word of the heap, or takes one for it. -/
def presume64 (machine : Machine) (word : UInt64) (base : Address) (displacement : UInt64) :
    UInt64 × Machine :=
  ((machine.context.heap.load64? base displacement).getD word,
    { machine with reads := ⟨base, displacement⟩ :: machine.reads })

def presume32 (machine : Machine) (word : UInt32) (base : Address) (displacement : UInt64) :
    UInt32 × Machine :=
  ((machine.context.heap.load32? base displacement).getD word,
    { machine with reads := ⟨base, displacement⟩ :: machine.reads })

theorem presume64_of_load {machine after : Machine} {base : Address} {displacement word : UInt64}
    (loads : machine.load64? base displacement = some (word, after)) (other : UInt64) :
    machine.presume64 other base displacement = (word, after) := by
  obtain ⟨_, found, same⟩ := Option.map_eq_some_iff.mp loads
  cases same
  rw [presume64, found]
  rfl

theorem presume32_of_load {machine after : Machine} {base : Address} {displacement : UInt64}
    {word : UInt32} (loads : machine.load32? base displacement = some (word, after)) (other : UInt32) :
    machine.presume32 other base displacement = (word, after) := by
  obtain ⟨_, found, same⟩ := Option.map_eq_some_iff.mp loads
  cases same
  rw [presume32, found]
  rfl

end Machine

namespace Inst

/-- Compares a word that stands for an object.  A branch that should be taken may fall through, which sets
a register to zero. -/
def presumeWord (machine : Machine) (falls : Bool) (cond : Cond) (actual : UInt64) (expected : Source)
    (scratch : Register) (zeroed : Option Register) (target : Label) : Effect :=
  let compared := machine.setReg scratch actual
  if cond.holds64 actual (compared.source expected) then
    if falls then .next (zeroed.elim compared (compared.setReg · 0)) else .jump target compared
  else .next compared

/-- What a speculating machine does at an instruction. -/
def speculate (entry : Entry) (guess : Guess) (machine : Machine) : Inst → Effect
  | .load64 dst base offset =>
      let read := machine.presume64 guess.word (machine.regs base) (machine.source offset)
      .next (read.2.setReg dst read.1)
  | .load32 dst base offset =>
      let read :=
        machine.presume32 guess.word.toUInt32 (machine.regs base) (Word.ofInt32 offset)
      .next (read.2.setReg dst read.1.toUInt64)
  | .loadIndexed64 dst base index =>
      let read :=
        machine.presume64 guess.word (machine.regs base)
          ((machine.regs index).toUInt32.toUInt64 * 8)
      .next (read.2.setReg dst read.1)
  | .branchTestShape cond obj shape scratch zeroed target =>
      let read := machine.presume64 guess.shape (machine.regs obj) (UInt64.ofNat layout.shape)
      presumeWord read.2 guess.falls cond read.1 shape scratch zeroed target
  | .branchTestClass cond obj classWord scratch zeroed target =>
      let shape := machine.presume64 guess.shape (machine.regs obj) (UInt64.ofNat layout.shape)
      let read := shape.2.presume64 guess.word shape.1 (UInt64.ofNat layout.shapeClass)
      presumeWord read.2 guess.falls cond read.1 classWord scratch zeroed target
  | inst => inst.exec entry machine

/-- The instruction tests an object. -/
def isTest : Inst → Bool
  | .branchTestShape _ _ _ _ _ _ | .branchTestClass _ _ _ _ _ _ => true
  | _ => false

/-- The register through which an instruction accesses memory. -/
def base? : Inst → Option Register
  | .load64 _ base _ | .load32 _ base _ | .loadIndexed64 _ base _ | .branchTestShape _ base _ _ _ _
  | .branchTestClass _ base _ _ _ _ => some base
  | _ => none

/-- The register that a test sets to zero when it falls through against its condition. -/
def zeroed? : Inst → Option Register
  | .branchTestShape _ _ _ _ zeroed _ | .branchTestClass _ _ _ _ zeroed _ => zeroed
  | _ => none

/-- The register that an instruction writes, whatever the speculation. -/
def written? : Inst → Option Register
  | .loadInput dst _ | .movImm dst _ | .mov dst _ | .loadStubWord dst _ | .load64 dst _ _
  | .load32 dst _ _ | .loadIndexed64 dst _ _ | .restore dst _ | .cmpSet _ _ _ dst | .andImm dst _
  | .unboxPayload _ dst _ | .boxPayload _ dst _ | .loadValueTag _ dst | .boxDouble _ dst
  | .doubleToInt32Exact _ dst _ | .doubleToIntPtrExact _ dst _ | .truncateDoubleModUint32 _ dst _
  | .clampDoubleToUint8 _ dst | .clampInt32ToUint8 dst | .int32ToIntPtr _ dst | .boxIntPtr _ dst _
  | .spectreMaskIndex _ _ dst | .callHelper _ _ _ _ dst _ | .branchTestShape _ _ _ dst _ _
  | .branchTestClass _ _ _ dst _ _ => some dst
  | _ => none

/-- The slot that an instruction fills. -/
def filled? : Inst → Option Nat
  | .spill slot _ | .spillFloat slot _ => some slot
  | _ => none

/-- A register that the instruction does not write is as it was, or the one to set to zero.  A slot that it
does not fill is as it was. -/
structure Leaves (inst : Inst) (m n : Machine) : Prop where
  regs : ∀ reg, inst.written? ≠ some reg →
    n.regs reg = m.regs reg ∨ inst.zeroed? = some reg ∧ n.regs reg = 0
  slots : ∀ slot, inst.filled? ≠ some slot → n.slots slot = m.slots slot

namespace Leaves

variable {inst : Inst} {m n : Machine}

theorem of_same (regs : n.regs = m.regs) (slots : n.slots = m.slots) : inst.Leaves m n :=
  ⟨fun reg _ => .inl (congrFun regs reg), fun slot _ => congrFun slots slot⟩

theorem setReg {dst : Register} (same : n.regs = m.regs) (slots : n.slots = m.slots) (w : UInt64)
    (written : inst.written? = some dst) : inst.Leaves m (n.setReg dst w) := by
  refine ⟨fun reg unwritten => .inl ?_, fun slot _ => congrFun slots slot⟩
  have other : reg ≠ dst := fun here => unwritten (written.trans (congrArg some here.symm))
  rw [Machine.regs_setReg, if_neg other, same]

theorem presumeWord {falls : Bool} {cond : Cond} {actual : UInt64} {expected : Source}
    {scratch : Register} {zeroed : Option Register} {target : Label} {after : Machine}
    (same : n.regs = m.regs) (slots : n.slots = m.slots) (written : inst.written? = some scratch)
    (named : inst.zeroed? = zeroed)
    (goes : (Inst.presumeWord n falls cond actual expected scratch zeroed target).machine? = some after) :
    inst.Leaves m after := by
  have kept : inst.Leaves m (n.setReg scratch actual) := setReg same slots actual written
  rw [Inst.presumeWord] at goes
  split at goes
  · split at goes
    · cases zeroed with
      | none =>
          cases goes
          exact kept
      | some reg =>
          cases goes
          refine ⟨fun other unwritten => ?_, kept.slots⟩
          by_cases own : other = reg
          · subst own
            exact .inr ⟨named, if_pos rfl⟩
          · rw [Option.elim_some, Machine.regs_setReg, if_neg own]
            exact kept.regs other unwritten
    · cases goes
      exact kept
  · cases goes
    exact kept

end Leaves

theorem leaves_of_speculate {entry : Entry} {guess : Guess} {m n : Machine} {inst : Inst}
    (goes : (inst.speculate entry guess m).machine? = some n) : inst.Leaves m n := by
  have loaded {found : Option UInt64} {dst : Register} (written : inst.written? = some dst)
      (goes : (Effect.ofOption (found.map (m.setReg dst))).machine? = some n) : inst.Leaves m n := by
    cases found with
    | none => cases goes
    | some w =>
        cases goes
        exact .setReg rfl rfl w written
  cases inst with
  | bind | jump | ret | storeOutput | reloadFloat | saveFloat | restoreFloat | unboxDouble | unboxNumber
  | int32ToDouble =>
      cases goes
      exact .of_same rfl rfl
  | spill | spillFloat =>
      cases goes
      exact ⟨fun _ _ => .inl rfl, fun slot other => if_neg fun same => other (congrArg some same.symm)⟩
  | movImm | mov | load64 | load32 | loadIndexed64 | restore | cmpSet | andImm | unboxPayload
  | boxPayload | loadValueTag | boxDouble | clampDoubleToUint8 | clampInt32ToUint8 | int32ToIntPtr
  | boxIntPtr | spectreMaskIndex =>
      cases goes
      refine .setReg ?_ ?_ _ ?_ <;> rfl
  | loadInput | loadStubWord => exact loaded rfl goes
  | branchTestType | branchTestNumber | branch32 | branchPtr =>
      cases (Effect.machine?_branch ..).symm.trans goes
      exact .of_same rfl rfl
  | branchTestShape | branchTestClass =>
      rw [speculate] at goes
      refine .presumeWord ?_ ?_ ?_ ?_ goes <;> rfl
  | doubleToInt32Exact | doubleToIntPtrExact =>
      simp only [speculate, exec] at goes
      split at goes
      · cases (Effect.machine?_branch ..).symm.trans goes
        refine .setReg ?_ ?_ _ ?_ <;> rfl
      · cases goes
        exact .of_same rfl rfl
  | truncateDoubleModUint32 =>
      simp only [speculate, exec] at goes
      split at goes
      · cases goes
        refine .setReg ?_ ?_ _ ?_ <;> rfl
      · cases goes
        exact .of_same rfl rfl
  | callHelper =>
      cases (Effect.machine?_branch ..).symm.trans goes
      refine .setReg ?_ ?_ _ ?_ <;> rfl

/-- A test of an object goes to its target only. -/
theorem presumeWord_jump {machine after : Machine} {falls : Bool} {cond : Cond} {actual : UInt64}
    {expected : Source} {scratch : Register} {zeroed : Option Register} {target label : Label}
    (jumps : presumeWord machine falls cond actual expected scratch zeroed target =
      .jump label after) : label = target := by
  rw [presumeWord] at jumps
  split at jumps
  · split at jumps <;> cases jumps
    rfl
  · cases jumps

theorem mem_targets_of_speculate {entry : Entry} {guess : Guess} {m n : Machine} {inst : Inst}
    {label : Label} (jumps : inst.speculate entry guess m = .jump label n) : label ∈ inst.targets := by
  cases inst with
  | load64 | load32 | loadIndexed64 => cases jumps
  | branchTestShape | branchTestClass =>
      cases presumeWord_jump jumps
      simp
  | _ => exact mem_targets (show Inst.exec entry m _ = _ from jumps)

/-- A test that falls through where it should branch sets the register to zero that it names. -/
theorem zeroes_of_falls {entry : Entry} {guess : Guess} {m n : Machine} {inst : Inst} {label : Label}
    {reg : Register} (named : inst.zeroed? = some reg) (falls : guess.falls = true)
    (jumps : inst.speculate entry { guess with falls := false } m = .jump label n) :
    ∃ after, inst.speculate entry guess m = .next after ∧ after.regs reg = 0 := by
  have presumed {machine : Machine} {cond : Cond} {actual : UInt64} {expected : Source}
      {scratch : Register} {zeroed : Option Register} {target : Label} (named : zeroed = some reg)
      (jumps : presumeWord machine false cond actual expected scratch zeroed target = .jump label n) :
      ∃ after, presumeWord machine guess.falls cond actual expected scratch zeroed target = .next after ∧
        after.regs reg = 0 := by
    rw [presumeWord] at jumps ⊢
    split at jumps
    · rename_i holds
      rw [if_pos holds, falls, named]
      exact ⟨_, rfl, if_pos rfl⟩
    · cases jumps
  cases inst with
  | branchTestShape | branchTestClass => exact presumed named jumps
  | _ => cases named

/-- A machine that is right about the tests does what any machine does, unless that one reads where there
is nothing. -/
theorem speculate_eq_exec {entry : Entry} {guess : Guess} (right : guess.falls = false) {m : Machine}
    {inst : Inst} (sound : inst.exec entry m ≠ .fault) :
    inst.speculate entry guess m = inst.exec entry m := by
  have compares {machine : Machine} {cond : Cond} {actual : UInt64} {expected : Source}
      {scratch : Register} {zeroed : Option Register} {target : Label} :
      presumeWord machine guess.falls cond actual expected scratch zeroed target =
        compareWord machine cond actual expected scratch target := by
    rw [presumeWord, compareWord, right]
    cases cond.holds64 actual ((machine.setReg scratch actual).source expected) <;> rfl
  cases inst with
  | load64 dst base offset =>
      rw [exec] at sound
      cases loads : m.load64? (m.regs base) (m.source offset) with
      | none => exact absurd (congrArg (Effect.ofOption ∘ Option.map _) loads) sound
      | some found => rw [speculate, exec, Machine.presume64_of_load loads, loads]; rfl
  | load32 dst base offset =>
      rw [exec] at sound
      cases loads : m.load32? (m.regs base) (Word.ofInt32 offset) with
      | none => exact absurd (congrArg (Effect.ofOption ∘ Option.map _) loads) sound
      | some found => rw [speculate, exec, Machine.presume32_of_load loads, loads]; rfl
  | loadIndexed64 dst base index =>
      rw [exec] at sound
      cases loads : m.load64? (m.regs base) ((m.regs index).toUInt32.toUInt64 * 8) with
      | none => exact absurd (congrArg (Effect.ofOption ∘ Option.map _) loads) sound
      | some found => rw [speculate, exec, Machine.presume64_of_load loads, loads]; rfl
  | branchTestShape cond obj shape scratch zeroed target =>
      rw [exec] at sound ⊢
      cases loads : m.load64? (m.regs obj) (UInt64.ofNat layout.shape) with
      | none => exact absurd (by rw [loads]) sound
      | some found =>
          rw [speculate, Machine.presume64_of_load loads]
          exact compares
  | branchTestClass cond obj classWord scratch zeroed target =>
      rw [exec] at sound ⊢
      cases loads : m.load64? (m.regs obj) (UInt64.ofNat layout.shape) with
      | none => exact absurd (by rw [loads]) sound
      | some found =>
          rw [loads] at sound
          dsimp only at sound ⊢
          cases again : found.2.load64? found.1 (UInt64.ofNat layout.shapeClass) with
          | none => exact absurd (by rw [again]) sound
          | some word =>
              rw [speculate, Machine.presume64_of_load loads]
              dsimp only
              rw [Machine.presume64_of_load again]
              exact compares
  | _ => rfl

end Inst

/-- A run of a speculating machine: what it is entered with, where it begins, and what it makes of each
instruction. -/
structure Speculation where
  entry : Entry
  origin : Machine
  guess : Nat → Guess

namespace Speculation

def step (run : Speculation) (inst : Inst) (index : Nat) : Flow → Flow
  | .running none machine => .ofEffect (inst.speculate run.entry (run.guess index) machine)
  | flow => flow.step run.entry inst

/-- Where the run gets along instructions from the first one. -/
def flow (run : Speculation) (insts : List Inst) : Flow :=
  insts.zipIdx.foldl (fun flow placed => run.step placed.1 placed.2 flow) (.running none run.origin)

variable {run : Speculation} {insts : List Inst} {inst : Inst}

theorem flow_concat (run : Speculation) (insts : List Inst) (inst : Inst) :
    run.flow (insts ++ [inst]) = run.step inst insts.length (run.flow insts) := by
  rw [flow, flow, List.zipIdx_append, List.foldl_append, Nat.zero_add]
  rfl

/-- The run goes on with a machine, to which an instruction led, or which was on its way to a label. -/
theorem flow_concat_running {pending : Option Label} {n : Machine}
    (flow : run.flow (insts ++ [inst]) = .running pending n) :
    (∃ m, run.flow insts = .running none m ∧
        .ofEffect (inst.speculate run.entry (run.guess insts.length) m) = Flow.running pending n) ∨
      ∃ label, run.flow insts = .running (some label) n ∧
        pending = if inst = .bind label then none else some label := by
  rw [flow_concat] at flow
  cases before : run.flow insts with
  | running waiting m =>
      rw [before] at flow
      cases waiting with
      | none => exact .inl ⟨m, rfl, flow⟩
      | some label =>
          cases flow
          exact .inr ⟨label, rfl, rfl⟩
  | exited | faulted =>
      rw [before] at flow
      cases flow

/-- The run mispredicts the test of an object at an index: it falls through where it should branch. -/
def Misses (run : Speculation) (insts : List Inst) (index : Nat) : Prop :=
  ∃ inst m label n, insts[index]? = some inst ∧ inst.isTest = true ∧
    run.flow (insts.take index) = .running none m ∧ (run.guess index).falls = true ∧
    inst.speculate run.entry { run.guess index with falls := false } m = .jump label n

end Speculation

namespace Flow

variable {effect : Effect} {n : Machine} {label : Label}

theorem next_of_ofEffect (running : ofEffect effect = .running none n) : effect = .next n := by
  cases effect <;> cases running
  rfl

theorem jump_of_ofEffect (running : ofEffect effect = .running (some label) n) :
    effect = .jump label n := by
  cases effect <;> cases running
  rfl

end Flow

end InlineCache
