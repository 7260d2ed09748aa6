import InlineCache.Proofs.Emit.Settles
import Mathlib.Logic.Relation

/-!
The changes that code generation makes to its state, one at a time.  Each keeps operands from being
doubles and writes no instruction for one; and each stretch of the allocator makes nothing but such
changes, whether it succeeds or fails, where it starts without doubles.
-/

namespace InlineCache

/-- The instruction is there for an operand that is kept as a double. -/
def Inst.keepsDouble : Inst → Bool
  | .spillFloat _ _ | .reloadFloat _ _ | .boxDouble _ _ => true
  | _ => false

/-- What an allocation says of float registers. -/
structure FloatAccount where
  available : RegisterSet
  scratch : RegisterSet
  saves : Bool
  saved : SavedFloats
  saveCount : Nat

def Allocation.floats (allocation : Allocation) : FloatAccount :=
  { available := allocation.availableFloats
    scratch := allocation.scratchFloats
    saves := allocation.savesFloats
    saved := allocation.saved
    saveCount := allocation.saveCount }

theorem Location.form?_of_floatRegister? {location : Location} {reg : FloatRegister}
    (held : location.floatRegister? = some reg) : location.form? = some .double := by
  cases location <;> cases held
  rfl

namespace Allocation.Single

variable {allocation : Allocation}

theorem setLocation (single : allocation.Single) (index : Nat) {location : Location}
    (other : location.form? ≠ some .double) : (allocation.setLocation index location).Single :=
  single.modifyOperand index fun _ kept => ⟨other, kept.2⟩

theorem markDefined (single : allocation.Single) (id : OperandId) :
    (allocation.markDefined id).Single :=
  single.modifyOperand id.toNat fun _ kept => kept

theorem of_mem (single : allocation.Single) {operand : OperandState}
    (member : operand ∈ allocation.operands) : operand.location.form? ≠ some .double := by
  obtain ⟨index, found⟩ := List.getElem?_of_mem member
  have other := single.place index
  rwa [Allocation.place, found] at other

end Allocation.Single

namespace Assembler

/-- No instruction so far is there for an operand that is kept as a double. -/
def Spare (state : Assembler) : Prop :=
  ∀ inst ∈ state.buffer.insts.toList, inst.keepsDouble = false

/-- One change of the state; what it may do to float registers and exit paths is marked. -/
inductive Edit (floats : Bool) (state : Assembler) : Assembler → Prop
  | write {inst : Inst} (spare : inst.keepsDouble = false) : Edit floats state (state.emitted inst)
  | newLabel : Edit floats state { state with buffer := state.buffer.newLabel.2 }
  | callsHelpers : Edit floats state { state with callsHelpers := true }
  | locate (index : Nat) {location : Location} (other : location.form? ≠ some .double) :
      Edit floats state (state.withAllocation (state.allocation.setLocation index location))
  | prove (id : OperandId) {type : ValueType} (other : type ≠ .double) :
      Edit floats state (state.withAllocation (state.allocation.setKnownType id type))
  | define (id : OperandId) :
      Edit floats state (state.withAllocation (state.allocation.markDefined id))
  | account {allocation : Allocation} (operands : allocation.operands = state.allocation.operands)
      (same : floats = true ∨ allocation.floats = state.allocation.floats) :
      Edit floats state (state.withAllocation allocation)
  | exitPath (status : ExitStatus) (marked : floats = true) :
      Edit floats state (Asm.exitPath status state).2

/-- Changes, one after the other. -/
abbrev Edited (floats : Bool) : Assembler → Assembler → Prop :=
  Relation.ReflTransGen (Edit floats)

variable {floats : Bool} {state after : Assembler}

namespace Edit

theorem single (edit : state.Edit floats after) (single : state.allocation.Single) :
    after.allocation.Single := by
  cases edit with
  | write | newLabel | callsHelpers | exitPath => exact single
  | locate index other => exact single.setLocation index other
  | prove id other => exact single.setKnownType id other
  | define id => exact single.markDefined id
  | account operands => exact single.alike (.of_operands operands)

theorem spare (edit : state.Edit floats after) (spare : state.Spare) : after.Spare := by
  cases edit with
  | write kept =>
      intro inst member
      rcases mem_emitted.mp member with before | rfl
      · exact spare inst before
      · exact kept
  | exitPath status =>
      have same : (Asm.exitPath status state).2.buffer.insts = state.buffer.insts := by
        show (state.exits.add state.buffer status state.allocation.saved).2.2.insts = _
        unfold ExitPaths.add
        split <;> rfl
      rwa [Spare, same]
  | _ => exact spare

theorem sameFloats (edit : state.Edit false after) :
    after.allocation.floats = state.allocation.floats ∧ after.exits = state.exits := by
  cases edit with
  | account operands same => exact ⟨same.resolve_left Bool.false_ne_true, rfl⟩
  | exitPath status marked => cases marked
  | _ => exact ⟨rfl, rfl⟩

end Edit

namespace Edited

theorem single (edited : state.Edited floats after) (single : state.allocation.Single) :
    after.allocation.Single := by
  induction edited with
  | refl => exact single
  | tail _ edit kept => exact edit.single kept

theorem spare (edited : state.Edited floats after) (spare : state.Spare) : after.Spare := by
  induction edited with
  | refl => exact spare
  | tail _ edit kept => exact edit.spare kept

theorem sameFloats (edited : state.Edited false after) :
    after.allocation.floats = state.allocation.floats ∧ after.exits = state.exits := by
  induction edited with
  | refl => exact ⟨rfl, rfl⟩
  | tail _ edit before =>
      obtain ⟨floats, exits⟩ := edit.sameFloats
      exact ⟨floats.trans before.1, exits.trans before.2⟩

end Edited

end Assembler

namespace Asm

open Assembler

/-- However the stretch ends, it has made changes one after the other. -/
def Edits (floats : Bool) (stretch : Asm α) : Prop :=
  ∀ state : Assembler, state.allocation.Single → state.Edited floats (stretch state).2

theorem Edits.runs {floats : Bool} {stretch : Asm α} (edits : Edits floats stretch)
    (single : state.allocation.Single) (runs : stretch.Runs state answer after) :
    state.Edited floats after := by
  have edited := edits state single
  rwa [runs] at edited

/-- A stretch that succeeds makes no operand a double. -/
theorem Edits.single {stretch : Asm α} (edits : Edits true stretch)
    (runs : stretch.Runs state answer after) (single : state.allocation.Single) :
    after.allocation.Single :=
  (edits.runs single runs).single single

namespace Edits

variable {floats : Bool} {α β : Type}

theorem pure {answer : α} : Edits floats (pure answer : Asm α) :=
  fun _ _ => .refl

theorem throw {error : CodeError} : Edits floats (throw error : Asm α) :=
  fun _ _ => .refl

theorem violate {violation : Violation} : Edits floats (violate violation : Asm α) :=
  throw

/-- What follows a stretch goes on from where it ended. -/
theorem onward {stretch : Asm α} {next : α → Asm β} (second : ∀ answer, Edits floats (next answer))
    (single : (stretch state).2.allocation.Single) :
    (stretch state).2.Edited floats ((stretch >>= next) state).2 := by
  rw [bind_apply]
  rcases ending : stretch state with ⟨error | answer, middle⟩
  · exact .refl
  · rw [ending] at single
    exact second answer middle single

theorem bind {stretch : Asm α} {next : α → Asm β} (first : Edits floats stretch)
    (second : ∀ answer, Edits floats (next answer)) : Edits floats (stretch >>= next) :=
  fun state single => (first state single).trans
    (onward second ((first state single).single single))

theorem allocation_bind {next : Allocation → Asm β}
    (rest : ∀ found : Allocation, found.Single → Edits floats (next found)) :
    Edits floats (allocation >>= next) := by
  intro state single
  rw [bind_apply]
  exact rest _ single state single

theorem modifyAllocation {change : Allocation → Allocation}
    (operands : ∀ allocation, (change allocation).operands = allocation.operands)
    (same : floats = true ∨ ∀ allocation, (change allocation).floats = allocation.floats) :
    Edits floats (modifyAllocation change) :=
  fun _ _ => Relation.ReflTransGen.single (.account (operands _) (same.imp_right fun same => same _))

theorem emit {inst : Inst} (spare : inst.keepsDouble = false) : Edits floats (emit inst) :=
  fun _ _ => Relation.ReflTransGen.single (.write spare)

theorem newLabel : Edits floats newLabel :=
  fun _ _ => Relation.ReflTransGen.single .newLabel

theorem exitPath {status : ExitStatus} : Edits true (exitPath status) :=
  fun _ _ => Relation.ReflTransGen.single (.exitPath status rfl)

theorem callsHelpers :
    Edits floats (modify fun state => { state with callsHelpers := true } : Asm Unit) :=
  fun _ _ => Relation.ReflTransGen.single .callsHelpers

theorem setLocation {index : Nat} {location : Location} (other : location.form? ≠ some .double) :
    Edits floats (setLocation index location) :=
  fun _ _ => Relation.ReflTransGen.single (.locate index other)

theorem setKnownType {id : OperandId} {type : ValueType} (other : type ≠ .double) :
    Edits floats (setKnownType id type) :=
  fun _ _ => Relation.ReflTransGen.single (.prove id other)

theorem forM {visit : α → Asm Unit} {items : List α}
    (visits : ∀ item ∈ items, Edits floats (visit item)) : Edits floats (items.forM visit) := by
  induction items with
  | nil => exact pure
  | cons item rest ih =>
      exact (visits item (.head _)).bind fun _ => ih fun item member => visits item (.tail _ member)

/-- No operand is found to be a double. -/
theorem operandState_bind {id : OperandId} {next : OperandState → Asm β}
    (rest : ∀ operand : OperandState, operand.location.form? ≠ some .double →
      Edits floats (next operand)) : Edits floats (operandState id >>= next) := by
  rw [operandState, bind_assoc]
  refine allocation_bind fun found single => ?_
  cases listed : found.operand? id with
  | none => exact fun _ _ => .refl
  | some operand => exact rest operand (single.of_mem (List.mem_of_getElem? listed))

/-! ### The stretches of the allocator -/

theorem exhausted : Edits floats (exhausted : Asm α) :=
  allocation_bind fun _ _ => throw

theorem markDefined {id : OperandId} : Edits floats (markDefined id) := by
  have marks : Edits floats (Asm.modifyAllocation
      (·.modifyOperand id.toNat fun operand => { operand with isDefined := true })) :=
    fun _ _ => Relation.ReflTransGen.single (.define id)
  refine operandState_bind fun operand _ => marks.bind fun _ => ?_
  split
  · exact violate
  · exact pure

theorem provenPayload {id : OperandId} : Edits floats (provenPayload id) := by
  refine allocation_bind fun found _ => ?_
  split
  · exact pure
  · exact violate

theorem freeSlot {slot : Nat} : Edits floats (freeSlot slot) :=
  modifyAllocation (fun _ => rfl) (.inr fun _ => rfl)

theorem takeSlot : Edits floats takeSlot := by
  refine allocation_bind fun found _ => allocation_bind fun again _ => ?_
  split
  · exact bind (modifyAllocation (fun _ => rfl) (.inr fun _ => rfl)) fun _ => pure
  · exact exhausted

theorem spillOperand : Edits floats spillOperand := by
  refine allocation_bind fun found single => ?_
  dsimp only
  split
  · exact exhausted
  · refine takeSlot.bind fun slot => (emit rfl).bind fun _ => ?_
    split
    · exact bind (setLocation nofun) fun _ => pure
    · exact bind (setLocation nofun) fun _ => pure

theorem pin {reg : Register} : Edits floats (pin reg) :=
  modifyAllocation (fun _ => rfl) (.inr fun _ => rfl)

theorem takeRegister : Edits floats takeRegister := by
  have pins (reg : Register) : Edits floats (Asm.pin reg >>= fun _ => Pure.pure reg) :=
    pin.bind fun _ => pure
  refine allocation_bind fun found _ => ?_
  dsimp only
  split
  · exact bind (modifyAllocation (fun _ => rfl) (.inr fun _ => rfl)) fun _ => bind pure pins
  · exact spillOperand.bind pins

/-- No operand is in a float register that could be spilled. -/
theorem spillFloatOperand : Edits floats spillFloatOperand := by
  refine allocation_bind fun found single => ?_
  dsimp only
  split
  · exact exhausted
  · rename_i victim
    obtain ⟨⟨operand, _⟩, member, selected⟩ := List.exists_of_findSome?_eq_some victim
    dsimp only at selected
    split at selected
    · rename_i held
      exact absurd (Location.form?_of_floatRegister? held)
        (single.of_mem (List.fst_mem_of_mem_zipIdx member))
    · cases selected

theorem saveFloat {reg : FloatRegister} : Edits true (saveFloat reg) := by
  refine allocation_bind fun found _ => ?_
  split
  · refine allocation_bind fun _ _ => (emit rfl).bind fun _ => ?_
    exact modifyAllocation (fun _ => rfl) (.inl rfl)
  · exact pure

theorem takeFloat : Edits true takeFloat := by
  have pins (reg : FloatRegister) : Edits true
      (Asm.modifyAllocation (fun allocation =>
        { allocation with pinnedFloats := allocation.pinnedFloats.insert reg.index }) >>= fun _ =>
          Pure.pure reg) :=
    bind (modifyAllocation (fun _ => rfl) (.inl rfl)) fun _ => pure
  refine allocation_bind fun found _ => ?_
  dsimp only
  split
  · exact bind (modifyAllocation (fun _ => rfl) (.inl rfl)) fun _ => saveFloat.bind fun _ =>
      bind pure pins
  · exact spillFloatOperand.bind pins

theorem returnFloat {reg : FloatRegister} : Edits true (returnFloat reg) := by
  have frees (_ : Unit) : Edits true (Asm.modifyAllocation fun allocation =>
      { allocation with
        pinnedFloats := allocation.pinnedFloats.remove reg.index
        availableFloats := allocation.availableFloats.insert reg.index }) :=
    modifyAllocation (fun _ => rfl) (.inl rfl)
  refine allocation_bind fun found _ => ?_
  dsimp only
  split
  · exact bind (modifyAllocation (fun _ => rfl) (.inl rfl)) fun _ => (emit rfl).bind frees
  · exact frees ()

theorem freeRegister {reg : Register} : Edits floats (freeRegister reg) :=
  modifyAllocation (fun _ => rfl) (.inr fun _ => rfl)

theorem freeLocation {location : Location} (other : location.form? ≠ some .double) :
    Edits floats (freeLocation location) := by
  cases location with
  | nowhere => exact pure
  | payloadReg | valueReg => exact freeRegister
  | payloadSlot | valueSlot => exact freeSlot
  | floatReg | floatSlot => exact absurd rfl other

theorem allocateRegister : Edits floats allocateRegister :=
  takeRegister.bind fun _ =>
    bind (modifyAllocation (fun _ => rfl) (.inr fun _ => rfl)) fun _ => pure

theorem releaseRegister {reg : Register} : Edits floats (releaseRegister reg) := by
  refine modifyAllocation (fun found => ?_) (.inr fun found => ?_)
  · split <;> rfl
  · split <;> rfl

theorem allocateFloat : Edits true allocateFloat :=
  takeFloat.bind fun _ => bind (modifyAllocation (fun _ => rfl) (.inl rfl)) fun _ => pure

theorem releaseFloat {reg : FloatRegister} : Edits true (releaseFloat reg) := by
  refine allocation_bind fun found _ => ?_
  split
  · exact bind (modifyAllocation (fun _ => rfl) (.inl rfl)) fun _ => returnFloat
  · exact pure

theorem defineInput {index : Nat} : Edits floats (defineInput index) := by
  refine markDefined.bind fun _ => ?_
  refine bind (modifyAllocation (fun _ => rfl) (.inr fun _ => rfl)) fun _ => ?_
  refine operandState_bind fun operand _ => ?_
  split
  · exact takeRegister.bind fun _ => (emit rfl).bind fun _ => setLocation nofun
  · exact pure

theorem defineInputs {count : Nat} : Edits floats (defineInputs count) :=
  forM fun _ _ => defineInput

theorem beginOp {index : Nat} : Edits floats (beginOp index) := by
  refine bind (modifyAllocation (fun _ => rfl) (.inr fun _ => rfl)) fun _ => ?_
  refine allocation_bind fun found single => forM fun dead member => ?_
  have listed := (List.mem_filter.mp member).1
  exact (freeLocation (single.of_mem (List.fst_mem_of_mem_zipIdx listed))).bind fun _ =>
    setLocation nofun

theorem definePayloadReg {id : OperandId} {type : PayloadType} :
    Edits floats (definePayloadReg id type) := by
  refine markDefined.bind fun _ => takeRegister.bind fun reg => bind (setLocation nofun) fun _ => ?_
  dsimp only
  split
  · rename_i tag tagged
    refine bind (setKnownType ?_) fun _ => pure
    rintro rfl
    exact type.valueType?_ne_double tagged
  · exact pure

theorem boxInPlace {id : OperandId} {reg : Register} {type : PayloadType} :
    Edits floats (boxInPlace id reg type) := by
  unfold Asm.boxInPlace
  split
  · exact violate
  · rename_i tag tagged
    refine (emit rfl).bind fun _ => setKnownType ?_
    rintro rfl
    exact type.valueType?_ne_double tagged

theorem reload {slot : Nat} : Edits floats (reload slot) :=
  takeRegister.bind fun _ => (emit rfl).bind fun _ => freeSlot.bind fun _ => pure

theorem useValueReg {id : OperandId} : Edits floats (useValueReg id) := by
  have lists (reg : Register) : Edits floats
      (Asm.setLocation id.toNat (.valueReg reg) >>= fun _ => Asm.pin reg >>= fun _ =>
        Pure.pure reg) :=
    bind (setLocation nofun) fun _ => pin.bind fun _ => pure
  refine operandState_bind fun operand other => ?_
  dsimp only
  split <;> rename_i place
  · exact bind pure lists
  · exact boxInPlace.bind fun _ => bind pure lists
  · exact reload.bind lists
  · exact reload.bind fun _ => boxInPlace.bind fun _ => bind pure lists
  · exact absurd (place ▸ rfl) other
  · exact absurd (place ▸ rfl) other
  · exact bind violate lists

theorem useRegister {id : OperandId} : Edits floats (useRegister id) := by
  have lists (reg : Register) (type : PayloadType) : Edits floats
      (Asm.setLocation id.toNat (.payloadReg reg type) >>= fun _ => Asm.pin reg >>= fun _ =>
        Pure.pure reg) :=
    bind (setLocation nofun) fun _ => pin.bind fun _ => pure
  refine operandState_bind fun operand _ => ?_
  dsimp only
  split
  · exact bind pure fun found => lists found.1 found.2
  · exact provenPayload.bind fun _ => (emit rfl).bind fun _ =>
      bind pure fun found => lists found.1 found.2
  · exact reload.bind fun _ => bind pure fun found => lists found.1 found.2
  · exact provenPayload.bind fun _ => reload.bind fun _ => (emit rfl).bind fun _ =>
      bind pure fun found => lists found.1 found.2
  · exact bind violate fun found => lists found.1 found.2
  · exact bind violate fun found => lists found.1 found.2
  · exact bind violate fun found => lists found.1 found.2

end Edits

end Asm

end InlineCache
