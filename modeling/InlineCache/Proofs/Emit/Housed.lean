import InlineCache.Proofs.Code.Draft
import InlineCache.Proofs.Emit.Accounts
import InlineCache.Proofs.Emit.Liveness
import InlineCache.Proofs.Emit.Tidy

/-!
Code that is written stays within its frame.  The registers that the allocator hands out, the slots it
spills to and the slots it saves floats in all lie within limits that only grow, so that an instruction
that names them is within the limits for good.
-/

namespace InlineCache

/-- What code is generated for: the settings, and how many inputs and words there are to load. -/
structure Site where
  config : CodeConfig
  inputs : Nat
  words : Nat

namespace Site

variable (site : Site)

def registers : Nat := min site.config.generalRegisters.toNat 32

def floatRegisters : Nat := min site.config.floatRegisters.toNat 32

/-- The limits of the code, with so many slots for operands and for saved floats. -/
def limits (slots saves : Nat) : Limits :=
  ⟨site.registers, site.floatRegisters, slots, saves, site.inputs, site.words⟩

theorem limits_le {slots saves moreSlots moreSaves : Nat} (le : slots ≤ moreSlots)
    (saved : saves ≤ moreSaves) : (site.limits slots saves).Le (site.limits moreSlots moreSaves) :=
  ⟨Nat.le_refl _, Nat.le_refl _, le, saved, Nat.le_refl _, Nat.le_refl _⟩

end Site

def Resource.Within (limits : Limits) : Resource → Prop
  | .register reg => reg.index.toNat < limits.registers
  | .float reg => reg.index.toNat < limits.floatRegisters
  | .slot index => index < limits.slots

/-- Saved registers and their save slots are in the frame. -/
def SavedFloats.Within (limits : Limits) (saved : SavedFloats) : Prop :=
  ∀ entry ∈ saved, entry.1.index.toNat < limits.floatRegisters ∧ entry.2 < limits.saves

theorem SavedFloats.Within.mono {low high : Limits} {saved : SavedFloats}
    (within : SavedFloats.Within low saved) (le : low.Le high) : SavedFloats.Within high saved :=
  fun entry member => ⟨Nat.lt_of_lt_of_le (within entry member).1 le.floatRegisters,
    Nat.lt_of_lt_of_le (within entry member).2 le.saves⟩

theorem Resource.Within.mono {low high : Limits} {resource : Resource} (within : resource.Within low)
    (le : low.Le high) : resource.Within high := by
  cases resource with
  | register => exact Nat.lt_of_lt_of_le within le.registers
  | float => exact Nat.lt_of_lt_of_le within le.floatRegisters
  | slot => exact Nat.lt_of_lt_of_le within le.slots

namespace Allocation

/-- What code may name when the allocator has got so far. -/
def limits (site : Site) (allocation : Allocation) : Limits :=
  site.limits allocation.slotCount allocation.saveCount

/-- Everything that the allocator knows of is within the limits. -/
structure Housed (site : Site) (allocation : Allocation) : Prop where
  available : ∀ r, allocation.available.contains r = true → r.toNat < site.registers
  scratch : ∀ r, allocation.scratch.contains r = true → r.toNat < site.registers
  floats : ∀ f, allocation.availableFloats.contains f = true → f.toNat < site.floatRegisters
  scratchFloats : ∀ f, allocation.scratchFloats.contains f = true → f.toNat < site.floatRegisters
  places : ∀ index resource, (allocation.place index).resource? = some resource →
    resource.Within (allocation.limits site)
  saved : SavedFloats.Within (allocation.limits site) allocation.saved
  slots : allocation.slotCount ≤ allocation.spillLimit

namespace Housed

variable {site : Site} {allocation : Allocation}

theorem register (housed : allocation.Housed site) (index : Nat) {reg : Register}
    (held : (allocation.place index).register? = some reg) : reg.index.toNat < site.registers :=
  housed.places index (.register reg) (by
    cases place : allocation.place index <;> rw [place] at held <;> cases held <;> rfl)

theorem floatRegister (housed : allocation.Housed site) (index : Nat) {reg : FloatRegister}
    (held : (allocation.place index).floatRegister? = some reg) :
    reg.index.toNat < site.floatRegisters :=
  housed.places index (.float reg) (by
    cases place : allocation.place index <;> rw [place] at held <;> cases held
    rfl)

theorem slot (housed : allocation.Housed site) {index : Nat} {slot : Nat}
    (held : (allocation.place index).slot? = some slot) : slot < allocation.slotCount :=
  housed.places index (.slot slot) (by
    cases place : allocation.place index <;> rw [place] at held <;> cases held <;> rfl)

theorem pin (housed : allocation.Housed site) (reg : Register) : (allocation.pin reg).Housed site :=
  ⟨housed.available, housed.scratch, housed.floats, housed.scratchFloats, housed.places,
    housed.saved, housed.slots⟩

theorem pinFloat (housed : allocation.Housed site) (reg : FloatRegister) :
    (allocation.pinFloat reg).Housed site :=
  ⟨housed.available, housed.scratch, housed.floats, housed.scratchFloats, housed.places,
    housed.saved, housed.slots⟩

theorem unpin (housed : allocation.Housed site) : allocation.unpin.Housed site :=
  ⟨housed.available, housed.scratch, housed.floats, housed.scratchFloats, housed.places,
    housed.saved, housed.slots⟩

theorem vacate (housed : allocation.Housed site) (slot : Nat) :
    (allocation.vacate slot).Housed site :=
  ⟨housed.available, housed.scratch, housed.floats, housed.scratchFloats, housed.places,
    housed.saved, housed.slots⟩

theorem contains_remove {set : RegisterSet} {bound : Nat}
    (below : ∀ r, set.contains r = true → r.toNat < bound) (q r : UInt8)
    (held : (set.remove q).contains r = true) : r.toNat < bound := by
  rw [RegisterSet.contains_remove, Bool.and_eq_true] at held
  exact below r held.1

theorem contains_insert {set : RegisterSet} {bound : Nat}
    (below : ∀ r, set.contains r = true → r.toNat < bound) {q : UInt8} (inside : q.toNat < bound)
    (r : UInt8) (held : (set.insert q).contains r = true) : r.toNat < bound := by
  rw [RegisterSet.contains_insert, Bool.or_eq_true, Bool.and_eq_true, decide_eq_true_eq,
    decide_eq_true_eq] at held
  rcases held with before | ⟨-, rfl⟩
  · exact below r before
  · exact inside

theorem grab (housed : allocation.Housed site) (reg : Register) :
    (allocation.grab reg).Housed site :=
  ⟨contains_remove housed.available _, housed.scratch, housed.floats, housed.scratchFloats,
    housed.places, housed.saved, housed.slots⟩

theorem free (housed : allocation.Housed site) {reg : Register}
    (inside : reg.index.toNat < site.registers) : (allocation.free reg).Housed site :=
  ⟨contains_insert housed.available inside, housed.scratch, housed.floats, housed.scratchFloats,
    housed.places, housed.saved, housed.slots⟩

theorem yield (housed : allocation.Housed site) {reg : Register}
    (inside : reg.index.toNat < site.registers) : (allocation.yield reg).Housed site :=
  ⟨contains_insert housed.available inside, housed.scratch, housed.floats, housed.scratchFloats,
    housed.places, housed.saved, housed.slots⟩

theorem hold (housed : allocation.Housed site) {reg : Register}
    (inside : reg.index.toNat < site.registers) : (allocation.hold reg).Housed site :=
  ⟨housed.available, contains_insert housed.scratch inside, housed.floats, housed.scratchFloats,
    housed.places, housed.saved, housed.slots⟩

theorem release (housed : allocation.Housed site) {reg : Register}
    (held : allocation.scratch.contains reg.index = true) :
    (allocation.release reg).Housed site :=
  ⟨contains_insert housed.available (housed.scratch _ held), contains_remove housed.scratch _,
    housed.floats, housed.scratchFloats, housed.places, housed.saved, housed.slots⟩

theorem grabFloat (housed : allocation.Housed site) (reg : FloatRegister) :
    (allocation.grabFloat reg).Housed site :=
  ⟨housed.available, housed.scratch, contains_remove housed.floats _, housed.scratchFloats,
    housed.places, housed.saved, housed.slots⟩

theorem freeFloat (housed : allocation.Housed site) {reg : FloatRegister}
    (inside : reg.index.toNat < site.floatRegisters) : (allocation.freeFloat reg).Housed site :=
  ⟨housed.available, housed.scratch, contains_insert housed.floats inside, housed.scratchFloats,
    housed.places, housed.saved, housed.slots⟩

theorem holdFloat (housed : allocation.Housed site) {reg : FloatRegister}
    (inside : reg.index.toNat < site.floatRegisters) : (allocation.holdFloat reg).Housed site :=
  ⟨housed.available, housed.scratch, housed.floats, contains_insert housed.scratchFloats inside,
    housed.places, housed.saved, housed.slots⟩

theorem dropFloat (housed : allocation.Housed site) (reg : FloatRegister) :
    (allocation.dropFloat reg).Housed site :=
  ⟨housed.available, housed.scratch, housed.floats, contains_remove housed.scratchFloats _,
    housed.places, housed.saved, housed.slots⟩

theorem dropSave (housed : allocation.Housed site) (reg : FloatRegister) :
    (allocation.dropSave reg).Housed site :=
  ⟨housed.available, housed.scratch, housed.floats, housed.scratchFloats, housed.places,
    fun entry member => housed.saved entry (List.mem_of_mem_eraseP member), housed.slots⟩

theorem recordSave (housed : allocation.Housed site) {reg : FloatRegister}
    (inside : reg.index.toNat < site.floatRegisters) (slot : Nat) :
    (allocation.recordSave reg slot).Housed site := by
  have le : (allocation.limits site).Le ((allocation.recordSave reg slot).limits site) :=
    site.limits_le (Nat.le_refl _) (Nat.le_max_left ..)
  refine ⟨housed.available, housed.scratch, housed.floats, housed.scratchFloats,
    fun index resource held => (housed.places index resource held).mono le, ?_, housed.slots⟩
  intro entry member
  rcases List.mem_append.mp member with before | now
  · exact housed.saved.mono le entry before
  · cases List.mem_singleton.mp now
    exact ⟨inside, Nat.lt_of_lt_of_le (Nat.lt_succ_self slot) (Nat.le_max_right ..)⟩

theorem occupy (housed : allocation.Housed site) {slot : Nat}
    (bound : slot < allocation.spillLimit) : (allocation.occupy slot).Housed site := by
  have le : (allocation.limits site).Le ((allocation.occupy slot).limits site) :=
    site.limits_le (Nat.le_max_left ..) (Nat.le_refl _)
  exact ⟨housed.available, housed.scratch, housed.floats, housed.scratchFloats,
    fun index resource held => (housed.places index resource held).mono le, housed.saved.mono le,
    Nat.max_le.mpr ⟨housed.slots, bound⟩⟩

theorem modifyOperand (housed : allocation.Housed site) {index : Nat}
    {change : OperandState → OperandState}
    (keeps : ∀ operand, (change operand).location = operand.location) :
    (allocation.modifyOperand index change).Housed site :=
  ⟨housed.available, housed.scratch, housed.floats, housed.scratchFloats,
    fun other resource held => housed.places other resource
      (place_modifyOperand allocation index other keeps ▸ held), housed.saved, housed.slots⟩

theorem markDefined (housed : allocation.Housed site) (id : OperandId) :
    (allocation.markDefined id).Housed site :=
  housed.modifyOperand fun _ => rfl

theorem setLocation (housed : allocation.Housed site) (index : Nat) (location : Location)
    (inside : ∀ resource, location.resource? = some resource →
      resource.Within (allocation.limits site)) :
    (allocation.setLocation index location).Housed site := by
  refine ⟨housed.available, housed.scratch, housed.floats, housed.scratchFloats, ?_, housed.saved,
    housed.slots⟩
  intro other resource held
  rw [place_setLocation] at held
  split at held
  · exact inside resource held
  · exact housed.places other resource held

theorem turn (housed : allocation.Housed site) (index : Nat) :
    (allocation.turn index).Housed site := by
  refine ⟨fun r held => ?_, fun r held => ?_, housed.floats, housed.scratchFloats, housed.places,
    housed.saved, housed.slots⟩
  · rw [Allocation.turn, RegisterSet.contains_union, Bool.or_eq_true] at held
    exact held.elim (housed.available r) (housed.scratch r)
  · rw [Allocation.turn, RegisterSet.contains_empty] at held
    cases held

theorem learn (housed : allocation.Housed site) (id : OperandId) (type : PayloadType) :
    (allocation.learn id type).Housed site := by
  unfold Allocation.learn
  cases type.valueType? with
  | none => exact housed
  | some tag => exact housed.modifyOperand fun _ => rfl

/-- At the start nothing is used. -/
theorem start {ops : List Op} {count : Nat}
    (started : Allocation.start ops count site.config = .ok allocation) :
    allocation.Housed site := by
  obtain ⟨table, -, rfl⟩ := start_ok started
  have first (count : Nat) (r : UInt8) (held : (RegisterSet.first count).contains r = true) :
      r.toNat < min count 32 := of_decide_eq_true ((RegisterSet.contains_first count r).symm.trans held)
  have none (r : UInt8) : RegisterSet.empty.contains r ≠ true :=
    fun held => nomatch (RegisterSet.contains_empty r).symm.trans held
  refine ⟨first _, fun r held => absurd held (none r), first _, fun f held => absurd held (none f), ?_,
    fun _ impossible => (nomatch impossible), Nat.zero_le _⟩
  intro index resource held
  rw [place_blank] at held
  cases held

end Housed

end Allocation

end InlineCache
