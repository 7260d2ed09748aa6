import InlineCache.Proofs.Emit.Trail

/-!
What a stretch of code generation has in its hands.  It writes registers that it took for itself, and accesses
memory through those or through payloads that it asked for.  They are pinned, so the allocator does not move
an operand into one of them.
-/

namespace InlineCache

/-- The boxed word of zero has no tag but its own. -/
theorem Word.valueType?_of_hasType_box {held : PayloadType} {type : ValueType}
    (tagged : held.valueType?.isSome = true) (passes : Word.hasType (Word.box 0 held) type = true) :
    held.valueType? = some type := by
  cases held <;> cases type <;>
    first | rfl | exact absurd passes (by decide) | exact absurd tagged (by decide)

/-- The instruction moves no operand, and binds no label. -/
def Inst.isPlain : Inst → Bool
  | .bind _ | .spill _ _ | .restore _ _ | .spillFloat _ _ => false
  | _ => true

attribute [simp] Inst.isPlain Inst.target? Inst.written? Inst.base? Inst.zeroed?

theorem Inst.bound_of_plain {inst : Inst} (plain : inst.isPlain = true) : inst.bound? = none := by
  cases inst <;> cases plain <;> rfl

theorem Inst.touches_of_plain {inst : Inst} (plain : inst.isPlain = true) :
    inst.touches = (inst.written?.map Resource.register).toList := by
  cases inst <;> cases plain <;> rfl

/-- What a stretch of code generation may name: labels to go to, registers to write, and registers with
payloads to access memory through. -/
structure Scope where
  labels : List Label
  own : List Register
  held : List Register

namespace Scope

def none : Scope := ⟨[], [], []⟩

/-- The stretch may emit the instruction. -/
structure Allows (scope : Scope) (inst : Inst) : Prop where
  plain : inst.isPlain = true
  written : ∀ reg, inst.written? = some reg → reg ∈ scope.own
  read : ∀ reg, inst.base? = some reg → reg ∈ scope.own ∨ reg ∈ scope.held
  zeroed : ∀ reg, inst.zeroed? = some reg → reg ∈ scope.held
  target : ∀ label, inst.target? = some label → label ∈ scope.labels

@[simp] theorem allows_iff {scope : Scope} {inst : Inst} :
    scope.Allows inst ↔ inst.isPlain = true ∧ (∀ reg, inst.written? = some reg → reg ∈ scope.own) ∧
      (∀ reg, inst.base? = some reg → reg ∈ scope.own ∨ reg ∈ scope.held) ∧
      (∀ reg, inst.zeroed? = some reg → reg ∈ scope.held) ∧
      ∀ label, inst.target? = some label → label ∈ scope.labels :=
  ⟨fun ⟨plain, written, read, zeroed, target⟩ => ⟨plain, written, read, zeroed, target⟩,
    fun ⟨plain, written, read, zeroed, target⟩ => ⟨plain, written, read, zeroed, target⟩⟩

/-- The registers are the stretch's, and an operand is not in one that is written.  In one that memory is
accessed through it has no tag. -/
structure Fits (scope : Scope) (operand : Nat) (allocation : Allocation) : Prop where
  own : ∀ reg ∈ scope.own, allocation.pinned.contains reg.index = true ∧
    (allocation.place operand).register? ≠ some reg
  held : ∀ reg ∈ scope.held, allocation.pinned.contains reg.index = true ∧
    ((allocation.place operand).register? = some reg →
      (allocation.place operand).payload?.isSome = true)

namespace Fits

variable {scope : Scope} {operand : Nat} {before after : Allocation} {reg : Register}

theorem none (operand : Nat) (allocation : Allocation) : Scope.none.Fits operand allocation :=
  ⟨nofun, nofun⟩

theorem of_same (fits : scope.Fits operand before) (pinned : after.pinned = before.pinned)
    (place : after.place operand = before.place operand) : scope.Fits operand after := by
  obtain ⟨own, held⟩ := fits
  exact ⟨by rwa [pinned, place], by rwa [pinned, place]⟩

/-- The operand stays, or goes to where nothing was held. -/
theorem mono (fits : scope.Fits operand before)
    (pinned : ∀ r, before.pinned.contains r = true → after.pinned.contains r = true)
    (moved : ∀ reg, (after.place operand).register? = some reg →
      (before.place operand).register? = some reg ∨ before.pinned.contains reg.index = false)
    (form : scope.held = [] ∨ ∀ reg, (after.place operand).register? = some reg →
      (before.place operand).payload?.isSome = true → (after.place operand).payload?.isSome = true) :
    scope.Fits operand after := by
  refine ⟨fun reg member => ?_, fun reg member => ?_⟩
  · obtain ⟨held, elsewhere⟩ := fits.own reg member
    refine ⟨pinned _ held, fun here => ?_⟩
    rcases moved reg here with same | unpinned
    · exact elsewhere same
    · cases held.symm.trans unpinned
  · obtain ⟨held, payload⟩ := fits.held reg member
    refine ⟨pinned _ held, fun here => ?_⟩
    rcases form with empty | form
    · rw [empty] at member
      cases member
    · rcases moved reg here with same | unpinned
      · exact form reg here (payload same)
      · cases held.symm.trans unpinned

theorem cons_own (fits : scope.Fits operand after) (pinned : after.pinned.contains reg.index = true)
    (elsewhere : (after.place operand).register? ≠ some reg) :
    ({ scope with own := reg :: scope.own } : Scope).Fits operand after := by
  refine ⟨fun other member => ?_, fits.held⟩
  rcases List.mem_cons.mp member with rfl | before
  · exact ⟨pinned, elsewhere⟩
  · exact fits.own other before

theorem cons_held (fits : scope.Fits operand after) (pinned : after.pinned.contains reg.index = true)
    (payload : (after.place operand).register? = some reg →
      (after.place operand).payload?.isSome = true) :
    ({ scope with held := reg :: scope.held } : Scope).Fits operand after := by
  refine ⟨fits.own, fun other member => ?_⟩
  rcases List.mem_cons.mp member with rfl | before
  · exact ⟨pinned, payload⟩
  · exact fits.held other before

end Fits

end Scope

namespace Asm

variable {config : CodeConfig} {flight : List Resource} {state after fetched : Assembler}
  {reg : Register} {float : FloatRegister} {id : OperandId}

/-- Taking a register leaves an operand in its place, or moves it to a slot. -/
theorem TakesRegister.moved (takes : TakesRegister state reg after) (index : Nat) :
    after.allocation.place index = state.allocation.place index ∨
      (after.allocation.place index).register? = none := by
  cases takes with
  | pool => exact .inl rfl
  | spill victim slot _ held =>
      by_cases own : victim = index
      · subst own
        refine .inr ?_
        show ((state.allocation.spill victim slot).place victim).register? = none
        rw [Allocation.place_spill held]
        cases state.allocation.place victim <;> rfl
      · exact .inl (Allocation.place_setLocation_ne own)

theorem TakesRegister.pinned_mono (takes : TakesRegister state reg after) {r : UInt8}
    (pinned : state.allocation.pinned.contains r = true) :
    after.allocation.pinned.contains r = true := by
  cases takes with
  | pool | spill => exact RegisterSet.contains_insert_of_contains _ pinned

/-- A register that is taken is one of the stretch's own. -/
theorem TakesRegister.fits {scope : Scope} {operand : Nat} (takes : TakesRegister state reg after)
    (balanced : state.allocation.Balanced config flight) (fits : scope.Fits operand state.allocation) :
    Scope.Fits { scope with own := reg :: scope.own } operand after.allocation := by
  have taken := takes.balanced balanced
  have kept : scope.Fits operand after.allocation := by
    refine fits.mono (fun r => takes.pinned_mono) (fun other here => ?_) (.inr fun other here payload => ?_)
    all_goals rcases takes.moved operand with same | slotted
    · exact .inl (same ▸ here)
    · cases slotted.symm.trans here
    · rwa [same]
    · cases slotted.symm.trans here
  exact kept.cons_own (takes.pinned balanced) fun here =>
    taken.not_place_of_flight (.head _) _ (Location.resource?_eq_register.mpr here)

/-- The allocator hands out no labels. -/
theorem TakesRegister.exits (takes : TakesRegister state reg after) :
    after.exits = state.exits ∧ after.buffer.labels = state.buffer.labels := by
  cases takes with
  | pool | spill => exact ⟨rfl, rfl⟩

theorem FetchesPayload.exits {type : PayloadType} (fetches : FetchesPayload state id reg type fetched) :
    fetched.exits = state.exits ∧ fetched.buffer.labels = state.buffer.labels := by
  cases fetches with
  | payloadReg | valueReg => exact ⟨rfl, rfl⟩
  | payloadSlot slot middle _ takes | valueSlot slot middle _ _ takes => exact takes.exits

theorem FetchesValue.exits (fetches : FetchesValue state id reg fetched)
    (single : (state.allocation.place id.toNat).form? ≠ some .double) :
    fetched.exits = state.exits ∧ fetched.buffer.labels = state.buffer.labels := by
  cases fetches with
  | valueReg | payloadReg => exact ⟨rfl, rfl⟩
  | valueSlot slot middle _ takes | payloadSlot slot type tag middle _ takes => exact takes.exits
  | floatReg float middle _ place => exact absurd (place ▸ rfl) single
  | floatSlot slot float first middle _ place => exact absurd (place ▸ rfl) single

theorem FetchesPayload.moved {type : PayloadType} (fetches : FetchesPayload state id reg type fetched)
    (index : Nat) : fetched.allocation.place index = state.allocation.place index ∨
      (fetched.allocation.place index).register? = none := by
  cases fetches with
  | payloadReg | valueReg => exact .inl rfl
  | payloadSlot slot middle _ takes | valueSlot slot middle _ _ takes => exact takes.moved index

theorem FetchesPayload.pinned_mono {type : PayloadType}
    (fetches : FetchesPayload state id reg type fetched) {r : UInt8}
    (pinned : state.allocation.pinned.contains r = true) :
    fetched.allocation.pinned.contains r = true := by
  cases fetches with
  | payloadReg | valueReg => exact pinned
  | payloadSlot slot middle _ takes | valueSlot slot middle _ _ takes => exact takes.pinned_mono pinned

theorem FetchesPayload.fresh {type : PayloadType} (fetches : FetchesPayload state id reg type fetched)
    (balanced : state.allocation.Balanced config flight) :
    (state.allocation.place id.toNat).register? = some reg ∨
      state.allocation.pinned.contains reg.index = false := by
  cases fetches with
  | payloadReg place | valueReg place => exact .inl (place ▸ rfl)
  | payloadSlot slot middle _ takes | valueSlot slot middle _ _ takes => exact .inr (takes.unpinned balanced)

theorem FetchesValue.moved (fetches : FetchesValue state id reg fetched)
    (single : (state.allocation.place id.toNat).form? ≠ some .double) (index : Nat) :
    fetched.allocation.place index = state.allocation.place index ∨
      (fetched.allocation.place index).register? = none := by
  cases fetches with
  | valueReg => exact .inl rfl
  | payloadReg => exact .inl (Allocation.place_setKnownType ..)
  | valueSlot slot middle _ takes => exact takes.moved index
  | payloadSlot slot type tag middle _ takes =>
      rw [Assembler.allocation_withAllocation, Allocation.place_setKnownType]
      exact takes.moved index
  | floatReg float middle _ place => exact absurd (place ▸ rfl) single
  | floatSlot slot float first middle _ place => exact absurd (place ▸ rfl) single

theorem FetchesValue.pinned_mono (fetches : FetchesValue state id reg fetched)
    (single : (state.allocation.place id.toNat).form? ≠ some .double) {r : UInt8}
    (pinned : state.allocation.pinned.contains r = true) :
    fetched.allocation.pinned.contains r = true := by
  cases fetches with
  | valueReg | payloadReg => exact pinned
  | valueSlot slot middle _ takes | payloadSlot slot type tag middle _ takes =>
      exact takes.pinned_mono pinned
  | floatReg float middle _ place => exact absurd (place ▸ rfl) single
  | floatSlot slot float first middle _ place => exact absurd (place ▸ rfl) single

theorem FetchesValue.fresh (fetches : FetchesValue state id reg fetched)
    (balanced : state.allocation.Balanced config flight)
    (single : (state.allocation.place id.toNat).form? ≠ some .double) :
    (state.allocation.place id.toNat).register? = some reg ∨
      state.allocation.pinned.contains reg.index = false := by
  cases fetches with
  | valueReg place | payloadReg type tag place => exact .inl (place ▸ rfl)
  | valueSlot slot middle _ takes | payloadSlot slot type tag middle _ takes =>
      exact .inr (takes.unpinned balanced)
  | floatReg float middle _ place => exact absurd (place ▸ rfl) single
  | floatSlot slot float first middle _ place => exact absurd (place ▸ rfl) single

end Asm

/-- An operand that was fetched is listed at its register. -/
theorem Scope.Fits.listed {scope : Scope} {operand index : Nat} {before fetched : Allocation}
    {location : Location} {reg : Register} (fits : scope.Fits operand before)
    (pinned : ∀ r, before.pinned.contains r = true → fetched.pinned.contains r = true)
    (others : fetched.place operand = before.place operand ∨
      (fetched.place operand).register? = .none)
    (held : location.register? = some reg)
    (fresh : (before.place index).register? = some reg ∨ before.pinned.contains reg.index = false)
    (form : scope.held = [] ∨ location.payload?.isSome = true) :
    scope.Fits operand ((fetched.setLocation index location).pin reg) := by
  have place : ((fetched.setLocation index location).pin reg).place operand =
      if index = operand ∧ index < fetched.operands.length then location
      else fetched.place operand := Allocation.place_setLocation ..
  refine fits.mono (fun r member => RegisterSet.contains_insert_of_contains _ (pinned r member))
    (fun other here => ?_) (form.imp_right fun payload other here before => ?_)
  · rw [place] at here
    split at here
    · rename_i own
      cases held.symm.trans here
      rw [← own.1]
      exact fresh
    · rcases others with same | slotted
      · exact .inl (same ▸ here)
      · cases slotted.symm.trans here
  · rw [place] at here ⊢
    split
    · exact payload
    · rename_i other
      rw [if_neg other] at here
      rcases others with same | slotted
      · rwa [same]
      · cases slotted.symm.trans here

end InlineCache
