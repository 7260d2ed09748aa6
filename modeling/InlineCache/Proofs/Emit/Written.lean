import InlineCache.Proofs.Emit.Housed

/-!
What the allocator writes.  It moves words between the registers and slots that it hands out, all of
which are in the frame, and it goes nowhere.
-/

namespace InlineCache

/-- The code so far is a draft: labels are open that the stretch at work is to bind, and labels of exit
paths are known, which are bound behind all code. -/
structure Assembler.Draft (site : Site) (known opened : List Label) (state : Assembler) : Prop where
  housed : state.allocation.Housed site
  code : state.buffer.Draft (state.allocation.limits site)
    (opened ++ state.exits.map ExitPath.label)
  exits : ∀ path ∈ state.exits, SavedFloats.Within (state.allocation.limits site) path.saved
  known : ∀ label ∈ known, label ∈ state.exits.map ExitPath.label

namespace Assembler.Draft

variable {site : Site} {known opened : List Label} {state : Assembler}

theorem emitted (draft : state.Draft site known opened) {inst : Inst} (plain : inst.bound? = none)
    (within : inst.Within (state.allocation.limits site))
    (targets : ∀ label ∈ inst.targets, label ∈ opened ∨ label ∈ known) :
    (state.emitted inst).Draft site known opened where
  housed := draft.housed
  code := draft.code.emit plain within fun label member =>
    List.mem_append.mpr ((targets label member).imp_right (draft.known label))
  exits := draft.exits
  known := draft.known

theorem withAllocation (draft : state.Draft site known opened) {allocation : Allocation}
    (housed : allocation.Housed site) (slots : state.allocation.slotCount ≤ allocation.slotCount)
    (saves : state.allocation.saveCount ≤ allocation.saveCount) :
    (state.withAllocation allocation).Draft site known opened :=
  have le := site.limits_le slots saves
  ⟨housed, draft.code.mono le, fun path member => (draft.exits path member).mono le, draft.known⟩

end Assembler.Draft

namespace Asm

variable {site : Site} {known opened : List Label} {state after : Assembler}

attribute [local simp] Inst.needs Need.Within

theorem TakesRegister.draft (takes : TakesRegister state reg after)
    (draft : state.Draft site known opened) :
    after.Draft site known opened ∧ reg.index.toNat < site.registers := by
  cases takes with
  | pool available =>
      exact ⟨draft.withAllocation ((draft.housed.grab reg).pin reg) (Nat.le_refl _) (Nat.le_refl _),
        draft.housed.available _ available⟩
  | spill index slot _ held _ _ bound =>
      have inside := draft.housed.register index held
      have occupied := draft.housed.occupy bound
      have new : slot < (state.allocation.occupy slot).slotCount := Nat.le_max_right ..
      have moved := occupied.setLocation index ((state.allocation.place index).spilled slot) (by
        intro resource found
        cases place : state.allocation.place index <;> rw [place] at found <;> cases found <;>
          exact new)
      refine ⟨?_, inside⟩
      refine (draft.withAllocation (moved.pin reg) (Nat.le_max_left ..) (Nat.le_refl _)).emitted rfl
        ⟨?_, nofun⟩ fun _ impossible => nomatch impossible
      simpa using ⟨new, inside⟩

theorem TakesFloat.draft (takes : TakesFloat state float after)
    (draft : state.Draft site known opened) :
    after.Draft site known opened ∧ float.index.toNat < site.floatRegisters := by
  cases takes with
  | pool available =>
      exact ⟨draft.withAllocation ((draft.housed.grabFloat float).pinFloat float) (Nat.le_refl _)
        (Nat.le_refl _), draft.housed.floats _ available⟩
  | save slot available =>
      have inside := draft.housed.floats _ available
      have recorded := (draft.housed.grabFloat float).recordSave inside slot
      refine ⟨?_, inside⟩
      refine (draft.withAllocation (recorded.pinFloat float) (Nat.le_refl _)
        (Nat.le_max_left ..)).emitted rfl ⟨?_, nofun⟩ fun _ impossible => nomatch impossible
      simpa using
        ⟨Nat.lt_of_lt_of_le (Nat.lt_succ_self slot) (Nat.le_max_right ..), inside⟩
  | spill index slot _ held _ bound =>
      have inside := draft.housed.floatRegister index held
      have new : slot < (state.allocation.occupy slot).slotCount := Nat.le_max_right ..
      have moved := (draft.housed.occupy bound).setLocation index (.floatSlot slot) (by rintro _ ⟨⟩; exact new)
      refine ⟨?_, inside⟩
      refine (draft.withAllocation (moved.pinFloat float) (Nat.le_max_left ..)
        (Nat.le_refl _)).emitted rfl ⟨?_, nofun⟩ fun _ impossible => nomatch impossible
      simpa using ⟨new, inside⟩

theorem ReturnsFloat.draft (returns : ReturnsFloat state float after)
    (draft : state.Draft site known opened) (inside : float.index.toNat < site.floatRegisters) :
    after.Draft site known opened := by
  cases returns with
  | restore slot saved =>
      refine (draft.withAllocation ((draft.housed.dropSave float).freeFloat inside) (Nat.le_refl _)
        (Nat.le_refl _)).emitted rfl ⟨?_, nofun⟩ fun _ impossible => nomatch impossible
      simpa using ⟨(draft.housed.saved _ saved).2, inside⟩
  | unsaved =>
      exact draft.withAllocation (draft.housed.freeFloat inside) (Nat.le_refl _) (Nat.le_refl _)

/-- Loading a slot that an operand was at, into a register that was taken for it. -/
theorem TakesRegister.reload_draft (takes : TakesRegister state reg after)
    (draft : state.Draft site known opened) (index slot : Nat)
    (place : (state.allocation.place index).slot? = some slot) :
    ((after.emitted (.restore reg slot)).withAllocation (after.allocation.vacate slot)).Draft site
      known opened ∧ reg.index.toNat < site.registers := by
  obtain ⟨taken, inside⟩ := takes.draft draft
  have same := takes.place index (Location.register?_of_slot? place)
  have bound := taken.housed.slot (same.symm ▸ place)
  refine ⟨(taken.withAllocation (taken.housed.vacate slot) (Nat.le_refl _) (Nat.le_refl _)).emitted
    rfl ⟨?_, nofun⟩ fun _ impossible => (nomatch impossible), inside⟩
  simpa using ⟨bound, inside⟩

theorem TakesFloat.reload_draft (takes : TakesFloat state float after)
    (draft : state.Draft site known opened) (index slot : Nat)
    (place : (state.allocation.place index).slot? = some slot) :
    ((after.emitted (.reloadFloat float slot)).withAllocation (after.allocation.vacate slot)).Draft
      site known opened ∧ float.index.toNat < site.floatRegisters := by
  obtain ⟨taken, inside⟩ := takes.draft draft
  have same := takes.place index (Location.floatRegister?_of_slot? place)
  have bound := taken.housed.slot (same.symm ▸ place)
  refine ⟨(taken.withAllocation (taken.housed.vacate slot) (Nat.le_refl _) (Nat.le_refl _)).emitted
    rfl ⟨?_, nofun⟩ fun _ impossible => (nomatch impossible), inside⟩
  simpa using ⟨bound, inside⟩

/-- A double is boxed into a register that was taken for it. -/
theorem TakesRegister.box_draft {float : FloatRegister} {middle : Assembler}
    (takes : TakesRegister state reg middle)
    (returns : ReturnsFloat (middle.emitted (.boxDouble float reg)) float after)
    (draft : state.Draft site known opened) (held : float.index.toNat < site.floatRegisters) :
    after.Draft site known opened ∧ reg.index.toNat < site.registers := by
  obtain ⟨taken, inside⟩ := takes.draft draft
  refine ⟨returns.draft (taken.emitted rfl ⟨?_, nofun⟩ fun _ impossible => (nomatch impossible)) held,
    inside⟩
  simpa using ⟨held, inside⟩

theorem FetchesValue.draft {id : OperandId} (fetches : FetchesValue state id reg after)
    (draft : state.Draft site known opened) :
    after.Draft site known opened ∧ reg.index.toNat < site.registers := by
  have box {state : Assembler} {type : PayloadType} {tag : ValueType}
      (draft : state.Draft site known opened) (inside : reg.index.toNat < site.registers) :
      ((state.emitted (.boxPayload reg reg type)).withAllocation
        (state.allocation.setKnownType id tag)).Draft site known opened := by
    have learned : (state.withAllocation (state.allocation.setKnownType id tag)).Draft site known
        opened :=
      draft.withAllocation (draft.housed.modifyOperand fun _ => rfl) (Nat.le_refl _) (Nat.le_refl _)
    refine learned.emitted rfl ⟨?_, nofun⟩ fun _ impossible => nomatch impossible
    simpa [Allocation.limits, Site.limits] using inside
  cases fetches with
  | valueReg place => exact ⟨draft, draft.housed.register id.toNat (by rw [place]; rfl)⟩
  | payloadReg type tag place tagged =>
      have inside : reg.index.toNat < site.registers :=
        draft.housed.register id.toNat (by rw [place]; rfl)
      exact ⟨box draft inside, inside⟩
  | valueSlot slot middle place takes =>
      exact takes.reload_draft draft id.toNat slot (by rw [place]; rfl)
  | payloadSlot slot type tag middle place takes tagged =>
      obtain ⟨loaded, inside⟩ := takes.reload_draft draft id.toNat slot
        (by rw [place]; rfl)
      exact ⟨box loaded inside, inside⟩
  | floatReg float middle after place takes returns =>
      exact takes.box_draft returns draft
        (draft.housed.floatRegister id.toNat (by rw [place]; rfl))
  | floatSlot slot float first middle after place takesFloat takes returns =>
      obtain ⟨loaded, held⟩ := takesFloat.reload_draft draft id.toNat slot
        (by rw [place]; rfl)
      exact takes.box_draft returns loaded held

theorem FetchesPayload.draft {id : OperandId} (fetches : FetchesPayload state id reg type after)
    (draft : state.Draft site known opened) :
    after.Draft site known opened ∧ reg.index.toNat < site.registers := by
  have unbox {state : Assembler} (draft : state.Draft site known opened)
      (inside : reg.index.toNat < site.registers) :
      (state.emitted (.unboxPayload reg reg type)).Draft site known opened := by
    refine draft.emitted rfl ⟨?_, nofun⟩ fun _ impossible => nomatch impossible
    simpa [Allocation.limits, Site.limits] using inside
  cases fetches with
  | payloadReg place => exact ⟨draft, draft.housed.register id.toNat (by rw [place]; rfl)⟩
  | valueReg place proven =>
      have inside : reg.index.toNat < site.registers :=
        draft.housed.register id.toNat (by rw [place]; rfl)
      exact ⟨unbox draft inside, inside⟩
  | payloadSlot slot middle place takes =>
      exact takes.reload_draft draft id.toNat slot (by rw [place]; rfl)
  | valueSlot slot middle place proven takes =>
      obtain ⟨loaded, inside⟩ := takes.reload_draft draft id.toNat slot
        (by rw [place]; rfl)
      exact ⟨unbox loaded inside, inside⟩

end Asm

end InlineCache
