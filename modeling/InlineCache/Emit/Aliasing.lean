import InlineCache.Emit.Assembler

/-!
The check that no two operands share a register or a slot, and that nothing in use counts as free.
-/

namespace InlineCache.Allocation

/-- The general registers and slots of operands in order, given those of the operands before. -/
def checkPlaces (allocation : Allocation) :
    RegisterSet → List Nat → List (Location × Nat) → Except Violation RegisterSet
  | seen, _, [] => .ok seen
  | seen, slots, (location, id) :: rest =>
      match location.register?, location.slot? with
      | some reg, _ =>
          if seen.contains reg.index || allocation.available.contains reg.index then
            .error (.registerShared reg id)
          else allocation.checkPlaces (seen.insert reg.index) slots rest
      | none, some slot =>
          if allocation.spillLimit ≤ slot then .error (.slotOutOfRange slot)
          else if slot ∈ slots ∨ slot ∉ allocation.usedSlots then .error (.slotShared slot id)
          else allocation.checkPlaces seen (slot :: slots) rest
      | none, none => allocation.checkPlaces seen slots rest

/-- The float registers of operands in order, given those of the operands before. -/
def checkFloatPlaces (allocation : Allocation) :
    RegisterSet → List (Location × Nat) → Except Violation Unit
  | _, [] => .ok ()
  | seen, (location, id) :: rest =>
      match location.floatRegister? with
      | some reg =>
          if seen.contains reg.index || allocation.availableFloats.contains reg.index ||
              allocation.scratchFloats.contains reg.index then
            .error (.floatRegisterShared reg id)
          else allocation.checkFloatPlaces (seen.insert reg.index) rest
      | none => allocation.checkFloatPlaces seen rest

def checkAliasing (allocation : Allocation) : Except Violation Unit := do
  let places := (allocation.operands.map (·.location)).zipIdx.filter (·.1.isSomewhere)
  let seen ← allocation.checkPlaces .empty [] places
  match allocation.scratch.toList.find? fun r =>
      seen.contains r || allocation.available.contains r with
  | some r => throw (.scratchShared ⟨r⟩)
  | none => pure ()
  allocation.checkFloatPlaces .empty places
  match allocation.scratchFloats.toList.find? allocation.availableFloats.contains with
  | some f => throw (.floatScratchFree ⟨f⟩)
  | none => pure ()

end InlineCache.Allocation
