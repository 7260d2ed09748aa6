import InlineCache.Proofs.Emit.Accounts
import InlineCache.Proofs.Emit.Ensures

/-!
Enough registers.  Every register is held by the pool, by the current operation or by an operand, so as
long as the operation holds fewer than there are, some operand can be spilled; and there are slots for
all operands but the one that is spilled.  The account of the registers that an operation holds is kept
along its code.
-/

namespace InlineCache

namespace RegisterSet

theorem insert_insert (set : RegisterSet) (r : UInt8) : (set.insert r).insert r = set.insert r := by
  apply ext_contains
  intro q
  simp only [contains_insert, Bool.or_assoc, Bool.or_self]

theorem remove_insert_empty (r : UInt8) : (empty.insert r).remove r = empty := by
  apply ext_contains
  intro q
  simp only [contains_remove, contains_insert, contains_empty, Bool.false_or]
  by_cases same : r = q <;> simp [same]

theorem remove_empty (r : UInt8) : empty.remove r = empty := by
  apply ext_contains
  intro q
  simp only [contains_remove, contains_empty, Bool.false_and]

end RegisterSet

/-- Fewer numbers than a bound do not take up all that are below it. -/
theorem exists_not_mem_of_length_lt {held : List UInt8} {bound : Nat} (few : held.length < bound)
    (small : bound ≤ 256) : ∃ r : UInt8, r.toNat < bound ∧ r ∉ held := by
  refine Classical.byContradiction fun none => ?_
  have covered : List.range bound ⊆ held.map UInt8.toNat := by
    intro n member
    have below := List.mem_range.mp member
    have same : (UInt8.ofNat n).toNat = n :=
      UInt8.toNat_ofNat_of_lt' (Nat.lt_of_lt_of_le below small)
    have listed : UInt8.ofNat n ∈ held :=
      Classical.byContradiction fun absent => none ⟨_, same.symm ▸ below, absent⟩
    exact List.mem_map.mpr ⟨_, listed, same⟩
  have tooLong := List.nodup_range.length_le_of_subset covered
  rw [List.length_range, List.length_map] at tooLong
  omega

/-- What the current operation holds. -/
structure Grip where
  pinned : RegisterSet
  pinnedFloats : RegisterSet
  scratch : RegisterSet
  scratchFloats : RegisterSet

namespace Grip

def take (grip : Grip) (reg : Register) : Grip :=
  { grip with pinned := grip.pinned.insert reg.index }

def takeFloat (grip : Grip) (reg : FloatRegister) : Grip :=
  { grip with pinnedFloats := grip.pinnedFloats.insert reg.index }

def returnFloat (grip : Grip) (reg : FloatRegister) : Grip :=
  { grip with pinnedFloats := grip.pinnedFloats.remove reg.index }

def hold (grip : Grip) (reg : Register) : Grip :=
  { grip with scratch := grip.scratch.insert reg.index }

def release (grip : Grip) (reg : Register) : Grip :=
  { grip with
    scratch := grip.scratch.remove reg.index
    pinned := grip.pinned.remove reg.index }

theorem take_take (grip : Grip) (reg : Register) : (grip.take reg).take reg = grip.take reg := by
  simp only [take, RegisterSet.insert_insert]

theorem take_returnFloat (grip : Grip) (reg : Register) (float : FloatRegister) :
    (grip.returnFloat float).take reg = (grip.take reg).returnFloat float := rfl

theorem take_takeFloat (grip : Grip) (reg : Register) (float : FloatRegister) :
    (grip.takeFloat float).take reg = (grip.take reg).takeFloat float := rfl

theorem returnFloat_clear {grip : Grip} (clear : grip.pinnedFloats = .empty)
    (float : FloatRegister) : grip.returnFloat float = grip := by
  rw [returnFloat, clear, RegisterSet.remove_empty, ← clear]

theorem returnFloat_takeFloat {grip : Grip} (clear : grip.pinnedFloats = .empty)
    (float : FloatRegister) : (grip.takeFloat float).returnFloat float = grip := by
  simp only [returnFloat, takeFloat, clear, RegisterSet.remove_insert_empty]
  rw [← clear]

/-- At most so many registers are held, scratch registers among them, and no float register. -/
structure Within (grip : Grip) (count : Nat) : Prop where
  scratch : ∀ r, grip.scratch.contains r = true → grip.pinned.contains r = true
  few : ∃ held : List UInt8, held.length ≤ count ∧
    ∀ r, grip.pinned.contains r = true → r ∈ held
  clear : grip.pinnedFloats = .empty
  idle : grip.scratchFloats = .empty

namespace Within

variable {grip : Grip} {count : Nat}

theorem mono {more : Nat} (within : grip.Within count) (le : count ≤ more) : grip.Within more :=
  { within with
    few := by
      obtain ⟨held, short, complete⟩ := within.few
      exact ⟨held, Nat.le_trans short le, complete⟩ }

theorem take (within : grip.Within count) (reg : Register) : (grip.take reg).Within (count + 1) :=
  { within with
    scratch := fun r held => RegisterSet.contains_insert_of_contains _ (within.scratch r held)
    few := by
      obtain ⟨held, short, complete⟩ := within.few
      refine ⟨reg.index :: held, Nat.succ_le_succ short, fun r pinned => ?_⟩
      rw [Grip.take, RegisterSet.contains_insert, Bool.or_eq_true, Bool.and_eq_true,
        decide_eq_true_eq, decide_eq_true_eq] at pinned
      rcases pinned with before | ⟨-, rfl⟩
      · exact .tail _ (complete r before)
      · exact .head _ }

theorem hold {reg : Register} (within : grip.Within count)
    (pinned : grip.pinned.contains reg.index = true) : (grip.hold reg).Within count :=
  { within with
    scratch := by
      intro r held
      rw [Grip.hold, RegisterSet.contains_insert, Bool.or_eq_true, Bool.and_eq_true,
        decide_eq_true_eq, decide_eq_true_eq] at held
      rcases held with before | ⟨-, rfl⟩
      · exact within.scratch r before
      · exact pinned }

theorem release (within : grip.Within count) (reg : Register) : (grip.release reg).Within count :=
  { within with
    scratch := by
      intro r held
      simp only [Grip.release, RegisterSet.contains_remove, Bool.and_eq_true] at held ⊢
      exact ⟨within.scratch r held.1, held.2⟩
    few := by
      obtain ⟨held, short, complete⟩ := within.few
      refine ⟨held, short, fun r pinned => complete r ?_⟩
      rw [Grip.release, RegisterSet.contains_remove, Bool.and_eq_true] at pinned
      exact pinned.1 }

end Within

end Grip

namespace Allocation

def grip (allocation : Allocation) : Grip where
  pinned := allocation.pinned
  pinnedFloats := allocation.pinnedFloats
  scratch := allocation.scratch
  scratchFloats := allocation.scratchFloats

theorem leastFree_lt {used : List Nat} {bound slot : Nat} (below : slot < bound)
    (free : slot ∉ used) : leastFree used < bound := by
  unfold leastFree
  cases found : (List.range used.length).find? (· ∉ used) with
  | some least =>
      refine Nat.lt_of_le_of_lt (Nat.le_of_not_lt fun above => ?_) below
      rw [List.find?_range_eq_some] at found
      exact absurd (found.2.2 slot above) (by simpa using free)
  | none =>
      by_cases within : slot < used.length
      · have taken := List.find?_eq_none.mp found slot (List.mem_range.mpr within)
        exact absurd free (by simpa using taken)
      · exact Nat.lt_of_le_of_lt (Nat.le_of_not_lt within) below

namespace Balanced

variable {config : CodeConfig} {flight : List Resource} {allocation : Allocation}

/-- A resource that is nowhere else is at an operand. -/
theorem exists_place (balanced : allocation.Balanced config flight) (resource : Resource)
    (full : config.quota resource = 1) (pool : allocation.pool resource = 0)
    (grounded : resource ∉ flight) :
    ∃ index, (allocation.place index).resource? = some resource := by
  have sum := balanced.ledger resource
  rw [pool, full, List.count_eq_zero.mpr grounded] at sum
  have occupied : 0 < allocation.occupants resource := by omega
  obtain ⟨operand, member, held⟩ := List.countP_pos_iff.mp occupied
  obtain ⟨index, bound, rfl⟩ := List.mem_iff_getElem.mp member
  refine ⟨index, ?_⟩
  rw [place, List.getElem?_eq_getElem bound]
  exact of_decide_eq_true held

/-- Not all slots are taken while an operand is in a register. -/
theorem not_slotsFull (balanced : allocation.Balanced config flight)
    (slots : allocation.operands.length ≤ config.spillSlots.toNat)
    (grounded : ∀ slot, .slot slot ∉ flight) {index : Nat} {resource : Resource}
    (somewhere : (allocation.place index).resource? = some resource)
    (elsewhere : (allocation.place index).slot? = none) : ¬allocation.SlotsFull := by
  intro full
  have taken (slot : Nat) : ∃ i, slot < allocation.spillLimit →
      (allocation.place i).resource? = some (.slot slot) := by
    by_cases below : slot < allocation.spillLimit
    · have used : slot ∈ allocation.usedSlots := Classical.byContradiction fun free =>
        Nat.lt_irrefl _ (Nat.lt_of_lt_of_le (leastFree_lt below free) full)
      obtain ⟨i, held⟩ := balanced.exists_place _ rfl (by simp [pool, used]) (grounded slot)
      exact ⟨i, fun _ => held⟩
    · exact ⟨0, fun impossible => absurd impossible below⟩
  -- the owners of the slots, and the operand that is in a register, are all different
  let owner (slot : Nat) : Nat := (taken slot).choose
  have owns (slot : Nat) (listed : slot ∈ List.range allocation.spillLimit) :
      (allocation.place (owner slot)).resource? = some (.slot slot) :=
    (taken slot).choose_spec (List.mem_range.mp listed)
  let owners := (List.range allocation.spillLimit).map owner
  have distinct : (index :: owners).Nodup := by
    refine List.nodup_cons.mpr ⟨?_, List.pairwise_map.mpr ?_⟩
    · intro member
      obtain ⟨slot, listed, same⟩ := List.mem_map.mp member
      have held := Location.resource?_eq_slot.mp (owns slot listed)
      rw [same, elsewhere] at held
      cases held
    · refine List.nodup_range.imp_of_mem fun {first second} inFirst inSecond different same => ?_
      have held := owns first inFirst
      rw [same, owns second inSecond] at held
      cases held
      exact different rfl
  have within : index :: owners ⊆ List.range allocation.operands.length := by
    intro i member
    rw [List.mem_range]
    rcases List.mem_cons.mp member with rfl | member
    · exact lt_of_place (Location.ne_nowhere_of_resource? somewhere)
    · obtain ⟨slot, listed, rfl⟩ := List.mem_map.mp member
      exact lt_of_place (Location.ne_nowhere_of_resource? (owns slot listed))
  have tooMany := distinct.length_le_of_subset within
  simp only [List.length_cons, owners, List.length_map, List.length_range] at tooMany
  have limit := balanced.spillLimit
  omega

end Balanced

/-- Between two operations. -/
structure Settled (config : CodeConfig) (allocation : Allocation) : Prop where
  balanced : allocation.Balanced config []
  slots : allocation.operands.length ≤ config.spillSlots.toNat
  idle : allocation.scratchFloats = .empty

/-- Within an operation that holds so many registers at most, and no float register. -/
structure Roomy (config : CodeConfig) (count : Nat) (allocation : Allocation) : Prop where
  balanced : allocation.Balanced config []
  slots : allocation.operands.length ≤ config.spillSlots.toNat
  grip : allocation.grip.Within count

/-- Within an operation that has at most one float register as scratch. -/
structure Lends (config : CodeConfig) (float : FloatRegister) (allocation : Allocation) : Prop where
  balanced : allocation.Balanced config []
  slots : allocation.operands.length ≤ config.spillSlots.toNat
  lent : ∀ f, allocation.scratchFloats.contains f = true → f = float.index

variable {config : CodeConfig} {flight : List Resource} {allocation : Allocation} {count : Nat}

/-- There is a register as long as there are more than the operation holds. -/
theorem Balanced.not_registersExhausted (balanced : allocation.Balanced config flight)
    (held : List UInt8) (slots : allocation.operands.length ≤ config.spillSlots.toNat)
    (grounded : ∀ resource ∈ flight, ∃ float, resource = .float float)
    (scratch : ∀ r, allocation.scratch.contains r = true → allocation.pinned.contains r = true)
    (complete : ∀ r, allocation.pinned.contains r = true → r ∈ held)
    (fewer : held.length < min config.generalRegisters.toNat 32) :
    ¬allocation.RegistersExhausted := by
  intro exhausted
  cases exhausted with
  | pinned empty spillable =>
      obtain ⟨r, below, absent⟩ := exists_not_mem_of_length_lt fewer (by omega)
      have unpinned : allocation.pinned.contains r = false :=
        Bool.eq_false_iff.mpr fun pinned => absent (complete r pinned)
      have unheld : allocation.scratch.contains r = false :=
        Bool.eq_false_iff.mpr fun member => absent (complete r (scratch r member))
      obtain ⟨index, place⟩ := balanced.exists_place (.register ⟨r⟩)
        (by rw [CodeConfig.quota, decide_eq_true below]; rfl)
        (by simp only [pool, empty, unheld]; rfl)
        (fun member => by obtain ⟨_, impossible⟩ := grounded _ member; cases impossible)
      rw [spillable index ⟨r⟩ (Location.resource?_eq_register.mp place)] at unpinned
      cases unpinned
  | full index reg held full =>
      refine balanced.not_slotsFull slots (fun slot member => ?_)
        (Location.resource?_eq_register.mpr held) (Location.slot?_of_register? held) full
      obtain ⟨_, impossible⟩ := grounded _ member
      cases impossible

namespace Roomy

theorem not_registersExhausted (roomy : allocation.Roomy config count)
    (registers : 4 ≤ config.generalRegisters.toNat) (fewer : count < 4) :
    ¬allocation.RegistersExhausted := by
  obtain ⟨held, short, complete⟩ := roomy.grip.few
  exact roomy.balanced.not_registersExhausted held roomy.slots (fun _ member => nomatch member)
    roomy.grip.scratch complete (by omega)

/-- There is a float register as long as the operation holds none. -/
theorem not_floatsExhausted (roomy : allocation.Roomy config count)
    (floats : 1 ≤ config.floatRegisters.toNat) : ¬allocation.FloatsExhausted := by
  intro exhausted
  cases exhausted with
  | pinned empty spillable =>
      have idle : allocation.scratchFloats.contains 0 = false := by
        rw [show allocation.scratchFloats = .empty from roomy.grip.idle, RegisterSet.contains_empty]
      obtain ⟨index, place⟩ := roomy.balanced.exists_place (.float ⟨0⟩)
        (by
          simp only [CodeConfig.quota, Bool.toNat_eq_one, decide_eq_true_eq]
          exact Nat.lt_min.mpr ⟨floats, by decide⟩)
        (by simp only [pool, empty, idle]; rfl)
        List.not_mem_nil
      have pinned := spillable index ⟨0⟩ (Location.resource?_eq_float.mp place)
      rw [show allocation.pinnedFloats = .empty from roomy.grip.clear,
        RegisterSet.contains_empty] at pinned
      cases pinned
  | full index reg held full =>
      exact roomy.balanced.not_slotsFull roomy.slots (fun _ member => absurd member List.not_mem_nil)
        (Location.resource?_eq_float.mpr held) (Location.slot?_of_floatRegister? held) full

theorem mono {more : Nat} (roomy : allocation.Roomy config count) (le : count ≤ more) :
    allocation.Roomy config more :=
  { roomy with grip := roomy.grip.mono le }

theorem settled (roomy : allocation.Roomy config count) : allocation.Settled config :=
  ⟨roomy.balanced, roomy.slots, roomy.grip.idle⟩

theorem modifyOperand {index : Nat} {change : OperandState → OperandState}
    (roomy : allocation.Roomy config count)
    (location : ∀ operand, (change operand).location = operand.location)
    (defined : ∀ operand, operand.isDefined = true → (change operand).isDefined = true) :
    (allocation.modifyOperand index change).Roomy config count where
  balanced := roomy.balanced.modifyOperand location defined
  slots := (Allocation.length_modifyOperand ..).symm ▸ roomy.slots
  grip := roomy.grip

theorem markDefined (roomy : allocation.Roomy config count) (id : OperandId) :
    (allocation.markDefined id).Roomy config count :=
  roomy.modifyOperand (fun _ => rfl) fun _ _ => rfl

end Roomy

theorem Settled.lends (settled : allocation.Settled config) (float : FloatRegister) :
    allocation.Lends config float where
  balanced := settled.balanced
  slots := settled.slots
  lent f held := by
    rw [settled.idle, RegisterSet.contains_empty] at held
    cases held

theorem Lends.idle {float : FloatRegister} (lends : allocation.Lends config float) {set : RegisterSet}
    (fewer : ∀ f, set.contains f = true → allocation.scratchFloats.contains f = true)
    (free : set.contains float.index = false) : set = .empty := by
  apply RegisterSet.ext_contains
  intro f
  rw [RegisterSet.contains_empty, Bool.eq_false_iff]
  intro held
  rw [lends.lent f (fewer f held), free] at held
  cases held

/-- An operand that is in no register does not count when registers are looked for. -/
theorem RegistersExhausted.clear (exhausted : allocation.RegistersExhausted) (index : Nat)
    (elsewhere : (allocation.place index).register? = none) :
    (allocation.setLocation index .nowhere).RegistersExhausted := by
  have same (i : Nat) : ((allocation.setLocation index .nowhere).place i).register? =
      (allocation.place i).register? := by
    by_cases own : index = i
    · rw [← own, place_clear, elsewhere]
      rfl
    · rw [place_setLocation_ne own]
  cases exhausted with
  | pinned empty held => exact .pinned empty fun i reg place => held i reg (same i ▸ place)
  | full i reg held slots => exact .full i reg ((same i).trans held) slots

end Allocation

end InlineCache
