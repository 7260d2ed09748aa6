import InlineCache.Proofs.Emit.Accounts

/-!
Accounts in balance say where each register and slot is, and so the check for aliasing finds nothing.
-/

namespace InlineCache

/-- Exactly one of three holds something: the pool, the scratch set, or one operand. -/
inductive HeldOnce (free scratch : Prop) (holds : Nat → Prop) : Prop
  | free (free : free) (unscratched : ¬scratch) (unlocated : ∀ index, ¬holds index)
  | scratch (taken : ¬free) (scratch : scratch) (unlocated : ∀ index, ¬holds index)
  | operand (index : Nat) (taken : ¬free) (unscratched : ¬scratch) (located : holds index)
      (only : ∀ other, holds other → other = index)

namespace Allocation

/-- The operand is at the resource. -/
def Occupies (allocation : Allocation) (resource : Resource) (index : Nat) : Prop :=
  (allocation.place index).resource? = some resource

/-- The partition of registers and slots, and the record of saved float registers. -/
structure Partitioned (config : CodeConfig) (allocation : Allocation) : Prop where
  registers : ∀ reg : Register, reg.index.toNat < min config.generalRegisters.toNat 32 →
    HeldOnce (allocation.available.contains reg.index = true)
      (allocation.scratch.contains reg.index = true) (allocation.Occupies (.register reg))
  floats : ∀ reg : FloatRegister, reg.index.toNat < min config.floatRegisters.toNat 32 →
    HeldOnce (allocation.availableFloats.contains reg.index = true)
      (allocation.scratchFloats.contains reg.index = true) (allocation.Occupies (.float reg))
  slots : ∀ slot, slot ∈ allocation.usedSlots ↔
    ∃ index, allocation.Occupies (.slot slot) index ∧
      ∀ other, allocation.Occupies (.slot slot) other → other = index
  unsaved : config.savesFloats = false → allocation.saved = []
  saved : config.savesFloats = true → ∀ reg : FloatRegister,
    reg ∈ allocation.saved.map Prod.fst ↔
      reg.index.toNat < min config.floatRegisters.toNat 32 ∧
        allocation.availableFloats.contains reg.index = false
  savedOnce : (allocation.saved.map Prod.fst).Nodup
  saveSlots : (allocation.saved.map Prod.snd).Nodup

namespace Balanced

variable {config : CodeConfig} {flight : List Resource} {allocation : Allocation}

theorem occupants_pos {resource : Resource} {index : Nat}
    (occupies : allocation.Occupies resource index) : 1 ≤ allocation.occupants resource :=
  countPlaces_pos rfl (decide_eq_true occupies)

/-- Whoever is counted as an occupant is one. -/
theorem exists_occupies (allocation : Allocation) (resource : Resource)
    (occupied : 1 ≤ allocation.occupants resource) :
    ∃ index, allocation.Occupies resource index := by
  obtain ⟨operand, member, located⟩ := List.countP_pos_iff.mp occupied
  obtain ⟨index, found⟩ := List.mem_iff_getElem?.mp member
  refine ⟨index, ?_⟩
  rw [Occupies, place, found]
  exact of_decide_eq_true located

/-- A quota of one is used up in one way. -/
theorem heldOnce (balanced : allocation.Balanced config []) {resource : Resource}
    {free scratch : Bool} (pool : allocation.pool resource = free.toNat + scratch.toNat)
    (full : config.quota resource = 1) :
    HeldOnce (free = true) (scratch = true) (allocation.Occupies resource) := by
  have sum := balanced.ledger resource
  rw [pool, full, List.count_nil] at sum
  have nobody (idle : allocation.occupants resource = 0) (index : Nat) :
      ¬allocation.Occupies resource index := by
    intro occupies
    have occupied := occupants_pos occupies
    omega
  cases free with
  | true =>
      rw [Bool.toNat_true] at sum
      refine .free rfl ?_ (nobody (by omega))
      rintro rfl
      rw [Bool.toNat_true] at sum
      omega
  | false =>
      rw [Bool.toNat_false] at sum
      cases scratch with
      | true =>
          rw [Bool.toNat_true] at sum
          exact .scratch Bool.false_ne_true rfl (nobody (by omega))
      | false =>
          rw [Bool.toNat_false] at sum
          obtain ⟨index, occupies⟩ := exists_occupies allocation resource (by omega)
          exact .operand index Bool.false_ne_true Bool.false_ne_true occupies
            fun other located => balanced.place_unique located occupies

theorem used_iff (balanced : allocation.Balanced config []) (slot : Nat) :
    slot ∈ allocation.usedSlots ↔
      ∃ index, allocation.Occupies (.slot slot) index ∧
        ∀ other, allocation.Occupies (.slot slot) other → other = index := by
  have sum := balanced.ledger (.slot slot)
  simp only [pool, CodeConfig.quota, List.count_nil, List.contains_eq_mem] at sum
  constructor
  · intro used
    simp only [used, decide_true, Bool.not_true, Bool.toNat_false] at sum
    obtain ⟨index, occupies⟩ := exists_occupies allocation (.slot slot) (by omega)
    exact ⟨index, occupies, fun other located => balanced.place_unique located occupies⟩
  · rintro ⟨index, occupies, -⟩
    have occupied := occupants_pos occupies
    by_cases used : slot ∈ allocation.usedSlots
    · exact used
    · simp only [used, decide_false, Bool.not_false, Bool.toNat_true] at sum
      omega

/-- The record of saved float registers, when there is one. -/
theorem countP_saved (balanced : allocation.Balanced config flight)
    (saves : config.savesFloats = true) (reg : FloatRegister) :
    allocation.saved.countP (·.1 = reg) +
        (allocation.availableFloats.contains reg.index).toNat = config.quota (.float reg) :=
  balanced.saves (balanced.savesFloats.trans saves) reg

theorem saved_nodup (balanced : allocation.Balanced config flight) :
    (allocation.saved.map Prod.fst).Nodup := by
  cases saves : config.savesFloats with
  | false =>
      rw [balanced.unsaved (balanced.savesFloats.trans saves)]
      exact .nil
  | true =>
      rw [List.nodup_iff_count]
      intro reg
      have sum := balanced.countP_saved saves reg
      have bound := quota_le_one config (.float reg)
      have same : (allocation.saved.map Prod.fst).count reg =
          allocation.saved.countP (·.1 = reg) := by
        rw [List.count_eq_countP, List.countP_map]
        rfl
      omega

theorem mem_saved (balanced : allocation.Balanced config flight)
    (saves : config.savesFloats = true) (reg : FloatRegister) :
    reg ∈ allocation.saved.map Prod.fst ↔
      reg.index.toNat < min config.floatRegisters.toNat 32 ∧
        allocation.availableFloats.contains reg.index = false := by
  have sum := balanced.countP_saved saves reg
  have member : reg ∈ allocation.saved.map Prod.fst ↔
      1 ≤ allocation.saved.countP (·.1 = reg) := by
    simp only [Nat.one_le_iff_ne_zero, Nat.ne_zero_iff_zero_lt, List.countP_pos_iff, List.mem_map,
      decide_eq_true_eq]
  rw [member]
  by_cases below : reg.index.toNat < min config.floatRegisters.toNat 32
  · simp only [CodeConfig.quota, below, decide_true, Bool.toNat_true] at sum
    rw [← Bool.toNat_eq_zero]
    constructor
    · intro counted
      exact ⟨below, by omega⟩
    · rintro ⟨-, taken⟩
      omega
  · simp only [CodeConfig.quota, below, decide_false, Bool.toNat_false] at sum
    constructor
    · intro counted
      omega
    · rintro ⟨above, -⟩
      exact absurd above below

theorem partitioned (balanced : allocation.Balanced config []) :
    allocation.Partitioned config where
  registers _ below := balanced.heldOnce rfl (congrArg Bool.toNat (decide_eq_true below))
  floats _ below := balanced.heldOnce rfl (congrArg Bool.toNat (decide_eq_true below))
  slots := balanced.used_iff
  unsaved disabled := balanced.unsaved (balanced.savesFloats.trans disabled)
  saved := balanced.mem_saved
  savedOnce := balanced.saved_nodup
  saveSlots := balanced.saveSlots

end Balanced

/-- The place can be met after others that have the registers and slots seen. -/
structure Admits (allocation : Allocation) (seen : RegisterSet) (slots : List Nat)
    (location : Location) : Prop where
  register : ∀ reg, location.register? = some reg →
    seen.contains reg.index = false ∧ allocation.available.contains reg.index = false
  slot : ∀ slot, location.slot? = some slot →
    slot < allocation.spillLimit ∧ slot ∉ slots ∧ slot ∈ allocation.usedSlots

/-- Places that occupy nothing in common. -/
def Apart (first second : Location) : Prop :=
  ∀ resource, first.resource? = some resource → second.resource? ≠ some resource

theorem Admits.insert {allocation : Allocation} {seen : RegisterSet} {slots : List Nat}
    {first second : Location} {reg : Register} (admits : allocation.Admits seen slots second)
    (apart : Apart first second) (held : first.register? = some reg) :
    allocation.Admits (seen.insert reg.index) slots second where
  register other located := by
    obtain ⟨unseen, taken⟩ := admits.register other located
    refine ⟨?_, taken⟩
    rw [RegisterSet.contains_insert, unseen, Bool.false_or, Bool.and_eq_false_iff]
    right
    rw [decide_eq_false_iff_not]
    intro same
    have equality : reg = other := by
      cases reg
      cases other
      exact congrArg Register.mk same
    subst equality
    exact apart _ (Location.resource?_eq_register.mpr held)
      (Location.resource?_eq_register.mpr located)
  slot := admits.slot

theorem Admits.cons {allocation : Allocation} {seen : RegisterSet} {slots : List Nat}
    {first second : Location} {slot : Nat} (admits : allocation.Admits seen slots second)
    (apart : Apart first second) (held : first.slot? = some slot) :
    allocation.Admits seen (slot :: slots) second where
  register := admits.register
  slot other located := by
    obtain ⟨bound, fresh, used⟩ := admits.slot other located
    refine ⟨bound, ?_, used⟩
    rw [List.mem_cons, not_or]
    refine ⟨?_, fresh⟩
    rintro rfl
    exact apart _ (Location.resource?_eq_slot.mpr held) (Location.resource?_eq_slot.mpr located)

/-- Places that occupy nothing in common pass the check, and it sees no register but theirs. -/
theorem checkPlaces_ok {allocation : Allocation} {places : List (Location × Nat)}
    {seen : RegisterSet} {slots : List Nat}
    (distinct : places.Pairwise fun a b => Apart a.1 b.1)
    (admits : ∀ place ∈ places, allocation.Admits seen slots place.1) :
    ∃ final, allocation.checkPlaces seen slots places = .ok final ∧
      ∀ r, final.contains r = true →
        seen.contains r = true ∨ ∃ place ∈ places, place.1.register? = some ⟨r⟩ := by
  induction places generalizing seen slots with
  | nil => exact ⟨seen, rfl, fun r member => .inl member⟩
  | cons first rest ih =>
      obtain ⟨location, id⟩ := first
      rw [List.pairwise_cons] at distinct
      have admitted := admits _ (.head _)
      have later : ∀ place ∈ rest, allocation.Admits seen slots place.1 :=
        fun place member => admits place (.tail _ member)
      cases held : location.register? with
      | some reg =>
          obtain ⟨unseen, taken⟩ := admitted.register reg held
          obtain ⟨final, checked, members⟩ := ih distinct.2 fun place member =>
            (later place member).insert (distinct.1 place member) held
          refine ⟨final, ?_, ?_⟩
          · simp only [checkPlaces, held, unseen, taken, Bool.or_self, Bool.false_eq_true,
              if_false]
            exact checked
          · intro r member
            rcases members r member with inserted | ⟨place, later, located⟩
            · rw [RegisterSet.contains_insert, Bool.or_eq_true, Bool.and_eq_true,
                decide_eq_true_eq, decide_eq_true_eq] at inserted
              rcases inserted with before | ⟨-, rfl⟩
              · exact .inl before
              · exact .inr ⟨_, .head _, held⟩
            · exact .inr ⟨place, .tail _ later, located⟩
      | none =>
          have unmoved {final : RegisterSet} (members : ∀ r, final.contains r = true →
              seen.contains r = true ∨ ∃ place ∈ rest, place.1.register? = some ⟨r⟩) :
              ∀ r, final.contains r = true → seen.contains r = true ∨
                ∃ place ∈ (location, id) :: rest, place.1.register? = some ⟨r⟩ := by
            intro r member
            rcases members r member with before | ⟨place, later, located⟩
            · exact .inl before
            · exact .inr ⟨place, .tail _ later, located⟩
          cases slotted : location.slot? with
          | some slot =>
              obtain ⟨bound, fresh, used⟩ := admitted.slot slot slotted
              obtain ⟨final, checked, members⟩ := ih distinct.2 fun place member =>
                (later place member).cons (distinct.1 place member) slotted
              refine ⟨final, ?_, unmoved members⟩
              simp only [checkPlaces, held, slotted, Nat.not_le_of_lt bound, fresh, used,
                not_true_eq_false, or_self, if_false]
              exact checked
          | none =>
              obtain ⟨final, checked, members⟩ := ih distinct.2 later
              refine ⟨final, ?_, unmoved members⟩
              simp only [checkPlaces, held, slotted]
              exact checked

theorem checkFloatPlaces_ok {allocation : Allocation} {places : List (Location × Nat)}
    {seen : RegisterSet} (distinct : places.Pairwise fun a b => Apart a.1 b.1)
    (taken : ∀ place ∈ places, ∀ reg, place.1.floatRegister? = some reg →
      seen.contains reg.index = false ∧
        allocation.availableFloats.contains reg.index = false ∧
        allocation.scratchFloats.contains reg.index = false) :
    allocation.checkFloatPlaces seen places = .ok () := by
  induction places generalizing seen with
  | nil => rfl
  | cons first rest ih =>
      obtain ⟨location, id⟩ := first
      rw [List.pairwise_cons] at distinct
      cases held : location.floatRegister? with
      | some reg =>
          obtain ⟨unseen, unavailable, unscratched⟩ := taken _ (.head _) reg held
          simp only [checkFloatPlaces, held, unseen, unavailable, unscratched, Bool.or_self,
            Bool.false_eq_true, if_false]
          refine ih distinct.2 fun place member other located => ?_
          obtain ⟨before, rest⟩ := taken place (.tail _ member) other located
          refine ⟨?_, rest⟩
          rw [RegisterSet.contains_insert, before, Bool.false_or, Bool.and_eq_false_iff]
          right
          rw [decide_eq_false_iff_not]
          intro same
          have equality : reg = other := by
            cases reg
            cases other
            exact congrArg FloatRegister.mk same
          subst equality
          exact distinct.1 place member _ (Location.resource?_eq_float.mpr held)
            (Location.resource?_eq_float.mpr located)
      | none =>
          simp only [checkFloatPlaces, held]
          exact ih distinct.2 fun place member => taken place (.tail _ member)

/-- The places that the check goes over, with the operands that are there. -/
def places (allocation : Allocation) : List (Location × Nat) :=
  (allocation.operands.map (·.location)).zipIdx.filter (·.1.isSomewhere)

theorem place_of_mem_places {allocation : Allocation} {place : Location × Nat}
    (member : place ∈ allocation.places) : allocation.place place.2 = place.1 := by
  have found := List.mem_zipIdx_iff_getElem?.mp (List.mem_filter.mp member).1
  rw [List.getElem?_map, Option.map_eq_some_iff] at found
  obtain ⟨operand, found, located⟩ := found
  rw [Allocation.place, found]
  exact located

namespace Balanced

variable {config : CodeConfig} {allocation : Allocation}

theorem places_apart (balanced : allocation.Balanced config []) :
    allocation.places.Pairwise fun a b => Apart a.1 b.1 := by
  have indices : allocation.places.Pairwise fun a b => a.2 ≠ b.2 := by
    refine List.Pairwise.filter _ ?_
    rw [← List.pairwise_map (f := Prod.snd) (R := (· ≠ ·)), List.zipIdx_map_snd]
    exact List.nodup_range'
  refine indices.imp_of_mem fun {a b} first second different resource held shared => ?_
  rw [← place_of_mem_places first] at held
  rw [← place_of_mem_places second] at shared
  exact different (balanced.place_unique held shared)

theorem admits_place (balanced : allocation.Balanced config []) (index : Nat) :
    allocation.Admits .empty [] (allocation.place index) where
  register reg held :=
    ⟨RegisterSet.contains_empty _,
      balanced.not_available_of_place index (Location.resource?_eq_register.mpr held)⟩
  slot slot held := by
    have occupies : allocation.Occupies (.slot slot) index := Location.resource?_eq_slot.mpr held
    have used := (balanced.used_iff slot).mpr
      ⟨index, occupies, fun other located => balanced.place_unique located occupies⟩
    exact ⟨balanced.limit slot used, List.not_mem_nil, used⟩

theorem checkAliasing_ok (balanced : allocation.Balanced config []) :
    allocation.checkAliasing = .ok () := by
  obtain ⟨final, checked, members⟩ := checkPlaces_ok balanced.places_apart
    fun place member => place_of_mem_places member ▸ balanced.admits_place place.2
  have scratch : (allocation.scratch.toList.find? fun r =>
      final.contains r || allocation.available.contains r) = none := by
    rw [List.find?_eq_none]
    intro r member
    rw [RegisterSet.mem_toList] at member
    have free := (balanced.scratch_not_available ⟨r⟩ member).1
    rw [show allocation.available.contains r = false from free, Bool.or_false]
    intro seen
    rcases members r seen with impossible | ⟨place, listed, held⟩
    · rw [RegisterSet.contains_empty] at impossible
      cases impossible
    · rw [← place_of_mem_places listed] at held
      have empty := balanced.pool_of_place place.2 (Location.resource?_eq_register.mpr held)
      simp only [pool, member, Bool.toNat_true] at empty
      omega
  have floats : allocation.checkFloatPlaces .empty allocation.places = .ok () := by
    refine checkFloatPlaces_ok balanced.places_apart fun place listed reg held => ?_
    rw [← place_of_mem_places listed] at held
    have empty := balanced.pool_of_place place.2 (Location.resource?_eq_float.mpr held)
    simp only [pool, Nat.add_eq_zero_iff, Bool.toNat_eq_zero] at empty
    exact ⟨RegisterSet.contains_empty _, empty⟩
  have scratchFloats :
      allocation.scratchFloats.toList.find? allocation.availableFloats.contains = none := by
    rw [List.find?_eq_none]
    intro r member
    rw [RegisterSet.mem_toList] at member
    have sum := balanced.ledger (.float ⟨r⟩)
    have bound := quota_le_one config (.float ⟨r⟩)
    simp only [pool, member, Bool.toNat_true] at sum
    rw [Bool.not_eq_true, ← Bool.toNat_eq_zero]
    omega
  unfold places at checked floats
  simp only [checkAliasing, checked, floats, scratchFloats, bind, Except.bind, scratch]
  rfl

end Balanced

end Allocation

/-- After any calls that all succeed, in any order, registers and slots are partitioned, the record of
saved float registers is exact, and the check for aliasing passes. -/
theorem allocator_partitioned (ops : List Op) (count : Nat) (config : CodeConfig)
    (calls : List AllocatorCall) {start : Allocation} {after : Assembler}
    (started : Allocation.start ops count config = .ok start)
    (runs : (AllocatorCall.runAll calls).Runs (.start start) () after) :
    after.allocation.Partitioned config ∧ after.allocation.checkAliasing = .ok () := by
  have balanced : after.allocation.Balanced config [] :=
    AllocatorCall.runAll_balanced runs (.start started)
  exact ⟨balanced.partitioned, balanced.checkAliasing_ok⟩

/-- With two registers, an operand is spilled for scratch and comes back as a number. -/
theorem allocator_partitioned_after_spill :
    ∃ start after,
      Allocation.start [⟨.guardIsNumber, 0, ()⟩] 1 ⟨2, 2, 16, true, .constant, true⟩ = .ok start ∧
      (AllocatorCall.runAll [.defineValueReg 0, .beginOp 0, .allocateRegister, .allocateRegister,
        .releaseRegister ⟨1⟩, .useNumber 0]).Runs (.start start) () after ∧
      after.allocation.Partitioned ⟨2, 2, 16, true, .constant, true⟩ ∧
      after.allocation.checkAliasing = .ok () :=
  have started : Allocation.start [⟨.guardIsNumber, 0, ()⟩] 1 ⟨2, 2, 16, true, .constant, true⟩ =
    .ok _ := rfl
  have runs := Asm.runs_of_isOk (by decide)
  ⟨_, _, started, runs, allocator_partitioned _ _ _ _ started runs⟩

end InlineCache
