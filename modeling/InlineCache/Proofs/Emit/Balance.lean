import InlineCache.Proofs.Emit.Liveness
import InlineCache.Proofs.Emit.Steps

/-!
Who holds what.  Every register is held once: by the pool, as scratch, or by one operand; every slot is
free or holds one operand.  In the middle of an operation a few of them can be in flight, taken but not
yet put anywhere, so the accounts below have a column for those.
-/

namespace InlineCache

/-- Something that one holder has at a time. -/
inductive Resource
  | register (reg : Register)
  | float (reg : FloatRegister)
  | slot (slot : Nat)
  deriving DecidableEq

def Location.resource? : Location → Option Resource
  | .nowhere => none
  | .payloadReg reg _ | .valueReg reg => some (.register reg)
  | .floatReg reg => some (.float reg)
  | .payloadSlot slot _ | .valueSlot slot | .floatSlot slot => some (.slot slot)

/-- How often a resource is to be held under a configuration. -/
def CodeConfig.quota (config : CodeConfig) : Resource → Nat
  | .register reg => (decide (reg.index.toNat < min config.generalRegisters.toNat 32)).toNat
  | .float reg => (decide (reg.index.toNat < min config.floatRegisters.toNat 32)).toNat
  | .slot _ => 1

namespace Allocation

/-- How often a resource is held by no operand. -/
def pool (allocation : Allocation) : Resource → Nat
  | .register reg =>
      (allocation.available.contains reg.index).toNat +
        (allocation.scratch.contains reg.index).toNat
  | .float reg =>
      (allocation.availableFloats.contains reg.index).toNat +
        (allocation.scratchFloats.contains reg.index).toNat
  | .slot slot => (!allocation.usedSlots.contains slot).toNat

/-- How many operands are at a resource. -/
def occupants (allocation : Allocation) (resource : Resource) : Nat :=
  allocation.countPlaces (·.resource? = some resource)

/-- The accounts are in balance, with some resources in flight. -/
structure Balanced (config : CodeConfig) (flight : List Resource) (allocation : Allocation) :
    Prop where
  ledger : ∀ resource,
    allocation.pool resource + allocation.occupants resource + flight.count resource =
      config.quota resource
  limit : ∀ slot ∈ allocation.usedSlots, slot < allocation.spillLimit
  pinned : ∀ r, allocation.pinned.contains r = true → allocation.available.contains r = false
  saves : allocation.savesFloats = true → ∀ reg : FloatRegister,
    allocation.saved.countP (·.1 = reg) +
        (allocation.availableFloats.contains reg.index).toNat =
      config.quota (.float reg)
  unsaved : allocation.savesFloats = false → allocation.saved = []
  saveSlots : (allocation.saved.map Prod.snd).Nodup
  placed : ∀ index, allocation.place index ≠ .nowhere → allocation.defined index = true
  spillLimit : allocation.spillLimit = config.spillSlots.toNat
  savesFloats : allocation.savesFloats = config.savesFloats

variable {config : CodeConfig} {flight : List Resource} {allocation : Allocation}

theorem toNat_contains_insert {set : RegisterSet} {r q : UInt8} (absent : set.contains r = false)
    (bound : r.toNat < 32) :
    ((set.insert r).contains q).toNat = (set.contains q).toNat + (decide (r = q)).toNat := by
  rw [RegisterSet.contains_insert]
  by_cases same : r = q
  · subst same
    simp [absent, bound]
  · simp [same]

theorem toNat_contains_remove {set : RegisterSet} {r q : UInt8} (present : set.contains r = true) :
    ((set.remove r).contains q).toNat + (decide (r = q)).toNat = (set.contains q).toNat := by
  rw [RegisterSet.contains_remove]
  by_cases same : r = q
  · subst same
    simp [present]
  · simp [same]

theorem count_register (reg other : Register) (flight : List Resource) :
    (.register reg :: flight).count (.register other) =
      flight.count (.register other) + (decide (reg.index = other.index)).toNat := by
  obtain ⟨r⟩ := reg
  obtain ⟨q⟩ := other
  rw [List.count_cons]
  by_cases same : r = q <;> simp [same]

theorem count_float (reg other : FloatRegister) (flight : List Resource) :
    (.float reg :: flight).count (.float other) =
      flight.count (.float other) + (decide (reg.index = other.index)).toNat := by
  obtain ⟨r⟩ := reg
  obtain ⟨q⟩ := other
  rw [List.count_cons]
  by_cases same : r = q <;> simp [same]

theorem count_slot (slot other : Nat) (flight : List Resource) :
    (.slot slot :: flight).count (.slot other) =
      flight.count (.slot other) + (decide (slot = other)).toNat := by
  rw [List.count_cons]
  by_cases same : slot = other <;> simp [same]

theorem count_of_ne {taken resource : Resource} (different : taken ≠ resource)
    (flight : List Resource) : (taken :: flight).count resource = flight.count resource :=
  List.count_cons_of_ne different

theorem count_toList (taken : Option Resource) (resource : Resource) (flight : List Resource) :
    (taken.toList ++ flight).count resource =
      flight.count resource + (decide (taken = some resource)).toNat := by
  cases taken with
  | none => simp
  | some taken =>
      by_cases same : taken = resource
      · simp [same]
      · simp [same]

theorem quota_le_one (config : CodeConfig) (resource : Resource) : config.quota resource ≤ 1 := by
  cases resource with
  | register reg | float reg => exact Bool.toNat_le _
  | slot slot => exact Nat.le_refl 1

namespace Balanced

/-- What is in flight is nowhere else. -/
theorem of_flight (balanced : allocation.Balanced config flight) {resource : Resource}
    (member : resource ∈ flight) :
    allocation.pool resource = 0 ∧ allocation.occupants resource = 0 ∧
      config.quota resource = 1 := by
  have sum := balanced.ledger resource
  have counted : 1 ≤ flight.count resource := List.count_pos_iff.mpr member
  have bound := quota_le_one config resource
  omega

theorem not_available_of_flight (balanced : allocation.Balanced config flight) {reg : Register}
    (member : .register reg ∈ flight) : allocation.available.contains reg.index = false := by
  have empty := (balanced.of_flight member).1
  simp only [pool] at empty
  cases available : allocation.available.contains reg.index with
  | true =>
      rw [available, Bool.toNat_true] at empty
      omega
  | false => rfl

/-- What an operand occupies is not in the pool. -/
theorem pool_of_place (balanced : allocation.Balanced config flight) (index : Nat)
    {resource : Resource} (held : (allocation.place index).resource? = some resource) :
    allocation.pool resource = 0 := by
  have sum := balanced.ledger resource
  have bound := quota_le_one config resource
  have occupied : 1 ≤ allocation.occupants resource := countPlaces_pos rfl (decide_eq_true held)
  omega

theorem not_available_of_place (balanced : allocation.Balanced config flight) (index : Nat)
    {reg : Register} (held : (allocation.place index).resource? = some (.register reg)) :
    allocation.available.contains reg.index = false := by
  have empty := balanced.pool_of_place index held
  simp only [pool, Nat.add_eq_zero_iff, Bool.toNat_eq_zero] at empty
  exact empty.1

theorem used_of_place (balanced : allocation.Balanced config flight) (index : Nat) {slot : Nat}
    (held : (allocation.place index).resource? = some (.slot slot)) :
    slot ∈ allocation.usedSlots := by
  have empty := balanced.pool_of_place index held
  simpa only [pool, Bool.toNat_eq_zero, Bool.not_eq_false', List.contains_eq_mem,
    decide_eq_true_eq] using empty

theorem occupants_le_one (balanced : allocation.Balanced config flight) (resource : Resource) :
    allocation.occupants resource ≤ 1 := by
  have sum := balanced.ledger resource
  have bound := quota_le_one config resource
  omega

/-- No two operands are at one resource. -/
theorem place_unique (balanced : allocation.Balanced config flight) {resource : Resource}
    {i j : Nat} (first : (allocation.place i).resource? = some resource)
    (second : (allocation.place j).resource? = some resource) : i = j := by
  by_cases same : i = j
  · exact same
  · have twice : 2 ≤ allocation.occupants resource :=
      two_le_countPlaces rfl same (decide_eq_true first) (decide_eq_true second)
    have once := balanced.occupants_le_one resource
    omega

/-- No operand is at what is in flight. -/
theorem not_place_of_flight (balanced : allocation.Balanced config flight) {resource : Resource}
    (member : resource ∈ flight) (index : Nat) :
    (allocation.place index).resource? ≠ some resource := by
  intro held
  have empty := (balanced.of_flight member).2.1
  have occupied : 1 ≤ allocation.occupants resource := countPlaces_pos rfl (decide_eq_true held)
  omega

theorem bound_of_flight (balanced : allocation.Balanced config flight) {reg : Register}
    (member : .register reg ∈ flight) : reg.index.toNat < 32 := by
  have full := (balanced.of_flight member).2.2
  simp only [CodeConfig.quota, Bool.toNat_eq_one, decide_eq_true_eq] at full
  omega

theorem pin {reg : Register} (balanced : allocation.Balanced config flight)
    (absent : allocation.available.contains reg.index = false) :
    (allocation.pin reg).Balanced config flight :=
  { balanced with
    pinned := by
      intro r member
      simp only [Allocation.pin, RegisterSet.contains_insert, Bool.or_eq_true,
        Bool.and_eq_true, decide_eq_true_eq] at member
      rcases member with held | ⟨-, rfl⟩
      · exact balanced.pinned r held
      · exact absent }

theorem grab {reg : Register} (balanced : allocation.Balanced config flight)
    (available : allocation.available.contains reg.index = true) :
    (allocation.grab reg).Balanced config (.register reg :: flight) :=
  { balanced with
    ledger := by
      intro resource
      have sum := balanced.ledger resource
      cases resource with
      | register other =>
          have removed := toNat_contains_remove (q := other.index) available
          rw [count_register]
          simp only [pool, Allocation.grab] at sum ⊢
          simp only [occupants, countPlaces] at sum ⊢
          omega
      | float | slot =>
          rw [count_of_ne (by simp)]
          exact sum
    pinned := by
      intro r held
      simp only [Allocation.grab, RegisterSet.contains_remove, balanced.pinned r held,
        Bool.false_and] }

/-- The ledger after a register has come back to the pool. -/
theorem free_ledger {reg : Register}
    (balanced : allocation.Balanced config (.register reg :: flight)) (resource : Resource) :
    (allocation.free reg).pool resource + allocation.occupants resource +
      flight.count resource = config.quota resource := by
  have sum := balanced.ledger resource
  cases resource with
  | register other =>
      have inserted := toNat_contains_insert (q := other.index)
        (balanced.not_available_of_flight (.head _)) (balanced.bound_of_flight (.head _))
      rw [count_register] at sum
      simp only [pool, Allocation.free] at sum ⊢
      omega
  | float | slot =>
      rw [count_of_ne (by simp)] at sum
      exact sum

theorem free {reg : Register} (balanced : allocation.Balanced config (.register reg :: flight))
    (unpinned : allocation.pinned.contains reg.index = false) :
    (allocation.free reg).Balanced config flight :=
  { balanced with
    ledger := balanced.free_ledger
    pinned := by
      intro r held
      simp only [Allocation.free, RegisterSet.contains_insert, balanced.pinned r held,
        Bool.false_or, Bool.and_eq_false_iff, decide_eq_false_iff_not]
      right
      rintro rfl
      rw [show allocation.pinned.contains reg.index = true from held] at unpinned
      cases unpinned }

theorem yield {reg : Register}
    (balanced : allocation.Balanced config (.register reg :: flight)) :
    (allocation.yield reg).Balanced config flight :=
  { balanced with
    ledger := balanced.free_ledger
    pinned := by
      intro r held
      simp only [Allocation.yield, RegisterSet.contains_remove, Bool.and_eq_true,
        decide_eq_true_eq] at held
      simp only [Allocation.yield, RegisterSet.contains_insert, balanced.pinned r held.1,
        Bool.false_or, decide_eq_false held.2, Bool.and_false] }

theorem hold {reg : Register} (balanced : allocation.Balanced config (.register reg :: flight)) :
    (allocation.hold reg).Balanced config flight :=
  { balanced with
    ledger := by
      intro resource
      have sum := balanced.ledger resource
      cases resource with
      | register other =>
          have empty := (balanced.of_flight (.head _)).1
          simp only [pool] at empty
          have absent : allocation.scratch.contains reg.index = false := by
            rw [← Bool.toNat_eq_zero]
            omega
          have inserted := toNat_contains_insert (q := other.index) absent
            (balanced.bound_of_flight (.head _))
          rw [count_register] at sum
          simp only [pool, Allocation.hold] at sum ⊢
          simp only [occupants, countPlaces] at sum ⊢
          omega
      | float | slot =>
          rw [count_of_ne (by simp)] at sum
          exact sum }

theorem scratch_not_available (balanced : allocation.Balanced config flight) (reg : Register)
    (scratch : allocation.scratch.contains reg.index = true) :
    allocation.available.contains reg.index = false ∧ reg.index.toNat < 32 := by
  have sum := balanced.ledger (.register reg)
  have bound := quota_le_one config (.register reg)
  simp only [pool, scratch, Bool.toNat_true] at sum
  refine ⟨?_, RegisterSet.lt_of_contains scratch⟩
  rw [← Bool.toNat_eq_zero]
  omega

theorem release {reg : Register} (balanced : allocation.Balanced config flight)
    (scratch : allocation.scratch.contains reg.index = true) :
    (allocation.release reg).Balanced config flight :=
  { balanced with
    ledger := by
      intro resource
      have sum := balanced.ledger resource
      cases resource with
      | register other =>
          obtain ⟨absent, bound⟩ := balanced.scratch_not_available reg scratch
          have inserted := toNat_contains_insert (q := other.index) absent bound
          have removed := toNat_contains_remove (q := other.index) scratch
          simp only [pool, Allocation.release] at sum ⊢
          simp only [occupants, countPlaces] at sum ⊢
          omega
      | float | slot => exact sum
    pinned := by
      intro r held
      simp only [Allocation.release, RegisterSet.contains_remove, Bool.and_eq_true,
        decide_eq_true_eq] at held
      simp only [Allocation.release, RegisterSet.contains_insert, balanced.pinned r held.1,
        Bool.false_or, decide_eq_false held.2, Bool.and_false] }

/-- What was scratch is available after the turn. -/
theorem turn (balanced : allocation.Balanced config flight) (index : Nat) :
    (allocation.turn index).Balanced config flight :=
  { balanced with
    ledger := by
      intro resource
      have sum := balanced.ledger resource
      cases resource with
      | register reg =>
          have bound := quota_le_one config (.register reg)
          simp only [pool, Allocation.turn] at sum ⊢
          simp only [occupants, countPlaces, RegisterSet.contains_union,
            RegisterSet.contains_empty] at sum ⊢
          cases available : allocation.available.contains reg.index <;>
            cases scratch : allocation.scratch.contains reg.index <;>
            simp only [available, scratch, Bool.toNat_true, Bool.toNat_false, Bool.or_true,
              Bool.or_false] at sum ⊢ <;>
            omega
      | float | slot => exact sum
    pinned := by
      intro r held
      simp only [Allocation.turn, RegisterSet.contains_empty] at held
      contradiction }

theorem unpin (balanced : allocation.Balanced config flight) :
    allocation.unpin.Balanced config flight :=
  { balanced with
    pinned := by
      intro r held
      simp only [Allocation.unpin, RegisterSet.contains_empty] at held
      contradiction }

theorem occupy {slot : Nat} (balanced : allocation.Balanced config flight)
    (unused : slot ∉ allocation.usedSlots) (bound : slot < allocation.spillLimit) :
    (allocation.occupy slot).Balanced config (.slot slot :: flight) :=
  { balanced with
    ledger := by
      intro resource
      have sum := balanced.ledger resource
      cases resource with
      | slot other =>
          rw [count_slot]
          simp only [pool, Allocation.occupy] at sum ⊢
          simp only [occupants, countPlaces, List.contains_cons] at sum ⊢
          by_cases same : slot = other
          · subst same
            simp only [List.contains_eq_mem, unused, decide_false, decide_true, BEq.rfl,
              Bool.true_or, Bool.not_true, Bool.not_false, Bool.toNat_true,
              Bool.toNat_false] at sum ⊢
            omega
          · have apart : (other == slot) = false := by simpa using Ne.symm same
            simp only [apart, Bool.false_or, decide_eq_false same, Bool.toNat_false] at sum ⊢
            omega
      | register | float =>
          rw [count_of_ne (by simp)]
          exact sum
    limit := by
      intro other member
      rcases List.mem_cons.mp member with rfl | used
      · exact bound
      · exact balanced.limit other used }

theorem vacate {slot : Nat} (balanced : allocation.Balanced config (.slot slot :: flight)) :
    (allocation.vacate slot).Balanced config flight :=
  { balanced with
    ledger := by
      intro resource
      have sum := balanced.ledger resource
      cases resource with
      | slot other =>
          rw [count_slot] at sum
          have empty := (balanced.of_flight (.head _)).1
          simp only [pool, Allocation.vacate] at sum empty ⊢
          simp only [occupants, countPlaces, List.contains_eq_mem, List.mem_filter,
            decide_eq_true_eq] at sum empty ⊢
          by_cases same : slot = other
          · subst same
            simp only [decide_true, Bool.toNat_true, ne_eq, not_true_eq_false, and_false,
              decide_false, Bool.not_false] at sum ⊢
            omega
          · simp only [decide_eq_false same, Bool.toNat_false, ne_eq, Ne.symm same,
              not_false_eq_true, and_true] at sum ⊢
            omega
      | register | float =>
          rw [count_of_ne (by simp)] at sum
          exact sum
    limit := fun other member => balanced.limit other (List.mem_filter.mp member).1 }

/-- An operand gives up its place for what is in flight. -/
theorem exchange (index : Nat) (location : Location)
    (balanced : allocation.Balanced config (location.resource?.toList ++ flight))
    (defined : allocation.defined index = true) :
    (allocation.setLocation index location).Balanced config
      ((allocation.place index).resource?.toList ++ flight) :=
  { balanced with
    ledger := by
      intro resource
      have sum := balanced.ledger resource
      have moved := countPlaces_setLocation (lt_of_defined defined) location (·.resource? = some resource)
      have same : (allocation.setLocation index location).pool resource =
          allocation.pool resource := by
        cases resource <;> rfl
      rw [count_toList] at sum ⊢
      rw [same]
      simp only [occupants] at sum ⊢
      omega
    placed := by
      intro other somewhere
      rw [defined_setLocation]
      by_cases same : index = other
      · exact same ▸ defined
      · rw [place_setLocation_ne same] at somewhere
        exact balanced.placed other somewhere }

/-- An operand stays at what it occupies, in another form. -/
theorem relist {index : Nat} {location : Location} (balanced : allocation.Balanced config flight)
    (somewhere : allocation.place index ≠ .nowhere)
    (same : location.resource? = (allocation.place index).resource?) :
    (allocation.setLocation index location).Balanced config flight :=
  { balanced with
    ledger := by
      intro resource
      have sum := balanced.ledger resource
      have moved := countPlaces_setLocation (lt_of_place somewhere) location
        (·.resource? = some resource)
      have pool : (allocation.setLocation index location).pool resource =
          allocation.pool resource := by
        cases resource <;> rfl
      rw [pool]
      rw [same] at moved
      simp only [occupants] at sum ⊢
      omega
    placed := by
      intro other held
      rw [defined_setLocation]
      by_cases equality : index = other
      · exact equality ▸ balanced.placed index somewhere
      · rw [place_setLocation_ne equality] at held
        exact balanced.placed other held }

theorem modifyOperand {index : Nat} {change : OperandState → OperandState}
    (balanced : allocation.Balanced config flight)
    (location : ∀ operand, (change operand).location = operand.location)
    (defined : ∀ operand, operand.isDefined = true → (change operand).isDefined = true) :
    (allocation.modifyOperand index change).Balanced config flight :=
  { balanced with
    ledger := by
      intro resource
      have same : (allocation.modifyOperand index change).pool resource =
          allocation.pool resource := by
        cases resource <;> rfl
      rw [same, occupants, countPlaces_modifyOperand _ _ location]
      exact balanced.ledger resource
    placed := by
      intro other somewhere
      rw [place_modifyOperand _ _ _ location] at somewhere
      have before := balanced.placed other somewhere
      unfold Allocation.defined at before ⊢
      rw [operand?_modifyOperand]
      cases found : allocation.operands[other]? with
      | none =>
          rw [found] at before
          cases before
      | some operand =>
          rw [found, Option.any_some] at before
          split
          · exact defined operand before
          · exact before }

theorem setKnownType (balanced : allocation.Balanced config flight) (id : OperandId)
    (type : ValueType) :
    (allocation.setKnownType id type).Balanced config flight :=
  balanced.modifyOperand (fun _ => rfl) fun _ defined => defined

theorem markDefined {id : OperandId} (balanced : allocation.Balanced config flight) :
    (allocation.markDefined id).Balanced config flight :=
  balanced.modifyOperand (fun _ => rfl) fun _ _ => rfl

theorem pinFloat {reg : FloatRegister} (balanced : allocation.Balanced config flight) :
    (allocation.pinFloat reg).Balanced config flight :=
  { balanced with }

/-- A float register may be taken without a record while the caller has no claim on it. -/
theorem grabFloat {reg : FloatRegister} (balanced : allocation.Balanced config flight)
    (available : allocation.availableFloats.contains reg.index = true)
    (unsaved : allocation.savesFloats = false) :
    (allocation.grabFloat reg).Balanced config (.float reg :: flight) :=
  { balanced with
    ledger := by
      intro resource
      have sum := balanced.ledger resource
      cases resource with
      | float other =>
          have removed := toNat_contains_remove (q := other.index) available
          rw [count_float]
          simp only [pool, Allocation.grabFloat] at sum ⊢
          simp only [occupants, countPlaces] at sum ⊢
          omega
      | register | slot =>
          rw [count_of_ne (by simp)]
          exact sum
    saves := by
      intro saves
      exact absurd (show allocation.savesFloats = true from saves) (by simp [unsaved]) }

end Balanced

/-- How often a float register is recorded as saved. -/
theorem countP_saved_append (saved : SavedFloats) (reg other : FloatRegister) (slot : Nat) :
    (saved ++ [(reg, slot)]).countP (·.1 = other) =
      saved.countP (·.1 = other) + (decide (reg.index = other.index)).toNat := by
  obtain ⟨r⟩ := reg
  obtain ⟨q⟩ := other
  by_cases same : r = q <;> simp [List.countP_append, same]

theorem countP_saved_eraseP {saved : SavedFloats} {reg : FloatRegister} {slot : Nat}
    (member : (reg, slot) ∈ saved) (other : FloatRegister) :
    (saved.eraseP (·.1 = reg)).countP (·.1 = other) + (decide (reg.index = other.index)).toNat =
      saved.countP (·.1 = other) := by
  induction saved with
  | nil => cases member
  | cons head tail ih =>
      obtain ⟨⟨h⟩, n⟩ := head
      obtain ⟨r⟩ := reg
      obtain ⟨q⟩ := other
      by_cases first : h = r
      · subst first
        by_cases same : h = q <;> simp [same]
      · have rest : (⟨⟨r⟩, slot⟩ : FloatRegister × Nat) ∈ tail := by
          rcases List.mem_cons.mp member with equality | rest
          · cases equality
            exact absurd rfl first
          · exact rest
        have tailCount := ih rest
        rw [List.eraseP_cons_of_neg (by simpa using first), List.countP_cons, List.countP_cons]
        omega

namespace Balanced

theorem grabSaved {reg : FloatRegister} {slot : Nat}
    (balanced : allocation.Balanced config flight)
    (available : allocation.availableFloats.contains reg.index = true)
    (saves : allocation.savesFloats = true)
    (unused : slot ∉ allocation.saved.map Prod.snd) :
    ((allocation.grabFloat reg).recordSave reg slot).Balanced config (.float reg :: flight) :=
  { balanced with
    ledger := by
      intro resource
      have sum := balanced.ledger resource
      cases resource with
      | float other =>
          have removed := toNat_contains_remove (q := other.index) available
          rw [count_float]
          simp only [pool, Allocation.grabFloat, Allocation.recordSave] at sum ⊢
          simp only [occupants, countPlaces] at sum ⊢
          omega
      | register | slot =>
          rw [count_of_ne (by simp)]
          exact sum
    saves := by
      intro _ other
      have sum := balanced.saves saves other
      have removed := toNat_contains_remove (q := other.index) available
      simp only [Allocation.grabFloat, Allocation.recordSave, countP_saved_append]
      omega
    unsaved := by
      intro disabled
      exact absurd (show allocation.savesFloats = false from disabled) (by simp [saves])
    saveSlots := by
      simp only [Allocation.grabFloat, Allocation.recordSave, List.map_append, List.map_cons,
        List.map_nil]
      rw [List.nodup_append]
      refine ⟨balanced.saveSlots, by simp, ?_⟩
      intro first member second last same
      rw [List.mem_singleton] at last
      exact unused (last ▸ same ▸ member) }

theorem holdFloat {reg : FloatRegister}
    (balanced : allocation.Balanced config (.float reg :: flight)) :
    (allocation.holdFloat reg).Balanced config flight :=
  { balanced with
    ledger := by
      intro resource
      have sum := balanced.ledger resource
      cases resource with
      | float other =>
          obtain ⟨empty, -, full⟩ := balanced.of_flight (.head _)
          simp only [pool] at empty
          have absent : allocation.scratchFloats.contains reg.index = false := by
            rw [← Bool.toNat_eq_zero]
            omega
          simp only [CodeConfig.quota, Bool.toNat_eq_one, decide_eq_true_eq] at full
          have inserted := toNat_contains_insert (q := other.index) absent (by omega)
          rw [count_float] at sum
          simp only [pool, Allocation.holdFloat] at sum ⊢
          simp only [occupants, countPlaces] at sum ⊢
          omega
      | register | slot =>
          rw [count_of_ne (by simp)] at sum
          exact sum }

theorem float_of_flight (balanced : allocation.Balanced config flight) {reg : FloatRegister}
    (member : .float reg ∈ flight) :
    allocation.availableFloats.contains reg.index = false ∧ reg.index.toNat < 32 ∧
      config.quota (.float reg) = 1 := by
  obtain ⟨empty, -, full⟩ := balanced.of_flight member
  simp only [pool] at empty
  refine ⟨by rw [← Bool.toNat_eq_zero]; omega, ?_, full⟩
  simp only [CodeConfig.quota, Bool.toNat_eq_one, decide_eq_true_eq] at full
  omega

theorem freeFloat_ledger {reg : FloatRegister}
    (balanced : allocation.Balanced config (.float reg :: flight)) (resource : Resource) :
    (allocation.freeFloat reg).pool resource + allocation.occupants resource +
      flight.count resource = config.quota resource := by
  have sum := balanced.ledger resource
  cases resource with
  | float other =>
      obtain ⟨absent, bound, -⟩ := balanced.float_of_flight (.head _)
      have inserted := toNat_contains_insert (q := other.index) absent bound
      rw [count_float] at sum
      simp only [pool, Allocation.freeFloat] at sum ⊢
      omega
  | register | slot =>
      rw [count_of_ne (by simp)] at sum
      exact sum

/-- A float register with a record is given back with the record dropped. -/
theorem restoreFloat {reg : FloatRegister} {slot : Nat}
    (balanced : allocation.Balanced config (.float reg :: flight))
    (saved : (reg, slot) ∈ allocation.saved) :
    ((allocation.dropSave reg).freeFloat reg).Balanced config flight :=
  { balanced with
    ledger := balanced.freeFloat_ledger
    saves := by
      intro saves other
      have sum := balanced.saves saves other
      obtain ⟨absent, bound, -⟩ := balanced.float_of_flight (.head _)
      have inserted := toNat_contains_insert (q := other.index) absent bound
      have erased := countP_saved_eraseP saved other
      simp only [Allocation.freeFloat, Allocation.dropSave] at sum ⊢
      omega
    unsaved := by
      intro disabled
      rw [balanced.unsaved disabled] at saved
      cases saved
    saveSlots := balanced.saveSlots.sublist (List.eraseP_sublist.map Prod.snd) }

/-- A float register without a record was taken where none is kept. -/
theorem savesFloats_of_unsaved {reg : FloatRegister}
    (balanced : allocation.Balanced config (.float reg :: flight))
    (unsaved : ∀ slot, (reg, slot) ∉ allocation.saved) : allocation.savesFloats = false := by
  cases saves : allocation.savesFloats with
  | false => rfl
  | true =>
      have sum := balanced.saves saves reg
      obtain ⟨absent, -, full⟩ := balanced.float_of_flight (.head _)
      have none : allocation.saved.countP (·.1 = reg) = 0 := by
        rw [List.countP_eq_zero]
        rintro ⟨_, slot⟩ member same
        exact unsaved slot (of_decide_eq_true same ▸ member)
      rw [none, absent, full] at sum
      contradiction

theorem giveFloat {reg : FloatRegister}
    (balanced : allocation.Balanced config (.float reg :: flight))
    (unsaved : ∀ slot, (reg, slot) ∉ allocation.saved) :
    (allocation.freeFloat reg).Balanced config flight :=
  { balanced with
    ledger := balanced.freeFloat_ledger
    saves := by
      intro saves
      have disabled := balanced.savesFloats_of_unsaved unsaved
      rw [show allocation.savesFloats = true from saves] at disabled
      cases disabled }

/-- A scratch float register is in flight while it is given back. -/
theorem dropFloat {reg : FloatRegister} (balanced : allocation.Balanced config flight)
    (scratch : allocation.scratchFloats.contains reg.index = true) :
    (allocation.dropFloat reg).Balanced config (.float reg :: flight) :=
  { balanced with
    ledger := by
      intro resource
      have sum := balanced.ledger resource
      cases resource with
      | float other =>
          have removed := toNat_contains_remove (q := other.index) scratch
          rw [count_float]
          simp only [pool, Allocation.dropFloat] at sum ⊢
          simp only [occupants, countPlaces] at sum ⊢
          omega
      | register | slot =>
          rw [count_of_ne (by simp)]
          exact sum }

/-- The pool has every register at the start. -/
theorem start {ops : List Op} {count : Nat} {allocation : Allocation}
    (started : Allocation.start ops count config = .ok allocation) :
    allocation.Balanced config [] := by
  obtain ⟨table, -, rfl⟩ := start_ok started
  constructor
  case ledger =>
    intro resource
    have unoccupied : (table.map fun lastUse =>
        OperandState.mk .nowhere Option.none false lastUse).countP
          (·.location.resource? = some resource) = 0 := by
      rw [List.countP_eq_zero]
      intro operand member
      obtain ⟨_, _, rfl⟩ := List.mem_map.mp member
      simp [Location.resource?]
    simp only [occupants, countPlaces, blank, unoccupied]
    cases resource <;> simp [pool, CodeConfig.quota, RegisterSet.contains_first]
  case placed =>
    intro index somewhere
    exact absurd (place_blank config table index) somewhere
  all_goals simp [blank, RegisterSet.contains_first, CodeConfig.quota]

end Balanced

end Allocation

end InlineCache
