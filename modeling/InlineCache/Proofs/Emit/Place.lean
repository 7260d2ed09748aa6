import InlineCache.Emit.Assembler

/-!
The places of operands by index.  A place is counted by what it occupies, so that handing something
over between an operand and a pool is a matter of adding and subtracting one.
-/

namespace InlineCache

theorem countP_modify (test : α → Bool) (change : α → α) (items : List α) (index : Nat) :
    (items.modify index change).countP test + items[index]?.elim 0 (fun item => (test item).toNat) =
      items.countP test + items[index]?.elim 0 (fun item => (test (change item)).toNat) := by
  induction items generalizing index with
  | nil => simp
  | cons head tail ih =>
      cases index with
      | zero =>
          simp only [List.modify_zero_cons, List.countP_cons, List.getElem?_cons_zero,
            Option.elim_some]
          cases test head <;> cases test (change head) <;> simp
      | succ index =>
          have tailCount := ih index
          simp only [List.modify_succ_cons, List.countP_cons, List.getElem?_cons_succ]
          omega

theorem countP_pos_of_getElem? {test : α → Bool} {items : List α} {index : Nat} {item : α}
    (found : items[index]? = some item) (passes : test item = true) : 1 ≤ items.countP test :=
  List.countP_pos_iff.mpr ⟨item, List.mem_of_getElem? found, passes⟩

theorem two_le_countP {test : α → Bool} {items : List α} {i j : Nat} {first second : α}
    (different : i ≠ j) (foundFirst : items[i]? = some first) (foundSecond : items[j]? = some second)
    (passesFirst : test first = true) (passesSecond : test second = true) :
    2 ≤ items.countP test := by
  induction items generalizing i j with
  | nil => simp at foundFirst
  | cons head tail ih =>
      cases i with
      | zero =>
          cases j with
          | zero => exact absurd rfl different
          | succ j =>
              cases foundFirst
              have rest : 1 ≤ tail.countP test :=
                countP_pos_of_getElem? foundSecond passesSecond
              rw [List.countP_cons, if_pos passesFirst]
              omega
      | succ i =>
          cases j with
          | zero =>
              cases foundSecond
              have rest : 1 ≤ tail.countP test :=
                countP_pos_of_getElem? foundFirst passesFirst
              rw [List.countP_cons, if_pos passesSecond]
              omega
          | succ j =>
              have rest := ih (by omega) foundFirst foundSecond
              rw [List.countP_cons]
              omega

theorem PayloadType.valueType?_ne_double (type : PayloadType) : type.valueType? ≠ some .double := by
  cases type <;> decide

/-- The form in which a location keeps its operand. -/
inductive Form
  | boxed
  | payload (type : PayloadType)
  | double
  deriving DecidableEq, Repr

def Location.form? : Location → Option Form
  | .nowhere => none
  | .valueReg _ | .valueSlot _ => some .boxed
  | .payloadReg _ type | .payloadSlot _ type => some (.payload type)
  | .floatReg _ | .floatSlot _ => some .double

theorem Location.form?_of_payload? {location : Location} {type : PayloadType}
    (payload : location.payload? = some type) : location.form? = some (.payload type) := by
  cases location <;> cases payload <;> rfl

theorem Location.payload?_of_form {location : Location} {type : PayloadType}
    (form : location.form? = some (.payload type)) : location.payload? = some type := by
  cases location <;> cases form <;> rfl

/-- Where the operand of a general register is after it has been moved to a slot. -/
def Location.spilled (slot : Nat) : Location → Location
  | .payloadReg _ type => .payloadSlot slot type
  | _ => .valueSlot slot

namespace Allocation

def place (allocation : Allocation) (index : Nat) : Location :=
  allocation.operands[index]?.elim .nowhere (·.location)

def known (allocation : Allocation) (index : Nat) : Option ValueType :=
  allocation.operands[index]?.bind (·.knownType)

def defined (allocation : Allocation) (index : Nat) : Bool :=
  allocation.operands[index]?.any (·.isDefined)

def lastUse (allocation : Allocation) (index : Nat) : Option Nat :=
  allocation.operands[index]?.bind (·.lastUse)

theorem place_of_getElem? {allocation : Allocation} {index : Nat} {operand : OperandState}
    (found : allocation.operands[index]? = some operand) :
    allocation.place index = operand.location := by
  rw [place, found, Option.elim_some]

theorem location_eq_place (allocation : Allocation) (id : OperandId) :
    allocation.location id = allocation.place id.toNat := rfl

theorem knownType_eq_known (allocation : Allocation) (id : OperandId) :
    allocation.knownType id = allocation.known id.toNat := rfl

theorem lt_of_place {allocation : Allocation} {index : Nat}
    (somewhere : allocation.place index ≠ .nowhere) : index < allocation.operands.length := by
  by_cases bound : index < allocation.operands.length
  · exact bound
  · refine absurd ?_ somewhere
    simp only [place, List.getElem?_eq_none (Nat.le_of_not_lt bound), Option.elim_none]

theorem lt_of_defined {allocation : Allocation} {index : Nat}
    (defined : allocation.defined index = true) : index < allocation.operands.length := by
  by_cases bound : index < allocation.operands.length
  · exact bound
  · rw [Allocation.defined, List.getElem?_eq_none (Nat.le_of_not_lt bound)] at defined
    cases defined

@[simp] theorem length_modifyOperand (allocation : Allocation) (index : Nat)
    (change : OperandState → OperandState) :
    (allocation.modifyOperand index change).operands.length = allocation.operands.length :=
  List.length_modify ..

@[simp] theorem length_setLocation (allocation : Allocation) (index : Nat) (location : Location) :
    (allocation.setLocation index location).operands.length = allocation.operands.length :=
  length_modifyOperand ..

theorem operand?_modifyOperand (allocation : Allocation) (index other : Nat)
    (change : OperandState → OperandState) :
    (allocation.modifyOperand index change).operands[other]? =
      if index = other then allocation.operands[other]?.map change
      else allocation.operands[other]? := by
  simp only [modifyOperand, List.getElem?_modify]
  split
  · rfl
  · exact congrFun Option.map_id _

theorem place_setLocation (allocation : Allocation) (index other : Nat) (location : Location) :
    (allocation.setLocation index location).place other =
      if index = other ∧ index < allocation.operands.length then location
      else allocation.place other := by
  simp only [place, setLocation, operand?_modifyOperand]
  by_cases same : index = other
  · subst same
    by_cases bound : index < allocation.operands.length
    · simp [bound]
    · simp [bound]
  · simp [same]

theorem place_setLocation_self {allocation : Allocation} {index : Nat} {location : Location}
    (bound : index < allocation.operands.length) :
    (allocation.setLocation index location).place index = location := by
  rw [place_setLocation, if_pos ⟨rfl, bound⟩]

theorem place_setLocation_ne {allocation : Allocation} {index other : Nat} {location : Location}
    (different : index ≠ other) :
    (allocation.setLocation index location).place other = allocation.place other := by
  rw [place_setLocation, if_neg fun same => different same.1]

theorem place_clear (allocation : Allocation) (index : Nat) :
    (allocation.setLocation index .nowhere).place index = .nowhere := by
  by_cases bound : index < allocation.operands.length
  · exact place_setLocation_self bound
  · rw [place, List.getElem?_eq_none]
    · rfl
    · rw [length_setLocation]
      exact Nat.le_of_not_lt bound

/-- A change of operands that leaves their locations alone. -/
theorem place_modifyOperand (allocation : Allocation) (index other : Nat)
    {change : OperandState → OperandState}
    (keeps : ∀ operand, (change operand).location = operand.location) :
    (allocation.modifyOperand index change).place other = allocation.place other := by
  simp only [place, operand?_modifyOperand]
  split
  · cases allocation.operands[other]? with
    | none => rfl
    | some operand => exact keeps operand
  · rfl

@[simp] theorem place_setKnownType (allocation : Allocation) (id : OperandId) (type : ValueType)
    (other : Nat) : (allocation.setKnownType id type).place other = allocation.place other :=
  place_modifyOperand allocation id.toNat other fun _ => rfl

@[simp] theorem known_setLocation (allocation : Allocation) (index other : Nat)
    (location : Location) :
    (allocation.setLocation index location).known other = allocation.known other := by
  simp only [known, setLocation, operand?_modifyOperand]
  split
  · cases allocation.operands[other]? <;> rfl
  · rfl

@[simp] theorem defined_setLocation (allocation : Allocation) (index other : Nat)
    (location : Location) :
    (allocation.setLocation index location).defined other = allocation.defined other := by
  simp only [defined, setLocation, operand?_modifyOperand]
  split
  · cases allocation.operands[other]? <;> rfl
  · rfl

@[simp] theorem defined_setKnownType (allocation : Allocation) (id : OperandId) (type : ValueType)
    (other : Nat) : (allocation.setKnownType id type).defined other = allocation.defined other := by
  simp only [defined, setKnownType, operand?_modifyOperand]
  split
  · cases allocation.operands[other]? <;> rfl
  · rfl

theorem lastUse_modifyOperand (allocation : Allocation) (index other : Nat)
    {change : OperandState → OperandState}
    (keeps : ∀ operand, (change operand).lastUse = operand.lastUse) :
    (allocation.modifyOperand index change).lastUse other = allocation.lastUse other := by
  simp only [lastUse, operand?_modifyOperand]
  split
  · cases allocation.operands[other]? with
    | none => rfl
    | some operand => exact keeps operand
  · rfl

@[simp] theorem lastUse_setLocation (allocation : Allocation) (index other : Nat)
    (location : Location) :
    (allocation.setLocation index location).lastUse other = allocation.lastUse other :=
  lastUse_modifyOperand allocation index other fun _ => rfl

@[simp] theorem lastUse_setKnownType (allocation : Allocation) (id : OperandId) (type : ValueType)
    (other : Nat) : (allocation.setKnownType id type).lastUse other = allocation.lastUse other :=
  lastUse_modifyOperand allocation id.toNat other fun _ => rfl

theorem known_setKnownType (allocation : Allocation) (id : OperandId) (type : ValueType)
    (other : Nat) :
    (allocation.setKnownType id type).known other =
      if id.toNat = other ∧ other < allocation.operands.length then some type
      else allocation.known other := by
  simp only [known, setKnownType, operand?_modifyOperand]
  by_cases same : id.toNat = other
  · subst same
    by_cases bound : id.toNat < allocation.operands.length
    · simp [bound]
    · simp [bound]
  · simp [same]

/-- How many operands are at places that pass a test. -/
def countPlaces (allocation : Allocation) (test : Location → Bool) : Nat :=
  allocation.operands.countP fun operand => test operand.location

theorem countPlaces_setLocation {allocation : Allocation} {index : Nat}
    (bound : index < allocation.operands.length) (location : Location) (test : Location → Bool) :
    (allocation.setLocation index location).countPlaces test +
        (test (allocation.place index)).toNat =
      allocation.countPlaces test + (test location).toNat := by
  have count := countP_modify (fun operand : OperandState => test operand.location)
    (fun operand => { operand with location }) allocation.operands index
  rw [List.getElem?_eq_getElem bound] at count
  rw [place, List.getElem?_eq_getElem bound]
  exact count

theorem countPlaces_modifyOperand (allocation : Allocation) (index : Nat)
    {change : OperandState → OperandState}
    (keeps : ∀ operand, (change operand).location = operand.location) (test : Location → Bool) :
    (allocation.modifyOperand index change).countPlaces test = allocation.countPlaces test := by
  have count := countP_modify (fun operand : OperandState => test operand.location) change
    allocation.operands index
  simp only [keeps] at count
  exact Nat.add_right_cancel count

variable {test : Location → Bool}

theorem countPlaces_pos {allocation : Allocation} {index : Nat} (empty : test .nowhere = false)
    (passes : test (allocation.place index) = true) : 1 ≤ allocation.countPlaces test := by
  unfold place at passes
  cases found : allocation.operands[index]? with
  | none =>
      rw [found, Option.elim_none, empty] at passes
      contradiction
  | some operand =>
      rw [found, Option.elim_some] at passes
      exact countP_pos_of_getElem? found passes

theorem two_le_countPlaces {allocation : Allocation} {i j : Nat} (empty : test .nowhere = false)
    (different : i ≠ j) (passesFirst : test (allocation.place i) = true)
    (passesSecond : test (allocation.place j) = true) : 2 ≤ allocation.countPlaces test := by
  unfold place at passesFirst passesSecond
  cases foundFirst : allocation.operands[i]? with
  | none =>
      rw [foundFirst, Option.elim_none, empty] at passesFirst
      contradiction
  | some first =>
      cases foundSecond : allocation.operands[j]? with
      | none =>
          rw [foundSecond, Option.elim_none, empty] at passesSecond
          contradiction
      | some second =>
          rw [foundFirst, Option.elim_some] at passesFirst
          rw [foundSecond, Option.elim_some] at passesSecond
          exact two_le_countP different foundFirst foundSecond passesFirst passesSecond

end Allocation

end InlineCache
