import InlineCache.Proofs.Emit.Uses

/-!
Outlines of operands.  The outline says of an operand all but the place: the form it is kept in, the tag
that is proven of it, whether it is defined, and its last use.  Taking and giving back registers leaves
all outlines alone, and the stretches that use or define an operand change the outline of that one.
-/

namespace InlineCache

structure Outline where
  form : Option Form
  known : Option ValueType
  defined : Bool
  lastUse : Option Nat

def OperandState.outline (operand : OperandState) : Outline :=
  ⟨operand.location.form?, operand.knownType, operand.isDefined, operand.lastUse⟩

theorem Location.form?_spilled {location : Location} {reg : Register} (slot : Nat)
    (held : location.register? = some reg) : (location.spilled slot).form? = location.form? := by
  cases location <;> cases held <;> rfl

namespace Allocation

def outline (allocation : Allocation) (index : Nat) : Outline :=
  allocation.operands[index]?.elim ⟨none, none, false, none⟩ OperandState.outline

section

variable (allocation : Allocation) (index : Nat)

@[simp] theorem form_outline : (allocation.outline index).form = (allocation.place index).form? := by
  unfold outline place
  cases allocation.operands[index]? <;> rfl

@[simp] theorem known_outline : (allocation.outline index).known = allocation.known index := by
  unfold outline known
  cases allocation.operands[index]? <;> rfl

@[simp] theorem defined_outline :
    (allocation.outline index).defined = allocation.defined index := by
  unfold outline defined
  cases allocation.operands[index]? <;> rfl

@[simp] theorem lastUse_outline :
    (allocation.outline index).lastUse = allocation.lastUse index := by
  unfold outline lastUse
  cases allocation.operands[index]? <;> rfl

end

/-- All operands have the same outlines. -/
structure Alike (before after : Allocation) : Prop where
  length : after.operands.length = before.operands.length
  outline : ∀ i, after.outline i = before.outline i

/-- One operand has another outline. -/
structure Revises (index : Nat) (change : Outline → Outline → Prop) (before after : Allocation) :
    Prop where
  length : after.operands.length = before.operands.length
  revised : change (before.outline index) (after.outline index)
  other : ∀ i, i ≠ index → after.outline i = before.outline i

variable {before middle after : Allocation}

namespace Alike

theorem of_operands (same : after.operands = before.operands) : before.Alike after :=
  ⟨congrArg List.length same, fun i =>
    congrArg (fun operands : List OperandState => operands[i]?.elim _ OperandState.outline) same⟩

theorem refl (allocation : Allocation) : allocation.Alike allocation :=
  of_operands rfl

theorem trans (first : before.Alike middle) (second : middle.Alike after) : before.Alike after :=
  ⟨second.length.trans first.length, fun i => (second.outline i).trans (first.outline i)⟩

theorem defined (alike : before.Alike after) (i : Nat) : after.defined i = before.defined i := by
  rw [← defined_outline, ← defined_outline, alike.outline]

theorem lastUse (alike : before.Alike after) (i : Nat) : after.lastUse i = before.lastUse i := by
  rw [← lastUse_outline, ← lastUse_outline, alike.outline]

theorem setLocation {index : Nat} {location : Location}
    (same : location.form? = (before.place index).form?) :
    before.Alike (before.setLocation index location) := by
  refine ⟨length_setLocation .., fun i => ?_⟩
  simp only [Allocation.outline, Allocation.setLocation, operand?_modifyOperand]
  split
  · rename_i here
    subst here
    rw [place] at same
    cases found : before.operands[index]? with
    | none => rfl
    | some operand =>
        rw [found] at same
        exact congrArg (Outline.mk · _ _ _) same
  · rfl

/-- Nothing but one outline matters where all others are the same. -/
theorem revises {index : Nat} {change : Outline → Outline → Prop} (alike : before.Alike after)
    (kept : change (before.outline index) (before.outline index)) :
    before.Revises index change after :=
  ⟨alike.length, (alike.outline index).symm ▸ kept, fun i _ => alike.outline i⟩

end Alike

namespace Revises

variable {index : Nat} {id : OperandId} {change further : Outline → Outline → Prop}

theorem mono (revises : before.Revises index change after)
    (weaken : ∀ o p, change o p → further o p) : before.Revises index further after :=
  ⟨revises.length, weaken _ _ revises.revised, revises.other⟩

theorem lastUse (revises : before.Revises index change after)
    (same : (after.outline index).lastUse = (before.outline index).lastUse) (i : Nat) :
    after.lastUse i = before.lastUse i := by
  rw [← lastUse_outline, ← lastUse_outline]
  by_cases own : i = index
  · rw [own, same]
  · rw [revises.other i own]

theorem modifyOperand (update : Outline → Outline) {change : OperandState → OperandState}
    (commutes : ∀ operand, (change operand).outline = update operand.outline)
    (bound : index < before.operands.length) :
    before.Revises index (fun o p => p = update o) (before.modifyOperand index change) := by
  refine ⟨length_modifyOperand .., ?_, fun i other => ?_⟩
  · rw [outline, outline, operand?_modifyOperand, if_pos rfl, List.getElem?_eq_getElem bound]
    exact commutes _
  · rw [outline, outline, operand?_modifyOperand, if_neg (Ne.symm other)]

theorem setLocation (location : Location) (bound : index < before.operands.length) :
    before.Revises index (fun o p => p = { o with form := location.form? })
      (before.setLocation index location) :=
  modifyOperand (fun o => { o with form := location.form? }) (fun _ => rfl) bound

theorem clear (allocation : Allocation) (index : Nat) :
    allocation.Revises index (fun o p => p = { o with form := none })
      (allocation.setLocation index .nowhere) := by
  by_cases bound : index < allocation.operands.length
  · exact setLocation .nowhere bound
  · refine ⟨length_setLocation .., ?_, fun i other => ?_⟩
    · have outside : allocation.operands[index]? = none :=
        List.getElem?_eq_none (Nat.le_of_not_lt bound)
      rw [outline, outline, Allocation.setLocation, operand?_modifyOperand, if_pos rfl, outside]
      rfl
    · rw [outline, outline, Allocation.setLocation, operand?_modifyOperand, if_neg (Ne.symm other)]

theorem setKnownType (type : ValueType) (bound : id.toNat < before.operands.length) :
    before.Revises id.toNat (fun o p => p = { o with known := some type })
      (before.setKnownType id type) :=
  modifyOperand (fun o => { o with known := some type }) (fun _ => rfl) bound

theorem markDefined (bound : id.toNat < before.operands.length) :
    before.Revises id.toNat (fun o p => p = { o with defined := true }) (before.markDefined id) :=
  modifyOperand (fun o => { o with defined := true }) (fun _ => rfl) bound

/-- What is revised once and then again is revised. -/
theorem trans (first : before.Revises index change middle) (second : middle.Revises index further after) :
    before.Revises index (fun o q => ∃ p, change o p ∧ further p q) after :=
  ⟨second.length.trans first.length, ⟨_, first.revised, second.revised⟩,
    fun i other => (second.other i other).trans (first.other i other)⟩

theorem of_alike (alike : before.Alike middle) (revises : middle.Revises index change after) :
    before.Revises index change after :=
  ⟨revises.length.trans alike.length, alike.outline index ▸ revises.revised,
    fun i other => (revises.other i other).trans (alike.outline i)⟩

theorem alike (revises : before.Revises index change middle) (alike : middle.Alike after) :
    before.Revises index change after :=
  ⟨alike.length.trans revises.length, (alike.outline index).symm ▸ revises.revised,
    fun i other => (alike.outline i).trans (revises.other i other)⟩

theorem learn (type : PayloadType) (bound : id.toNat < before.operands.length) :
    before.Revises id.toNat (fun o p => p = { o with known := type.valueType?.or o.known })
      (before.learn id type) := by
  unfold Allocation.learn
  cases type.valueType? with
  | none => exact ⟨rfl, rfl, fun _ _ => rfl⟩
  | some tag => exact setKnownType tag bound

end Revises

end Allocation

namespace Outline

/-- The boxed word of an operand is fetched.  That of a payload proves its tag. -/
structure Fetches (before after : Outline) : Prop where
  live : before.form ≠ none
  boxable : ∀ type, before.form = some (.payload type) → type.valueType? ≠ none
  known : after.known = before.known ∨
    ∃ type : PayloadType, before.form = some (.payload type) ∧ type.valueType? ≠ none ∧
      after.known = type.valueType?
  defined : after.defined = before.defined
  lastUse : after.lastUse = before.lastUse

/-- An operand is brought into boxed form. -/
structure Boxes (before after : Outline) : Prop extends Fetches before after where
  form : after.form = some .boxed

/-- An operand is brought into the form of a payload, unless it is in that form. -/
structure Unboxes (before after : Outline) : Prop where
  form : ∃ type, after.form = some (.payload type) ∧
    (before.form = some (.payload type) ∨ before.form = some .boxed)
  known : after.known = before.known
  defined : after.defined = before.defined
  lastUse : after.lastUse = before.lastUse

/-- An operand is defined as a payload. -/
structure Defines (type : PayloadType) (before after : Outline) : Prop where
  fresh : before.defined = false
  form : after.form = some (.payload type)
  known : after.known = type.valueType?.or before.known
  defined : after.defined = true
  lastUse : after.lastUse = before.lastUse

/-- Only what is defined is somewhere, or has a tag.  No operand is ever proven to be a double. -/
structure Grounded (outline : Outline) : Prop where
  placed : outline.form ≠ none → outline.defined = true
  tagged : outline.known ≠ none → outline.defined = true
  single : outline.known ≠ some .double

theorem Unboxes.live {before after : Outline} (unboxes : Unboxes before after) :
    before.form ≠ none := by
  obtain ⟨_, -, earlier⟩ := unboxes.form
  rcases earlier with same | same <;> exact same ▸ nofun

namespace Grounded

variable {before after : Outline}

theorem boxes (grounded : before.Grounded) (boxes : Boxes before after) : after.Grounded := by
  have defined : after.defined = true := boxes.defined.trans (grounded.placed boxes.live)
  refine ⟨fun _ => defined, fun _ => defined, ?_⟩
  rcases boxes.known with same | ⟨type, -, -, same⟩
  · exact same ▸ grounded.single
  · exact same ▸ type.valueType?_ne_double

theorem unboxes (grounded : before.Grounded) (unboxes : Unboxes before after) : after.Grounded := by
  have defined : after.defined = true := unboxes.defined.trans (grounded.placed unboxes.live)
  exact ⟨fun _ => defined, fun _ => defined, unboxes.known ▸ grounded.single⟩

theorem defines {type : PayloadType} (grounded : before.Grounded) (defines : Defines type before after) :
    after.Grounded := by
  refine ⟨fun _ => defines.defined, fun _ => defines.defined, ?_⟩
  rw [defines.known]
  cases tagged : type.valueType? with
  | none => exact grounded.single
  | some tag =>
      rw [Option.some_or, ← tagged]
      exact type.valueType?_ne_double

end Grounded

end Outline

namespace Asm

open Allocation

variable {state after : Assembler} {reg : Register} {float : FloatRegister} {id : OperandId}

theorem TakesRegister.alike (takes : TakesRegister state reg after) :
    state.allocation.Alike after.allocation := by
  cases takes with
  | pool => exact .of_operands rfl
  | spill index slot _ held =>
      have occupied : state.allocation.Alike (state.allocation.occupy slot) := .of_operands rfl
      have spilled : state.allocation.Alike (state.allocation.spill index slot) :=
        occupied.trans (.setLocation (Location.form?_spilled slot held))
      exact spilled.trans (.of_operands rfl)

theorem TakesFloat.alike (takes : TakesFloat state float after) :
    state.allocation.Alike after.allocation := by
  cases takes with
  | pool | save => exact .of_operands rfl
  | spill index slot _ held =>
      have occupied : state.allocation.Alike (state.allocation.occupy slot) := .of_operands rfl
      have double : (Location.floatSlot slot).form? = (state.allocation.place index).form? := by
        cases place : state.allocation.place index <;> rw [place] at held <;> cases held
        rfl
      have spilled : state.allocation.Alike (state.allocation.spillFloat index slot) :=
        occupied.trans (.setLocation double)
      exact spilled.trans (.of_operands rfl)

theorem ReturnsFloat.alike (returns : ReturnsFloat state float after) :
    state.allocation.Alike after.allocation :=
  .of_operands returns.operands

theorem ReleasesFloat.alike (releases : ReleasesFloat state float after) :
    state.allocation.Alike after.allocation := by
  cases releases with
  | scratch _ _ returns =>
      have dropped : state.allocation.Alike (state.allocation.dropFloat float) := .of_operands rfl
      exact dropped.trans returns.alike
  | other => exact .refl _

theorem FetchesValue.revises (fetches : FetchesValue state id reg after)
    (bound : id.toNat < state.allocation.operands.length) :
    state.allocation.Revises id.toNat Outline.Fetches after.allocation := by
  have kept {after : Allocation} (alike : state.allocation.Alike after)
      (form : (state.allocation.place id.toNat).form? = some .boxed ∨
        (state.allocation.place id.toNat).form? = some .double) :
      state.allocation.Revises id.toNat Outline.Fetches after := by
    rw [← form_outline] at form
    refine alike.revises ⟨?_, fun type payload => ?_, .inl rfl, rfl, rfl⟩
    · rcases form with form | form <;> exact form ▸ nofun
    · rcases form with form | form <;> cases form.symm.trans payload
  have tagged {middle : Allocation} {type : PayloadType} {tag : ValueType}
      (alike : state.allocation.Alike middle)
      (form : (state.allocation.place id.toNat).form? = some (.payload type))
      (tagged : type.valueType? = some tag) :
      state.allocation.Revises id.toNat Outline.Fetches (middle.setKnownType id tag) := by
    have learned := Revises.setKnownType tag (alike.length.symm ▸ bound)
    rw [← form_outline, ← alike.outline] at form
    refine .of_alike alike ⟨learned.length, ?_, learned.other⟩
    rw [learned.revised]
    refine ⟨form ▸ nofun, fun found payload => ?_, .inr ⟨type, form, tagged ▸ nofun, tagged.symm⟩,
      rfl, rfl⟩
    cases form.symm.trans payload
    exact tagged ▸ nofun
  cases fetches with
  | valueReg place => exact kept (.refl _) (.inl (place ▸ rfl))
  | payloadReg type tag place found => exact tagged (.refl _) (place ▸ rfl) found
  | valueSlot slot middle place takes =>
      exact kept (takes.alike.trans (.of_operands rfl)) (.inl (place ▸ rfl))
  | payloadSlot slot type tag middle place takes found =>
      exact tagged (takes.alike.trans (.of_operands rfl)) (place ▸ rfl) found
  | floatReg float middle _ place takes returns =>
      have boxed : state.allocation.Alike (middle.emitted (.boxDouble float reg)).allocation :=
        takes.alike
      exact kept (boxed.trans returns.alike) (.inr (place ▸ rfl))
  | floatSlot slot float first middle _ place takesFloat takes returns =>
      have loaded : state.allocation.Alike (first.allocation.vacate slot) :=
        takesFloat.alike.trans (.of_operands rfl)
      have boxed : state.allocation.Alike (middle.emitted (.boxDouble float reg)).allocation :=
        loaded.trans takes.alike
      exact kept (boxed.trans returns.alike) (.inr (place ▸ rfl))

theorem useValueReg_revises (runs : (useValueReg id).Runs state reg after) :
    state.allocation.Revises id.toNat Outline.Boxes after.allocation := by
  obtain ⟨bound, fetched, fetches, rfl⟩ := runs_useValueReg runs
  have fetched := fetches.revises bound
  have listed := fetched.trans (.setLocation (.valueReg reg) (fetched.length.symm ▸ bound))
  refine (listed.mono ?_).alike (.of_operands rfl)
  rintro o _ ⟨p, fetches, rfl⟩
  exact ⟨⟨fetches.live, fetches.boxable, fetches.known, fetches.defined, fetches.lastUse⟩, rfl⟩

theorem FetchesPayload.alike {type : PayloadType} (fetches : FetchesPayload state id reg type after) :
    state.allocation.Alike after.allocation ∧
      ((state.allocation.place id.toNat).form? = some (.payload type) ∨
        (state.allocation.place id.toNat).form? = some .boxed) := by
  cases fetches with
  | payloadReg place => exact ⟨.refl _, .inl (place ▸ rfl)⟩
  | valueReg place => exact ⟨.refl _, .inr (place ▸ rfl)⟩
  | payloadSlot slot middle place takes =>
      exact ⟨takes.alike.trans (.of_operands rfl), .inl (place ▸ rfl)⟩
  | valueSlot slot middle place _ takes =>
      exact ⟨takes.alike.trans (.of_operands rfl), .inr (place ▸ rfl)⟩

theorem useRegister_revises (runs : (useRegister id).Runs state reg after) :
    state.allocation.Revises id.toNat Outline.Unboxes after.allocation := by
  obtain ⟨bound, type, fetched, fetches, rfl⟩ := runs_useRegister runs
  obtain ⟨alike, form⟩ := fetches.alike
  have listed := Revises.of_alike alike
    (.setLocation (.payloadReg reg type) (alike.length.symm ▸ bound))
  have revised := listed.revised
  refine ⟨listed.length, ?_, listed.other⟩
  have same : (fetched.withAllocation
      ((fetched.allocation.setLocation id.toNat (.payloadReg reg type)).pin reg)).allocation.outline
        id.toNat = { state.allocation.outline id.toNat with form := some (.payload type) } := revised
  rw [same]
  exact ⟨⟨type, rfl, by rwa [form_outline]⟩, rfl, rfl, rfl⟩

theorem definePayloadReg_revises {type : PayloadType}
    (runs : (definePayloadReg id type).Runs state reg after) :
    state.allocation.Revises id.toNat (Outline.Defines type) after.allocation := by
  obtain ⟨bound, fresh, middle, takes, rfl⟩ := runs_definePayloadReg runs
  have marked := Revises.markDefined bound
  have taken := marked.alike takes.alike
  have listed := taken.trans (.setLocation (.payloadReg reg type) (taken.length.symm ▸ bound))
  have learned := listed.trans (.learn type (listed.length.symm ▸ bound))
  refine ⟨learned.length, ?_, learned.other⟩
  obtain ⟨_, ⟨_, same, rfl⟩, last⟩ := learned.revised
  show Outline.Defines type _ (((middle.allocation.setLocation id.toNat (.payloadReg reg type)).learn
    id type).outline id.toNat)
  rw [last, same]
  exact ⟨by rwa [defined_outline], rfl, rfl, rfl, rfl⟩

end Asm

end InlineCache
