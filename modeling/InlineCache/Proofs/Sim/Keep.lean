import InlineCache.Proofs.Emit.Moves

/-!
Uses of operands in the form that they are kept in already.  No operand changes what it holds then, and
what an operation holds in registers stays there.
-/

namespace InlineCache

namespace Asm

variable {entry : Entry} {origin m : Machine} {config : CodeConfig} {flight : List Resource}

/-- An operand that is in a register already is listed there once more. -/
theorem keeps_relisted {index : Nat} {location : Location} {reg : Register}
    (reached : state.Reaches entry origin m) (place : state.allocation.place index = location) :
    Keeps entry origin state m
      (state.withAllocation ((state.allocation.setLocation index location).pin reg)) m := by
  have places (i : Nat) :
      (state.allocation.setLocation index location).place i = state.allocation.place i := by
    rw [Allocation.place_setLocation]
    split
    · rename_i same
      rw [← same.1, place]
    · rfl
  exact
    { reached
      contents := fun i => congrArg (·.content? m) (places i)
      fixed := fun i _ _ _ => places i
      pinned := fun _ member => RegisterSet.contains_insert_of_contains _ member
      scratch := fun _ member => member
      regs := fun _ _ => rfl
      known := fun i => Allocation.known_setLocation _ _ _ _
      defined := fun i => Allocation.defined_setLocation _ _ _ _
      alike := .refl m
      callers := fun callers => callers }

/-- An operand is loaded from its slot into a register that is taken for it. -/
theorem TakesRegister.reload_keeps (takes : TakesRegister state reg middle)
    (balanced : state.allocation.Balanced config flight) (reached : state.Reaches entry origin m)
    {index slot : Nat} {location : Location} (bound : index < state.allocation.operands.length)
    (slotted : (state.allocation.place index).resource? = some (.slot slot))
    (held : location.register? = some reg)
    (form : location.form? = (state.allocation.place index).form?)
    (word : ∀ machine : Machine, machine.wordAt (state.allocation.place index) = machine.slots slot) :
    ∃ n, Keeps entry origin state m
        ((middle.emitted (.restore reg slot)).withAllocation
          (((middle.allocation.vacate slot).setLocation index location).pin reg)) n ∧
      n.regs reg = m.wordAt (state.allocation.place index) := by
  obtain ⟨n, keeps, -, -⟩ := takes.keeps balanced reached
  have alone := (takes.balanced balanced).not_place_of_flight (.head _)
  have unpinned := takes.unpinned balanced
  have elsewhere : (state.allocation.place index).register? = none :=
    Location.register?_of_slot? (Location.resource?_eq_slot.mp slotted)
  have same := takes.place index elsewhere
  have listed : (((middle.allocation.vacate slot).setLocation index location).pin reg).place index =
      location := Allocation.place_setLocation_self (takes.length ▸ bound)
  have loaded : n.slots slot = m.wordAt (state.allocation.place index) := by
    have kept := keeps.contents index
    rw [Allocation.content, Allocation.content, same, Location.content?, Location.content?] at kept
    cases formed : (state.allocation.place index).form? with
    | none => cases place : state.allocation.place index <;> simp_all [Location.form?, Location.resource?]
    | some form =>
        rw [formed, Option.map_some, Option.map_some, Option.some.injEq, Content.mk.injEq] at kept
        exact (word n).symm.trans kept.2
  refine ⟨n.setReg reg (n.slots slot), ?_, ?_⟩
  · exact
      { reached := show (middle.emitted _).Reaches entry origin _ from keeps.reached.emitted rfl
        contents := by
          intro i
          by_cases own : i = index
          · subst own
            refine (Allocation.content_of_place listed _).trans ?_
            rw [← keeps.contents i, Allocation.content_of_place same, Location.content?,
              Location.content?, form, word]
            cases location with
            | payloadReg other type | valueReg other =>
                cases held
                simp only [Machine.wordAt, Machine.regs_setReg, if_true]
            | _ => cases held
          · have place : (((middle.allocation.vacate slot).setLocation index location).pin reg).place i =
                middle.allocation.place i := Allocation.place_setLocation_ne (Ne.symm own)
            exact (Allocation.content_of_place place _).trans
              ((Location.content?_setReg (alone i) _ _).trans (keeps.contents i))
        fixed := by
          intro i other located pinned
          have own : index ≠ i := by
            rintro rfl
            rw [elsewhere] at located
            cases located
          exact (Allocation.place_setLocation_ne own).trans (keeps.fixed i other located pinned)
        pinned := fun r member =>
          RegisterSet.contains_insert_of_contains _ (keeps.pinned r member)
        scratch := keeps.scratch
        regs := by
          intro other pinned
          have different : other ≠ reg := by
            rintro rfl
            rw [unpinned] at pinned
            cases pinned
          rw [Machine.regs_setReg, if_neg different]
          exact keeps.regs other pinned
        known := fun i => (Allocation.known_setLocation _ _ _ _).trans (keeps.known i)
        defined := fun i => (Allocation.defined_setLocation _ _ _ _).trans (keeps.defined i)
        alike := ⟨keeps.alike.output, keeps.alike.context, keeps.alike.reads⟩
        callers := keeps.callers }
  · rw [Machine.regs_setReg, if_pos rfl, loaded]

theorem FetchesValue.somewhere {id : OperandId} (fetches : FetchesValue state id reg fetched) :
    state.allocation.place id.toNat ≠ .nowhere := by
  cases fetches with
  | _ => simp_all only [ne_eq, reduceCtorEq, not_false_eq_true]

theorem FetchesPayload.somewhere {id : OperandId}
    (fetches : FetchesPayload state id reg type fetched) :
    state.allocation.place id.toNat ≠ .nowhere := by
  cases fetches with
  | _ => simp_all only [ne_eq, reduceCtorEq, not_false_eq_true]

/-- An operand that was asked for is in the register that was answered, and the register is pinned. -/
theorem useValueReg_pinned {id : OperandId} (runs : (useValueReg id).Runs state reg after)
    (balanced : state.allocation.Balanced config flight) :
    (after.allocation.place id.toNat).register? = some reg ∧
      after.allocation.pinned.contains reg.index = true := by
  obtain ⟨level, place⟩ := useValueReg_balanced runs balanced
  have register : (after.allocation.place id.toNat).register? = some reg := by
    rw [place]
    rfl
  obtain ⟨-, fetched, -, rfl⟩ := runs_useValueReg runs
  exact ⟨register, RegisterSet.contains_insert_self _ (level.bound_of_place register)⟩

theorem useRegister_pinned {id : OperandId} (runs : (useRegister id).Runs state reg after)
    (balanced : state.allocation.Balanced config flight) :
    (after.allocation.place id.toNat).register? = some reg ∧
      after.allocation.pinned.contains reg.index = true := by
  obtain ⟨level, type, place⟩ := useRegister_balanced runs balanced
  have register : (after.allocation.place id.toNat).register? = some reg := by
    rw [place]
    rfl
  obtain ⟨-, type, fetched, -, rfl⟩ := runs_useRegister runs
  exact ⟨register, RegisterSet.contains_insert_self _ (level.bound_of_place register)⟩

/-- A boxed operand that is used boxed. -/
theorem useValueReg_keeps {id : OperandId} (runs : (useValueReg id).Runs state reg after)
    (balanced : state.allocation.Balanced config flight) (reached : state.Reaches entry origin m)
    (boxed : (state.allocation.place id.toNat).form? = some .boxed) :
    ∃ n, Keeps entry origin state m after n ∧
      n.regs reg = m.wordAt (state.allocation.place id.toNat) := by
  obtain ⟨bound, fetched, fetches, rfl⟩ := runs_useValueReg runs
  cases fetches with
  | valueReg place => exact ⟨m, keeps_relisted reached place, by rw [place]; rfl⟩
  | valueSlot slot middle place takes =>
      exact takes.reload_keeps balanced reached bound (by rw [place]; rfl) rfl (by rw [place]; rfl)
        fun _ => by rw [place]; rfl
  | payloadReg type tag place => simp only [place, Location.form?] at boxed; cases boxed
  | payloadSlot slot type tag middle place => simp only [place, Location.form?] at boxed; cases boxed
  | floatReg float middle after place => simp only [place, Location.form?] at boxed; cases boxed
  | floatSlot slot float first middle after place =>
      simp only [place, Location.form?] at boxed
      cases boxed

/-- An operand that is kept as a payload, and used as one. -/
theorem useRegister_keeps {id : OperandId} {type : PayloadType}
    (runs : (useRegister id).Runs state reg after)
    (balanced : state.allocation.Balanced config flight) (reached : state.Reaches entry origin m)
    (payload : (state.allocation.place id.toNat).form? = some (.payload type)) :
    ∃ n, Keeps entry origin state m after n ∧
      n.regs reg = m.wordAt (state.allocation.place id.toNat) := by
  obtain ⟨bound, found, fetched, fetches, rfl⟩ := runs_useRegister runs
  cases fetches with
  | payloadReg place => exact ⟨m, keeps_relisted reached place, by rw [place]; rfl⟩
  | payloadSlot slot middle place takes =>
      exact takes.reload_keeps balanced reached bound (by rw [place]; rfl) rfl (by rw [place]; rfl)
        fun _ => by rw [place]; rfl
  | valueReg place => simp only [place, Location.form?] at payload; cases payload
  | valueSlot slot middle place => simp only [place, Location.form?] at payload; cases payload

/-- A register that is taken as scratch is none that was held before. -/
theorem allocateRegister_keeps (runs : allocateRegister.Runs state reg after)
    (balanced : state.allocation.Balanced config flight) (reached : state.Reaches entry origin m) :
    ∃ n, Keeps entry origin state m after n ∧ after.allocation.Balanced config flight ∧
      after.allocation.scratch.contains reg.index = true ∧
      after.allocation.pinned.contains reg.index = true ∧
      state.allocation.pinned.contains reg.index = false := by
  obtain ⟨middle, takes, rfl⟩ := runs_allocateRegister runs
  obtain ⟨n, keeps, -, -⟩ := takes.keeps balanced reached
  have taken := takes.balanced balanced
  have held : Keeps entry origin middle n (middle.withAllocation (middle.allocation.hold reg)) n :=
    { Keeps.refl keeps.reached with
      scratch := fun _ member => RegisterSet.contains_insert_of_contains _ member }
  exact ⟨n, keeps.trans held, taken.hold,
    RegisterSet.contains_insert_self _ (taken.bound_of_flight (.head _)), takes.pinned balanced,
    takes.unpinned balanced⟩

theorem allocateFloat_keeps (runs : allocateFloat.Runs state reg after)
    (balanced : state.allocation.Balanced config flight) (reached : state.Reaches entry origin m) :
    ∃ n, Keeps entry origin state m after n ∧ after.allocation.Balanced config flight ∧
      after.allocation.scratchFloats.contains reg.index = true := by
  obtain ⟨middle, takes, rfl⟩ := runs_allocateFloat runs
  obtain ⟨n, keeps, -, -⟩ := takes.keeps balanced reached
  have taken := takes.balanced balanced
  have held : Keeps entry origin middle n
      (middle.withAllocation (middle.allocation.holdFloat reg)) n :=
    { Keeps.refl keeps.reached with }
  exact ⟨n, keeps.trans held, taken.holdFloat,
    RegisterSet.contains_insert_self _ (taken.float_of_flight (.head _)).2.1⟩

theorem releaseFloat_keeps (runs : (releaseFloat reg).Runs state answer after)
    (balanced : state.allocation.Balanced config flight) (reached : state.Reaches entry origin m) :
    ∃ n, Keeps entry origin state m after n ∧ after.allocation.Balanced config flight := by
  have releases := runs_releaseFloat runs
  refine (Exists.imp fun n keeps => ⟨keeps, releases.balanced balanced⟩) ?_
  cases releases with
  | scratch _ held returns =>
      have dropped : Keeps entry origin state m
          (state.withAllocation (state.allocation.dropFloat reg)) m :=
        { Keeps.refl reached with }
      obtain ⟨n, keeps, -⟩ := returns.keeps (balanced.dropFloat held) dropped.reached
      exact ⟨n, dropped.trans keeps⟩
  | other => exact ⟨m, .refl reached⟩

/-- A register is taken for an operand that is to be defined.  The other operands hold what they held,
and what was pinned is left alone. -/
structure Opens (entry : Entry) (origin : Machine) (id : Nat) (type : PayloadType) (reg : Register)
    (before : Assembler) (m : Machine) (after : Assembler) (n : Machine) : Prop where
  reached : after.Reaches entry origin n
  undefined : before.allocation.defined id = false
  place : after.allocation.place id = .payloadReg reg type
  unpinned : before.allocation.pinned.contains reg.index = false
  taken : after.allocation.pinned.contains reg.index = true
  contents : ∀ i, i ≠ id → after.allocation.content n i = before.allocation.content m i
  elsewhere : ∀ i (other : Register), (before.allocation.place i).register? = some other → i ≠ id
  fixed : ∀ i (other : Register), (before.allocation.place i).register? = some other →
    before.allocation.pinned.contains other.index = true →
    after.allocation.place i = before.allocation.place i
  pinned : ∀ r, before.allocation.pinned.contains r = true →
    after.allocation.pinned.contains r = true
  scratch : ∀ r, before.allocation.scratch.contains r = true →
    after.allocation.scratch.contains r = true
  regs : ∀ other : Register, before.allocation.pinned.contains other.index = true →
    n.regs other = m.regs other
  known : ∀ i, after.allocation.known i =
    if i = id then type.valueType?.or (before.allocation.known i) else before.allocation.known i
  defined : ∀ i, before.allocation.defined i = true → after.allocation.defined i = true
  alike : m.Alike n

theorem definePayloadReg_opens {id : OperandId} {type : PayloadType}
    (runs : (definePayloadReg id type).Runs state reg after)
    (balanced : state.allocation.Balanced config flight) (reached : state.Reaches entry origin m) :
    ∃ n, Opens entry origin id.toNat type reg state m after n := by
  obtain ⟨bound, undefined, middle, takes, rfl⟩ := runs_definePayloadReg runs
  obtain ⟨n, keeps, -, -⟩ := takes.keeps balanced.markDefined reached
  have inside : id.toNat < middle.allocation.operands.length := by
    rw [takes.length]
    exact (Allocation.length_modifyOperand ..).symm ▸ bound
  have listed : id.toNat < (middle.allocation.setLocation id.toNat
      (.payloadReg reg type)).operands.length := (Allocation.length_setLocation ..).symm ▸ inside
  obtain ⟨samePins, sameScratch⟩ := Allocation.pinned_learn
    (middle.allocation.setLocation id.toNat (.payloadReg reg type)) id type
  have places (i : Nat) (other : i ≠ id.toNat) :
      ((middle.allocation.setLocation id.toNat (.payloadReg reg type)).learn id type).place i =
        middle.allocation.place i :=
    (Allocation.place_learn _ _ _ _).trans (Allocation.place_setLocation_ne (Ne.symm other))
  have elsewhere (i : Nat) (other : Register)
      (located : (state.allocation.place i).register? = some other) : i ≠ id.toNat := by
    rintro rfl
    rw [balanced.place_of_undefined undefined] at located
    cases located
  refine ⟨n, ?_⟩
  exact
    { reached := keeps.reached
      undefined
      place := (Allocation.place_learn _ _ _ _).trans (Allocation.place_setLocation_self inside)
      unpinned := takes.unpinned balanced.markDefined
      taken := samePins ▸ takes.pinned balanced.markDefined
      contents := fun i other => (congrArg (·.content? n) (places i other)).trans
        ((keeps.contents i).trans (congrArg (·.content? m) (Allocation.place_markDefined _ _ _)))
      elsewhere
      fixed := by
        intro i other located pinned
        have same := keeps.fixed i other
        rw [Assembler.allocation_withAllocation, Allocation.place_markDefined] at same
        exact (places i (elsewhere i other located)).trans (same located pinned)
      pinned := fun r member => samePins ▸ keeps.pinned r member
      scratch := fun r member => sameScratch ▸ keeps.scratch r member
      regs := keeps.regs
      known := by
        intro i
        rw [Assembler.allocation_withAllocation, Allocation.known_learn listed,
          Allocation.known_setLocation, keeps.known, Assembler.allocation_withAllocation,
          Allocation.known_markDefined]
      defined := fun i defined => (Allocation.defined_learn _ _ _ _).trans
        ((Allocation.defined_setLocation _ _ _ _).trans
          ((keeps.defined i).trans (Allocation.defined_markDefined_of_defined id defined)))
      alike := keeps.alike }

end Asm

end InlineCache
