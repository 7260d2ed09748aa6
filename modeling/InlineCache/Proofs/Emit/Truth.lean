import InlineCache.Proofs.Emit.Meanings

/-!
What is held for an operand goes on showing its meaning, whatever the allocator does with it.
-/

namespace InlineCache

namespace Allocation

theorem content_setLocation_self {allocation : Allocation} {index : Nat} {location : Location}
    (bound : index < allocation.operands.length) (machine : Machine) :
    (allocation.setLocation index location).content machine index = location.content? machine :=
  content_of_place (place_setLocation_self bound) machine

end Allocation

/-- The code so far leads to a machine that has for every operand a word that shows its meaning. -/
structure Truthful (entry : Entry) (origin : Machine) (meaning : Nat → Meaning)
    (state : Assembler) (m : Machine) : Prop where
  reached : state.Reaches entry origin m
  shown : ∀ i content, state.allocation.content m i = some content → (meaning i).Shows content
  known : ∀ i type, state.allocation.known i = some type → (meaning i).type? = some type
  callers : state.allocation.Callers origin m

namespace Truthful

variable {entry : Entry} {origin m n : Machine} {meaning : Nat → Meaning} {a b : Assembler}

theorem of_keeps (truthful : Truthful entry origin meaning a m)
    (keeps : Keeps entry origin a m b n) : Truthful entry origin meaning b n where
  reached := keeps.reached
  shown i content held := truthful.shown i content ((keeps.contents i).symm.trans held)
  known i type known := truthful.known i type ((keeps.known i).symm.trans known)
  callers := keeps.callers truthful.callers

theorem of_sheds (truthful : Truthful entry origin meaning a m)
    (sheds : Sheds entry origin a m b n) : Truthful entry origin meaning b n where
  reached := sheds.reached
  shown i content held := truthful.shown i content (sheds.contents i content held)
  known i type known := truthful.known i type ((sheds.known i).symm.trans known)
  callers := sheds.callers truthful.callers

/-- One operand is brought into another form, in which it shows its meaning. -/
theorem of_moves {id : Nat} (truthful : Truthful entry origin meaning a m)
    (moves : Moves entry origin id a m b n)
    (shown : ∀ content, b.allocation.content n id = some content → (meaning id).Shows content)
    (known : ∀ i type, b.allocation.known i = some type →
      a.allocation.known i = some type ∨ (meaning i).type? = some type) :
    Truthful entry origin meaning b n where
  reached := moves.reached
  shown i content held := by
    by_cases same : i = id
    · subst same
      exact shown content held
    · exact truthful.shown i content ((moves.contents i same).symm.trans held)
  known i type found := (known i type found).elim (truthful.known i type) fun told => told
  callers := moves.callers truthful.callers

/-- The table changes, but not in where operands are. -/
theorem relabel (truthful : Truthful entry origin meaning a m) (code : b.buffer = a.buffer)
    (places : ∀ i, b.allocation.place i = a.allocation.place i)
    (known : ∀ i type, b.allocation.known i = some type →
      a.allocation.known i = some type ∨ (meaning i).type? = some type)
    (callers : a.allocation.Callers origin m → b.allocation.Callers origin m) :
    Truthful entry origin meaning b m where
  reached := by
    rw [Assembler.Reaches, code]
    exact truthful.reached
  shown i content held :=
    truthful.shown i content ((congrArg (·.content? m) (places i)).symm.trans held)
  known i type found := (known i type found).elim (truthful.known i type) fun told => told
  callers := callers truthful.callers

/-- An instruction writes a float register where no operand is. -/
theorem writeFloat {inst : Inst} {reg : FloatRegister} {d : Double}
    (truthful : Truthful entry origin meaning a m) (next : inst.exec entry m = .next (m.setFloat reg d))
    (alone : ∀ i, (a.allocation.place i).resource? ≠ some (.float reg))
    (taken : a.allocation.availableFloats.contains reg.index = false) :
    Truthful entry origin meaning (a.emitted inst) (m.setFloat reg d) :=
  truthful.of_moves
    (.writeFloat truthful.reached next (fun i _ => alone i) taken)
    (fun content held => truthful.shown 0 content
      ((Location.content?_setFloat (alone 0) m d).symm.trans held))
    fun _ _ => .inl

/-- An operand moves to a float register that is written for it. -/
theorem settle {id : Nat} {inst : Inst} {reg : FloatRegister} {d : Double}
    (truthful : Truthful entry origin meaning a m) (next : inst.exec entry m = .next (m.setFloat reg d))
    (alone : ∀ i, (a.allocation.place i).resource? ≠ some (.float reg))
    (taken : a.allocation.availableFloats.contains reg.index = false)
    (shows : (meaning id).Shows ⟨.double, d.bits⟩) {allocation : Allocation}
    (operands : allocation.operands = (a.allocation.setLocation id (.floatReg reg)).operands)
    (callers : a.allocation.Callers origin (m.setFloat reg d) →
      allocation.Callers origin (m.setFloat reg d)) :
    Truthful entry origin meaning ((a.emitted inst).withAllocation allocation)
      (m.setFloat reg d) := by
  have places (i : Nat) :
      allocation.place i = (a.allocation.setLocation id (.floatReg reg)).place i := by
    rw [Allocation.place, operands]
    rfl
  have written := truthful.writeFloat next alone taken
  refine written.of_moves ((Moves.refl id written.reached).relabel rfl ?_ callers) ?_ ?_
  · intro i other
    exact (places i).trans (Allocation.place_setLocation_ne (Ne.symm other))
  · intro content held
    rw [Assembler.allocation_withAllocation, Allocation.content, places,
      Allocation.place_setLocation] at held
    split at held
    · cases held
      simpa only [Machine.wordAt, Machine.floats_setFloat, if_true] using shows
    · exact written.shown id content held
  · intro i type known
    rw [Assembler.allocation_withAllocation, Allocation.known, operands] at known
    exact .inl ((Allocation.known_setLocation _ _ _ _).symm.trans known)

end Truthful

namespace Asm

variable {entry : Entry} {origin m : Machine} {config : CodeConfig} {flight : List Resource}
  {meaning : Nat → Meaning}

theorem useValueReg_truthful {id : OperandId} (runs : (useValueReg id).Runs state reg after)
    (balanced : state.allocation.Balanced config flight)
    (canonical : (meaning id.toNat).Canonical)
    (truthful : Truthful entry origin meaning state m) :
    ∃ n, Truthful entry origin meaning after n ∧
      (meaning id.toNat).Shows ⟨.boxed, n.regs reg⟩ := by
  obtain ⟨bound, fetched, fetches, rfl⟩ := runs_useValueReg runs
  obtain ⟨n, content, moves, held, fetchedWord, boxes⟩ := fetches.moves balanced truthful.reached
  have shows : (meaning id.toNat).Shows ⟨.boxed, n.regs reg⟩ := by
    rw [fetchedWord]
    exact (truthful.shown _ content held).boxed canonical boxes
  refine ⟨n, (truthful.of_moves moves ?_ ?_).relabel rfl (fun _ => rfl) (fun _ _ => .inl)
    fun callers => callers, shows⟩
  · intro shown held
    rw [Assembler.allocation_withAllocation,
      Allocation.content_setLocation_self (fetches.length ▸ bound)] at held
    exact Option.some.inj held ▸ shows
  · intro i tag known
    rw [Assembler.allocation_withAllocation, Allocation.known_setLocation] at known
    refine (fetches.known known).imp_right ?_
    rintro ⟨rfl, type, payload, tagged⟩
    have form := Location.form?_of_payload? payload
    rw [Allocation.content, Location.content?, form] at held
    exact (truthful.shown _ ⟨.payload type, _⟩ (by
      rw [Allocation.content, Location.content?, form]
      rfl)).type?_of_payload tagged

theorem FetchesPayload.type_eq {id : OperandId}
    (fetches : FetchesPayload state id reg type fetched) {found : PayloadType}
    (payload : (state.allocation.place id.toNat).payload? = some found) : type = found := by
  cases fetches with
  | payloadReg place =>
      rw [place] at payload
      exact Option.some.inj payload
  | payloadSlot slot middle place =>
      rw [place] at payload
      exact Option.some.inj payload
  | valueReg place | valueSlot slot middle place =>
      rw [place] at payload
      cases payload

theorem useRegister_truthful {id : OperandId} (runs : (useRegister id).Runs state reg after)
    (balanced : state.allocation.Balanced config flight)
    (truthful : Truthful entry origin meaning state m) :
    ∃ n type, Truthful entry origin meaning after n ∧
      (meaning id.toNat).Shows ⟨.payload type, n.regs reg⟩ ∧
      ∀ found, (state.allocation.place id.toNat).payload? = some found → type = found := by
  obtain ⟨bound, type, fetched, fetches, rfl⟩ := runs_useRegister runs
  obtain ⟨n, content, moves, held, fetchedWord, forms⟩ := fetches.moves balanced truthful.reached
  have shown := truthful.shown _ content held
  have shows : (meaning id.toNat).Shows ⟨.payload type, n.regs reg⟩ := by
    obtain ⟨form, word⟩ := content
    rw [fetchedWord]
    rcases forms with rfl | ⟨rfl, proven⟩
    · exact shown
    · refine shown.payload ?_
      obtain ⟨tag, known, found⟩ := Option.bind_eq_some_iff.mp proven
      rw [truthful.known _ tag known]
      exact found
  refine ⟨n, type, (truthful.of_moves moves ?_ ?_).relabel rfl (fun _ => rfl) (fun _ _ => .inl)
    fun callers => callers, shows, fun found payload => fetches.type_eq payload⟩
  · intro shown held
    rw [Assembler.allocation_withAllocation,
      Allocation.content_setLocation_self (fetches.length ▸ bound)] at held
    exact Option.some.inj held ▸ shows
  · intro i tag known
    rw [Assembler.allocation_withAllocation, Allocation.known_setLocation, fetches.known] at known
    exact .inl known

theorem TakesFloat.truthful (takes : TakesFloat state reg after)
    (balanced : state.allocation.Balanced config flight)
    (truthful : Truthful entry origin meaning state m) :
    ∃ n, Truthful entry origin meaning after n ∧ n.regs = m.regs ∧
      (∀ i, (after.allocation.place i).resource? ≠ some (.float reg)) ∧
      after.allocation.availableFloats.contains reg.index = false := by
  obtain ⟨n, keeps, regs, -⟩ := takes.keeps balanced truthful.reached
  have taken := takes.balanced balanced
  exact ⟨n, truthful.of_keeps keeps, regs, taken.not_place_of_flight (.head _),
    (taken.float_of_flight (.head _)).1⟩

theorem FetchesNumber.truthful {id : OperandId} (fetches : FetchesNumber state id reg after)
    (balanced : state.allocation.Balanced config flight)
    (canonical : (meaning id.toNat).Canonical)
    (truthful : Truthful entry origin meaning state m) :
    ∃ n, Truthful entry origin meaning after n ∧
      ∀ number, (meaning id.toNat).number? = some number → n.floats reg = number := by
  cases fetches with
  | floatReg place =>
      refine ⟨m, truthful.relabel rfl (fun _ => rfl) (fun _ _ => .inl) fun callers => callers, ?_⟩
      intro number isNumber
      have shown := truthful.shown _ _ (Allocation.content_of_place place m)
      exact (shown.number_of_double isNumber).symm
  | floatSlot slot middle place takes =>
      obtain ⟨n, taken, -, alone, unavailable⟩ := takes.truthful balanced truthful
      have same := (takes.place id.toNat (by rw [place]; rfl)).trans place
      have shown := taken.shown _ _ (Allocation.content_of_place same n)
      refine ⟨_, taken.settle rfl alone unavailable shown rfl fun callers => callers, ?_⟩
      intro number isNumber
      rw [Machine.floats_setFloat, if_pos rfl]
      exact (shown.number_of_double isNumber).symm
  | int32 src middle last payload uses takes =>
      obtain ⟨n, type, used, shows, same⟩ := useRegister_truthful uses balanced truthful
      obtain ⟨o, taken, regs, alone, unavailable⟩ :=
        takes.truthful (useRegister_balanced uses balanced).1 used
      have held : Truthful entry origin meaning (last.withAllocation (last.allocation.holdFloat reg)) o :=
        taken.relabel rfl (fun _ => rfl) (fun _ _ => .inl) fun callers => callers
      refine ⟨_, held.writeFloat rfl alone unavailable, ?_⟩
      intro number isNumber
      cases same _ payload
      rw [Machine.floats_setFloat, if_pos rfl, regs]
      exact shows.number_of_int32 isNumber
  | boxed src middle last form uses takes =>
      obtain ⟨n, used, shows⟩ := useValueReg_truthful uses balanced canonical truthful
      obtain ⟨o, taken, regs, alone, unavailable⟩ :=
        takes.truthful (useValueReg_balanced uses balanced).1 used
      have held : Truthful entry origin meaning (last.withAllocation (last.allocation.holdFloat reg)) o :=
        taken.relabel rfl (fun _ => rfl) (fun _ _ => .inl) fun callers => callers
      refine ⟨_, held.writeFloat rfl alone unavailable, ?_⟩
      intro number isNumber
      rw [Machine.floats_setFloat, if_pos rfl, regs]
      exact shows.number_of_boxed isNumber
  | double src middle last form proven uses takes =>
      obtain ⟨n, used, shows⟩ := useValueReg_truthful uses balanced canonical truthful
      obtain ⟨o, taken, regs, alone, unavailable⟩ :=
        takes.truthful (useValueReg_balanced uses balanced).1 used
      have unboxed : (meaning id.toNat).Shows
          ⟨.double, (Word.unboxDouble (o.regs src)).bits⟩ := by
        rw [regs]
        exact shows.double (truthful.known _ _ proven)
      refine ⟨_, taken.settle rfl alone unavailable unboxed rfl fun callers => callers, ?_⟩
      intro number isNumber
      rw [Machine.floats_setFloat, if_pos rfl]
      exact (unboxed.number_of_double isNumber).symm

end Asm

end InlineCache
