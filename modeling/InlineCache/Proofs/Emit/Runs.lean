import InlineCache.Emit.Stub

/-!
Successful stretches of code generation as a relation between the states before and after them.  A
sequence of stretches succeeds when each of them does, so that a run is taken apart into the runs of
its parts.
-/

namespace InlineCache

namespace Assembler

def withAllocation (state : Assembler) (allocation : Allocation) : Assembler :=
  { state with allocation }

def emitted (state : Assembler) (inst : Inst) : Assembler :=
  { state with
    buffer := state.buffer.emit inst
    marks :=
      match inst.usesLabel with
      | true => state.marks.push (state.buffer.insts.size, state.allocation)
      | false => state.marks }

@[simp] theorem allocation_withAllocation (state : Assembler) (allocation : Allocation) :
    (state.withAllocation allocation).allocation = allocation := rfl

@[simp] theorem allocation_emitted (state : Assembler) (inst : Inst) :
    (state.emitted inst).allocation = state.allocation := rfl

@[simp] theorem buffer_emitted (state : Assembler) (inst : Inst) :
    (state.emitted inst).buffer = state.buffer.emit inst := rfl

end Assembler

namespace Asm

/-- The stretch succeeds in the first state with an answer, and leaves the second state. -/
def Runs (stretch : Asm α) (state : Assembler) (answer : α) (after : Assembler) : Prop :=
  stretch state = (.ok answer, after)

theorem bind_apply (stretch : Asm α) (next : α → Asm β) (state : Assembler) :
    (stretch >>= next) state =
      match stretch state with
      | (.ok answer, middle) => next answer middle
      | (.error error, middle) => (.error error, middle) := by
  show StateT.run (m := Id) (ExceptT.bindCont next (stretch state).1) (stretch state).2 = _
  rcases stretch state with ⟨_ | _, _⟩ <;> rfl

theorem runs_bind {stretch : Asm α} {next : α → Asm β} :
    (stretch >>= next).Runs state answer after ↔
      ∃ first middle, stretch.Runs state first middle ∧
        (next first).Runs middle answer after := by
  simp only [Runs, bind_apply]
  rcases equation : stretch state with ⟨error | first, middle⟩
  · constructor
    · intro failed
      cases congrArg Prod.fst failed
    · rintro ⟨_, _, failed, _⟩
      cases congrArg Prod.fst failed
  · constructor
    · intro runs
      exact ⟨first, middle, rfl, runs⟩
    · rintro ⟨_, _, same, runs⟩
      cases same
      exact runs

theorem runs_pure {given : α} :
    (pure given : Asm α).Runs state answer after ↔ given = answer ∧ state = after := by
  constructor
  · intro runs
    cases runs
    exact ⟨rfl, rfl⟩
  · rintro ⟨rfl, rfl⟩
    rfl

/-- A stretch whose answer is made into another one. -/
theorem runs_answer {stretch : Asm α} {make : α → β} :
    (stretch >>= fun first => pure (make first) : Asm β).Runs state answer after ↔
      ∃ first, stretch.Runs state first after ∧ make first = answer := by
  simp only [runs_bind, runs_pure]
  constructor
  · rintro ⟨first, _, runs, made, rfl⟩
    exact ⟨first, runs, made⟩
  · rintro ⟨first, runs, made⟩
    exact ⟨first, after, runs, made, rfl⟩

theorem runs_discard {stretch : Asm α} :
    (discard stretch).Runs state answer after ↔ ∃ first, stretch.Runs state first after := by
  show (stretch >>= fun _ => pure ()).Runs state answer after ↔ _
  rw [runs_answer]
  constructor
  · rintro ⟨first, runs, -⟩
    exact ⟨first, runs⟩
  · rintro ⟨first, runs⟩
    exact ⟨first, runs, rfl⟩

theorem not_runs_throw {error : CodeError} :
    ¬(throw error : Asm α).Runs state answer after := by
  intro runs
  cases congrArg Prod.fst runs

theorem not_runs_violate {violation : Violation} :
    ¬(violate violation : Asm α).Runs state answer after :=
  not_runs_throw

theorem not_runs_reject {defect : Defect} :
    ¬(reject defect : Asm α).Runs state answer after :=
  not_runs_throw

theorem runs_allocation :
    allocation.Runs state answer after ↔ state.allocation = answer ∧ state = after := by
  constructor
  · intro runs
    cases runs
    exact ⟨rfl, rfl⟩
  · rintro ⟨rfl, rfl⟩
    rfl

theorem runs_modify {change : Assembler → Assembler} :
    (modify change : Asm Unit).Runs state answer after ↔ after = change state := by
  constructor
  · intro runs
    cases runs
    rfl
  · rintro rfl
    rfl

theorem runs_modifyAllocation {change : Allocation → Allocation} :
    (modifyAllocation change).Runs state answer after ↔
      after = state.withAllocation (change state.allocation) :=
  runs_modify

theorem runs_emit :
    (emit inst).Runs state answer after ↔ after = state.emitted inst :=
  runs_modify

theorem runs_setLocation :
    (setLocation index location).Runs state answer after ↔
      after = state.withAllocation (state.allocation.setLocation index location) :=
  runs_modifyAllocation

theorem runs_setKnownType {id : OperandId} :
    (setKnownType id type).Runs state answer after ↔
      after = state.withAllocation (state.allocation.setKnownType id type) :=
  runs_modifyAllocation

theorem not_runs_exhausted : ¬(exhausted : Asm α).Runs state answer after := by
  simp only [exhausted, runs_bind, runs_allocation]
  rintro ⟨_, _, ⟨rfl, rfl⟩, runs⟩
  exact not_runs_throw runs

theorem not_runs_notLive {id : OperandId} : ¬(notLive id : Asm α).Runs state answer after :=
  not_runs_violate

theorem runs_forM_nil {visit : α → Asm Unit} :
    (([] : List α).forM visit).Runs state answer after ↔ state = after := by
  show (pure () : Asm Unit).Runs state answer after ↔ _
  simp only [runs_pure, true_and]

theorem runs_forM_cons {visit : α → Asm Unit} {head : α} {tail : List α} :
    ((head :: tail).forM visit).Runs state answer after ↔
      ∃ middle, (visit head).Runs state () middle ∧ (tail.forM visit).Runs middle () after := by
  show (visit head >>= fun _ => tail.forM visit).Runs state answer after ↔ _
  rw [runs_bind]
  constructor
  · rintro ⟨_, middle, first, rest⟩
    exact ⟨middle, first, rest⟩
  · rintro ⟨middle, first, rest⟩
    exact ⟨(), middle, first, rest⟩

theorem runs_forM_append {visit : α → Asm Unit} {front back : List α} :
    ((front ++ back).forM visit).Runs state answer after ↔
      ∃ middle, (front.forM visit).Runs state () middle ∧ (back.forM visit).Runs middle () after := by
  induction front generalizing state with
  | nil =>
      simp only [List.nil_append, runs_forM_nil]
      constructor
      · intro runs
        exact ⟨state, rfl, runs⟩
      · rintro ⟨_, rfl, runs⟩
        exact runs
  | cons head tail ih =>
      simp only [List.cons_append, runs_forM_cons, ih]
      constructor
      · rintro ⟨first, visited, middle, front, back⟩
        exact ⟨middle, ⟨first, visited, front⟩, back⟩
      · rintro ⟨middle, ⟨first, visited, front⟩, back⟩
        exact ⟨first, visited, middle, front, back⟩

theorem runs_of_isOk {stretch : Asm Unit} (succeeds : (stretch state).1.isOk = true) :
    stretch.Runs state () (stretch state).2 := by
  rcases equation : stretch state with ⟨error | answer, after⟩
  · rw [equation] at succeeds
    cases succeeds
  · exact equation

theorem runs_of_toOption {stretch : Asm α} (answers : (stretch state).1.toOption = some answer) :
    stretch.Runs state answer (stretch state).2 := by
  rcases equation : stretch state with ⟨error | found, after⟩
  · rw [equation] at answers
    cases answers
  · rw [equation] at answers
    cases answers
    exact equation

end Asm

end InlineCache
