import InlineCache.Proofs.Code.Word
import InlineCache.Proofs.Eval.Assigns

/-!
Single assignment.  Along the course of an evaluation a slot changes once at most, from nothing to the value of
its operand, and what a guard has narrowed boxes back to the word that it was narrowed from.
-/

namespace InlineCache

/-- The input and the result of a guard that takes a value for what its tag says that it is. -/
def Op.narrowing? : Op → Option (OperandId × OperandId)
  | ⟨.guardToObject, input, result, _⟩ | ⟨.guardToString, input, result, _⟩
  | ⟨.guardToSymbol, input, result, _⟩ | ⟨.guardToBigInt, input, result, _⟩
  | ⟨.guardToBoolean, input, result, _⟩ | ⟨.guardToInt32, input, result, _⟩ => some (input, result)
  | _ => none

namespace Operands

/-- Slots have been filled that were empty, and nothing else has changed. -/
def Fills (before after : Operands) : Prop :=
  ∀ i : Nat, after.slots[i]? = before.slots[i]? ∨
    before.slots[i]? = some none ∧ ∃ value, after.slots[i]? = some (some value)

theorem Fills.refl (operands : Operands) : operands.Fills operands :=
  fun _ => .inl rfl

theorem Fills.trans {a b c : Operands} (first : a.Fills b) (second : b.Fills c) : a.Fills c := by
  intro i
  rcases first i with same | ⟨empty, value, filled⟩
  · rw [← same]
    exact second i
  · rcases second i with same | ⟨impossible, -⟩
    · exact .inr ⟨empty, value, same.trans filled⟩
    · cases impossible.symm.trans filled

theorem Fills.get {before after : Operands} (fills : before.Fills after) {i : Nat}
    {value : OperandValue} (filled : before.slots[i]? = some (some value)) :
    after.slots[i]? = some (some value) := by
  rcases fills i with same | ⟨empty, -⟩
  · exact same.trans filled
  · cases empty.symm.trans filled

variable {before after : Operands} {id : OperandId} {value : OperandValue}
  {results : List (OperandId × OperandKind)}

theorem define_eq_ok (defines : before.define id value = .ok after) :
    before.slots[id.toNat]? = some none ∧
      after.slots = before.slots.set id.toNat (some value) := by
  rw [define, fill] at defines
  split at defines
  · cases defines
  · cases defines
  · rename_i empty
    cases defines
    exact ⟨empty, rfl⟩

theorem define_eq_error {error : EvalError} (fails : before.define id value = .error error) :
    error = .operandOutOfRange id before.count ∨ error = .redefined id := by
  rw [define, fill] at fails
  split at fails
  · cases fails
    exact .inl rfl
  · cases fails
    exact .inr rfl
  · cases fails

theorem slot_of_define (defines : before.define id value = .ok after) :
    after.slots[id.toNat]? = some (some value) := by
  obtain ⟨empty, slots⟩ := define_eq_ok defines
  rw [slots, List.getElem?_set_self (List.getElem?_eq_some_iff.mp empty).1]

theorem slot_of_define_ne (defines : before.define id value = .ok after) {i : Nat}
    (other : i ≠ id.toNat) : after.slots[i]? = before.slots[i]? := by
  rw [(define_eq_ok defines).2, List.getElem?_set_ne (Ne.symm other)]

theorem fills_of_define (defines : before.define id value = .ok after) : before.Fills after := by
  intro i
  by_cases own : i = id.toNat
  · subst own
    exact .inr ⟨(define_eq_ok defines).1, value, slot_of_define defines⟩
  · exact .inl (slot_of_define_ne defines own)

theorem Gains.fills (gains : before.Gains results after) : before.Fills after := by
  induction results generalizing before with
  | nil =>
      cases gains
      exact .refl _
  | cons result results ih =>
      obtain ⟨value, middle, -, defines, rest⟩ := gains
      exact (fills_of_define defines).trans (ih rest)

def Holds (operands : Operands) (i : Nat) : Prop :=
  ∃ value, operands.slots[i]? = some (some value)

theorem holds_of_define (defines : before.define id value = .ok after) (i : Nat) :
    after.Holds i ↔ before.Holds i ∨ id.toNat = i := by
  by_cases own : i = id.toNat
  · subst own
    simp [Holds, slot_of_define defines]
  · simp [Holds, slot_of_define_ne defines own, Ne.symm own]

theorem Gains.holds (gains : before.Gains results after) (i : Nat) :
    after.Holds i ↔ before.Holds i ∨ ∃ result ∈ results, result.1.toNat = i := by
  induction results generalizing before with
  | nil =>
      cases gains
      simp
  | cons result results ih =>
      obtain ⟨value, middle, -, defines, rest⟩ := gains
      simp only [ih rest, holds_of_define defines, or_assoc, List.mem_cons, exists_eq_or_imp]

end Operands

namespace Eval

variable {s t : EvalState} {input result : OperandId} {α : Type}

theorem value_ok {v : Value} (reads : s.operands.value input = .ok v) :
    s.Stores input.toNat (.boxed v) := by
  rw [Operands.value, Operands.read] at reads
  cases found : s.operands.get input with
  | error error =>
      rw [found] at reads
      cases reads
  | ok stored =>
      rw [found] at reads
      rw [Operands.get] at found
      split at found <;> cases found
      rename_i stores
      cases stored <;> cases reads
      exact stores

/-- A guard that goes through has seen a value in its input, and defined its result by it. -/
theorem guardView_ok {view : Value → Option α} {make : α → OperandValue}
    (runs : guardView view make input result s = (.ok (), t)) :
    ∃ v a, s.Stores input.toNat (.boxed v) ∧ view v = some a ∧
      s.operands.define result (make a) = .ok t.operands := by
  rw [guardView, bind_apply, use_apply] at runs
  cases reads : s.operands.value input with
  | error error =>
      rw [reads] at runs
      cases runs
  | ok v =>
      simp only [reads, bind_apply] at runs
      cases seen : view v with
      | none =>
          rw [seen] at runs
          cases runs
      | some a =>
          rw [seen] at runs
          change define result (make a) s = _ at runs
          rw [define_apply] at runs
          cases defines : s.operands.define result (make a) with
          | error error =>
              rw [defines] at runs
              cases runs
          | ok operands =>
              rw [defines] at runs
              cases runs
              exact ⟨v, a, value_ok reads, seen, defines⟩

/-- What a narrowing guard has defined boxes back to the value that it has seen. -/
theorem narrowing_ok {data : StubData} {op : Op} (narrows : op.narrowing? = some (input, result))
    (runs : op.eval data s = (.ok (), t)) :
    ∃ word stored, s.Stores input.toNat (.boxed word) ∧
      s.operands.define result stored = .ok t.operands ∧ stored.boxed? = some word := by
  obtain ⟨opcode, args⟩ := op
  have view {α : Type} (view : Value → Option α) (make : α → OperandValue)
      (runs : guardView view make input result s = (.ok (), t))
      (boxes : ∀ v a, view v = some a → (make a).boxed? = some v) :
      ∃ word stored, s.Stores input.toNat (.boxed word) ∧
        s.operands.define result stored = .ok t.operands ∧ stored.boxed? = some word := by
    obtain ⟨v, a, stores, seen, defines⟩ := guardView_ok runs
    exact ⟨v, make a, stores, defines, boxes v a seen⟩
  cases opcode with
  | guardToObject | guardToString | guardToSymbol | guardToBigInt =>
      obtain ⟨_, _, ⟨⟩⟩ := args
      cases narrows
      exact view (Value.ref? _) (.ref _) runs
        fun v a seen => congrArg some (Value.ofRef_of_ref? seen)
  | guardToBoolean =>
      obtain ⟨_, _, ⟨⟩⟩ := args
      cases narrows
      exact view _ _ runs fun v a seen => congrArg some (Value.ofBool_of_boolean? seen)
  | guardToInt32 =>
      obtain ⟨_, _, ⟨⟩⟩ := args
      cases narrows
      exact view _ _ runs fun v a seen => congrArg some (Value.ofInt32_of_int32? seen)
  | _ => cases narrows

end Eval

namespace Point

variable {data : StubData} {inputs : List Value} {point after : Point}

/-- The operands that a step defines: the input that it stores, or the result of the operation. -/
theorem Step.gains (step : point.Step data inputs after) :
    (after.stored = point.stored + 1 ∧ point.stored < inputs.length ∧
        after.completed = point.completed ∧
        point.state.operands.Gains [(UInt8.ofNat point.stored, .value)] after.state.operands) ∨
      ∃ op, after.stored = point.stored ∧ after.completed = point.completed ++ [op] ∧
        op.eval data point.state = (.ok (), after.state) ∧
        point.state.operands.Gains op.results after.state.operands := by
  cases step with
  | @store value s next defines =>
      have assigns := Eval.Assigns.input (UInt8.ofNat point.stored) value point.state
      rw [defines] at assigns
      exact .inl ⟨rfl, (List.getElem?_eq_some_iff.mp next).1, rfl, assigns⟩
  | @complete op cursor s stored reads evaluates =>
      have assigns := op.eval_assigns data point.state
      rw [evaluates] at assigns
      exact .inr ⟨op, rfl, rfl, evaluates, assigns⟩

theorem Step.fills (step : point.Step data inputs after) :
    point.state.operands.Fills after.state.operands := by
  rcases step.gains with ⟨-, -, -, gains⟩ | ⟨_, -, -, -, gains⟩
  · exact gains.fills
  · exact gains.fills

theorem Leads.fills (leads : point.Leads data inputs after) :
    point.state.operands.Fills after.state.operands :=
  leads.keeps (P := fun q => point.state.operands.Fills q.state.operands)
    (fun step fills => fills.trans step.fills) (.refl _)

/-- An operand is defined as an input that has been stored, or as the result of an operation that has been
completed. -/
def Defined (point : Point) (i : Nat) : Prop :=
  i < point.stored ∨ ∃ op ∈ point.completed, ∃ result ∈ op.results, result.1.toNat = i

/-- The defined slots are those of the operands that are defined. -/
def Accounted (point : Point) : Prop :=
  ∀ i, point.state.operands.Holds i ↔ point.Defined i

theorem Step.accounted (small : inputs.length ≤ 256) (step : point.Step data inputs after)
    (accounted : point.Accounted) : after.Accounted := by
  intro i
  have known := accounted i
  rw [Defined] at known ⊢
  rcases step.gains with ⟨stored, bound, completed, gains⟩ | ⟨op, stored, completed, -, gains⟩
  · have self : (UInt8.ofNat point.stored).toNat = point.stored :=
      UInt8.toNat_ofNat_of_lt' (Nat.lt_of_lt_of_le bound small)
    rw [gains.holds, known, stored, completed]
    simp only [List.mem_singleton, exists_eq_left, self, Nat.lt_succ_iff_lt_or_eq, eq_comm,
      or_right_comm]
  · rw [gains.holds, known, stored, completed]
    simp only [List.mem_append, List.mem_singleton, or_and_right, exists_or, exists_eq_left, or_assoc]

theorem accounted_start (program : StubProgram) (context : Context) :
    (start program context).Accounted := by
  intro i
  simp [Operands.Holds, Defined, start, Operands.empty, List.getElem?_replicate]

/-- The guard that a step completes has narrowed its input, which it leaves as it is. -/
theorem Step.narrows {op : Op} {input result : OperandId} (step : point.Step data inputs after)
    (completes : after.completed = point.completed ++ [op])
    (narrows : op.narrowing? = some (input, result)) :
    ∃ word stored, point.state.Stores input.toNat (.boxed word) ∧
      after.state.Stores input.toNat (.boxed word) ∧ after.state.Stores result.toNat stored ∧
      stored.boxed? = some word := by
  have fills := step.fills
  rcases step.gains with ⟨-, -, same, -⟩ | ⟨found, -, completed, evaluates, -⟩
  · simp [same] at completes
  · obtain rfl : found = op := by simpa using completed.symm.trans completes
    obtain ⟨word, stored, stores, defines, boxed⟩ := Eval.narrowing_ok narrows evaluates
    exact ⟨word, stored, stores, fills.get stores, Operands.slot_of_define defines, boxed⟩

theorem Halts.operands {halt : Halt} {s : EvalState} (halts : point.Halts data inputs halt s) :
    s.operands = point.state.operands := by
  cases halts with
  | @storing value stop after next fails =>
      have assigns := Eval.Assigns.input (UInt8.ofNat point.stored) value point.state
      rw [fails] at assigns
      exact assigns.1
  | @doing op cursor stop after stored reads evaluates =>
      have assigns := op.eval_assigns data point.state
      rw [evaluates] at assigns
      exact assigns.1
  | reading => rfl

end Point

/-- At every point of an evaluation the defined operands are those of the inputs that are stored and of the
operations that are completed.  From one point to a later one slots are filled that were empty, and an
evaluation that halts fills none.  A narrowing guard keeps its input, to which its result boxes back. -/
theorem operands_are_assigned_once (program : StubProgram) (data : StubData) (inputs : List Value)
    (context : Context) :
    (inputs.length ≠ program.inputCount.toNat →
      ∀ i, ¬(evaluate program data inputs context).state.operands.Holds i) ∧
    (inputs.length = program.inputCount.toNat →
      (∃ last halt, Course program data inputs context last halt
        (evaluate program data inputs context).state) ∧
      ∀ point, (Point.start program context).Leads data inputs point →
        (∀ i, point.state.operands.Holds i ↔ point.Defined i) ∧
        (∀ after, point.Leads data inputs after →
          point.state.operands.Fills after.state.operands) ∧
        (∀ halt s, point.Halts data inputs halt s → s.operands = point.state.operands) ∧
        ∀ after op input result, point.Step data inputs after →
          after.completed = point.completed ++ [op] → op.narrowing? = some (input, result) →
          ∃ word stored, point.state.Stores input.toNat (.boxed word) ∧
            after.state.Stores input.toNat (.boxed word) ∧ after.state.Stores result.toNat stored ∧
            stored.boxed? = some word) := by
  refine ⟨fun differs i => ?_, fun count => ⟨?_, fun point leads => ?_⟩⟩
  · rw [evaluate, if_pos differs]
    simp [Operands.Holds, Operands.empty, List.getElem?_replicate]
  · obtain ⟨last, halt, s, course⟩ := exists_course program data inputs context
    refine ⟨last, halt, ?_⟩
    rwa [course.evaluate count]
  · have small : inputs.length ≤ 256 := count ▸ Nat.le_of_lt program.inputCount.toNat_lt
    exact ⟨leads.keeps (Point.Step.accounted small) (Point.accounted_start program context),
      fun _ => Point.Leads.fills, fun _ _ => Point.Halts.operands,
      fun _ _ _ _ => Point.Step.narrows⟩

/-- The int32 has been narrowed when the second guard bails out, which leaves its result undefined. -/
theorem failed_guard_defines_nothing :
    let program : StubProgram := ⟨[10, 0, 1, 1, 0, 2, 0], 3, 1⟩
    let inputs : List Value := [.ofInt32 7]
    let result := evaluate program .empty inputs .empty
    inputs.length = program.inputCount.toNat ∧ result.ending = .ok .bailout ∧
      result.state.operands.slots = [some (.boxed (.ofInt32 7)), some (.int32 7), none] ∧
      ∃ last halt, Course program .empty inputs .empty last halt result.state ∧
        last.state.operands = result.state.operands ∧ last.Defined 1 ∧ ¬last.Defined 2 := by
  intro program inputs result
  have count : inputs.length = program.inputCount.toNat := rfl
  have slots : result.state.operands.slots =
      [some (.boxed (.ofInt32 7)), some (.int32 7), none] := by decide +kernel
  obtain ⟨⟨last, halt, course⟩, points⟩ :=
    (operands_are_assigned_once program .empty inputs .empty).2 count
  obtain ⟨accounted, -, halts, -⟩ := points last course.leads
  have same : result.state.operands = last.state.operands := halts halt _ course.halts
  rw [same] at slots
  refine ⟨count, by decide +kernel, same ▸ slots, last, halt, course, same.symm, ?_, ?_⟩
  · exact (accounted 1).mp ⟨.int32 7, by rw [slots]; rfl⟩
  · intro defined
    obtain ⟨value, filled⟩ := (accounted 2).mpr defined
    rw [slots] at filled
    cases filled

end InlineCache
