import InlineCache.Proofs.Agreement
import InlineCache.Proofs.Eval.Requests

/-!
What a run may change.  An evaluation changes its context by the requests that it makes and by nothing
else: those that are served add cells to the heap, and the one that fails, which is the last, leaves its
error pending.  Compiled code leaves the same context.
-/

namespace InlineCache

/-- What a run that makes the requests leaves of a context.  An exception is a last request that was not
served. -/
def Context.Framed (before : Context) (requests : List Request) (outcome : Outcome)
    (after : Context) : Prop :=
  ∃ served strings results, before.heap.Serves served strings results after.heap ∧
    before.heap.Grown strings results after.heap ∧
    match outcome with
    | .exception => ∃ failing error, requests = served ++ [failing] ∧
        failing.call after.heap = .error error ∧ after.pending = some error
    | .returned _ | .bailout | .unsupportedOp => requests = served ∧ after.pending = before.pending

/-- The requests of operations, when the operands are defined. -/
def Op.requests (ops : List Op) (operands : Operands) : List Request :=
  ops.filterMap (·.request? operands)

theorem Op.requests_append (ops : List Op) (op : Op) (operands : Operands) :
    requests (ops ++ [op]) operands = requests ops operands ++ (op.request? operands).toList := by
  cases h : op.request? operands <;> simp [requests, List.filterMap_append, h]

namespace Point

variable {data : StubData} {inputs : List Value} {point after : Point}

/-- The requests of the completed operations have been served. -/
def Served (context : Context) (point : Point) : Prop :=
  ∀ final, point.state.operands.Fills final → ∃ strings results,
    context.heap.Serves (Op.requests point.completed final) strings results
        point.state.context.heap ∧
      point.state.context.pending = context.pending

theorem Step.served {context : Context} (step : point.Step data inputs after)
    (served : point.Served context) : after.Served context := by
  intro final fills
  have throughout := step.fills.trans fills
  obtain ⟨strings, results, serves, pending⟩ := served final throughout
  cases step with
  | @store value s next defines =>
      obtain ⟨same, -⟩ := Eval.Quiet.define (UInt8.ofNat point.stored) (.boxed value) point.state
      rw [defines] at same
      dsimp only at same ⊢
      rw [same]
      exact ⟨strings, results, serves, pending⟩
  | @complete op cursor s stored reads evaluates =>
      rw [Op.requests_append]
      rcases op.eval_requests data point.state with ⟨request, stands, calls⟩ | ⟨same, -, fails⟩
      · rw [stands final throughout]
        rw [evaluates] at calls
        cases answers : request.call point.state.context.heap with
        | error error => cases calls.trans (Eval.callOut_error answers)
        | ok answer =>
            cases calls.trans (Eval.callOut_ok answers)
            exact ⟨_, _, serves.snoc answers, pending⟩
      · rw [evaluates] at same fails
        have none := fails.resolve_left fun ⟨_, impossible⟩ => nomatch impossible
        rw [none final throughout, Option.toList_none, List.append_nil]
        dsimp only at same ⊢
        rw [same]
        exact ⟨strings, results, serves, pending⟩

theorem served_start (program : StubProgram) (context : Context) :
    (start program context).Served context :=
  fun _ _ => ⟨0, 0, .nil _, rfl⟩

/-- Where an evaluation halts with an outcome, the operation that it halts at has made the request that
failed, or none. -/
theorem Halts.framed {context : Context} {halt : Halt} {s : EvalState} {outcome : Outcome}
    (halts : point.Halts data inputs halt s) (served : point.Served context)
    (ends : halt.stop.ending = .ok outcome) :
    context.Framed (Op.requests (point.dispatched halt) s.operands) outcome s.context := by
  have operands := halts.operands
  obtain ⟨strings, results, serves, pending⟩ := served s.operands (operands ▸ .refl _)
  cases halts with
  | @storing value stop after next fails =>
      rw [Eval.define_apply] at fails
      split at fails <;> cases fails
      cases ends
  | @reading cursor error stored reads =>
      cases error with
      | unknownOpcode byte =>
          cases ends
          exact ⟨_, strings, results, serves, serves.grown, rfl, pending⟩
      | _ => cases ends
  | @doing op cursor stop after stored reads evaluates =>
      rw [Point.dispatched, Op.requests_append]
      have filled : point.state.operands.Fills s.operands := operands ▸ .refl _
      rcases op.eval_requests data point.state with ⟨request, stands, calls⟩ | ⟨same, quiet, fails⟩
      · rw [stands _ filled]
        rw [evaluates] at calls
        cases answers : request.call point.state.context.heap with
        | error error =>
            cases calls.trans (Eval.callOut_error answers)
            cases ends
            exact ⟨_, strings, results, serves, serves.grown, request, error, rfl, answers, rfl⟩
        | ok answer => cases calls.trans (Eval.callOut_ok answers)
      · rw [evaluates] at same quiet fails
        cases stop with
        | error error => cases ends
        | outcome ending =>
            cases ends
            have none := fails.resolve_left fun ⟨_, impossible⟩ => nomatch impossible
            rw [none _ filled, Option.toList_none, List.append_nil]
            dsimp only at same ⊢
            refine ⟨_, strings, results, same ▸ serves, same ▸ serves.grown, ?_⟩
            cases outcome with
            | exception => exact absurd rfl quiet
            | returned v | bailout | unsupportedOp => exact ⟨rfl, same ▸ pending⟩

end Point

/-- An evaluation that ends with an outcome changes its context by its requests alone. -/
theorem Course.framed {program : StubProgram} {data : StubData} {inputs : List Value}
    {context : Context} {last : Point} {halt : Halt} {s : EvalState} {outcome : Outcome}
    (course : Course program data inputs context last halt s)
    (ends : halt.stop.ending = .ok outcome) :
    context.Framed (Op.requests (last.dispatched halt) s.operands) outcome s.context :=
  course.halts.framed (course.leads.keeps (fun step => step.served) (Point.served_start _ _)) ends

/-- Code that answers an evaluation with an outcome leaves with the context of the evaluation. -/
theorem EvalResult.AnsweredBy.context {result : EvalResult} {outcome : Outcome}
    {run : Option (ExitStatus × Machine)} (answered : result.AnsweredBy run)
    (ends : result.ending = .ok outcome) :
    ∃ status m, run = some (status, m) ∧ m.context = result.state.context := by
  rw [AnsweredBy, ends] at answered
  cases outcome with
  | returned v =>
      obtain ⟨m, same, -, context⟩ := answered
      exact ⟨_, m, same, context⟩
  | bailout | exception =>
      obtain ⟨m, same, context⟩ := answered
      exact ⟨_, m, same, context⟩
  | unsupportedOp => exact answered.elim

/-- A run that ends with an outcome, evaluated or compiled, leaves every cell of its heap as it was.  It adds
the strings and the match results of the requests that it makes, which the operations that were dispatched
determine, and a request that fails ends the run and is pending. -/
theorem runs_only_add_cells (program : StubProgram) (data : StubData) (inputs : List Value)
    (context : Context) {outcome : Outcome} (extended : data.Extended)
    (objects : data.NamesObjects) (refer : ∀ v ∈ inputs, v.Refers)
    (ends : (evaluate program data inputs context).ending = .ok outcome) :
    ∃ last halt s, Course program data inputs context last halt s ∧
      let requests := Op.requests (last.dispatched halt) s.operands
      context.Framed requests outcome (evaluate program data inputs context).state.context ∧
      ∀ config summary buffer, emitStub program data config = .ok (summary, buffer) →
        ∃ status m, runCode ⟨inputs.map Value.bits, data.words⟩ buffer.insts.toList none
            (.start context) = some (status, m) ∧
          context.Framed requests outcome m.context := by
  have count : inputs.length = program.inputCount.toNat := by
    refine Decidable.byContradiction fun differs => ?_
    rw [evaluate, if_pos differs] at ends
    cases ends
  obtain ⟨last, halt, s, course⟩ := exists_course program data inputs context
  have evaluates := course.evaluate count
  rw [evaluates] at ends
  have framed := course.framed ends
  refine ⟨last, halt, s, course, by rwa [evaluates], fun config summary buffer emits => ?_⟩
  have answered := Setting.answers ⟨⟨data, config⟩, inputs, context, extended, objects, refer⟩ count
    emits
  rw [evaluates] at answered
  obtain ⟨status, m, runs, same⟩ := answered.context ends
  exact ⟨status, m, runs, same ▸ framed⟩

/-! A stub that matches, takes a substring, and takes one more that the string is too short for. -/

namespace TwoSubstrings

def program : StubProgram where
  code := [⟨.guardToObject, (0, 4, ())⟩, ⟨.guardToString, (1, 5, ())⟩, ⟨.guardToInt32, (2, 6, ())⟩,
    ⟨.guardToInt32, (3, 7, ())⟩, ⟨.callRegExpMatcherResult, (4, 5, 6, ())⟩,
    ⟨.callSubstringKernelResult, (5, 6, 6, ())⟩, ⟨.callSubstringKernelResult, (5, 6, 7, ())⟩,
    ⟨.returnFromIc, ()⟩].flatMap Op.encode
  operandCount := 8
  inputCount := 4

/-- The string is `ab`; the pattern is `(b)(x)?`. -/
def heap : Heap :=
  let pattern : RegExp.Node := .seq (.capture 0 (.char 98))
    (.alt (.capture 1 (.char 120)) .empty)
  let (shape, heap) := Heap.empty.newShape .regExp none 2 2
  let (_, heap) := heap.addObject shape #[] (some ⟨"(b)(x)?", ⟨0⟩, 2, pattern⟩)
  (heap.newString #[97, 98]).2

def inputs : List Value :=
  [.ofRef .object (Block.object 0).address, .ofRef .string (Block.string 0).address, .ofInt32 1,
    .ofInt32 9]

theorem refer : ∀ v ∈ inputs, v.Refers := by
  have all : ∀ v ∈ inputs, ∀ kind ∈ RefKind.all, v.isRef kind = true →
      v.payload = (kind.block 0).address := by decide +kernel
  exact fun v member kind refers => ⟨0, all v member kind (by cases kind <;> decide) refers⟩

end TwoSubstrings

/-- The match is two strings and an object, the first substring is a string, and the second leaves none.  The
exception that was pending makes room for the new one. -/
theorem raising_run_keeps_served_cells :
    let context : Context := ⟨TwoSubstrings.heap, some .notARegExp⟩
    let result := evaluate TwoSubstrings.program .empty TwoSubstrings.inputs context
    StubData.Extended .empty ∧ StubData.NamesObjects .empty ∧
      (∀ v ∈ TwoSubstrings.inputs, v.Refers) ∧ result.ending = .ok .exception ∧
      result.state.context.heap.strings.size = 1 + 2 + 1 ∧
      result.state.context.heap.objects.size = 1 + 1 ∧
      result.state.context.pending = some (.substringOutOfRange 1 9 2) ∧
      ∃ requests, context.Framed requests .exception result.state.context ∧
        ∀ config summary buffer,
          emitStub TwoSubstrings.program .empty config = .ok (summary, buffer) →
          ∃ status m, runCode ⟨TwoSubstrings.inputs.map Value.bits, []⟩ buffer.insts.toList none
              (.start context) = some (status, m) ∧ context.Framed requests .exception m.context := by
  intro context result
  have extended : StubData.Extended .empty := fun _ _ found => by
    cases StubData.word_of_wordOf? found
  have objects : StubData.NamesObjects .empty := fun _ _ found => by
    cases StubData.word_of_wordOf? found
  have ends : result.ending = .ok .exception := by decide +kernel
  obtain ⟨_, _, _, -, framed⟩ := runs_only_add_cells TwoSubstrings.program .empty
    TwoSubstrings.inputs context extended objects TwoSubstrings.refer ends
  exact ⟨extended, objects, TwoSubstrings.refer, ends, by decide +kernel, by decide +kernel,
    by decide +kernel, _, framed⟩

end InlineCache
