import InlineCache.Eval.Run
import InlineCache.Proofs.Eval.Reading
import Mathlib.Logic.Relation

/-!
The course of an evaluation, point by point.  From a point it stores the next input, or reads the next
operation and carries it out, and so it comes to the next point, or halts.
-/

namespace InlineCache

/-- How far an evaluation has come. -/
structure Point where
  stored : Nat
  completed : List Op
  cursor : Cursor
  state : EvalState

/-- What an evaluation does when it halts. -/
inductive Halt
  | storing (stop : Stop)
  | doing (op : Op) (stop : Stop)
  | reading (error : StubError)

def Halt.stop : Halt → Stop
  | .storing stop | .doing _ stop => stop
  | .reading (.unknownOpcode _) => .outcome .unsupportedOp
  | .reading error => .error (.decode error)

namespace Point

def start (program : StubProgram) (context : Context) : Point where
  stored := 0
  completed := []
  cursor := .start program.code
  state := ⟨.empty program.operandCount.toNat, .undefined, context⟩

/-- The operations that have been dispatched, when the evaluation halts at the point. -/
def dispatched (point : Point) : Halt → List Op
  | .doing op _ => point.completed ++ [op]
  | .storing _ | .reading _ => point.completed

section

variable (data : StubData) (inputs : List Value)

inductive Step : Point → Point → Prop
  | store {point : Point} {value : Value} {after : EvalState}
      (next : inputs[point.stored]? = some value)
      (defines : Eval.define (UInt8.ofNat point.stored) (.boxed value) point.state = (.ok (), after)) :
      Step point { point with stored := point.stored + 1, state := after }
  | complete {point : Point} {op : Op} {cursor : Cursor} {after : EvalState}
      (stored : point.stored = inputs.length) (reads : Op.read point.cursor = (.ok op, cursor))
      (evaluates : op.eval data point.state = (.ok (), after)) :
      Step point { point with completed := point.completed ++ [op], cursor, state := after }

inductive Halts : Point → Halt → EvalState → Prop
  | storing {point : Point} {value : Value} {stop : Stop} {after : EvalState}
      (next : inputs[point.stored]? = some value)
      (fails : Eval.define (UInt8.ofNat point.stored) (.boxed value) point.state =
        (.error stop, after)) : Halts point (.storing stop) after
  | doing {point : Point} {op : Op} {cursor : Cursor} {stop : Stop} {after : EvalState}
      (stored : point.stored = inputs.length) (reads : Op.read point.cursor = (.ok op, cursor))
      (evaluates : op.eval data point.state = (.error stop, after)) : Halts point (.doing op stop) after
  | reading {point : Point} {cursor : Cursor} {error : StubError}
      (stored : point.stored = inputs.length)
      (reads : Op.read point.cursor = (.error error, cursor)) :
      Halts point (.reading error) point.state

/-- The evaluation comes from one point to the other. -/
def Leads : Point → Point → Prop :=
  Relation.ReflTransGen (Step data inputs)

/-- What is left of the evaluation. -/
def resume (point : Point) : Except Stop Empty × EvalState :=
  (Eval.defineInputs point.stored (inputs.drop point.stored) >>= fun _ =>
    Eval.fromCursor data point.cursor) point.state

end

variable {data : StubData} {inputs : List Value} {point after : Point} {halt : Halt} {s : EvalState}

theorem resume_store {value : Value} (next : inputs[point.stored]? = some value) :
    point.resume data inputs =
      match Eval.define (UInt8.ofNat point.stored) (.boxed value) point.state with
      | (.ok _, s) => resume data inputs { point with stored := point.stored + 1, state := s }
      | (.error stop, s) => (.error stop, s) := by
  obtain ⟨bound, rfl⟩ := List.getElem?_eq_some_iff.mp next
  rw [resume, List.drop_eq_getElem_cons bound, Eval.defineInputs, bind_assoc, Eval.bind_apply]
  rcases Eval.define (UInt8.ofNat point.stored) (.boxed inputs[point.stored]) point.state with
    ⟨stop | _, s⟩
  · rfl
  · rfl

theorem resume_stored (stored : point.stored = inputs.length) :
    point.resume data inputs = Eval.fromCursor data point.cursor point.state := by
  rw [resume, stored, List.drop_length, Eval.defineInputs, pure_bind]

theorem resume_read {op : Op} {cursor : Cursor} (stored : point.stored = inputs.length)
    (reads : Op.read point.cursor = (.ok op, cursor)) :
    point.resume data inputs =
      match op.eval data point.state with
      | (.ok _, s) =>
          resume data inputs { point with completed := point.completed ++ [op], cursor, state := s }
      | (.error stop, s) => (.error stop, s) := by
  have carried : Eval.fromCursor data point.cursor =
      (op.eval data >>= fun _ => Eval.fromCursor data cursor) := by
    rw [Eval.fromCursor, reads]
  rw [resume_stored stored, carried, Eval.bind_apply]
  rcases op.eval data point.state with ⟨stop | _, s⟩
  · rfl
  · have behind : resume data inputs
        { point with completed := point.completed ++ [op], cursor, state := s } =
          Eval.fromCursor data cursor s := resume_stored stored
    exact behind.symm

/-- A step leaves to do what is left behind it. -/
theorem Step.resume (step : point.Step data inputs after) :
    point.resume data inputs = after.resume data inputs := by
  cases step with
  | store next defines => rw [resume_store next, defines]
  | complete stored reads evaluates => rw [resume_read stored reads, evaluates]

/-- What each step keeps holds wherever an evaluation comes. -/
theorem Leads.keeps {P : Point → Prop} (leads : point.Leads data inputs after)
    (step : ∀ {p q : Point}, p.Step data inputs q → P p → P q) (initially : P point) : P after := by
  induction leads with
  | refl => exact initially
  | tail _ last ih => exact step last ih

theorem Leads.resume (leads : point.Leads data inputs after) :
    point.resume data inputs = after.resume data inputs := by
  induction leads with
  | refl => rfl
  | tail _ step ih => rw [ih, step.resume]

theorem Halts.resume (halts : point.Halts data inputs halt s) :
    point.resume data inputs = (.error halt.stop, s) := by
  cases halts with
  | storing next fails => rw [resume_store next, fails, Halt.stop]
  | doing stored reads evaluates => rw [resume_read stored reads, evaluates, Halt.stop]
  | @reading cursor error stored reads =>
      rw [resume_stored stored, Eval.fromCursor, reads]
      cases error <;> rfl

theorem Step.bound (step : point.Step data inputs after) (bound : point.stored ≤ inputs.length) :
    after.stored ≤ inputs.length := by
  cases step with
  | store next defines => exact (List.getElem?_eq_some_iff.mp next).1
  | complete stored reads evaluates => exact bound

/-- How much there is left, of inputs and of code. -/
def ahead (inputs : List Value) (point : Point) : Nat :=
  inputs.length - point.stored + point.cursor.rest.length

theorem Step.ahead_lt (step : point.Step data inputs after) :
    after.ahead inputs < point.ahead inputs := by
  cases step with
  | store next defines =>
      have bound := (List.getElem?_eq_some_iff.mp next).1
      simp only [ahead]
      omega
  | complete stored reads evaluates =>
      have shorter := Op.read_rest_lt reads
      simp only [ahead]
      omega

/-- An evaluation goes on from a point or halts there. -/
theorem progress (data : StubData) (bound : point.stored ≤ inputs.length) :
    (∃ halt s, point.Halts data inputs halt s) ∨ ∃ after, point.Step data inputs after := by
  cases next : inputs[point.stored]? with
  | some value =>
      rcases defines : Eval.define (UInt8.ofNat point.stored) (.boxed value) point.state
        with ⟨stop | _, s⟩
      · exact .inl ⟨_, _, .storing next defines⟩
      · exact .inr ⟨_, .store next defines⟩
  | none =>
      have stored := Nat.le_antisymm bound (List.getElem?_eq_none_iff.mp next)
      rcases reads : Op.read point.cursor with ⟨error | op, cursor⟩
      · exact .inl ⟨_, _, .reading stored reads⟩
      · rcases evaluates : op.eval data point.state with ⟨stop | _, s⟩
        · exact .inl ⟨_, _, .doing stored reads evaluates⟩
        · exact .inr ⟨_, .complete stored reads evaluates⟩

theorem exists_halts (data : StubData) (bound : point.stored ≤ inputs.length) :
    ∃ last halt s, point.Leads data inputs last ∧ last.Halts data inputs halt s := by
  induction left : point.ahead inputs using Nat.strongRecOn generalizing point with
  | ind left ih =>
      subst left
      rcases progress data bound with ⟨halt, s, halts⟩ | ⟨after, step⟩
      · exact ⟨point, halt, s, .refl, halts⟩
      · obtain ⟨last, halt, s, leads, halts⟩ := ih _ step.ahead_lt (step.bound bound) rfl
        exact ⟨last, halt, s, .head step leads, halts⟩

end Point

/-- An evaluation comes to its last point, where it halts. -/
structure Course (program : StubProgram) (data : StubData) (inputs : List Value) (context : Context)
    (last : Point) (halt : Halt) (s : EvalState) : Prop where
  leads : (Point.start program context).Leads data inputs last
  halts : last.Halts data inputs halt s

theorem exists_course (program : StubProgram) (data : StubData) (inputs : List Value)
    (context : Context) : ∃ last halt s, Course program data inputs context last halt s := by
  have bound : (Point.start program context).stored ≤ inputs.length := Nat.zero_le _
  obtain ⟨last, halt, s, leads, halts⟩ := Point.exists_halts data bound
  exact ⟨last, halt, s, leads, halts⟩

/-- An evaluation on the right number of inputs ends as its course does. -/
theorem Course.evaluate {program : StubProgram} {data : StubData} {inputs : List Value}
    {context : Context} {last : Point} {halt : Halt} {s : EvalState}
    (course : Course program data inputs context last halt s)
    (count : inputs.length = program.inputCount.toNat) :
    evaluate program data inputs context = ⟨halt.stop.ending, s⟩ := by
  have resumes := course.leads.resume.trans course.halts.resume
  rw [Point.resume] at resumes
  simp only [Point.start, List.drop_zero] at resumes
  rw [InlineCache.evaluate, if_neg (fun differs => differs count)]
  simp only [resumes]
  cases halt.stop <;> rfl

end InlineCache
