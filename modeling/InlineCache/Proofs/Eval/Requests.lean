import InlineCache.Proofs.Eval.Assignment
import InlineCache.Proofs.Heap.Growth

/-!
What an evaluation asks of the runtime.  An operation that makes a request is that request and nothing
else; every other one leaves the heap and the pending exception alone, and raises nothing.
-/

namespace InlineCache

/-- The request with a regular expression, a string and an index among the operands. -/
def Operands.regExpRequest? (operands : Operands) (make : Address → Address → Int32 → Request)
    (regExp input lastIndex : OperandId) : Option Request := do
  let regExp ← (operands.cell .object regExp).toOption
  let input ← (operands.cell .string input).toOption
  let lastIndex ← (operands.int32 lastIndex).toOption
  return make regExp input lastIndex

/-- The request that an operation makes with the operands. -/
def Op.request? (op : Op) (operands : Operands) : Option Request :=
  match op with
  | ⟨.callRegExpMatcherResult, regExp, input, lastIndex, _⟩ =>
      operands.regExpRequest? .matcher regExp input lastIndex
  | ⟨.callRegExpSearcherResult, regExp, input, lastIndex, _⟩ =>
      operands.regExpRequest? .searcher regExp input lastIndex
  | ⟨.callRegExpTesterResult, regExp, input, lastIndex, _⟩ =>
      operands.regExpRequest? .tester regExp input lastIndex
  | ⟨.callSubstringKernelResult, string, start, length, _⟩ => do
      let string ← (operands.cell .string string).toOption
      let start ← (operands.int32 start).toOption
      let length ← (operands.int32 length).toOption
      return .substring string start length
  | _ => none

/-- The stretch leaves the context alone and raises nothing. -/
def Eval.Quiet (stretch : Eval α) : Prop :=
  ∀ s, (stretch s).2.context = s.context ∧ (stretch s).1 ≠ .error (.outcome .exception)

namespace Eval.Quiet

protected theorem pure (a : α) : Quiet (pure a : Eval α) :=
  fun _ => ⟨rfl, nofun⟩

protected theorem bind {stretch : Eval α} {next : α → Eval β} (first : Quiet stretch)
    (rest : ∀ a, Quiet (next a)) : Quiet (stretch >>= next) := by
  intro s
  obtain ⟨same, raises⟩ := first s
  rw [bind_apply]
  rcases runs : stretch s with ⟨stop | a, t⟩
  · rw [runs] at same raises
    exact ⟨same, fun raised => raises (congrArg Except.error (Except.error.inj raised))⟩
  · rw [runs] at same
    obtain ⟨there, none⟩ := rest a t
    exact ⟨there.trans same, none⟩

theorem stop {outcome : Outcome} (other : outcome ≠ .exception) :
    Quiet (stop outcome : Eval α) :=
  fun _ => ⟨rfl, fun raised => other (Stop.outcome.inj (Except.error.inj raised))⟩

theorem bail : Quiet (bail : Eval α) :=
  stop nofun

theorem fail (error : EvalError) : Quiet (fail error : Eval α) :=
  fun _ => ⟨rfl, nofun⟩

theorem guardThat (passed : Bool) : Quiet (guardThat passed) := by
  cases passed with
  | true => exact .pure ()
  | false => exact bail

theorem guardSome (content : Option α) : Quiet (guardSome content) := by
  cases content with
  | none => exact bail
  | some a => exact .pure a

theorem use (read : Operands → OperandId → Except EvalError α) (id : OperandId) :
    Quiet (use read id) := by
  intro s
  rw [use_apply]
  cases read s.operands id <;> exact ⟨rfl, nofun⟩

theorem define (id : OperandId) (value : OperandValue) : Quiet (define id value) := by
  intro s
  rw [define_apply]
  cases s.operands.define id value <;> exact ⟨rfl, nofun⟩

theorem setOutput (output : Value) : Quiet (setOutput output) :=
  fun _ => ⟨rfl, nofun⟩

theorem heap : Quiet heap :=
  fun _ => ⟨rfl, nofun⟩

theorem objectOf (id : OperandId) : Quiet (objectOf id) :=
  .bind (use _ _) fun _ => .bind heap fun _ => .pure _

theorem fieldWord (data : StubData) (field : Field) (type : FieldType) :
    Quiet (fieldWord data field type) := by
  rw [Eval.fieldWord]
  split
  · exact .pure _
  · exact fail _

theorem fieldInt32 (data : StubData) (field : Field) : Quiet (fieldInt32 data field) := by
  rw [Eval.fieldInt32]
  split
  · exact .pure _
  · exact fail _

theorem slotAt (slot? : Object → Int32 → Option Value) (object : Object) (offset : Int32) :
    Quiet (slotAt slot? object offset) := by
  rw [Eval.slotAt]
  split
  · exact .pure _
  · exact fail _

theorem guardRef (kind : RefKind) (input result : OperandId) : Quiet (guardRef kind input result) :=
  .bind (use _ _) fun _ => .bind (guardSome _) fun _ => define _ _

theorem guardView (view : Value → Option α) (make : α → OperandValue) (input result : OperandId) :
    Quiet (guardView view make input result) :=
  .bind (use _ _) fun _ => .bind (guardSome _) fun _ => define _ _

theorem guardValue (test : Value → Bool) (input : OperandId) : Quiet (guardValue test input) :=
  .bind (use _ _) fun _ => guardThat _

theorem classMatches (data : StubData) (object : OperandId) (field : Field) :
    Quiet (classMatches data object field) :=
  .bind (objectOf _) fun _ => .bind (fieldWord _ _ _) fun _ => .bind heap fun _ => .pure _

theorem loadSlot (data : StubData) (slot? : Object → Int32 → Option Value) (object : OperandId)
    (offset : Field) : Quiet (loadSlot data slot? object offset) :=
  .bind (objectOf _) fun _ => .bind (fieldInt32 _ _) fun _ => .bind (slotAt _ _ _) fun _ =>
    setOutput _

theorem loadTypedResult (data : StubData) (input : TypedOperand) :
    Quiet (Op.eval data ⟨.loadTypedResult, input, ()⟩) := by
  rw [Op.eval]
  refine .bind (use _ _) fun stored => ?_
  cases stored.payloadType? with
  | none =>
      dsimp only
      cases stored.boxed? with
      | some value => exact setOutput _
      | none => exact fail _
  | some found =>
      dsimp only
      by_cases same : found = input.type
      · rw [if_neg (not_not_intro same)]
        cases stored.boxed? with
        | some value => exact setOutput _
        | none => exact fail _
      · rw [if_pos same]
        refine .bind (fail _) fun _ => ?_
        cases stored.boxed? with
        | some value => exact setOutput _
        | none => exact fail _

end Eval.Quiet

/-- The stretch is a request to the runtime, which the operands keep standing for, or it leaves the runtime
alone.  It makes no request without being one, except when it fails over an operand. -/
def Eval.Requests (request? : Operands → Option Request) (stretch : Eval Unit) (s : EvalState) :
    Prop :=
  (∃ request, (∀ later, s.operands.Fills later → request? later = some request) ∧
    stretch s = callOut request.call s) ∨
  (stretch s).2.context = s.context ∧ (stretch s).1 ≠ .error (.outcome .exception) ∧
    ((∃ error, (stretch s).1 = .error (.error error)) ∨
      ∀ later, s.operands.Fills later → request? later = none)

namespace Operands.Fills

variable {before after : Operands}

theorem read {expected : OperandKind} {view : OperandValue → Option α} {id : OperandId} {a : α}
    (fills : before.Fills after) (reads : before.read expected view id = .ok a) :
    after.read expected view id = .ok a := by
  cases found : before.get id with
  | error error =>
      rw [Operands.read, found] at reads
      cases reads
  | ok stored =>
      have later : after.get id = .ok stored := by
        rw [Operands.get] at found ⊢
        split at found
        · cases found
        · cases found
        · rename_i slot
          cases found
          rw [fills.get slot]
      rw [Operands.read, found] at reads
      rw [Operands.read, later]
      exact reads

end Operands.Fills

namespace Eval.Requests

variable {s : EvalState}

theorem quiet {stretch : Eval Unit} (quiet : Quiet stretch) : Requests (fun _ => none) stretch s := by
  obtain ⟨same, raises⟩ := quiet s
  exact .inr ⟨same, raises, .inr fun _ _ => rfl⟩

theorem callOut {call : Heap → Except RuntimeError (Value × Heap)} {request : Request}
    (calls : request.call = call) : Requests (fun _ => some request) (callOut call) s :=
  .inl ⟨request, fun _ _ => rfl, calls ▸ rfl⟩

/-- A request is only made with operands that can be read, and they can be read ever after. -/
theorem use {expected : OperandKind} {view : OperandValue → Option α} {id : OperandId}
    {next : α → Eval Unit} {next? : α → Operands → Option Request}
    (rest : ∀ a, Requests (next? a) (next a) s) :
    Requests (fun operands => (operands.read expected view id).toOption >>= fun a => next? a operands)
      (Eval.use (·.read expected view) id >>= next) s := by
  cases reads : s.operands.read expected view id with
  | ok a =>
      have here : (Eval.use (·.read expected view) id >>= next) s = next a s := by
        rw [bind_apply, use_apply, reads]
      rw [Requests, here]
      rcases rest a with ⟨request, stands, calls⟩ | ⟨same, raises, fails | none⟩
      · refine .inl ⟨request, fun later fills => ?_, calls⟩
        rw [fills.read reads]
        exact stands later fills
      · exact .inr ⟨same, raises, .inl fails⟩
      · refine .inr ⟨same, raises, .inr fun later fills => ?_⟩
        rw [fills.read reads]
        exact none later fills
  | error error =>
      have here : (Eval.use (·.read expected view) id >>= next) s = (.error (.error error), s) := by
        rw [bind_apply, use_apply, reads]
      rw [Requests, here]
      exact .inr ⟨rfl, nofun, .inl ⟨error, rfl⟩⟩

theorem callRegExp {call : Address → Address → Int32 → Heap → Except RuntimeError (Value × Heap)}
    {make : Address → Address → Int32 → Request}
    (calls : ∀ regExp input lastIndex, (make regExp input lastIndex).call = call regExp input lastIndex)
    {regExp input lastIndex : OperandId} :
    Requests (·.regExpRequest? make regExp input lastIndex)
      (callRegExp call regExp input lastIndex) s :=
  use fun _ => use fun _ => use fun _ => callOut (calls _ _ _)

end Eval.Requests

open Eval in
/-- An operation is the request that it makes, or leaves the runtime alone. -/
theorem Op.eval_requests (data : StubData) (op : Op) (s : EvalState) :
    Eval.Requests op.request? (op.eval data) s := by
  obtain ⟨opcode, args⟩ := op
  cases opcode with
  | callRegExpMatcherResult | callRegExpSearcherResult | callRegExpTesterResult =>
      obtain ⟨regExp, input, lastIndex, ⟨⟩⟩ := args
      exact .callRegExp fun _ _ _ => rfl
  | callSubstringKernelResult =>
      obtain ⟨string, start, length, ⟨⟩⟩ := args
      exact .use fun _ => .use fun _ => .use fun _ => .callOut rfl
  | returnFromIc => exact .quiet (fun s => ⟨rfl, nofun⟩)
  | guardToObject | guardToString | guardToSymbol | guardToBigInt =>
      exact .quiet (.guardRef _ _ _)
  | guardIsNullOrUndefined | guardIsNull | guardIsUndefined | guardIsNumber =>
      exact .quiet (.guardValue _ _)
  | guardToBoolean | guardToInt32 | guardBooleanToInt32 | guardToInt32Index | guardToInt32ModUint32
  | guardToUint8Clamped => exact .quiet (.guardView _ _ _ _)
  | int32ToIntPtr => exact .quiet (.bind (.use _ _) fun _ => .define _ _)
  | guardNumberToIntPtrIndex =>
      refine .quiet (.bind (.use _ _) fun d => ?_)
      split
      · exact .define _ _
      · split
        · exact .define _ _
        · exact .bail
  | guardNonDoubleType =>
      obtain ⟨input, type, ⟨⟩⟩ := args
      refine .quiet ?_
      rw [eval]
      split
      · exact .fail _
      · exact .guardValue _ _
  | guardShape =>
      exact .quiet (.bind (.objectOf _) fun _ => .bind (.fieldWord _ _ _) fun _ => .guardThat _)
  | guardProto =>
      exact .quiet (.bind (.objectOf _) fun _ => .bind (.fieldWord _ _ _) fun _ => .bind .heap fun _ =>
        .guardThat _)
  | guardNullProto | guardClass =>
      exact .quiet (.bind (.objectOf _) fun _ => .bind .heap fun _ => .guardThat _)
  | guardAnyClass => exact .quiet (.bind (.classMatches _ _ _) fun _ => .guardThat _)
  | hasClassResult => exact .quiet (.bind (.classMatches _ _ _) fun _ => .setOutput _)
  | regExpFlagResult => exact .quiet (.bind (.objectOf _) fun _ => .setOutput _)
  | guardDynamicSlotValue =>
      exact .quiet (.bind (.objectOf _) fun _ => .bind (.fieldInt32 _ _) fun _ =>
        .bind (.fieldWord _ _ _) fun _ => .bind (.slotAt _ _ _) fun _ => .guardThat _)
  | loadFixedSlotResult | loadDynamicSlotResult => exact .quiet (.loadSlot _ _ _ _)
  | loadObject =>
      refine .quiet (.bind (.fieldWord _ _ _) fun word => ?_)
      split
      · exact .fail _
      · exact .define _ _
  | loadInt32Constant => exact .quiet (.bind (.fieldInt32 _ _) fun _ => .define _ _)
  | loadValueTag => exact .quiet (.bind (.use _ _) fun _ => .define _ _)
  | guardTagNotEqual =>
      exact .quiet (.bind (.use _ _) fun _ => .bind (.use _ _) fun _ => .guardThat _)
  | loadDenseElementResult =>
      refine .quiet (.bind (.objectOf _) fun _ => .bind (.use _ _) fun _ => ?_)
      dsimp only
      split
      · exact .bail
      · refine .bind (.guardSome _) fun _ => ?_
        split
        · exact .bail
        · exact .setOutput _
  | loadInt32ArrayLengthResult =>
      refine .quiet (.bind (.objectOf _) fun _ => ?_)
      dsimp only
      split
      · exact .setOutput _
      · exact .bail
  | loadInt32Result | loadObjectResult | loadIntPtrResult =>
      exact .quiet (.bind (.use _ _) fun _ => .setOutput _)
  | loadBooleanResult | loadUndefinedResult => exact .quiet (.setOutput _)
  | loadTypedResult => exact .quiet (.loadTypedResult _ _)

end InlineCache
