import InlineCache.Proofs.Eval.Course
import InlineCache.Proofs.Op.Decoding
import InlineCache.Proofs.Op.Kinds

/-!
What an operation does to the operands.  One that goes through has defined its result and nothing else; one
that stops the evaluation has defined nothing, and is not stopped for what the code bytes are.
-/

namespace InlineCache

/-- An end that is due to the bytes of the code. -/
def blamesCode : Except EvalError Outcome → Bool
  | .ok .unsupportedOp => true
  | .error (.decode error) => error.ofCode
  | _ => false

namespace Operands

/-- The operands are defined, one after the other, each with a value of its kind. -/
def Gains : Operands → List (OperandId × OperandKind) → Operands → Prop
  | operands, [], after => after = operands
  | operands, (id, kind) :: results, after =>
      ∃ value middle, value.kind = kind ∧ operands.define id value = .ok middle ∧
        Gains middle results after

end Operands

/-- The stretch defines the operands when it goes through.  When it stops, it leaves the operands alone. -/
def Eval.Assigns {α : Type} (results : List (OperandId × OperandKind)) (stretch : Eval α) : Prop :=
  ∀ s, match stretch s with
    | (.ok _, t) => s.operands.Gains results t.operands
    | (.error stop, t) => t.operands = s.operands ∧ blamesCode stop.ending = false

theorem StubData.not_ofCode_of_wordOf? {data : StubData} {offset : Nat} {type : FieldType}
    {error : StubError} (fails : data.wordOf? offset type = .error error) : error.ofCode = false := by
  rw [wordOf?, typed?] at fails
  split at fails
  · simp only [bind, Except.bind] at fails
    split at fails <;> cases fails
    rfl
  · cases fails
    rfl

theorem StubData.not_ofCode_of_int32? {data : StubData} {offset : Nat} {error : StubError}
    (fails : data.int32? offset = .error error) : error.ofCode = false := by
  rw [int32?] at fails
  cases word : data.wordOf? offset .rawInt32 with
  | ok _ =>
      rw [word] at fails
      cases fails
  | error cause =>
      rw [word] at fails
      cases fails
      exact not_ofCode_of_wordOf? word

namespace Eval.Assigns

variable {α β : Type} {results : List (OperandId × OperandKind)}

protected theorem pure (a : α) : Assigns [] (pure a : Eval α) :=
  fun _ => rfl

protected theorem bind {stretch : Eval α} {next : α → Eval β} (first : Assigns [] stretch)
    (rest : ∀ a, Assigns results (next a)) : Assigns results (stretch >>= next) := by
  intro s
  have here := first s
  rw [bind_apply]
  rcases runs : stretch s with ⟨stop | a, t⟩
  · rw [runs] at here
    exact here
  · rw [runs] at here
    have same : t.operands = s.operands := here
    have there := rest a t
    rw [same] at there
    exact there

theorem stop {outcome : Outcome} (other : outcome ≠ .unsupportedOp) :
    Assigns results (stop outcome : Eval α) := by
  intro s
  refine ⟨rfl, ?_⟩
  cases outcome with
  | unsupportedOp => exact absurd rfl other
  | returned | bailout | exception => rfl

theorem bail : Assigns results (bail : Eval α) :=
  stop nofun

theorem fail {error : EvalError} (blameless : blamesCode (.error error) = false) :
    Assigns results (fail error : Eval α) :=
  fun _ => ⟨rfl, blameless⟩

theorem guardThat (passed : Bool) : Assigns [] (guardThat passed) := by
  cases passed with
  | true => exact .pure ()
  | false => exact bail

theorem guardSome (content : Option α) : Assigns [] (guardSome content) := by
  cases content with
  | none => exact bail
  | some a => exact .pure a

theorem use {read : Operands → OperandId → Except EvalError α} {id : OperandId}
    (blameless : ∀ operands error, read operands id = .error error →
      blamesCode (.error error) = false) : Assigns [] (use read id) := by
  intro s
  rw [use_apply]
  cases reads : read s.operands id with
  | ok a => rfl
  | error error => exact ⟨rfl, blameless _ _ reads⟩

theorem get_blameless {id : OperandId} (operands : Operands) (error : EvalError)
    (fails : operands.get id = .error error) : blamesCode (.error error) = false := by
  rw [Operands.get] at fails
  split at fails <;> cases fails <;> rfl

theorem read {expected : OperandKind} {view : OperandValue → Option α} {id : OperandId} :
    Assigns [] (Eval.use (·.read expected view) id) := by
  refine use fun operands error fails => ?_
  simp only [Operands.read] at fails
  cases found : operands.get id with
  | error cause =>
      rw [found] at fails
      cases fails
      exact get_blameless operands _ found
  | ok value =>
      rw [found] at fails
      simp only [bind, Except.bind] at fails
      split at fails <;> cases fails
      rfl

theorem number {id : OperandId} : Assigns [] (Eval.use Operands.number id) := by
  refine use fun operands error fails => ?_
  rw [Operands.number] at fails
  cases found : operands.get id with
  | error cause =>
      rw [found] at fails
      cases fails
      exact get_blameless operands _ found
  | ok value =>
      rw [found] at fails
      simp only [bind, Except.bind] at fails
      split at fails
      · cases fails
      · split at fails <;> cases fails
        rfl
      · cases fails
        rfl

theorem define {id : OperandId} {kind : OperandKind} {value : OperandValue} (same : value.kind = kind) :
    Assigns [(id, kind)] (define id value) := by
  intro s
  rw [define_apply]
  cases defines : s.operands.define id value with
  | ok operands => exact ⟨value, operands, same, defines, rfl⟩
  | error error =>
      refine ⟨rfl, ?_⟩
      rw [Operands.define, Operands.fill] at defines
      split at defines <;> cases defines <;> rfl

theorem input (id : OperandId) (value : Value) : Assigns [(id, .value)] (Eval.define id (.boxed value)) :=
  define rfl

theorem setOutput (output : Value) : Assigns [] (setOutput output) :=
  fun _ => rfl

theorem heap : Assigns [] heap :=
  fun _ => rfl

theorem objectOf {id : OperandId} : Assigns [] (objectOf id) :=
  .bind read fun _ => .bind heap fun _ => .pure _

theorem fieldWord {data : StubData} {field : Field} {type : FieldType} :
    Assigns [] (fieldWord data field type) := by
  rw [Eval.fieldWord]
  split
  · exact .pure _
  · rename_i fails
    exact fail (StubData.not_ofCode_of_wordOf? fails)

theorem fieldInt32 {data : StubData} {field : Field} : Assigns [] (fieldInt32 data field) := by
  rw [Eval.fieldInt32]
  split
  · exact .pure _
  · rename_i fails
    exact fail (StubData.not_ofCode_of_int32? fails)

theorem callOut (call : Heap → Except RuntimeError (Value × Heap)) : Assigns [] (callOut call) := by
  intro s
  cases answers : call s.context.heap with
  | ok answer =>
      rw [callOut_ok answers]
      rfl
  | error error =>
      rw [callOut_error answers]
      exact ⟨rfl, rfl⟩

theorem slotAt {slot? : Object → Int32 → Option Value} {object : Object} {offset : Int32} :
    Assigns [] (slotAt slot? object offset) := by
  rw [Eval.slotAt]
  split
  · exact .pure _
  · exact fail rfl

theorem guardRef (kind : RefKind) {input result : OperandId} :
    Assigns [(result, kind.operandKind)] (guardRef kind input result) :=
  .bind read fun _ => .bind (guardSome _) fun _ => define rfl

theorem guardView {view : Value → Option α} {make : α → OperandValue} {kind : OperandKind}
    {input result : OperandId} (same : ∀ a, (make a).kind = kind) :
    Assigns [(result, kind)] (guardView view make input result) :=
  .bind read fun _ => .bind (guardSome _) fun a => define (same a)

theorem guardValue {test : Value → Bool} {input : OperandId} : Assigns [] (guardValue test input) :=
  .bind read fun _ => guardThat _

theorem classMatches {data : StubData} {object : OperandId} {field : Field} :
    Assigns [] (classMatches data object field) :=
  .bind objectOf fun _ => .bind fieldWord fun _ => .bind heap fun _ => .pure _

theorem callRegExp {call : Address → Address → Int32 → Heap → Except RuntimeError (Value × Heap)}
    {regExp input lastIndex : OperandId} : Assigns [] (callRegExp call regExp input lastIndex) :=
  .bind read fun _ => .bind read fun _ => .bind read fun _ => callOut _

theorem loadSlot {data : StubData} {slot? : Object → Int32 → Option Value} {object : OperandId}
    {offset : Field} : Assigns [] (loadSlot data slot? object offset) :=
  .bind objectOf fun _ => .bind fieldInt32 fun _ => .bind slotAt fun _ => setOutput _

theorem loadTypedResult {data : StubData} {input : TypedOperand} :
    Assigns [] (Op.eval data ⟨.loadTypedResult, input, ()⟩) := by
  rw [Op.eval]
  refine .bind (use get_blameless) fun stored => ?_
  cases stored.payloadType? with
  | none =>
      dsimp only
      cases stored.boxed? with
      | some value => exact setOutput _
      | none => exact fail rfl
  | some found =>
      dsimp only
      by_cases same : found = input.type
      · rw [if_neg (not_not_intro same)]
        cases stored.boxed? with
        | some value => exact setOutput _
        | none => exact fail rfl
      · rw [if_pos same]
        cases stored.boxed? with
        | some value => exact .bind (fail rfl) fun _ => setOutput _
        | none => exact .bind (fail rfl) fun _ => fail rfl

end Eval.Assigns

open Eval in
/-- An operation defines the operand that its signature names as its result. -/
theorem Op.eval_assigns (data : StubData) (op : Op) : Eval.Assigns op.results (op.eval data) := by
  obtain ⟨opcode, args⟩ := op
  cases opcode with
  | returnFromIc => exact fun s => ⟨rfl, rfl⟩
  | guardToObject => exact .guardRef .object
  | guardToString => exact .guardRef .string
  | guardToSymbol => exact .guardRef .symbol
  | guardToBigInt => exact .guardRef .bigint
  | guardIsNullOrUndefined | guardIsNull | guardIsUndefined | guardIsNumber => exact .guardValue
  | guardToBoolean | guardToInt32 | guardBooleanToInt32 | guardToInt32Index | guardToInt32ModUint32
  | guardToUint8Clamped => exact .guardView fun _ => rfl
  | int32ToIntPtr => exact .bind .read fun _ => .define rfl
  | guardNumberToIntPtrIndex =>
      refine .bind .number fun d => ?_
      split
      · exact .define rfl
      · split
        · exact .define rfl
        · exact .bail
  | guardNonDoubleType =>
      obtain ⟨input, type, ⟨⟩⟩ := args
      rw [eval]
      split
      · exact .fail rfl
      · exact .guardValue
  | guardShape => exact .bind .objectOf fun _ => .bind .fieldWord fun _ => .guardThat _
  | guardProto =>
      exact .bind .objectOf fun _ => .bind .fieldWord fun _ => .bind .heap fun _ => .guardThat _
  | guardNullProto | guardClass =>
      exact .bind .objectOf fun _ => .bind .heap fun _ => .guardThat _
  | guardAnyClass => exact .bind .classMatches fun _ => .guardThat _
  | hasClassResult => exact .bind .classMatches fun _ => .setOutput _
  | callRegExpMatcherResult | callRegExpSearcherResult | callRegExpTesterResult => exact .callRegExp
  | regExpFlagResult => exact .bind .objectOf fun _ => .setOutput _
  | callSubstringKernelResult =>
      exact .bind .read fun _ => .bind .read fun _ => .bind .read fun _ => .callOut _
  | guardDynamicSlotValue =>
      exact .bind .objectOf fun _ => .bind .fieldInt32 fun _ => .bind .fieldWord fun _ =>
        .bind .slotAt fun _ => .guardThat _
  | loadFixedSlotResult | loadDynamicSlotResult => exact .loadSlot
  | loadObject =>
      refine .bind .fieldWord fun word => ?_
      split
      · exact .fail rfl
      · exact .define rfl
  | loadInt32Constant => exact .bind .fieldInt32 fun _ => .define rfl
  | loadValueTag => exact .bind .read fun _ => .define rfl
  | guardTagNotEqual => exact .bind .read fun _ => .bind .read fun _ => .guardThat _
  | loadDenseElementResult =>
      refine .bind .objectOf fun _ => .bind .read fun _ => ?_
      dsimp only
      split
      · exact .bail
      · refine .bind (.guardSome _) fun _ => ?_
        split
        · exact .bail
        · exact .setOutput _
  | loadInt32ArrayLengthResult =>
      refine .bind .objectOf fun _ => ?_
      dsimp only
      split
      · exact .setOutput _
      · exact .bail
  | loadInt32Result | loadObjectResult | loadIntPtrResult => exact .bind .read fun _ => .setOutput _
  | loadBooleanResult | loadUndefinedResult => exact .setOutput _
  | loadTypedResult => exact .loadTypedResult

end InlineCache
