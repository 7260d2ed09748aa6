import InlineCache.Proofs.Emit.HeedsOps
import InlineCache.Proofs.Eval.Kinds

/-!
What code generation makes sure of.  It looks at the words of stub data that an operation names and at
the type that it claims of an operand, and goes on only if they are right.
-/

namespace InlineCache

theorem OperandKind.valueType?_of_form? {kind : OperandKind} {type : PayloadType}
    (kept : kind.form? = some (.payload type)) : kind.valueType? = type.valueType? := by
  cases kind <;> cases kept <;> rfl

namespace Asm

open Allocation

/-- Where the stretch goes through, something holds. -/
def Checks {α : Type} (holds : Prop) (stretch : Asm α) : Prop :=
  ∀ state answer after, stretch.Runs state answer after → holds

namespace Checks

variable {holds : Prop} {α β : Type} {stretch : Asm α} {next : α → Asm β} {env : EmitEnv}
  {field : Field}

theorem here (checks : Checks holds stretch) : Checks holds (stretch >>= next) := by
  intro state answer after runs
  obtain ⟨first, middle, runs, -⟩ := runs_bind.mp runs
  exact checks state first middle runs

theorem later (checks : ∀ answer, Checks holds (next answer)) : Checks holds (stretch >>= next) := by
  intro state answer after runs
  obtain ⟨first, middle, -, runs⟩ := runs_bind.mp runs
  exact checks first middle answer after runs

theorem and {more : Prop} (first : Checks holds stretch) (second : Checks more stretch) :
    Checks (holds ∧ more) stretch :=
  fun state answer after runs => ⟨first state answer after runs, second state answer after runs⟩

theorem reject {defect : Defect} : Checks holds (reject defect : Asm α) :=
  fun _ _ _ runs => absurd runs not_runs_reject

theorem typedWord_bind {type : FieldType} {next : UInt64 → Asm β} {fits : UInt64 → Prop}
    (rest : ∀ word, Checks (fits word) (next word)) :
    Checks (∃ word, env.data.wordOf? field.offset type = .ok word ∧ fits word)
      (typedWord env field type >>= next) := by
  rw [typedWord]
  cases found : env.data.wordOf? field.offset type with
  | error error => exact here fun _ _ _ fails => absurd fails not_runs_throw
  | ok word => exact fun state answer after runs => ⟨word, rfl, rest word state answer after runs⟩

theorem int32Word_bind {next : Int32 → Asm β} {fits : Int32 → Prop}
    (rest : ∀ n, Checks (fits n) (next n)) :
    Checks (∃ n, env.data.int32? field.offset = .ok n ∧ fits n) (int32Word env field >>= next) := by
  rw [int32Word]
  cases found : env.data.int32? field.offset with
  | error error => exact here fun _ _ _ fails => absurd fails not_runs_throw
  | ok n => exact fun state answer after runs => ⟨n, rfl, rest n state answer after runs⟩

/-- A word that is used as a source has its type. -/
theorem fieldSource {type : FieldType} :
    Checks (∃ word, env.data.wordOf? field.offset type = .ok word) (fieldSource env field type) := by
  intro state answer after runs
  have checks : Checks _ (Asm.fieldSource env field type) :=
    typedWord_bind (β := Source) fun _ _ _ _ _ => trivial
  obtain ⟨word, found, -⟩ := checks state answer after runs
  exact ⟨word, found⟩

theorem int32Source_bind {next : Int32 × Source → Asm β} {fits : Int32 → Prop}
    (rest : ∀ n source, Checks (fits n) (next (n, source))) :
    Checks (∃ n, env.data.int32? field.offset = .ok n ∧ fits n) (int32Source env field >>= next) := by
  rw [int32Source, bind_assoc]
  refine int32Word_bind fun n => ?_
  rw [bind_assoc]
  refine later fun source => ?_
  rw [pure_bind]
  exact rest n source

theorem checkFixedSlot {offset : Int32} : Checks (Object.FixedOffset offset) (checkFixedSlot offset) := by
  rw [Asm.checkFixedSlot]
  split
  · exact reject
  · exact fun _ _ _ _ => ⟨by omega, by omega, by omega⟩

theorem checkDynamicSlot {offset : Int32} :
    Checks (Object.DynamicOffset offset) (checkDynamicSlot offset) := by
  rw [Asm.checkDynamicSlot]
  split
  · exact reject
  · exact fun _ _ _ _ => ⟨by omega, by omega⟩

end Checks

/-- Something read as a value of a type has been found to be one. -/
theorem loadTypedResult_admits {input : TypedOperand} {state after : Assembler} {kinds : Kinds}
    {needed : Nat → Prop} (suits : state.allocation.Suits kinds needed)
    (live : needed input.id.toNat) (defined : (kinds input.id.toNat).isSome = true)
    (runs : (loadTypedResult input).Runs state () after) :
    kinds.Admits (input.id, input.type.admits) := by
  have suited := suits input.id.toNat
  obtain ⟨kind, same⟩ := Option.isSome_iff_exists.mp defined
  obtain ⟨form, found⟩ := Option.ne_none_iff_exists'.mp
    (suited.present live (suited.defined.trans defined))
  have kept := suited.form form found
  rw [same] at kept
  rw [form_outline] at found
  refine ⟨kind, same, decide_eq_true ?_⟩
  obtain ⟨_, _, looks, runs⟩ := runs_bind.mp runs
  obtain ⟨rfl, rfl⟩ := runs_allocation.mp looks
  split at runs
  · rename_i type payload
    split at runs
    · exact absurd runs not_runs_reject
    · rename_i claimed
      cases found.symm.trans (Location.form?_of_payload? payload)
      exact .inr ((OperandKind.valueType?_of_form? kept).trans (Decidable.not_not.mp claimed))
  · rename_i bare
    exact .inl (OperandKind.value_of_form? bare found kept)

end Asm

open Asm in
/-- An operation whose code is emitted has been checked. -/
theorem Op.emit_checked {env : EmitEnv} {op : Op} {state after : Assembler} {kinds : Kinds}
    {needed : Nat → Prop} (suits : state.allocation.Suits kinds needed)
    (reads : ∀ read ∈ op.reads, (kinds read.1.toNat).isSome = true ∧ needed read.1.toNat)
    (runs : (op.emit env).Runs state () after) : op.Checked env.data kinds := by
  obtain ⟨opcode, args⟩ := op
  have by_code {holds : Prop} {code : Asm Unit} (checks : Checks holds code)
      (runs : code.Runs state () after) : holds :=
    checks state () after runs
  cases opcode with
  | guardNonDoubleType =>
      obtain ⟨input, type, ⟨⟩⟩ := args
      intro double
      rw [emit, if_pos double] at runs
      exact not_runs_reject runs
  | guardShape => exact by_code (.later fun _ => .here .fieldSource) runs
  | guardProto => exact by_code (.later fun _ => .here .fieldSource) runs
  | guardAnyClass => exact by_code (.here .fieldSource) runs
  | hasClassResult => exact by_code (.later fun _ => .here .fieldSource) runs
  | guardDynamicSlotValue =>
      refine by_code (.and ?_ ?_) runs
      · exact .later fun _ => .int32Source_bind fun _ _ => .here .checkDynamicSlot
      · exact .later fun _ => .later fun _ => .later fun _ => .later fun _ => .later fun _ =>
          .here .fieldSource
  | loadFixedSlotResult =>
      exact by_code (.later fun _ => .int32Source_bind fun _ _ => .here .checkFixedSlot) runs
  | loadDynamicSlotResult =>
      exact by_code (.later fun _ => .int32Source_bind fun _ _ => .here .checkDynamicSlot) runs
  | loadObject =>
      refine by_code (.typedWord_bind fun word => ?_) runs
      split
      · exact .reject
      · rename_i nonzero
        exact fun _ _ _ _ => nonzero
  | loadInt32Constant =>
      obtain ⟨n, found, -⟩ := by_code (.int32Word_bind fun _ _ _ _ _ => trivial) runs
      exact ⟨n, found⟩
  | loadTypedResult =>
      obtain ⟨input, ⟨⟩⟩ := args
      obtain ⟨defined, live⟩ := reads _ (.head _)
      exact loadTypedResult_admits suits live defined runs
  | _ => trivial

end InlineCache
