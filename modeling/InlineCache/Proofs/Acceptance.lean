import InlineCache.Proofs.Emit.Checks
import InlineCache.Proofs.Emit.WellKinded
import InlineCache.Proofs.Eval.Heeds
import InlineCache.Proofs.Sim.Run

/-!
The evaluation of programs that have been compiled.  The table of the allocator follows the evaluation: an
operand is defined in both or in none, and it is kept in the form of its kind.  So what code generation has
found of an operation the evaluation finds as well, and only values can end it before its end.
-/

namespace InlineCache

/-- The way in which an evaluation ends at an operation that reads the operand that it defines. -/
def Op.EndsAtResult (op : Op) (ending : Except EvalError Outcome) : Prop :=
  op.readsResult = true ∧ ∃ id ∈ op.operands, ending = .error (.uninitialized id)

/-- An operation that reads the operand that it defines is emitted while that operand is undefined. -/
theorem Op.emit_readsResult {env : EmitEnv} {op : Op} {state after : Assembler}
    (own : op.readsResult = true) (runs : (op.emit env).Runs state () after) :
    ∃ id ∈ op.operands, state.allocation.defined id.toNat = false ∧
      ∀ data (s : EvalState) error, s.operands.get id = .error error →
        op.eval data s = (.error (.error error), s) := by
  obtain ⟨opcode, args⟩ := op
  have reads {α : Type} (view : Value → Option α) (make : α → OperandValue) (id : OperandId)
      (s : EvalState) (error : EvalError) (fails : s.operands.get id = .error error) :
      Eval.guardView view make id id s = (.error (.error error), s) := by
    rw [Eval.guardView, Eval.bind_apply, Eval.use_apply, Operands.value, Operands.read, fails]
    rfl
  cases opcode with
  | guardToInt32Index | guardToInt32ModUint32 | guardToUint8Clamped =>
      obtain ⟨input, result, ⟨⟩⟩ := args
      obtain rfl : input = result := of_decide_eq_true own
      obtain ⟨_, _, defines, -⟩ := Asm.runs_bind.mp runs
      obtain ⟨-, undefined, -⟩ := Asm.runs_definePayloadReg defines
      exact ⟨input, .head _, undefined, fun data s => reads _ _ input s⟩
  | _ => cases own

open Allocation

/-- Code generation has come as far as the evaluation, before the operation of an index. -/
structure Accompanies (table : List (Option Nat)) (index : Nat) (s : EvalState) (state : Assembler) :
    Prop where
  ready : state.allocation.Ready s.kinds table index
  length : s.operands.slots.length = table.length

namespace Accompanies

variable {env : EmitEnv} {table : List (Option Nat)} {index : Nat} {s : EvalState}
  {state after : Assembler}

/-- An operand that is used, and has no kind, is an empty slot. -/
theorem empty (accompanies : Accompanies table index s state) {i : Nat} (used : UsedFrom index table i)
    (undefined : s.kinds i = none) : s.operands.slots[i]? = some none := by
  obtain ⟨last, found, -⟩ := used
  refine EvalState.empty_of_kinds ?_ undefined
  rw [accompanies.length]
  exact (List.getElem?_eq_some_iff.mp found).1

/-- An operation that goes through is well kinded, and leaves its operands in their places; one that stops
does so for a reason that lies in the values, or because it reads the operand that it defines. -/
theorem runs {op : Op} (accompanies : Accompanies table index s state)
    (mentioned : ∀ id ∈ op.operands, UsedFrom index table id.toNat)
    (runs : (Asm.emitOp env (op, index)).Runs state () after) :
    (op.eval env.data).Ensures (fun t ending => t.Tolerates ending ∨ op.EndsAtResult ending) s
      fun _ t => Accompanies table (index + 1) t after ∧
        after.allocation.Suits t.kinds (UsedFrom index table) := by
  obtain ⟨begun, begins, emits⟩ := Asm.runs_emitOp runs
  have ready := (Asm.beginOp_ready accompanies.ready).runs () begun begins
  have kind_of_defined (i : Nat) : (s.kinds i).isSome = begun.allocation.defined i := by
    rw [← (ready.suits i).defined, defined_outline]
  have undefined {id : OperandId} (fresh : begun.allocation.defined id.toNat = false) :
      s.kinds id.toNat = none := by
    rwa [← kind_of_defined, Option.isSome_eq_false_iff, Option.isNone_iff_eq_none] at fresh
  by_cases own : op.readsResult = true
  · obtain ⟨id, named, fresh, stops⟩ := op.emit_readsResult own emits
    have empty := accompanies.empty (mentioned id named) (undefined fresh)
    rw [Eval.Ensures, stops env.data s (.uninitialized id) (by rw [Operands.get, empty])]
    exact .inr ⟨own, id, named, rfl⟩
  · have heeds := op.emit_heeds env (Bool.eq_false_iff.mpr own) begun
    have found := heeds.finds ready.suits.grounded () after emits
    have read (read : Reading) (member : read ∈ op.reads) :
        (s.kinds read.1.toNat).isSome = true ∧ UsedFrom index table read.1.toNat :=
      ⟨(kind_of_defined _).trans (found.read read member),
        mentioned _ (Op.mem_operands (.inl ⟨_, member⟩))⟩
    have fresh (result : OperandId × OperandKind) (member : result ∈ op.results) :
        s.kinds result.1.toNat = none :=
      undefined (found.fresh result member)
    have evaluates := op.eval_heeds env.data s (op.emit_checked ready.suits read emits)
      (fun _ member => (read _ member).1) fun result member =>
        accompanies.empty (mentioned _ (Op.mem_operands (.inr ⟨_, member⟩))) (fresh result member)
    refine (evaluates.mono ?_).allow fun _ _ => .inl
    rintro _ t ⟨admitted, kinds, length⟩
    have wellKinded : op.WellKinded s.kinds := ⟨admitted, fresh⟩
    have same : t.kinds = s.kinds.after op := kinds
    refine ⟨⟨?_, length.trans accompanies.length⟩, ?_⟩
    · rw [same]
      exact (Asm.emit_ready ready wellKinded mentioned).runs () after emits
    · rw [same]
      exact (Asm.emit_suits ready wellKinded mentioned).runs () after emits

theorem emitOp {op : Op} (accompanies : Accompanies table index s state)
    (mentioned : ∀ id ∈ op.operands, UsedFrom index table id.toNat)
    (runs : (Asm.emitOp env (op, index)).Runs state () after) :
    (op.eval env.data).Ensures (fun t ending => t.Tolerates ending ∨ op.EndsAtResult ending) s
      fun _ t => Accompanies table (index + 1) t after :=
  (accompanies.runs mentioned runs).mono fun _ _ => And.left

theorem emitOps {ops : List Op} (accompanies : Accompanies table index s state)
    (mentioned : ∀ op k, (op, k) ∈ ops.zipIdx index → ∀ id ∈ op.operands, UsedFrom k table id.toNat)
    (runs : ((ops.zipIdx index).forM (Asm.emitOp env)).Runs state () after) :
    (Eval.ops env.data ops).Ensures
      (fun t ending => t.Tolerates ending ∨ ∃ op ∈ ops, op.EndsAtResult ending) s
      fun _ t => Accompanies table (index + ops.length) t after := by
  induction ops generalizing index s state with
  | nil =>
      cases Asm.runs_forM_nil.mp runs
      exact accompanies
  | cons op rest ih =>
      rw [List.zipIdx_cons] at mentioned runs
      obtain ⟨middle, first, others⟩ := Asm.runs_forM_cons.mp runs
      rw [Eval.ops_cons, List.length_cons, Nat.add_comm rest.length, ← Nat.add_assoc]
      have here := accompanies.emitOp (mentioned op index (.head _)) first
      refine (here.allow fun t ending => ?_).bind fun _ t accompanies => ?_
      · exact Or.imp_right fun ends => ⟨op, .head _, ends⟩
      · refine (ih accompanies (fun op k member => mentioned op k (.tail _ member)) others).allow ?_
        exact fun t ending => Or.imp_right fun ⟨op, member, ends⟩ => ⟨op, .tail _ member, ends⟩

end Accompanies

theorem EvalState.kinds_start (count : Nat) (output : Value) (context : Context) :
    kinds ⟨.empty count, output, context⟩ = .inputs 0 := by
  funext i
  rw [kinds, Kinds.inputs, if_neg (Nat.not_lt_zero i), Operands.empty, List.getElem?_replicate]
  split <;> rfl

/-- The inputs are defined one after the other, which nothing hinders. -/
theorem Eval.defineInputs_ensures {index : Nat} {inputs : List Value} {s : EvalState}
    (reached : s.kinds = .inputs index) (room : index + inputs.length ≤ s.operands.slots.length)
    (small : index + inputs.length ≤ 256) :
    Ensures EvalState.Tolerates (defineInputs index inputs) s fun _ t =>
      t.kinds = .inputs (index + inputs.length) ∧
        t.operands.slots.length = s.operands.slots.length := by
  induction inputs generalizing index s with
  | nil => exact ⟨reached, rfl⟩
  | cons input rest ih =>
      rw [List.length_cons] at room small
      have next : index < 256 := by omega
      have self : (UInt8.ofNat index).toNat = index := UInt8.toNat_ofNat_of_lt' next
      have empty : s.operands.slots[(UInt8.ofNat index).toNat]? = some none := by
        rw [self]
        refine EvalState.empty_of_kinds (by omega) ?_
        rw [reached, Kinds.inputs, if_neg (Nat.lt_irrefl index)]
      have defines : Heeds [] [(UInt8.ofNat index, .value)]
          (define (UInt8.ofNat index) (.boxed input)) s := .define rfl
      refine (defines (fun _ impossible => absurd impossible List.not_mem_nil)
        fun _ member => List.mem_singleton.mp member ▸ empty).bind ?_
      rintro _ t ⟨-, kinds, length⟩
      have onward : t.kinds = .inputs (index + 1) := kinds.trans (reached ▸ Kinds.inputs_succ next)
      have others := ih onward (by omega) (by omega)
      rw [length, Nat.add_right_comm] at others
      exact others

/-- The code of the first operations of a program keeps company with their evaluation. -/
theorem Asm.body_accompanies (env : EmitEnv) {inputCount : UInt8} {ops rest : List Op} {count : Nat}
    {table : List (Option Nat)} {after : Assembler} (uses : lastUses (ops ++ rest) count = .ok table)
    (started : start (ops ++ rest) count env.config = .ok (blank env.config table))
    (runs : (body env inputCount.toNat ops).Runs (.start (blank env.config table)) () after)
    {inputs : List Value} (given : inputs.length = inputCount.toNat) (room : inputs.length ≤ count)
    (context : Context) :
    (Eval.defineInputs 0 inputs >>= fun _ => Eval.ops env.data ops).Ensures
      (fun t ending => t.Tolerates ending ∨ ∃ op ∈ ops, op.EndsAtResult ending)
      ⟨.empty count, .undefined, context⟩ fun _ t => Accompanies table ops.length t after := by
  obtain ⟨begun, first, others⟩ := runs_body.mp runs
  have ahead := (prologue_ahead env inputCount started).runs () begun first
  have small : 0 + inputs.length ≤ 256 := by
    rw [Nat.zero_add, given]
    exact Nat.le_of_lt inputCount.toNat_lt
  have slots : (Operands.empty count).slots.length = count := List.length_replicate
  have defined := Eval.defineInputs_ensures (EvalState.kinds_start count .undefined context)
    (by rwa [Nat.zero_add, slots]) small
  refine (defined.allow fun _ _ => .inl).bind ?_
  rintro _ s ⟨kinds, length⟩
  have accompanies : Accompanies table 0 s begun := by
    refine ⟨?_, (length.trans slots).trans (length_lastUses uses).symm⟩
    rw [kinds, Nat.zero_add, given]
    exact ahead.ready
  have mentioned (op : Op) (k : Nat) (listed : (op, k) ∈ ops.zipIdx) (id : OperandId)
      (member : id ∈ op.operands) : UsedFrom k table id.toNat :=
    usedFrom_lastUses uses (List.zipIdx_append .. ▸ List.mem_append_left _ listed) member
  have carried := accompanies.emitOps mentioned others
  rwa [Nat.zero_add] at carried

/-- A program whose code has been emitted ends for a reason that lies in the values, or at an operation that
reads the operand that it defines. -/
theorem accepted_program_ends_tolerably (program : StubProgram) (data : StubData) (config : CodeConfig)
    (summary : EmitSummary) (code : CodeBuffer)
    (emits : emitStub program data config = .ok (summary, code)) (inputs : List Value)
    (given : inputs.length = program.inputCount.toNat) (context : Context) :
    let result := evaluate program data inputs context
    result.state.Tolerates result.ending ∨
      ∃ ops, program.terminatedOps = .ok ops ∧ ∃ op ∈ ops, op.EndsAtResult result.ending := by
  obtain ⟨ops, allocation, state, read, enough, started, runs, -, -⟩ := emitStub_ok emits
  obtain ⟨table, uses, rfl⟩ := start_ok started
  rw [← List.append_nil ops] at uses started
  have carried := Asm.body_accompanies ⟨data, config⟩ uses started runs given (given ▸ enough) context
  obtain ⟨stop, t, evaluated, ends⟩ := evaluate_eq (Cursor.terminated read) data given context
  rw [Eval.Ensures, evaluated] at carried
  rw [ends]
  rcases carried with tolerated | ⟨op, member, own⟩
  · exact .inl tolerated
  · exact .inr ⟨ops, read, op, member, own⟩

/-- An object without slots is asked for its second one. -/
theorem missing_slot_is_tolerable :
    let program : StubProgram := ⟨[1, 0, 1, 31, 1, 0, 0], 2, 1⟩
    let data : StubData := ⟨[8], [.rawInt32]⟩
    let result := evaluate program data [.ofRef .object (Block.object 0).address] .empty
    (∃ summary code, emitStub program data ⟨4, 1, 0, true, .address, true⟩ = .ok (summary, code)) ∧
      result.ending = .error (.invalidSlotOffset 8) ∧
      (result.state.Tolerates result.ending ∨
        ∃ ops, program.terminatedOps = .ok ops ∧ ∃ op ∈ ops, op.EndsAtResult result.ending) := by
  intro program data result
  have emitted : (emitStub program data ⟨4, 1, 0, true, .address, true⟩).isOk = true := by
    decide +kernel
  have ending : result.ending = .error (.invalidSlotOffset 8) := by decide +kernel
  cases emits : emitStub program data ⟨4, 1, 0, true, .address, true⟩ with
  | error reason =>
      rw [emits] at emitted
      cases emitted
  | ok stub =>
      exact ⟨⟨_, _, rfl⟩, ending, accepted_program_ends_tolerably program data _ _ _ emits _ rfl .empty⟩

/-- A program that reads what is undefined is compiled: its guard makes an index of the operand that it
defines. -/
theorem undefined_operand_is_accepted :
    let program : StubProgram := ⟨[12, 1, 1, 38, 1, 0], 2, 1⟩
    (emitStub program .empty ⟨8, 2, 16, true, .constant, true⟩).isOk = true ∧
      (evaluate program .empty [.ofInt32 7] .empty).ending = .error (.uninitialized 1) := by
  decide +kernel

end InlineCache
