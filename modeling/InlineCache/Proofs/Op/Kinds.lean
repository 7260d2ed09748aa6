import InlineCache.Emit.Stub

/-!
Kinds of operands.  An operation reads operands and defines at most one.  A program is well kinded when
it reads no operand before it is defined, as an input or as the result of an earlier operation, reads
each as the kind that it was defined with, and defines none twice.
-/

namespace InlineCache

/-- What an operand is that may be read so: numbers may be boxed, or int32s. -/
def OperandKind.admits : OperandKind → OperandKind → Bool
  | .number, found => found = .number ∨ found = .value ∨ found = .int32
  | asked, found => found = asked

/-- What an operand is that may hold a value of the type: it is boxed, or the payload of the type. -/
def ValueType.admits (type : ValueType) (found : OperandKind) : Bool :=
  found = .value ∨ found.valueType? = some type

/-- An operand, and the kinds that it may be of. -/
abbrev Reading := OperandId × (OperandKind → Bool)

def Param.reads : (param : Param) → param.Arg → List Reading
  | .use kind, id => [(id, kind.admits)]
  | .typed, operand => [(operand.id, operand.type.admits)]
  | .result _, _ | .field, _ | .flag, _ | .int32, _ | .valueType, _ | .classKind, _ => []

def Param.results : (param : Param) → param.Arg → List (OperandId × OperandKind)
  | .result kind, id => [(id, kind)]
  | .use _, _ | .typed, _ | .field, _ | .flag, _ | .int32, _ | .valueType, _ | .classKind, _ => []

def Args.reads : (params : List Param) → Args params → List Reading
  | [], _ => []
  | param :: params, (arg, args) => param.reads arg ++ Args.reads params args

def Args.results : (params : List Param) → Args params → List (OperandId × OperandKind)
  | [], _ => []
  | param :: params, (arg, args) => param.results arg ++ Args.results params args

namespace Op

def reads (op : Op) : List Reading :=
  Args.reads op.opcode.signature op.args

/-- The operand that the operation defines, if it defines one. -/
def results (op : Op) : List (OperandId × OperandKind) :=
  Args.results op.opcode.signature op.args

/-- What the operation reads or defines it mentions. -/
theorem mem_operands {op : Op} {id : OperandId}
    (named : (∃ admits, (id, admits) ∈ op.reads) ∨ ∃ kind, (id, kind) ∈ op.results) :
    id ∈ op.operands := by
  have general (params : List Param) (args : Args params)
      (named : (∃ admits, (id, admits) ∈ Args.reads params args) ∨
        ∃ kind, (id, kind) ∈ Args.results params args) : id ∈ Args.operands params args := by
    induction params with
    | nil =>
        rcases named with ⟨_, impossible⟩ | ⟨_, impossible⟩
        · exact absurd impossible List.not_mem_nil
        · exact absurd impossible List.not_mem_nil
    | cons param params ih =>
        obtain ⟨arg, args⟩ := args
        simp only [Args.reads, Args.results, Args.operands, List.mem_append] at named ⊢
        rcases named with ⟨admits, here | there⟩ | ⟨kind, here | there⟩
        · left
          cases param with
          | use | typed =>
              cases List.mem_singleton.mp here
              exact .head _
          | result | field | flag | int32 | valueType | classKind => exact absurd here List.not_mem_nil
        · exact .inr (ih args (.inl ⟨admits, there⟩))
        · left
          cases param with
          | result =>
              cases List.mem_singleton.mp here
              exact .head _
          | use | typed | field | flag | int32 | valueType | classKind =>
              exact absurd here List.not_mem_nil
        · exact .inr (ih args (.inr ⟨kind, there⟩))
  exact general _ _ named

end Op

/-- The kinds that operands were defined with. -/
abbrev Kinds := Nat → Option OperandKind

namespace Kinds

/-- The inputs are values. -/
def inputs (count : Nat) : Kinds :=
  fun i => if i < count then some .value else none

def define (kinds : Kinds) (id : OperandId) (kind : OperandKind) : Kinds :=
  fun i => if i = id.toNat then some kind else kinds i

def after (kinds : Kinds) (op : Op) : Kinds :=
  op.results.foldl (fun kinds result => kinds.define result.1 result.2) kinds

/-- The operand has a kind that it may be read with. -/
def Admits (kinds : Kinds) (read : Reading) : Prop :=
  ∃ kind, kinds read.1.toNat = some kind ∧ read.2 kind = true

instance (kinds : Kinds) (read : Reading) : Decidable (kinds.Admits read) :=
  match found : kinds read.1.toNat with
  | none => .isFalse fun ⟨_, same, _⟩ => nomatch found.symm.trans same
  | some kind => decidable_of_iff (read.2 kind = true)
      ⟨fun admits => ⟨kind, found, admits⟩, fun ⟨_, same, admits⟩ =>
        Option.some.inj (found.symm.trans same) ▸ admits⟩

theorem inputs_succ {i : Nat} (small : i < 256) :
    (inputs i).define (UInt8.ofNat i) .value = inputs (i + 1) := by
  funext j
  rw [define, UInt8.toNat_ofNat_of_lt' small, inputs, inputs]
  by_cases own : j = i
  · rw [if_pos own, if_pos (own ▸ Nat.lt_succ_self i)]
  · rw [if_neg own]
    simp only [Nat.lt_succ_iff_lt_or_eq, own, or_false]

/-- What has a kind keeps it when an operand is defined that has none. -/
theorem define_of_defined {kinds : Kinds} {id : OperandId} (kind : OperandKind)
    (fresh : kinds id.toNat = none) {i : Nat} {found : OperandKind} (same : kinds i = some found) :
    kinds.define id kind i = some found := by
  have other : i ≠ id.toNat := by
    rintro rfl
    cases same.symm.trans fresh
  rw [define, if_neg other, same]

end Kinds

def Op.WellKinded (kinds : Kinds) (op : Op) : Prop :=
  (∀ read ∈ op.reads, kinds.Admits read) ∧ ∀ result ∈ op.results, kinds result.1.toNat = none

instance (kinds : Kinds) (op : Op) : Decidable (op.WellKinded kinds) :=
  inferInstanceAs (Decidable (_ ∧ _))

/-- Each operation reads what was defined before it, and defines what was not. -/
def WellKinded (kinds : Kinds) : List Op → Prop
  | [] => True
  | op :: rest => op.WellKinded kinds ∧ WellKinded (kinds.after op) rest

instance WellKinded.decide : (kinds : Kinds) → (ops : List Op) → Decidable (WellKinded kinds ops)
  | _, [] => .isTrue trivial
  | kinds, op :: rest =>
      have := WellKinded.decide (kinds.after op) rest
      inferInstanceAs (Decidable (_ ∧ _))

def StubProgram.WellKinded (program : StubProgram) : Prop :=
  ∀ ops, program.terminatedOps = .ok ops →
    InlineCache.WellKinded (.inputs program.inputCount.toNat) ops

instance (program : StubProgram) : Decidable program.WellKinded :=
  match read : program.terminatedOps with
  | .error _ => .isTrue fun _ same => nomatch read.symm.trans same
  | .ok ops => decidable_of_iff (InlineCache.WellKinded (.inputs program.inputCount.toNat) ops)
      ⟨fun wellKinded _ same => Except.ok.inj (read.symm.trans same) ▸ wellKinded,
        fun wellKinded => wellKinded ops read⟩

end InlineCache
