import InlineCache.Emit.Stub

/-!
Decoding a program.  What can be decoded of a byte string is a list of operations, with what stands behind
it; a decoder is what it makes of the two.
-/

namespace InlineCache

/-- Whether bytes of code can be wrong in this way. -/
def StubError.ofCode : StubError → Bool
  | .unknownOpcode _ | .unexpectedEnd _ | .invalidValueType _ | .invalidClassKind _ => true
  | .fieldOutOfBounds _ _ | .fieldTypeMismatch _ _ _ | .tooManyOperands | .missingTerminal => false

/-- A read that fails only with what can be wrong with bytes of code. -/
def Read.BlamesCode (read : Read α) : Prop :=
  ∀ (cursor next : Cursor) (error : StubError), read cursor = (.error error, next) →
    error.ofCode = true

namespace Read.BlamesCode

protected theorem pure (a : α) : Read.BlamesCode (pure a : Read α) :=
  fun _ _ _ fails => nomatch fails

protected theorem throw {error : StubError} (blamed : error.ofCode = true) :
    Read.BlamesCode (throw error : Read α) := by
  intro cursor next other fails
  cases fails
  exact blamed

protected theorem bind {read : Read α} {after : α → Read β} (first : Read.BlamesCode read)
    (rest : ∀ a, Read.BlamesCode (after a)) : Read.BlamesCode (read >>= after) := by
  intro cursor next error fails
  rw [Read.bind_apply] at fails
  rcases reads : read cursor with ⟨cause | a, middle⟩
  · rw [reads] at fails
    cases fails
    exact first _ _ _ reads
  · rw [reads] at fails
    exact rest a _ _ _ fails

theorem byte : Read.BlamesCode Read.byte := by
  intro cursor next error fails
  rw [Read.byte] at fails
  split at fails
  · cases fails
  · cases fails
    rfl

theorem int32 : Read.BlamesCode Read.int32 := by
  intro cursor next error fails
  rw [Read.int32] at fails
  split at fails
  · cases fails
  · cases fails
    rfl

theorem field : Read.BlamesCode Read.field :=
  byte.bind fun _ => .pure _

theorem valueType : Read.BlamesCode Read.valueType :=
  byte.bind fun b => by
    cases ValueType.ofByte? b with
    | none => exact .throw rfl
    | some type => exact .pure type

theorem classKind : Read.BlamesCode Read.classKind :=
  byte.bind fun b => by
    cases ClassKind.ofByte? b with
    | none => exact .throw rfl
    | some kind => exact .pure kind

theorem opcode : Read.BlamesCode Read.opcode :=
  byte.bind fun b => by
    cases Opcode.ofByte? b with
    | none => exact .throw rfl
    | some opcode => exact .pure opcode

theorem param (param : Param) : Read.BlamesCode param.read := by
  cases param with
  | use | result => exact byte
  | typed => exact byte.bind fun _ => valueType.bind fun _ => .pure _
  | field => exact field
  | flag => exact byte.bind fun _ => .pure _
  | int32 => exact int32
  | valueType => exact valueType
  | classKind => exact classKind

theorem args (params : List Param) : Read.BlamesCode (Args.read params) := by
  induction params with
  | nil => exact .pure _
  | cons first params ih => exact (param first).bind fun _ => ih.bind fun _ => .pure _

end Read.BlamesCode

theorem Op.read_blamesCode : Read.BlamesCode Op.read :=
  Read.BlamesCode.opcode.bind fun _ => (Read.BlamesCode.args _).bind fun _ => .pure _

theorem Op.not_atEnd_of_read {cursor next : Cursor} {op : Op}
    (reads : Op.read cursor = (.ok op, next)) : cursor.atEnd = false := by
  obtain ⟨offset, rest⟩ := cursor
  cases rest with
  | nil => cases reads
  | cons => rfl

/-- What stands behind the operations that can be decoded. -/
inductive Tail
  | terminal
  | endOfCode
  | undecodable (error : StubError)
  deriving DecidableEq, Repr

/-- The operations that can be decoded one after another: up to the terminal one, which is the last, or as
far as there are bytes of operations. -/
inductive Cursor.Decodes : Cursor → List Op → Tail → Prop
  | endOfCode {cursor : Cursor} (atEnd : cursor.atEnd = true) : Decodes cursor [] .endOfCode
  | undecodable {cursor next : Cursor} {error : StubError} (more : cursor.atEnd = false)
      (reads : Op.read cursor = (.error error, next)) : Decodes cursor [] (.undecodable error)
  | terminal {cursor next : Cursor} {op : Op} (reads : Op.read cursor = (.ok op, next))
      (terminal : op.isTerminal = true) : Decodes cursor [op] .terminal
  | cons {cursor next : Cursor} {op : Op} {ops : List Op} {tail : Tail}
      (reads : Op.read cursor = (.ok op, next)) (plain : op.isTerminal = false)
      (rest : Decodes next ops tail) : Decodes cursor (op :: ops) tail

theorem Cursor.exists_decodes (cursor : Cursor) : ∃ ops tail, cursor.Decodes ops tail := by
  fun_induction Cursor.ops cursor with
  | case1 cursor atEnd => exact ⟨_, _, .endOfCode atEnd⟩
  | case2 cursor more error next reads =>
      exact ⟨_, _, .undecodable (Bool.eq_false_iff.mpr more) reads⟩
  | case3 cursor more op next reads terminal => exact ⟨_, _, .terminal reads terminal⟩
  | case4 cursor more op next reads plain ops rest ih
  | case5 cursor more op next reads plain error rest ih =>
      obtain ⟨others, tail, decodes⟩ := ih
      exact ⟨_, _, .cons reads (Bool.eq_false_iff.mpr plain) decodes⟩

/-- Decoding that lets a program end without a terminal operation. -/
def Tail.lenient (ops : List Op) : Tail → Except StubError (List Op)
  | .terminal | .endOfCode => .ok ops
  | .undecodable error => .error error

/-- Decoding of what is to be compiled. -/
def Tail.strict (ops : List Op) (count : Nat) : Tail → Except CodeError (List Op)
  | .terminal => .ok ops
  | .endOfCode => .error (.decode .missingTerminal)
  | .undecodable (.unknownOpcode byte) => .error (.unsupportedOp count byte)
  | .undecodable error => .error (.decode error)

namespace Cursor.Decodes

variable {cursor : Cursor} {ops : List Op} {tail : Tail}

theorem ops_eq (decodes : cursor.Decodes ops tail) : cursor.ops = tail.lenient ops := by
  induction decodes with
  | endOfCode atEnd => rw [Cursor.ops, if_pos atEnd, Tail.lenient]
  | undecodable more reads =>
      rw [Cursor.ops, more, reads]
      rfl
  | terminal reads terminal =>
      rw [Cursor.ops, Op.not_atEnd_of_read reads, reads]
      exact if_pos terminal
  | @cons cursor next op ops tail reads plain _ ih =>
      rw [Cursor.ops, Op.not_atEnd_of_read reads, reads]
      simp only [Bool.false_eq_true, if_false, plain, ih]
      cases tail <;> rfl

theorem terminatedOps_eq (decodes : cursor.Decodes ops tail) (index : Nat) :
    cursor.terminatedOps index = tail.strict ops (index + ops.length) := by
  induction decodes generalizing index with
  | endOfCode atEnd => rw [Cursor.terminatedOps, if_pos atEnd, Tail.strict]
  | @undecodable cursor next error more reads =>
      rw [Cursor.terminatedOps, more, reads]
      cases error <;> rfl
  | terminal reads terminal =>
      rw [Cursor.terminatedOps, Op.not_atEnd_of_read reads, reads]
      exact if_pos terminal
  | @cons cursor next op ops tail reads plain _ ih =>
      rw [Cursor.terminatedOps, Op.not_atEnd_of_read reads, reads]
      simp only [Bool.false_eq_true, if_false, plain, ih, List.length_cons]
      rw [Nat.add_right_comm, Nat.add_assoc]
      cases tail with
      | terminal | endOfCode => rfl
      | undecodable error => cases error <;> rfl

theorem blames {error : StubError} (decodes : cursor.Decodes ops (.undecodable error)) :
    error.ofCode = true := by
  generalize behind : Tail.undecodable error = tail at decodes
  induction decodes with
  | undecodable more reads =>
      cases behind
      exact Op.read_blamesCode _ _ _ reads
  | cons _ _ _ ih => exact ih behind
  | endOfCode | terminal => cases behind

/-- The terminal operation, if there is one, is the last. -/
theorem ends (decodes : cursor.Decodes ops .terminal) :
    ∃ op, ops.getLast? = some op ∧ op.isTerminal = true := by
  generalize behind : Tail.terminal = tail at decodes
  induction decodes with
  | terminal reads terminal => exact ⟨_, rfl, terminal⟩
  | cons _ _ rest ih =>
      obtain ⟨op, last, terminal⟩ := ih behind
      exact ⟨op, by rw [List.getLast?_cons, last, Option.getD_some], terminal⟩
  | endOfCode | undecodable => cases behind

theorem plain (decodes : cursor.Decodes ops tail) (other : tail ≠ .terminal) :
    ∀ op ∈ ops, op.isTerminal = false := by
  induction decodes with
  | endOfCode | undecodable => simp
  | terminal => exact absurd rfl other
  | cons _ plain _ ih => simpa [plain] using ih other

end Cursor.Decodes

namespace StubProgram

variable {program : StubProgram} {decoded : List Op} {tail : Tail}

theorem ops_eq (decodes : (Cursor.start program.code).Decodes decoded tail) :
    program.ops = tail.lenient decoded :=
  decodes.ops_eq

theorem terminatedOps_eq (decodes : (Cursor.start program.code).Decodes decoded tail) :
    program.terminatedOps = tail.strict decoded decoded.length := by
  rw [terminatedOps, decodes.terminatedOps_eq, Nat.zero_add]

theorem terminatedOps_eq_ok (program : StubProgram) (ops : List Op) :
    program.terminatedOps = .ok ops ↔
      program.ops = .ok ops ∧ ∃ op, ops.getLast? = some op ∧ op.isTerminal = true := by
  obtain ⟨decoded, tail, decodes⟩ := Cursor.exists_decodes (.start program.code)
  rw [ops_eq decodes, terminatedOps_eq decodes]
  cases tail with
  | terminal =>
      rw [Tail.strict, Tail.lenient, Except.ok.injEq, Except.ok.injEq]
      exact ⟨fun same => ⟨same, same ▸ decodes.ends⟩, And.left⟩
  | endOfCode =>
      refine ⟨fun impossible => (nomatch impossible), ?_⟩
      rintro ⟨⟨⟩, op, last, terminal⟩
      rw [decodes.plain nofun op (List.mem_of_getLast? last)] at terminal
      cases terminal
  | undecodable error =>
      refine ⟨fun impossible => ?_, fun ⟨impossible, _⟩ => (nomatch impossible)⟩
      cases error <;> cases impossible

theorem terminatedOps_eq_missingTerminal (program : StubProgram) :
    program.terminatedOps = .error (.decode .missingTerminal) ↔
      ∃ ops, program.ops = .ok ops ∧ ∀ op ∈ ops, op.isTerminal = false := by
  obtain ⟨decoded, tail, decodes⟩ := Cursor.exists_decodes (.start program.code)
  rw [ops_eq decodes, terminatedOps_eq decodes]
  cases tail with
  | terminal =>
      refine ⟨fun impossible => (nomatch impossible), ?_⟩
      rintro ⟨_, ⟨⟩, plain⟩
      obtain ⟨op, last, terminal⟩ := decodes.ends
      rw [plain op (List.mem_of_getLast? last)] at terminal
      cases terminal
  | endOfCode => exact ⟨fun _ => ⟨decoded, rfl, decodes.plain nofun⟩, fun _ => rfl⟩
  | undecodable error =>
      refine ⟨fun impossible => ?_, fun ⟨_, impossible, _⟩ => (nomatch impossible)⟩
      have blamed := decodes.blames
      cases error <;> cases impossible
      cases blamed

theorem terminatedOps_eq_unsupportedOp
    (decodes : (Cursor.start program.code).Decodes decoded tail) (index : Nat) (byte : UInt8) :
    program.terminatedOps = .error (.unsupportedOp index byte) ↔
      program.ops = .error (.unknownOpcode byte) ∧ decoded.length = index := by
  rw [ops_eq decodes, terminatedOps_eq decodes]
  cases tail with
  | terminal | endOfCode => simp [Tail.strict, Tail.lenient]
  | undecodable error => cases error <;> simp [Tail.strict, Tail.lenient, and_comm]

theorem terminatedOps_eq_decode (program : StubProgram) {error : StubError}
    (present : error ≠ .missingTerminal) (known : ∀ byte, error ≠ .unknownOpcode byte) :
    program.terminatedOps = .error (.decode error) ↔ program.ops = .error error := by
  obtain ⟨decoded, tail, decodes⟩ := Cursor.exists_decodes (.start program.code)
  rw [ops_eq decodes, terminatedOps_eq decodes]
  cases tail with
  | terminal => simp [Tail.strict, Tail.lenient]
  | endOfCode => simp [Tail.strict, Tail.lenient, present.symm]
  | undecodable found => cases found <;> simp [Tail.strict, Tail.lenient, Ne.symm (known _)]

end StubProgram

end InlineCache
