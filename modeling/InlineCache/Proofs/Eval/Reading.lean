import InlineCache.Eval.Step

/-!
Steps of an evaluation: the words and the operands that it reads, what it stores, and where it stops.
-/

namespace InlineCache

/-- A word is found where both lists have an entry, and the second one is the type. -/
theorem StubData.wordOf?_eq_ok {data : StubData} {offset : Nat} {type : FieldType} {word : UInt64} :
    data.wordOf? offset type = .ok word ↔
      data.words[offset / 8]? = some word ∧ data.types[offset / 8]? = some type := by
  rw [wordOf?, typed?]
  cases words : data.words[offset / 8]? with
  | none => exact ⟨fun found => (nomatch found), fun found => (nomatch found.1)⟩
  | some first =>
      cases types : data.types[offset / 8]? with
      | none => exact ⟨fun found => (nomatch found), fun found => (nomatch found.2)⟩
      | some second =>
          change (if second = type then Except.ok first else .error _) = .ok word ↔ _
          split
          · simp_all
          · simp_all

theorem StubData.word_of_wordOf? {data : StubData} {offset : Nat} {type : FieldType} {word : UInt64}
    (found : data.wordOf? offset type = .ok word) : data.words[offset / 8]? = some word :=
  (wordOf?_eq_ok.mp found).1

theorem StubData.mem_of_wordOf? {data : StubData} {offset : Nat} {type : FieldType} {word : UInt64}
    (found : data.wordOf? offset type = .ok word) : (word, type) ∈ data.words.zip data.types := by
  obtain ⟨first, second⟩ := wordOf?_eq_ok.mp found
  exact List.mem_of_getElem? (List.getElem?_zip_eq_some.mpr ⟨first, second⟩)

theorem Operands.read_eq {operands : Operands} (expected : OperandKind)
    (view : OperandValue → Option α) {id : OperandId} {stored : OperandValue}
    (found : operands.slots[id.toNat]? = some (some stored)) :
    operands.read expected view id =
      (view stored).elim (.error (.kindMismatch id expected stored.kind)) .ok := by
  rw [read, get, found]
  cases seen : view stored <;> simp [bind, Except.bind, seen] <;> rfl

theorem Object.slotIndex_eq {displacement : Int} (nonnegative : 0 ≤ displacement)
    (small : displacement < 0x80000000) : slotIndex displacement = displacement.toNat / 8 := by
  have quotient : displacement.tdiv 8 = ((displacement.toNat / 8 : Nat) : Int) := by
    rw [Int.tdiv_eq_ediv_of_nonneg nonnegative]
    omega
  rw [slotIndex, quotient, Int64.ofInt_eq_ofNat, Int64.toNat_toUInt64_of_le]
  · exact Int64.toNatClampNeg_ofNat_of_lt (by omega)
  · rw [Int64.le_iff_toInt_le, Int64.toInt_ofNat_of_lt (by omega)]
    exact Int.natCast_nonneg _

def EvalState.Stores (s : EvalState) (i : Nat) (stored : OperandValue) : Prop :=
  s.operands.slots[i]? = some (some stored)

/-- A definition adds one operand. -/
theorem EvalState.stores_define {s : EvalState} {id : OperandId} {value stored : OperandValue}
    {operands : Operands} {i : Nat} (defines : s.operands.define id value = .ok operands) :
    EvalState.Stores { s with operands } i stored ↔
      i = id.toNat ∧ stored = value ∨ s.Stores i stored := by
  rw [Operands.define, Operands.fill] at defines
  split at defines
  · cases defines
  · cases defines
  · rename_i empty
    obtain ⟨bound, -⟩ := List.getElem?_eq_some_iff.mp empty
    cases defines
    by_cases own : i = id.toNat
    · subst own
      rw [Stores, Stores, List.getElem?_set_self bound, empty]
      simp [eq_comm]
    · rw [Stores, Stores, List.getElem?_set_ne (Ne.symm own)]
      simp [own]

instance decidableEqExcept {ε α : Type} [DecidableEq ε] [DecidableEq α] :
    DecidableEq (Except ε α)
  | .ok a, .ok b => decidable_of_iff (a = b) ⟨congrArg Except.ok, Except.ok.inj⟩
  | .error a, .error b => decidable_of_iff (a = b) ⟨congrArg Except.error, Except.error.inj⟩
  | .ok _, .error _ | .error _, .ok _ => .isFalse nofun

/-- How an evaluation ends that stops so. -/
def Stop.ending : Stop → Except EvalError Outcome
  | .outcome ending => .ok ending
  | .error cause => .error cause

namespace Eval

theorem fieldWord_of {data : StubData} {field : Field} {type : FieldType} {word : UInt64}
    (found : data.wordOf? field.offset type = .ok word) : fieldWord data field type = pure word := by
  rw [fieldWord, found]

theorem fieldInt32_of {data : StubData} {field : Field} {n : Int32}
    (found : data.int32? field.offset = .ok n) : fieldInt32 data field = pure n := by
  rw [fieldInt32, found]

theorem use_apply (read : Operands → OperandId → Except EvalError α) (id : OperandId)
    (s : EvalState) :
    use read id s =
      match read s.operands id with
      | .ok a => (.ok a, s)
      | .error error => (.error (.error error), s) := by
  show ofExcept (read s.operands id) s = _
  cases read s.operands id <;> rfl

theorem get_apply (s : EvalState) : (get : Eval EvalState) s = (.ok s, s) := rfl

/-- A sequence of stretches stops with the first one that stops. -/
theorem bind_apply (stretch : Eval α) (next : α → Eval β) (s : EvalState) :
    (stretch >>= next) s =
      match stretch s with
      | (.ok a, t) => next a t
      | (.error stop, t) => (.error stop, t) := by
  show StateT.run (m := Id) (ExceptT.bindCont next (stretch s).1) (stretch s).2 = _
  rcases stretch s with ⟨_ | _, _⟩ <;> rfl

theorem define_apply (id : OperandId) (value : OperandValue) (s : EvalState) :
    define id value s =
      match s.operands.define id value with
      | .ok operands => (.ok (), { s with operands })
      | .error error => (.error (.error error), s) := by
  show (ofExcept (s.operands.define id value) >>= fun operands => modify fun state =>
    { state with operands }) s = _
  cases s.operands.define id value <;> rfl

/-- The terminal operation stops the evaluation. -/
theorem eval_terminal {op : Op} (terminal : op.isTerminal = true) (data : StubData) (s : EvalState) :
    op.eval data s = (.error (.outcome (.returned s.output)), s) := by
  obtain ⟨opcode, args⟩ := op
  obtain rfl : opcode = .returnFromIc := of_decide_eq_true terminal
  rfl

variable {call : Heap → Except RuntimeError (Value × Heap)} {s : EvalState}

theorem callOut_error {error : RuntimeError} (fails : call s.context.heap = .error error) :
    callOut call s = (.error (.outcome .exception),
      { s with context := { s.context with pending := some error } }) := by
  have caught : s.context.catching call = (none, { s.context with pending := some error }) := by
    rw [Context.catching, fails]
  rw [callOut, bind_apply, get_apply]
  dsimp only
  rw [caught]
  rfl

theorem callOut_ok {v : Value} {heap : Heap} (answers : call s.context.heap = .ok (v, heap)) :
    callOut call s = (.ok (), { s with context := { s.context with heap }, output := v }) := by
  have caught : s.context.catching call = (some v, { s.context with heap }) := by
    rw [Context.catching, answers]
  rw [callOut, bind_apply, get_apply]
  dsimp only
  rw [caught]
  rfl

end Eval

end InlineCache
