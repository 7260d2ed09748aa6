import InlineCache.Proofs.Eval.Kinds

/-!
Operands that an evaluation reads and defines.  An operation that goes through has read each of its
operands as a kind that it may be read as, and has defined its result with the kind of its signature.  One
that has been checked, and stops, stops for a reason that lies in the values.
-/

namespace InlineCache

namespace Eval

/-- From the state, the stretch goes on as described, or ends in a way that may occur.  The ends are part
of what is said: nothing is assumed of the values. -/
def Ensures {α : Type} (may : EvalState → Except EvalError Outcome → Prop) (stretch : Eval α)
    (s : EvalState) (holds : α → EvalState → Prop) : Prop :=
  match stretch s with
  | (.ok a, t) => holds a t
  | (.error stop, t) => may t stop.ending

namespace Ensures

variable {may : EvalState → Except EvalError Outcome → Prop} {s : EvalState} {α β : Type}

theorem bind {stretch : Eval α} {next : α → Eval β} {first : α → EvalState → Prop}
    {holds : β → EvalState → Prop} (ensures : Ensures may stretch s first)
    (rest : ∀ a t, first a t → Ensures may (next a) t holds) :
    Ensures may (stretch >>= next) s holds := by
  rw [Ensures] at ensures
  rw [Ensures, bind_apply]
  rcases runs : stretch s with ⟨stop | a, t⟩
  · rw [runs] at ensures
    exact ensures
  · rw [runs] at ensures
    exact rest a t ensures

theorem mono {stretch : Eval α} {holds weaker : α → EvalState → Prop}
    (ensures : Ensures may stretch s holds) (weaken : ∀ a t, holds a t → weaker a t) :
    Ensures may stretch s weaker := by
  rw [Ensures] at ensures ⊢
  rcases runs : stretch s with ⟨stop | a, t⟩
  · rw [runs] at ensures
    exact ensures
  · rw [runs] at ensures
    exact weaken a t ensures

/-- More ways to end may occur. -/
theorem allow {more : EvalState → Except EvalError Outcome → Prop} {stretch : Eval α}
    {holds : α → EvalState → Prop} (ensures : Ensures may stretch s holds)
    (allows : ∀ t ending, may t ending → more t ending) : Ensures more stretch s holds := by
  rw [Ensures] at ensures ⊢
  rcases runs : stretch s with ⟨stop | a, t⟩
  · rw [runs] at ensures
    exact allows t _ ensures
  · rw [runs] at ensures
    exact ensures

end Ensures

/-- The stretch reads operands and defines some. -/
def Heeds (reads : List Reading) (results : List (OperandId × OperandKind)) (stretch : Eval Unit)
    (s : EvalState) : Prop :=
  (∀ read ∈ reads, (s.kinds read.1.toNat).isSome = true) →
  (∀ result ∈ results, s.operands.slots[result.1.toNat]? = some none) →
  Ensures EvalState.Tolerates stretch s fun _ t => (∀ read ∈ reads, s.kinds.Admits read) ∧
    t.kinds = results.foldl (fun kinds result => kinds.define result.1 result.2) s.kinds ∧
    t.operands.slots.length = s.operands.slots.length

namespace Heeds

variable {s : EvalState} {reads : List Reading} {results : List (OperandId × OperandKind)}
  {id : OperandId} {α : Type}

theorem bail : Heeds reads results bail s :=
  fun _ _ => .bailout

/-- A stretch that leaves the operands alone. -/
theorem quiet {stretch : Eval Unit} {t : EvalState} (runs : stretch s = (.ok (), t))
    (same : t.operands = s.operands) : Heeds [] [] stretch s := by
  intro _ _
  rw [Ensures, runs]
  refine ⟨fun _ impossible => absurd impossible List.not_mem_nil, ?_, congrArg (·.slots.length) same⟩
  exact EvalState.kinds_congr same

theorem setOutput {output : Value} : Heeds [] [] (setOutput output) s :=
  quiet rfl rfl

theorem guardThat {passed : Bool} : Heeds [] [] (guardThat passed) s := by
  cases passed with
  | true => exact quiet rfl rfl
  | false => exact bail

theorem guardSome_bind {content : Option α} {next : α → Eval Unit}
    (rest : ∀ a, content = some a → Heeds reads results (next a) s) :
    Heeds reads results (guardSome content >>= next) s := by
  cases content with
  | none => exact bail
  | some a => exact rest a rfl

theorem callOut {call : Heap → Except RuntimeError (Value × Heap)} :
    Heeds [] [] (callOut call) s := by
  cases answers : call s.context.heap with
  | ok answer => exact quiet (callOut_ok answers) rfl
  | error error =>
      intro _ _
      rw [Ensures, callOut_error answers]
      exact .exception

/-- An operand is read that is defined. -/
theorem get_bind {admits : OperandKind → Bool} {read : Operands → OperandId → Except EvalError α}
    {next : α → Eval Unit}
    (answers : ∀ stored, s.Stores id.toNat stored →
      match read s.operands id with
      | .ok a => admits stored.kind = true ∧ Heeds reads results (next a) s
      | .error error => s.Tolerates (.error error)) :
    Heeds ((id, admits) :: reads) results (use read id >>= next) s := by
  intro defined fresh
  obtain ⟨stored, stores⟩ := EvalState.exists_stores (defined _ (.head _))
  have answer := answers stored stores
  rw [Ensures, bind_apply, use_apply]
  cases found : read s.operands id with
  | error error =>
      rw [found] at answer
      exact answer
  | ok a =>
      rw [found] at answer
      obtain ⟨admitted, rest⟩ := answer
      refine (rest (fun read member => defined read (.tail _ member)) fresh).mono ?_
      rintro _ t ⟨others, kinds, length⟩
      refine ⟨fun read member => ?_, kinds, length⟩
      rcases List.mem_cons.mp member with rfl | member
      · exact ⟨stored.kind, EvalState.kinds_of_stores stores, admitted⟩
      · exact others read member

theorem read_bind {expected : OperandKind} {view : OperandValue → Option α} {next : α → Eval Unit}
    (views : ∀ stored, (view stored).isSome = expected.admits stored.kind)
    (rest : ∀ stored a, s.Stores id.toNat stored → view stored = some a →
      Heeds reads results (next a) s) :
    Heeds ((id, expected.admits) :: reads) results (use (·.read expected view) id >>= next) s := by
  refine get_bind fun stored stores => ?_
  have seen := views stored
  rw [Operands.read_eq expected view stores]
  cases found : view stored with
  | none =>
      rw [found] at seen
      exact .kindMismatch stores seen.symm
  | some a =>
      rw [found] at seen
      exact ⟨seen.symm, rest stored a stores found⟩

theorem value_bind {next : Value → Eval Unit} (rest : ∀ value, Heeds reads results (next value) s) :
    Heeds ((id, OperandKind.value.admits) :: reads) results (use Operands.value id >>= next) s := by
  refine read_bind (fun stored => ?_) fun _ value _ _ => rest value
  cases stored with
  | ref kind => cases kind <;> rfl
  | _ => rfl

theorem cell_bind (kind : RefKind) {next : Address → Eval Unit}
    (rest : ∀ address, s.Stores id.toNat (.ref kind address) → Heeds reads results (next address) s) :
    Heeds ((id, kind.operandKind.admits) :: reads) results (use (·.cell kind) id >>= next) s := by
  refine read_bind (fun stored => ?_) fun stored address stores seen => ?_
  · cases kind <;> cases stored with
    | ref found => cases found <;> rfl
    | _ => rfl
  · cases stored with
    | ref found other =>
        obtain ⟨rfl, same⟩ := Option.ite_none_right_eq_some.mp seen
        cases same
        exact rest address stores
    | _ => cases seen

theorem int32_bind {next : Int32 → Eval Unit} (rest : ∀ n, Heeds reads results (next n) s) :
    Heeds ((id, OperandKind.int32.admits) :: reads) results (use Operands.int32 id >>= next) s := by
  refine read_bind (fun stored => ?_) fun _ n _ _ => rest n
  cases stored with
  | ref kind => cases kind <;> rfl
  | _ => rfl

theorem intptr_bind {next : Int64 → Eval Unit} (rest : ∀ n, Heeds reads results (next n) s) :
    Heeds ((id, OperandKind.intptr.admits) :: reads) results (use Operands.intptr id >>= next) s := by
  refine read_bind (fun stored => ?_) fun _ n _ _ => rest n
  cases stored with
  | ref kind => cases kind <;> rfl
  | _ => rfl

theorem valueTag_bind {next : ValueType → Eval Unit} (rest : ∀ type, Heeds reads results (next type) s) :
    Heeds ((id, OperandKind.valueTag.admits) :: reads) results
      (use Operands.valueTag id >>= next) s := by
  refine read_bind (fun stored => ?_) fun _ type _ _ => rest type
  cases stored with
  | ref kind => cases kind <;> rfl
  | _ => rfl

theorem number_bind {next : Double → Eval Unit} (rest : ∀ d, Heeds reads results (next d) s) :
    Heeds ((id, OperandKind.number.admits) :: reads) results (use Operands.number id >>= next) s := by
  refine get_bind fun stored stores => ?_
  rw [Operands.number, EvalState.get_of_stores stores]
  cases stored with
  | int32 n => exact ⟨rfl, rest _⟩
  | boxed value =>
      cases number : value.number? with
      | some d =>
          simp only [bind, Except.bind, number]
          exact ⟨rfl, rest d⟩
      | none =>
          simp only [bind, Except.bind, number]
          exact .notANumber stores number
  | ref kind =>
      refine EvalState.Tolerates.kindMismatch stores ?_
      cases kind <;> rfl
  | boolean | intptr | valueTag => exact EvalState.Tolerates.kindMismatch stores rfl

theorem define {value : OperandValue} {kind : OperandKind} (same : value.kind = kind) :
    Heeds [] [(id, kind)] (define id value) s := by
  intro _ fresh
  have empty := fresh _ (.head _)
  have runs : Eval.define id value s = (.ok (),
      { s with operands := ⟨s.operands.slots.set id.toNat (some value)⟩ }) := by
    rw [Eval.define, bind_apply, get_apply]
    dsimp only
    rw [EvalState.define_empty value empty]
    rfl
  rw [Ensures, runs]
  refine ⟨fun _ impossible => absurd impossible List.not_mem_nil, ?_, List.length_set⟩
  exact same ▸ EvalState.kinds_set value (List.getElem?_eq_some_iff.mp empty).1

theorem heap_bind {next : Heap → Eval Unit} (rest : Heeds reads results (next s.context.heap) s) :
    Heeds reads results (heap >>= next) s :=
  rest

theorem objectOf_bind {next : Address × Object → Eval Unit}
    (rest : ∀ address, s.Stores id.toNat (.ref .object address) →
      Heeds reads results (next (address, s.context.heap.objectAt address)) s) :
    Heeds ((id, OperandKind.object.admits) :: reads) results (objectOf id >>= next) s := by
  rw [objectOf, bind_assoc]
  exact cell_bind .object rest

variable {data : StubData} {field : Field} {input result : OperandId}

theorem fieldWord_bind {type : FieldType} {next : UInt64 → Eval Unit}
    (checked : ∃ word, data.wordOf? field.offset type = .ok word)
    (rest : ∀ word, Heeds reads results (next word) s) :
    Heeds reads results (fieldWord data field type >>= next) s := by
  obtain ⟨word, found⟩ := checked
  rw [fieldWord_of found, pure_bind]
  exact rest word

theorem fieldInt32_bind {n : Int32} {next : Int32 → Eval Unit}
    (found : data.int32? field.offset = .ok n) (rest : Heeds reads results (next n) s) :
    Heeds reads results (fieldInt32 data field >>= next) s := by
  rw [fieldInt32_of found, pure_bind]
  exact rest

theorem guardRef (kind : RefKind) :
    Heeds [(input, OperandKind.value.admits)] [(result, kind.operandKind)]
      (guardRef kind input result) s :=
  value_bind fun _ => guardSome_bind fun _ _ => define rfl

theorem guardView {view : Value → Option α} {make : α → OperandValue} {kind : OperandKind}
    (same : ∀ a, (make a).kind = kind) :
    Heeds [(input, OperandKind.value.admits)] [(result, kind)] (guardView view make input result) s :=
  value_bind fun _ => guardSome_bind fun a _ => define (same a)

theorem guardValue {test : Value → Bool} :
    Heeds [(input, OperandKind.value.admits)] [] (guardValue test input) s :=
  value_bind fun _ => guardThat

theorem classMatches_bind {next : Bool → Eval Unit}
    (checked : ∃ word, data.wordOf? field.offset .descriptor = .ok word)
    (rest : ∀ matched, Heeds reads results (next matched) s) :
    Heeds ((id, OperandKind.object.admits) :: reads) results
      (classMatches data id field >>= next) s := by
  rw [classMatches, bind_assoc]
  refine objectOf_bind fun address _ => ?_
  rw [bind_assoc]
  refine fieldWord_bind checked fun word => ?_
  rw [bind_assoc]
  refine heap_bind ?_
  rw [pure_bind]
  exact rest _

theorem callRegExp {call : Address → Address → Int32 → Heap → Except RuntimeError (Value × Heap)}
    {regExp string lastIndex : OperandId} :
    Heeds [(regExp, OperandKind.object.admits), (string, OperandKind.string.admits),
        (lastIndex, OperandKind.int32.admits)] []
      (callRegExp call regExp string lastIndex) s :=
  cell_bind .object fun _ _ => cell_bind .string fun _ _ => int32_bind fun _ => callOut

theorem slotAt_bind {slot? : Object → Int32 → Option Value} {object : Object} {offset : Int32}
    {next : Value → Eval Unit}
    (missing : slot? object offset = none → s.Tolerates (.error (.invalidSlotOffset offset)))
    (rest : ∀ value, Heeds reads results (next value) s) :
    Heeds reads results (slotAt slot? object offset >>= next) s := by
  rw [slotAt]
  cases slot : slot? object offset with
  | none => exact fun _ _ => missing slot
  | some value => exact rest value

theorem loadSlot {slot? : Object → Int32 → Option Value} {fits : Int32 → Prop}
    (checked : ∃ n, data.int32? field.offset = .ok n ∧ fits n)
    (missing : ∀ n address, fits n → s.Stores id.toNat (.ref .object address) →
      slot? (s.context.heap.objectAt address) n = none →
      s.Tolerates (.error (.invalidSlotOffset n))) :
    Heeds [(id, OperandKind.object.admits)] [] (loadSlot data slot? id field) s := by
  obtain ⟨n, found, fit⟩ := checked
  exact objectOf_bind fun address stores =>
    fieldInt32_bind found (slotAt_bind (missing n address fit stores) fun _ => setOutput)

theorem loadTypedResult {input : TypedOperand}
    (admits : s.kinds.Admits (input.id, input.type.admits)) :
    Heeds [(input.id, input.type.admits)] [] (Op.eval data ⟨.loadTypedResult, input, ()⟩) s := by
  rw [Op.eval]
  refine get_bind fun stored stores => ?_
  obtain ⟨kind, same, admitted⟩ := admits
  cases (EvalState.kinds_of_stores stores).symm.trans same
  obtain ⟨⟨value, boxed⟩, claimed⟩ := OperandValue.boxed_of_admits admitted
  rw [EvalState.get_of_stores stores]
  refine ⟨admitted, ?_⟩
  dsimp only
  rw [boxed]
  split
  · rename_i found payload
    rw [if_neg (fun differs => differs (claimed found payload))]
    exact setOutput
  · exact setOutput

end Heeds

end Eval

open Eval in
/-- An operation that has been checked reads and defines the operands of its signature. -/
theorem Op.eval_heeds (data : StubData) (op : Op) (s : EvalState) (checked : op.Checked data s.kinds) :
    Heeds op.reads op.results (op.eval data) s := by
  obtain ⟨opcode, args⟩ := op
  cases opcode with
  | returnFromIc => exact fun _ _ => .returned _
  | guardToObject => exact .guardRef .object
  | guardToString => exact .guardRef .string
  | guardToSymbol => exact .guardRef .symbol
  | guardToBigInt => exact .guardRef .bigint
  | guardIsNullOrUndefined | guardIsNull | guardIsUndefined | guardIsNumber => exact .guardValue
  | guardToBoolean | guardToInt32 | guardBooleanToInt32 | guardToInt32Index | guardToInt32ModUint32
  | guardToUint8Clamped => exact .guardView fun _ => rfl
  | int32ToIntPtr => exact .int32_bind fun _ => .define rfl
  | guardNumberToIntPtrIndex =>
      refine .number_bind fun d => ?_
      split
      · exact .define rfl
      · split
        · exact .define rfl
        · exact .bail
  | guardNonDoubleType =>
      obtain ⟨input, type, ⟨⟩⟩ := args
      rw [eval, if_neg checked]
      exact .guardValue
  | guardShape => exact .objectOf_bind fun _ _ => .fieldWord_bind checked fun _ => .guardThat
  | guardProto =>
      exact .objectOf_bind fun _ _ => .fieldWord_bind checked fun _ => .heap_bind .guardThat
  | guardNullProto | guardClass =>
      exact .objectOf_bind fun _ _ => .heap_bind .guardThat
  | guardAnyClass => exact .classMatches_bind checked fun _ => .guardThat
  | hasClassResult => exact .classMatches_bind checked fun _ => .setOutput
  | callRegExpMatcherResult | callRegExpSearcherResult | callRegExpTesterResult => exact .callRegExp
  | regExpFlagResult => exact .objectOf_bind fun _ _ => .setOutput
  | callSubstringKernelResult =>
      exact .cell_bind .string fun _ _ => .int32_bind fun _ => .int32_bind fun _ => .callOut
  | guardDynamicSlotValue =>
      obtain ⟨⟨n, found, fits⟩, expected⟩ := checked
      exact .objectOf_bind fun address stores => .fieldInt32_bind found (.fieldWord_bind expected
        fun _ => .slotAt_bind (fun missing => .pastSlots stores fits (fits.past_slots missing))
          fun _ => .guardThat)
  | loadFixedSlotResult =>
      refine .loadSlot checked fun n address fits _ missing => ?_
      obtain ⟨value, slot⟩ := fits.exists_slot (s.context.heap.objectAt address)
      cases slot.symm.trans missing
  | loadDynamicSlotResult =>
      exact .loadSlot checked fun n address fits stores missing =>
        .pastSlots stores fits (fits.past_slots missing)
  | loadObject =>
      obtain ⟨field, result, ⟨⟩⟩ := args
      obtain ⟨word, found, nonzero⟩ := checked
      rw [eval, fieldWord_of found, pure_bind, if_neg nonzero]
      exact .define rfl
  | loadInt32Constant =>
      obtain ⟨n, found⟩ := checked
      exact .fieldInt32_bind found (.define rfl)
  | loadValueTag => exact .value_bind fun _ => .define rfl
  | guardTagNotEqual => exact .valueTag_bind fun _ => .valueTag_bind fun _ => .guardThat
  | loadDenseElementResult =>
      refine .objectOf_bind fun _ _ => .int32_bind fun _ => ?_
      dsimp only
      split
      · exact .bail
      · refine .guardSome_bind fun _ _ => ?_
        split
        · exact .bail
        · exact .setOutput
  | loadInt32ArrayLengthResult =>
      refine .objectOf_bind fun _ _ => ?_
      dsimp only
      split
      · exact .setOutput
      · exact .bail
  | loadInt32Result => exact .int32_bind fun _ => .setOutput
  | loadBooleanResult | loadUndefinedResult => exact .setOutput
  | loadObjectResult => exact .cell_bind .object fun _ _ => .setOutput
  | loadIntPtrResult => exact .intptr_bind fun _ => .setOutput
  | loadTypedResult => exact .loadTypedResult checked

end InlineCache
