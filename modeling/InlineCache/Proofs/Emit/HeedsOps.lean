import InlineCache.Proofs.Emit.Heeds

/-!
The operands that the code of each operation reads and defines are those of its signature.
-/

namespace InlineCache

namespace Asm

open Allocation

namespace Quiet

variable {env : EmitEnv} {object : OperandId} {reg : Register} {α β : Type}

theorem emit (inst : Inst) : Quiet (Asm.emit inst) :=
  still (.emit inst)

theorem emit_bind {inst : Inst} {next : Unit → Asm β} (rest : Quiet (next ())) :
    Quiet (Asm.emit inst >>= next) :=
  (emit inst).bind fun _ => rest

theorem newLabel : Quiet newLabel :=
  still .newLabel

theorem exitPath (status : ExitStatus) : Quiet (exitPath status) :=
  still (.exitPath status)

theorem zeroedRegister : Quiet (zeroedRegister env object reg) :=
  still .zeroedRegister

theorem allocateRegister : Quiet allocateRegister := by
  refine fun state => ⟨fun reg after runs => ?_, fun error fails => ?_⟩
  · obtain ⟨middle, takes, rfl⟩ := runs_allocateRegister runs
    exact takes.alike.trans (.of_operands rfl)
  · simp only [Asm.allocateRegister, fails_bind, not_fails_modifyAllocation, not_fails_pure,
      and_false, exists_false, or_false] at fails
    obtain ⟨-, rfl⟩ := fails_takeRegister fails
    exact fun _ => CodeError.noConfusion

theorem releaseRegister : Quiet (releaseRegister reg) := by
  refine fun state => .modify (.of_operands ?_)
  show Allocation.operands (if _ then _ else _) = _
  split <;> rfl

theorem allocateFloat : Quiet allocateFloat := by
  refine fun state => ⟨fun float after runs => ?_, fun error fails => ?_⟩
  · obtain ⟨middle, takes, rfl⟩ := runs_allocateFloat runs
    exact takes.alike.trans (.of_operands rfl)
  · obtain ⟨-, rfl⟩ := fails_allocateFloat fails
    exact fun _ => nofun

theorem releaseFloat {float : FloatRegister} : Quiet (releaseFloat float) := by
  refine fun state => ⟨fun _ after runs => (runs_releaseFloat runs).alike, fun error fails => ?_⟩
  simp only [Asm.releaseFloat, fails_bind, not_fails_allocation, runs_allocation, false_or] at fails
  obtain ⟨_, _, -, fails⟩ := fails
  split at fails
  · simp only [fails_bind, not_fails_modifyAllocation, not_fails_returnFloat, and_false,
      exists_false, or_false] at fails
  · exact absurd fails not_fails_pure

theorem callsHelpers :
    Quiet (modify fun state => { state with callsHelpers := true } : Asm Unit) :=
  fun _ => .modify (.refl _)

theorem typedWord {field : Field} {type : FieldType} : Quiet (typedWord env field type) := by
  unfold Asm.typedWord
  split
  · exact pure _
  · exact fun _ => .throw fun _ => nofun

theorem int32Word {field : Field} : Quiet (int32Word env field) := by
  unfold Asm.int32Word
  split
  · exact pure _
  · exact fun _ => .throw fun _ => nofun

theorem wordSource {field : Field} {word : UInt64} : Quiet (wordSource env field word) := by
  unfold Asm.wordSource
  split
  · exact pure _
  · exact allocateRegister.bind fun reg => emit_bind (pure _)

theorem fieldSource {field : Field} {type : FieldType} : Quiet (fieldSource env field type) :=
  typedWord.bind fun _ => wordSource

theorem int32Source {field : Field} : Quiet (int32Source env field) :=
  int32Word.bind fun _ => wordSource.bind fun _ => pure _

theorem loadWord {dst : Register} {field : Field} {word : UInt64} :
    Quiet (loadWord env dst field word) := by
  unfold Asm.loadWord
  split <;> exact emit _

theorem releaseSource {source : Source} : Quiet (releaseSource source) := by
  cases source with
  | reg reg => exact releaseRegister
  | imm word => exact pure _

theorem storeImm {value : Value} : Quiet (storeImm value) :=
  allocateRegister.bind fun _ => emit_bind (emit _)

theorem boxToOutput {type : PayloadType} : Quiet (boxToOutput reg type) :=
  allocateRegister.bind fun _ => emit_bind (emit _)

theorem convertOrFail {inst : FloatRegister → Label → Inst} {float : FloatRegister} :
    Quiet (convertOrFail inst float) :=
  still (.convertOrFail inst float)

theorem convertOrMinusOne {dst : Register} {float : FloatRegister} :
    Quiet (convertOrMinusOne dst float) :=
  still (.convertOrMinusOne dst float)

theorem doublePath {convert : FloatRegister → Asm Unit} (converts : ∀ float, Quiet (convert float)) :
    Quiet (doublePath reg convert) :=
  allocateFloat.bind fun float => emit_bind ((converts float).bind fun _ => releaseFloat)

theorem loadShapeWord {displacement : Nat} : Quiet (loadShapeWord reg displacement) :=
  allocateRegister.bind fun _ => emit_bind (emit_bind (pure _))

theorem loadDynamicSlot {offset : Source} : Quiet (loadDynamicSlot reg offset) :=
  allocateRegister.bind fun _ => emit_bind (emit_bind (pure _))

theorem checkFixedSlot {offset : Int32} : Quiet (checkFixedSlot offset) := by
  unfold Asm.checkFixedSlot
  dsimp only
  split
  · exact reject _
  · exact pure _

theorem checkDynamicSlot {offset : Int32} : Quiet (checkDynamicSlot offset) := by
  unfold Asm.checkDynamicSlot
  split
  · exact reject _
  · exact pure _

end Quiet

/-- Only a value is read as a value. -/
theorem value_of_admits (kind : OperandKind) (admits : OperandKind.value.admits kind = true) :
    kind = .value :=
  of_decide_eq_true admits

/-- What is read as a payload is not boxed. -/
theorem payload_of_admits {asked : OperandKind} {type : PayloadType}
    (payload : asked.form? = some (.payload type)) (kind : OperandKind)
    (admits : asked.admits kind = true) : kind.form? ≠ some .boxed := by
  have same : kind = asked := by
    cases asked with
    | number => cases payload
    | _ => exact of_decide_eq_true admits
  exact same ▸ payload ▸ nofun

namespace Heeds

variable {env : EmitEnv} {state : Assembler} {input result object : OperandId} {kind : OperandKind}

theorem useObject_bind {β : Type} {reads : List Reading} {results : List (OperandId × OperandKind)}
    {next : Register → Asm β} (rest : ∀ reg after, Heeds reads results (next reg) after) :
    Heeds ((object, OperandKind.object.admits) :: reads) results (Asm.useRegister object >>= next)
      state :=
  useRegister_bind (payload_of_admits rfl) rest

theorem guardType {type : ValueType} (single : type ≠ .double) :
    Heeds [(input, OperandKind.value.admits)] [] (guardType input type) state := by
  refine allocation_bind (useValueReg_bind value_of_admits fun value after grounded runs => ?_)
  have defined : after.allocation.defined input.toNat = true := by
    have boxes := (useValueReg_revises runs).revised
    rw [← defined_outline, boxes.defined]
    exact (grounded input.toNat).placed boxes.live
  dsimp only
  split
  · refine quiet_bind (.exitPath _) fun fail _ first => quiet_bind (.emit _) fun _ _ second => ?_
    refine bind_quiet (setKnownType single fun _ => ?_) fun _ => .pure _
    rw [(first.trans second).defined, defined]
  · exact quiet (.pure _)

theorem guardPayload {tag : ValueType} {held seen : PayloadType} (single : tag ≠ .double)
    (kept : kind.form? = some (.payload held)) :
    Heeds [(input, OperandKind.value.admits)] [(result, kind)]
      (guardPayload input result tag held seen) state :=
  (guardType single).bind fun _ _ _ _ => define_bind kept nofun fun _ _ _ _ => quiet (.emit _)

/-- An int32 or a double is read as a value. -/
theorem int32OrDouble {dst : Register} {status : ExitStatus} {convert : FloatRegister → Asm Unit}
    (converts : ∀ float, Quiet (convert float)) :
    Heeds [(input, OperandKind.value.admits)] [] (int32OrDouble input dst status convert) state := by
  refine allocation_bind ?_
  split
  · rename_i known
    exact of_double known
  refine useValueReg_bind value_of_admits fun value after _ _ => allocation_bind ?_
  split
  · exact quiet (.emit _)
  · refine quiet ?_
    refine Quiet.newLabel.bind fun _ => Quiet.newLabel.bind fun _ => .emit_bind (.emit_bind ?_)
    refine .emit_bind (.emit_bind ((Quiet.exitPath _).bind fun _ => .emit_bind ?_))
    exact (Quiet.doublePath converts).bind fun _ => .emit _

theorem guardIndex {inst : Register → FloatRegister → Label → Inst} (apart : input ≠ result) :
    Heeds [(input, OperandKind.value.admits)] [(result, .int32)]
      (definePayloadReg result .int32 >>= fun dst =>
        Asm.int32OrDouble input dst .bailout (convertOrFail (inst dst))) state :=
  define_bind rfl (by simpa using apart) fun _ _ _ _ => int32OrDouble fun _ => .convertOrFail

theorem guardClampedByte (apart : input ≠ result) :
    Heeds [(input, OperandKind.value.admits)] [(result, .int32)] (guardClampedByte input result)
      state := by
  refine define_bind rfl (by simpa using apart) fun dst middle _ _ => allocation_bind ?_
  split
  · rename_i known
    exact of_double known
  refine useValueReg_bind value_of_admits fun value after _ _ => quiet ?_
  refine Quiet.newLabel.bind fun _ => Quiet.newLabel.bind fun _ => .emit_bind (.emit_bind ?_)
  refine .emit_bind (.emit_bind (.emit_bind ((Quiet.exitPath _).bind fun _ => .emit_bind ?_)))
  exact (Quiet.doublePath fun _ => .emit _).bind fun _ => .emit _

/-- The index is converted from a value, which is not the operand that is defined. -/
theorem guardBoxedIndex {convert : Register → FloatRegister → Asm Unit}
    (converts : ∀ dst float, Quiet (convert dst float)) :
    Heeds [(input, OperandKind.value.admits)] [(result, .intptr)]
      (definePayloadReg result .intptr >>= fun dst =>
        Asm.int32OrDouble input dst .malformed (convert dst)) state := by
  by_cases own : input = result
  · subst own
    refine itself fun grounded answer after runs => ?_
    obtain ⟨dst, middle, defines, runs⟩ := runs_bind.mp runs
    have defining := (definePayloadReg_revises defines).revised
    simp only [Asm.int32OrDouble, runs_bind, runs_allocation] at runs
    obtain ⟨_, _, ⟨rfl, rfl⟩, runs⟩ := runs
    split at runs
    · rename_i known
      have single := ((grounded input.toNat).defines defining).single
      exact single ((known_outline ..).trans known)
    · obtain ⟨_, _, uses, -⟩ := runs_bind.mp runs
      exact (useValueReg_revises uses).revised.boxable .intptr defining.form rfl
  · exact define_bind rfl (by simpa using own) fun dst _ _ _ => int32OrDouble (converts dst)

theorem guardNumberIndex {supportsOutOfBounds : Bool} :
    Heeds [(input, OperandKind.number.admits)] [(result, .intptr)]
      (guardNumberIndex input supportsOutOfBounds result) state := by
  refine allocation_bind ?_
  split
  · rename_i payload
    have held : (state.allocation.place input.toNat).form? = some (.payload .int32) :=
      Location.form?_of_payload? payload
    refine narrow OperandKind.int32.admits ?_ fun kind form _ found kept => ?_
    · exact useRegister_bind (payload_of_admits rfl) fun _ _ =>
        define_bind rfl nofun fun _ _ _ _ => quiet (.emit _)
    · cases held.symm.trans found
      exact decide_eq_true (OperandKind.form?_inj kept rfl)
  · exact reject _
  · rename_i boxed
    refine narrow OperandKind.value.admits (guardBoxedIndex fun dst float => ?_)
      fun kind form _ found kept => decide_eq_true (OperandKind.value_of_form? boxed found kept)
    split
    · exact .convertOrMinusOne
    · exact .convertOrFail

theorem guardNullish : Heeds [(input, OperandKind.value.admits)] [] (guardNullish input) state := by
  refine allocation_bind ?_
  dsimp only
  split
  · rename_i known
    exact known.elim (proven · (quiet (.pure _))) (proven · (quiet (.pure _)))
  · refine useValueReg_bind value_of_admits fun _ _ _ _ => quiet ?_
    exact Quiet.newLabel.bind fun _ => (Quiet.exitPath _).bind fun _ =>
      .emit_bind (.emit_bind (.emit _))

theorem guardNumber : Heeds [(input, OperandKind.value.admits)] [] (guardNumber input) state := by
  refine allocation_bind ?_
  dsimp only
  split
  · rename_i known
    exact known.elim (proven · (quiet (.pure _))) (proven · (quiet (.pure _)))
  · refine useValueReg_bind value_of_admits fun _ _ _ _ => quiet ?_
    exact (Quiet.exitPath _).bind fun _ => .emit _

theorem loadValueTag : Heeds [(input, OperandKind.value.admits)] [(result, .valueTag)]
    (loadValueTag input result) state := by
  refine allocation_bind ?_
  split
  · rename_i type known
    exact proven known (define_bind rfl nofun fun _ _ _ _ => quiet (.emit _))
  · exact useValueReg_bind value_of_admits fun _ _ _ _ =>
      define_bind rfl nofun fun _ _ _ _ => quiet (.emit _)

theorem loadTypedResult {input : TypedOperand} :
    Heeds [(input.id, input.type.admits)] [] (loadTypedResult input) state := by
  refine allocation_bind ?_
  split
  · rename_i type payload
    have held : (state.allocation.place input.id.toNat).form? = some (.payload type) :=
      Location.form?_of_payload? payload
    split
    · exact reject _
    · refine narrow (fun kind => decide (kind.form? ≠ some .boxed)) ?_ fun kind form _ found kept => ?_
      · exact useRegister_bind (fun _ => of_decide_eq_true) fun _ _ => quiet .boxToOutput
      · cases held.symm.trans found
        exact decide_eq_true (kept ▸ nofun)
  · rename_i bare
    refine narrow OperandKind.value.admits ?_
      fun kind form _ found kept => decide_eq_true (OperandKind.value_of_form? bare found kept)
    exact useValueReg_bind value_of_admits fun _ _ _ _ => quiet (.emit _)

theorem guardShape {shape : Field} :
    Heeds [(object, OperandKind.object.admits)] [] (guardShape env object shape) state := by
  refine useObject_bind fun reg _ => quiet (Quiet.fieldSource.bind fun expected => ?_)
  refine Quiet.allocateRegister.bind fun _ => (Quiet.exitPath _).bind fun _ => ?_
  exact Quiet.zeroedRegister.bind fun _ => .emit_bind
    (Quiet.releaseRegister.bind fun _ => .releaseSource)

theorem guardProto {proto : Asm Source} (quietly : Quiet proto) :
    Heeds [(object, OperandKind.object.admits)] [] (guardProto object proto) state := by
  refine useObject_bind fun reg _ => quiet (quietly.bind fun _ => ?_)
  refine Quiet.loadShapeWord.bind fun _ => (Quiet.exitPath _).bind fun _ => ?_
  exact .emit_bind (Quiet.releaseRegister.bind fun _ => .releaseSource)

theorem guardClass {classWord : Source} :
    Heeds [(object, OperandKind.object.admits)] [] (guardClass env object classWord) state := by
  refine useObject_bind fun reg _ => quiet (Quiet.allocateRegister.bind fun _ => ?_)
  refine (Quiet.exitPath _).bind fun _ => Quiet.zeroedRegister.bind fun _ => ?_
  exact .emit_bind (Quiet.releaseRegister.bind fun _ => .releaseSource)

theorem hasClass {field : Field} :
    Heeds [(object, OperandKind.object.admits)] [] (hasClass env object field) state := by
  refine useObject_bind fun reg _ => quiet (Quiet.fieldSource.bind fun _ => ?_)
  exact Quiet.loadShapeWord.bind fun _ => .emit_bind (.emit_bind (.emit _))

theorem callOut {helper : Helper} {a b c : OperandId} {first second third : OperandKind}
    {p q r : PayloadType} (payload : first.form? = some (.payload p))
    (next : second.form? = some (.payload q)) (last : third.form? = some (.payload r)) :
    Heeds [(a, first.admits), (b, second.admits), (c, third.admits)] [] (callOut helper a b c)
      state := by
  refine useRegister_bind (payload_of_admits payload) fun _ _ => ?_
  refine useRegister_bind (payload_of_admits next) fun _ _ => ?_
  refine useRegister_bind (payload_of_admits last) fun _ _ => quiet ?_
  refine Quiet.allocateRegister.bind fun _ => (Quiet.exitPath _).bind fun _ => ?_
  exact Quiet.callsHelpers.bind fun _ => .emit_bind (.emit _)

theorem regExpFlag {mask : Int32} :
    Heeds [(object, OperandKind.object.admits)] [] (regExpFlag object mask) state :=
  useObject_bind fun _ _ => quiet (Quiet.allocateRegister.bind fun _ =>
    .emit_bind (.emit_bind (.emit_bind .boxToOutput)))

theorem guardDynamicSlot {offset value : Field} :
    Heeds [(object, OperandKind.object.admits)] [] (guardDynamicSlot env object offset value)
      state := by
  refine useObject_bind fun reg _ => quiet (Quiet.int32Source.bind fun found => ?_)
  refine Quiet.checkDynamicSlot.bind fun _ => Quiet.loadDynamicSlot.bind fun _ => ?_
  refine Quiet.releaseSource.bind fun _ => Quiet.fieldSource.bind fun _ => ?_
  refine (Quiet.exitPath _).bind fun _ => .emit_bind ?_
  exact Quiet.releaseRegister.bind fun _ => .releaseSource

theorem loadFixedSlotResult {offset : Field} :
    Heeds [(object, OperandKind.object.admits)] [] (loadFixedSlotResult env object offset) state := by
  refine useObject_bind fun reg _ => quiet (Quiet.int32Source.bind fun found => ?_)
  exact Quiet.checkFixedSlot.bind fun _ => Quiet.allocateRegister.bind fun _ =>
    .emit_bind (.emit _)

theorem loadDynamicSlotResult {offset : Field} :
    Heeds [(object, OperandKind.object.admits)] [] (loadDynamicSlotResult env object offset)
      state := by
  refine useObject_bind fun reg _ => quiet (Quiet.int32Source.bind fun found => ?_)
  exact Quiet.checkDynamicSlot.bind fun _ => Quiet.loadDynamicSlot.bind fun _ => .emit _

theorem loadObject {field : Field} :
    Heeds [] [(result, .object)] (loadObject env field result) state := by
  refine quiet_bind .typedWord fun word after _ => ?_
  split
  · exact reject _
  · exact define_bind rfl nofun fun _ _ _ _ => quiet .loadWord

theorem loadInt32Constant {field : Field} :
    Heeds [] [(result, .int32)] (loadInt32Constant env field result) state :=
  quiet_bind .int32Word fun _ _ _ => define_bind rfl nofun fun _ _ _ _ => quiet .loadWord

theorem guardTagNotEqual {lhs rhs : OperandId} :
    Heeds [(lhs, OperandKind.valueTag.admits), (rhs, OperandKind.valueTag.admits)] []
      (guardTagNotEqual lhs rhs) state := by
  refine useRegister_bind (payload_of_admits rfl) fun _ _ => ?_
  refine useRegister_bind (payload_of_admits rfl) fun _ _ => quiet ?_
  exact (Quiet.exitPath _).bind fun _ => Quiet.newLabel.bind fun _ =>
    .emit_bind (.emit_bind (.emit_bind (.emit _)))

theorem loadDenseElement {index : OperandId} :
    Heeds [(object, OperandKind.object.admits), (index, OperandKind.int32.admits)] []
      (loadDenseElement env object index) state := by
  refine useObject_bind fun reg _ => ?_
  refine useRegister_bind (payload_of_admits rfl) fun _ _ => quiet ?_
  refine Quiet.allocateRegister.bind fun _ => .emit_bind ((Quiet.exitPath _).bind fun fail => ?_)
  refine .emit_bind ?_
  have finish (index : Register) : Quiet (do
      let value ← Asm.allocateRegister
      Asm.emit (.load64 value reg (imm layout.elements))
      Asm.emit (.loadIndexed64 value value index)
      Asm.emit (.branchPtr .equal value (.imm tagBits.hole) fail)
      Asm.emit (.storeOutput value)) :=
    Quiet.allocateRegister.bind fun _ => .emit_bind (.emit_bind (.emit_bind (.emit _)))
  -- the index is masked or not
  dsimp only
  split
  · exact .emit_bind (finish _)
  · exact finish _

theorem loadArrayLength :
    Heeds [(object, OperandKind.object.admits)] [] (loadArrayLength object) state :=
  useObject_bind fun _ _ => quiet (Quiet.allocateRegister.bind fun _ =>
    .emit_bind ((Quiet.exitPath _).bind fun _ => .emit_bind (.emit_bind (.emit _))))

theorem loadIntPtrResult :
    Heeds [(input, OperandKind.intptr.admits)] [] (loadIntPtrResult input) state :=
  useRegister_bind (payload_of_admits rfl) fun _ _ => quiet (Quiet.allocateRegister.bind fun _ =>
    Quiet.allocateFloat.bind fun _ => .emit_bind (Quiet.releaseFloat.bind fun _ => .emit _))

end Heeds

end Asm

/-- The operation defines its result before it reads its input, and they are the same operand. -/
def Op.readsResult : Op → Bool
  | ⟨.guardToInt32Index, input, result, _⟩
  | ⟨.guardToInt32ModUint32, input, result, _⟩
  | ⟨.guardToUint8Clamped, input, result, _⟩ => input = result
  | _ => false

/-- The code of an operation reads and defines the operands of its signature. -/
theorem Op.emit_heeds (env : EmitEnv) (op : Op) (apart : op.readsResult = false) (state : Assembler) :
    Asm.Heeds op.reads op.results (op.emit env) state := by
  obtain ⟨opcode, args⟩ := op
  open Asm in
  cases opcode with
  | returnFromIc => exact .quiet (.emit _)
  | guardToObject | guardToBoolean | guardToString | guardToSymbol | guardToBigInt | guardToInt32
  | guardBooleanToInt32 => exact .guardPayload nofun rfl
  | guardIsNullOrUndefined => exact .guardNullish
  | guardIsNull | guardIsUndefined =>
      refine .bind_quiet (.guardType ?_) fun _ => .pure _
      exact nofun
  | guardIsNumber => exact .guardNumber
  | guardToInt32Index | guardToInt32ModUint32 =>
      exact .guardIndex (of_decide_eq_false apart)
  | int32ToIntPtr =>
      exact .useRegister_bind (payload_of_admits rfl) fun _ _ =>
        .define_bind rfl nofun fun _ _ _ _ => .quiet (.emit _)
  | guardNumberToIntPtrIndex => exact .guardNumberIndex
  | guardToUint8Clamped => exact .guardClampedByte (of_decide_eq_false apart)
  | guardNonDoubleType =>
      obtain ⟨input, type, ⟨⟩⟩ := args
      rw [Op.emit]
      split
      · exact .reject _
      · exact (Heeds.guardType (by assumption)).bind_quiet fun _ => .pure _
  | guardShape => exact .guardShape
  | guardProto => exact .guardProto .fieldSource
  | guardNullProto => exact .guardProto (.pure _)
  | guardClass => exact .guardClass
  | guardAnyClass => exact .quiet_bind .fieldSource fun _ _ _ => .guardClass
  | hasClassResult => exact .hasClass
  | callRegExpMatcherResult | callRegExpSearcherResult | callRegExpTesterResult =>
      exact .callOut rfl rfl rfl
  | callSubstringKernelResult => exact .callOut rfl rfl rfl
  | regExpFlagResult => exact .regExpFlag
  | guardDynamicSlotValue => exact .guardDynamicSlot
  | loadFixedSlotResult => exact .loadFixedSlotResult
  | loadDynamicSlotResult => exact .loadDynamicSlotResult
  | loadObject => exact .loadObject
  | loadInt32Constant => exact .loadInt32Constant
  | loadValueTag => exact .loadValueTag
  | guardTagNotEqual => exact .guardTagNotEqual
  | loadDenseElementResult => exact .loadDenseElement
  | loadInt32ArrayLengthResult => exact .loadArrayLength
  | loadInt32Result | loadObjectResult =>
      exact .useRegister_bind (payload_of_admits rfl) fun _ _ => .quiet .boxToOutput
  | loadBooleanResult | loadUndefinedResult => exact .quiet .storeImm
  | loadIntPtrResult => exact .loadIntPtrResult
  | loadTypedResult => exact .loadTypedResult

end InlineCache
