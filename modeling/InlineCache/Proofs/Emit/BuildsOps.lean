import InlineCache.Proofs.Emit.Builds
import InlineCache.Proofs.Op.Kinds

/-!
What the code of each operation is built of.
-/

namespace InlineCache

attribute [local simp] Inst.isWork Inst.written? Inst.base? Inst.zeroed? Inst.target? Inst.needs
  Hand.allows_iff Hand.empty Hand.name Hand.spend Hand.take Hand.hold Hand.see Hand.give
  Hand.leave Hand.drop Hand.converting

namespace Site

variable {site : Site}

/-- A displacement that stands in the code is one of 32 bits. -/
theorem grants_imm {n : Nat} (small : n < 0x80000000) : site.Grants (.ofOffset (Asm.imm n)) := by
  have word : (UInt64.ofNat n).toInt64.toInt = n := Int64.toInt_ofNat_of_lt (by omega)
  rw [Asm.imm, Need.ofOffset, Site.grants_loadOffset, word]
  omega

/-- An int32 that stands in the code is an offset of 32 bits. -/
theorem grants_ofInt32 (n : Int32) : site.Grants (.ofOffset (.imm (Word.ofInt32 n))) := by
  rw [Need.ofOffset, Site.grants_loadOffset, Word.ofInt32, Int64.toInt64_toUInt64,
    Int32.toInt_toInt64]
  exact ⟨n.le_toInt, n.toInt_lt⟩

end Site

namespace Asm

namespace Codes

variable {hand : Hand} {opened : List Label} {inst : Inst} {label : Label} {dst : Register}
  {float : FloatRegister}

theorem of_bind_pure {stretch : Asm Unit} (codes : Codes hand opened (stretch >>= fun _ => Pure.pure ())) :
    Codes hand opened stretch := by
  have same : (stretch >>= fun _ => Pure.pure ()) = stretch := bind_pure stretch
  rwa [same] at codes

theorem last (allows : hand.Allows [] inst) (still : inst.isBoxing = false) :
    Codes hand [] (Asm.emit inst) :=
  of_bind_pure (emit allows still done)

theorem bindLast : Codes hand [label] (Asm.emit (.bind label)) :=
  of_bind_pure (bound (.refl _) done)

/-- A conversion that fails leaves, and writes its result otherwise. -/
theorem convertOrFail {inst : FloatRegister → Label → Inst}
    (allows : ∀ fail, ((Hand.converting dst float).leave fail).Allows [] (inst float fail))
    (still : ∀ fail, (inst float fail).isBoxing = false) :
    Codes (.converting dst float) [] (convertOrFail inst float) :=
  fail fun label => last (allows label) (still label)

theorem convertOrMinusOne : Codes (.converting dst float) [] (convertOrMinusOne dst float) := by
  refine newLabel fun outOfBounds => newLabel fun converted => ?_
  refine emit (by simp) rfl (emit (by simp) rfl ?_)
  exact bound (.swap ..) (emit (by simp) rfl bindLast)

end Codes

namespace Builds

variable {env : EmitEnv} {op : Op} {hand : Hand} {defs : List OperandId} {field : Field}
  {object : OperandId} {reg : Register} {inst : Inst}

theorem of_bind_pure {stretch : Asm Unit}
    (builds : Builds env op hand defs (stretch >>= fun _ => Pure.pure ())) :
    Builds env op hand defs stretch := by
  have same : (stretch >>= fun _ => Pure.pure ()) = stretch := bind_pure stretch
  rwa [same] at builds

theorem done : Builds env op hand [] (pure ()) :=
  codes .done

theorem last (allows : hand.Allows [] inst) : Builds env op hand [] (Asm.emit inst) :=
  of_bind_pure (emit allows done)

theorem fail {next : Label → Asm Unit}
    (rest : ∀ label, Builds env op (hand.leave label) defs (next label)) :
    Builds env op hand defs (failurePath >>= next) :=
  leave (by decide) rest

/-- A word of stub data stands in the code, or takes a register. -/
theorem wordSource {word : UInt64} {next : Source → Asm Unit} (few : hand.taken < 4)
    (there : (Need.fieldOffset field.offset).Granted hand.named)
    (rest : ∀ source taken, Builds env op (hand.give source taken) defs (next source)) :
    Builds env op hand defs (wordSource env field word >>= next) := by
  unfold Asm.wordSource
  split
  · rw [pure_bind]
    exact spend few (rest (.imm word) [])
  · simp only [bind_assoc, pure_bind]
    exact allocateRegister few fun reg => emit (by simp_all) (rest (.reg reg) [reg])

theorem fieldSource {type : FieldType} {next : Source → Asm Unit} (few : hand.taken < 4)
    (rest : ∀ source taken, Builds env op ((hand.name (.fieldOffset field.offset)).give source taken)
      defs (next source)) :
    Builds env op hand defs (fieldSource env field type >>= next) := by
  rw [Asm.fieldSource, bind_assoc]
  exact typedWord fun word => wordSource few (.inl (.head _)) rest

/-- An int32 of stub data is an offset, whether it stands in the code or in a register. -/
theorem int32Source {next : Int32 × Source → Asm Unit} (few : hand.taken < 4)
    (rest : ∀ n source taken, Builds env op
      (((hand.name (.fieldOffset field.offset)).give source taken).name (.ofOffset source))
      defs (next (n, source))) :
    Builds env op hand defs (int32Source env field >>= next) := by
  rw [Asm.int32Source, bind_assoc]
  refine int32Word fun n => ?_
  simp only [Asm.wordSource]
  split
  · simp only [pure_bind]
    exact spend few (grant (.inr fun _ => Site.grants_ofInt32 n) (rest n (.imm _) []))
  · simp only [bind_assoc, pure_bind]
    refine allocateRegister few fun reg => emit (by simp) ?_
    exact grant (.inl (.head _)) (rest n (.reg reg) [reg])

theorem loadWord {dst : Register} {word : UInt64} (own : dst ∈ hand.own)
    (named : (Need.register dst).Granted hand.named) (there : (Need.fieldOffset field.offset).Granted hand.named) :
    Builds env op hand [] (loadWord env dst field word) := by
  unfold Asm.loadWord
  split <;> exact last (by simp_all)

theorem releaseSource {source : Source} {next : Unit → Asm Unit}
    (rest : ∀ own held paths, Builds env op { hand with own, held, paths } defs (next ())) :
    Builds env op hand defs (releaseSource source >>= next) := by
  cases source with
  | reg reg => exact releaseRegister (rest [] [] [])
  | imm word => exact rest hand.own hand.held hand.paths

/-- A register is zeroed on the mispredicted path, or none is. -/
theorem zeroedRegister {next : Option Register → Asm Unit} (zeroes : Builds env op hand defs (next (some reg)))
    (keeps : Builds env op hand defs (next none)) :
    Builds env op hand defs (zeroedRegister env object reg >>= next) := by
  rw [Asm.zeroedRegister, bind_assoc]
  refine look fun found => ?_
  rw [pure_bind]
  split
  · exact zeroes
  · exact keeps

theorem storeImm (value : Value) (few : hand.taken < 4) : Builds env op hand [] (storeImm value) :=
  allocateRegister few fun _ => emit (by simp) (last (by simp))

theorem boxToOutput {type : PayloadType} (few : hand.taken < 4) (named : (Need.register reg).Granted hand.named) :
    Builds env op hand [] (boxToOutput reg type) :=
  allocateRegister few fun _ => emit (by simp_all) (last (by simp))

theorem guardPayload {input result : OperandId} {tag : ValueType} {held seen : PayloadType}
    (other : tag ≠ .double) :
    Builds env op .empty [result] (guardPayload input result tag held seen) :=
  guardType other (by simp) fun _ => define (by simp) fun _ => last (by simp)

/-- The index is a payload, or a value that is converted. -/
theorem guardNumberIndex {input result : OperandId} {supportsOutOfBounds : Bool} :
    Builds env op .empty [result] (guardNumberIndex input supportsOutOfBounds result) := by
  refine look fun found => ?_
  split
  · exact useRegister (by simp) fun _ => define (by simp) fun _ => last (by simp)
  · exact reject
  · refine convert (by decide) (.inl rfl) (by simp) fun dst float => ?_
    split
    · exact .convertOrMinusOne
    · exact .convertOrFail (by simp) fun _ => rfl

theorem guardNullish {input : OperandId} : Builds env op .empty [] (guardNullish input) := by
  refine look fun found => ?_
  dsimp only
  split
  · exact done
  refine useValueReg (by simp) fun value => codes (.newLabel fun ok => .fail fun fail => ?_)
  exact .emit (by simp) rfl (.emit (by simp) rfl .bindLast)

theorem guardNumber {input : OperandId} : Builds env op .empty [] (guardNumber input) := by
  refine look fun found => ?_
  dsimp only
  split
  · exact done
  · exact useValueReg (by simp) fun _ => fail fun _ => last (by simp)

/-- Memory is accessed through a payload that is held, and through what is found there. -/
theorem loadTwice {object : Register} {first second : Source} {next : Register → Asm Unit}
    (few : hand.taken < 4) (held : object ∈ hand.held)
    (named : (Need.register object).Granted hand.named)
    (near : (Need.ofOffset first).Granted hand.named) (far : (Need.ofOffset second).Granted hand.named)
    (rest : ∀ word, Builds env op (hand.take word) defs (next word)) :
    Builds env op hand defs ((do
      let word ← Asm.allocateRegister
      Asm.emit (.load64 word object first)
      Asm.emit (.load64 word word second)
      return word) >>= next) := by
  simp only [bind_assoc, pure_bind]
  refine allocateRegister few fun word => emit (by simp_all) (emit (by simp_all) (rest word))

theorem loadShapeWord {object : Register} {displacement : Nat} {next : Register → Asm Unit}
    (few : hand.taken < 4) (held : object ∈ hand.held)
    (named : (Need.register object).Granted hand.named) (small : displacement < 0x80000000)
    (rest : ∀ word, Builds env op (hand.take word) defs (next word)) :
    Builds env op hand defs (loadShapeWord object displacement >>= next) :=
  loadTwice few held named (.anywhere fun _ => Site.grants_imm (by decide))
    (.anywhere fun _ => Site.grants_imm small) rest

theorem loadDynamicSlot {object : Register} {offset : Source} {next : Register → Asm Unit}
    (few : hand.taken < 4) (held : object ∈ hand.held)
    (named : (Need.register object).Granted hand.named) (fits : (Need.ofOffset offset).Granted hand.named)
    (rest : ∀ word, Builds env op (hand.take word) defs (next word)) :
    Builds env op hand defs (loadDynamicSlot object offset >>= next) :=
  loadTwice few held named (.anywhere fun _ => Site.grants_imm (by decide)) fits rest

theorem releases {source : Source} :
    Builds env op hand [] (do Asm.releaseRegister reg; Asm.releaseSource source) :=
  releaseRegister (of_bind_pure (releaseSource fun _ _ _ => done))

theorem guardShape {shape : Field} : Builds env op .empty [] (guardShape env object shape) := by
  refine useRegister (by simp) fun reg => fieldSource (by simp) fun expected taken => ?_
  refine allocateRegister (by simp) fun scratch => fail fun label => ?_
  exact zeroedRegister (emit (by simp +contextual [or_imp]) releases) (emit (by simp +contextual [or_imp]) releases)

/-- What is compared with may be a word of stub data, or stand in the code. -/
theorem guardProto {proto : Asm Source}
    (source : ∀ (hand : Hand) (next : Source → Asm Unit), hand.taken < 4 →
      (∀ source named taken, Builds env op
        (Hand.give { hand with named := named ++ hand.named } source taken) [] (next source)) →
      Builds env op hand [] (proto >>= next)) :
    Builds env op .empty [] (guardProto object proto) := by
  refine useRegister (by simp) fun reg => source _ _ (by simp) fun expected named taken => ?_
  refine loadShapeWord (by simp) (by simp) (by simp) (by decide) fun actual => fail fun label => ?_
  exact emit (by simp +contextual [or_imp]) releases

theorem guardClass {classWord : Source} (few : hand.taken < 3)
    (named : ∀ need ∈ Need.ofSource classWord, need.Granted hand.named) :
    Builds env op hand [] (guardClass env object classWord) := by
  have next (reg : Register) : (hand.hold reg).taken < 4 := Nat.succ_lt_succ few
  refine useRegister (by omega) fun reg => allocateRegister (next reg) fun scratch => fail fun label => ?_
  exact zeroedRegister (emit (by simp_all [or_imp]) releases) (emit (by simp_all [or_imp]) releases)

theorem hasClass : Builds env op .empty [] (hasClass env object field) := by
  refine useRegister (by simp) fun reg => fieldSource (by simp) fun expected taken => ?_
  refine loadShapeWord (by simp) (by simp) (by simp) (by decide) fun actual => ?_
  exact emit (by simp +contextual [or_imp]) (emit (by simp) (last (by simp)))

theorem callOut {helper : Helper} {a b c : OperandId} :
    Builds env op .empty [] (callOut helper a b c) := by
  refine useRegister (by simp) fun first => useRegister (by simp) fun second => ?_
  refine useRegister (by simp) fun third => allocateRegister (by simp) fun dst => ?_
  refine leave (by decide) fun exception => callsHelpers (emit (by simp) (last (by simp)))

theorem regExpFlag {mask : Int32} : Builds env op .empty [] (regExpFlag object mask) := by
  have flags : (Need.ofOffset (imm (layout.fixedSlots + 8 * Heap.flagsSlot))).Granted [] :=
    .anywhere fun _ => Site.grants_imm (by decide)
  refine useRegister (by simp) fun reg => allocateRegister (by simp) fun word => ?_
  refine emit (by simp_all) (emit (by simp) (emit (by simp [imm]) ?_))
  exact boxToOutput (by simp) (by simp)

theorem reject_bind {α : Type} {defect : Defect} {next : α → Asm Unit} :
    Builds env op hand defs (Asm.reject defect >>= next) :=
  reject

theorem checkFixedSlot {offset : Int32} {next : Unit → Asm Unit} (rest : Builds env op hand defs (next ())) :
    Builds env op hand defs (checkFixedSlot offset >>= next) := by
  unfold Asm.checkFixedSlot
  dsimp only
  split
  · exact reject_bind
  · exact rest

theorem checkDynamicSlot {offset : Int32} {next : Unit → Asm Unit}
    (rest : Builds env op hand defs (next ())) :
    Builds env op hand defs (checkDynamicSlot offset >>= next) := by
  unfold Asm.checkDynamicSlot
  split
  · exact reject_bind
  · exact rest

theorem guardDynamicSlot {offset value : Field} :
    Builds env op .empty [] (guardDynamicSlot env object offset value) := by
  refine useRegister (by simp) fun reg => int32Source (by simp) fun n source taken => checkDynamicSlot ?_
  refine loadDynamicSlot (by simp) (by simp) (by simp) (by simp) fun actual => ?_
  refine releaseSource fun own held paths => fieldSource (by simp) fun expected taken => ?_
  exact fail fun label => emit (by simp +contextual [or_imp]) releases

theorem loadFixedSlotResult {offset : Field} :
    Builds env op .empty [] (loadFixedSlotResult env object offset) := by
  refine useRegister (by simp) fun reg => int32Source (by simp) fun n source taken => checkFixedSlot ?_
  exact allocateRegister (by simp) fun value => emit (by simp) (last (by simp))

theorem loadDynamicSlotResult {offset : Field} :
    Builds env op .empty [] (loadDynamicSlotResult env object offset) := by
  refine useRegister (by simp) fun reg => int32Source (by simp) fun n source taken => checkDynamicSlot ?_
  exact loadDynamicSlot (by simp) (by simp) (by simp) (by simp) fun value => last (by simp)

theorem loadObject {result : OperandId} : Builds env op .empty [result] (loadObject env field result) := by
  refine typedWord fun word => ?_
  split
  · exact reject
  · exact define (by simp) fun dst => loadWord (by simp) (by simp) (by simp)

theorem loadInt32Constant {result : OperandId} :
    Builds env op .empty [result] (loadInt32Constant env field result) :=
  int32Word fun _ => define (by simp) fun _ => loadWord (by simp) (by simp) (by simp)

theorem loadValueTag {input result : OperandId} :
    Builds env op .empty [result] (loadValueTag input result) := by
  refine look fun found => ?_
  split
  · exact define (by simp) fun dst => last (by simp)
  · exact useValueReg (by simp) fun value => define (by simp) fun dst => last (by simp)

theorem guardTagNotEqual {lhs rhs : OperandId} :
    Builds env op .empty [] (guardTagNotEqual lhs rhs) := by
  refine useRegister (by simp) fun left => useRegister (by simp) fun right => ?_
  refine codes (.fail fun fail => .newLabel fun ok => ?_)
  exact .emit (by simp) rfl (.emit (by simp [imm]) rfl (.emit (by simp [imm]) rfl .bindLast))

theorem loadDenseElement {index : OperandId} :
    Builds env op .empty [] (loadDenseElement env object index) := by
  have elements : (Need.ofOffset (imm layout.elements)).Granted [] :=
    .anywhere fun _ => Site.grants_imm (by decide)
  refine useRegister (by simp) fun reg => useRegister (by simp) fun index => ?_
  refine allocateRegister (by simp) fun length => emit (by simp) (fail fun label => emit (by simp) ?_)
  have finish (masked : Register)
      (named : (Need.register masked).Granted [.register length, .register index, .register reg]) :
      Builds env op (((Hand.empty.hold reg).hold index).take length |>.leave label) [] (do
        let value ← Asm.allocateRegister
        Asm.emit (.load64 value reg (imm layout.elements))
        Asm.emit (.loadIndexed64 value value masked)
        Asm.emit (.branchPtr .equal value (.imm tagBits.hole) label)
        Asm.emit (.storeOutput value)) :=
    allocateRegister (by simp) fun value => emit (by simp_all) <| emit (by simp_all) <|
      emit (by simp) (last (by simp))
  -- the index is masked or not
  dsimp only
  split
  · exact emit (by simp) (finish length (by simp))
  · exact finish index (by simp)

theorem loadArrayLength : Builds env op .empty [] (loadArrayLength object) :=
  useRegister (by simp) fun _ => allocateRegister (by simp) fun _ => emit (by simp) <|
    fail fun _ => emit (by simp [imm]) (emit (by simp) (last (by simp)))

theorem loadIntPtrResult {input : OperandId} : Builds env op .empty [] (loadIntPtrResult input) :=
  useRegister (by simp) fun _ => allocateRegister (by simp) fun _ =>
    boxIntPtr (by simp) (by simp) (by simp) (.last (by simp) rfl)

theorem loadTypedResult {input : TypedOperand} : Builds env op .empty [] (loadTypedResult input) := by
  refine look fun found => ?_
  split
  · split
    · exact reject
    · exact useRegister (by simp) fun reg => boxToOutput (by simp) (by simp)
  · exact useValueReg (by simp) fun value => last (by simp)

end Builds

end Asm

/-- What the code of an operation is built of; it defines the results of the operation. -/
theorem Op.emit_builds (env : EmitEnv) (op : Op) :
    Asm.Builds env op .empty (op.results.map Prod.fst) (op.emit env) := by
  obtain ⟨opcode, args⟩ := op
  open Asm in
  cases opcode with
  | returnFromIc => exact .returns
  | guardToObject | guardToBoolean | guardToString | guardToSymbol | guardToBigInt | guardToInt32
  | guardBooleanToInt32 => exact .guardPayload (by decide)
  | guardIsNullOrUndefined => exact .guardNullish
  | guardIsNull | guardIsUndefined => exact .guardType (by decide) (by simp) fun _ => .done
  | guardIsNumber => exact .guardNumber
  | guardToInt32Index | guardToInt32ModUint32 =>
      refine .convert (by decide) (.inr rfl) (by simp) fun dst float => ?_
      exact .convertOrFail (by simp) fun _ => rfl
  | int32ToIntPtr =>
      exact .useRegister (by simp) fun src => .define (by simp) fun dst => .last (by simp)
  | guardNumberToIntPtrIndex => exact .guardNumberIndex
  | guardToUint8Clamped =>
      obtain ⟨input, result, ⟨⟩⟩ := args
      exact .clamp (by simp) rfl
  | guardNonDoubleType =>
      obtain ⟨input, type, ⟨⟩⟩ := args
      rw [Op.emit]
      split
      · exact .reject
      · rename_i other
        exact .guardType other (by simp) fun _ => .done
  | guardShape => exact .guardShape
  | guardProto => exact .guardProto fun _ _ few rest => .fieldSource few fun _ taken => rest _ [_] taken
  | guardNullProto =>
      refine .guardProto fun _ _ few rest => ?_
      rw [pure_bind]
      exact .spend few (rest (imm 0) [] [])
  | guardClass => exact .guardClass (by simp) (by simp)
  | guardAnyClass =>
      exact .fieldSource (by simp) fun word taken => .guardClass (by simp) (by simp +contextual)
  | hasClassResult => exact .hasClass
  | callRegExpMatcherResult | callRegExpSearcherResult | callRegExpTesterResult
  | callSubstringKernelResult => exact .callOut
  | regExpFlagResult => exact .regExpFlag
  | guardDynamicSlotValue => exact .guardDynamicSlot
  | loadFixedSlotResult => exact .loadFixedSlotResult
  | loadDynamicSlotResult => exact .loadDynamicSlotResult
  | loadObject => exact .loadObject
  | loadInt32Constant => exact .loadInt32Constant
  | loadValueTag => exact .loadValueTag
  | guardTagNotEqual => exact .guardTagNotEqual
  | loadDenseElementResult => exact .loadDenseElement
  | loadInt32ArrayLengthResult => exact .loadArrayLength
  | loadInt32Result | loadObjectResult =>
      exact .useRegister (by simp) fun reg => .boxToOutput (by simp) (by simp)
  | loadBooleanResult | loadUndefinedResult => exact .storeImm _ (by simp)
  | loadIntPtrResult => exact .loadIntPtrResult
  | loadTypedResult => exact .loadTypedResult

end InlineCache
