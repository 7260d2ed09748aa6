import InlineCache.Proofs.Sim.Calls
import InlineCache.Proofs.Sim.Elements
import InlineCache.Proofs.Sim.Numbers
import InlineCache.Proofs.Sim.Results

/-!
The code of each operation follows its evaluation.  The code of a guard on a value does so on any words
whatsoever, but for references to the address zero.
-/

namespace InlineCache

namespace Op

/-- The operand of which a guard tests the value. -/
def tested? : Op → Option OperandId
  | ⟨.guardToObject, input, _⟩ | ⟨.guardToString, input, _⟩ | ⟨.guardToSymbol, input, _⟩
  | ⟨.guardToBigInt, input, _⟩ | ⟨.guardToBoolean, input, _⟩ | ⟨.guardToInt32, input, _⟩
  | ⟨.guardBooleanToInt32, input, _⟩ | ⟨.guardToInt32Index, input, _⟩
  | ⟨.guardToInt32ModUint32, input, _⟩ | ⟨.guardToUint8Clamped, input, _⟩
  | ⟨.guardIsNull, input, _⟩ | ⟨.guardIsUndefined, input, _⟩ | ⟨.guardIsNullOrUndefined, input, _⟩
  | ⟨.guardIsNumber, input, _⟩ => some input
  | ⟨.guardNonDoubleType, input, type, _⟩ => if type = .double then none else some input
  | _ => none

/-- The references that a guard on a value asks for. -/
def refKind? (op : Op) : Option RefKind :=
  match op.opcode with
  | .guardToObject => some .object
  | .guardToString => some .string
  | .guardToSymbol => some .symbol
  | .guardToBigInt => some .bigint
  | _ => none

/-- The guard asks for references, and the value is one to the address zero, where no cell is. -/
def MeetsNull (op : Op) (v : Value) : Prop :=
  ∃ kind, op.refKind? = some kind ∧ v.isRef kind = true ∧ v.payload = 0

theorem follows_tested {trusted : Bool} (setting : Setting trusted) {s : EvalState} {op : Op}
    {input : OperandId} (tests : op.tested? = some input)
    (present : ∀ v, s.Stores input.toNat (.boxed v) → Trusts trusted v.Refers → ¬op.MeetsNull v) :
    Follows setting s .none (op.emit setting.env) (op.eval setting.env.data s) := by
  have payload {kind : RefKind} (asks : op.refKind? = some kind) (v : Value)
      (stores : s.Stores input.toNat (.boxed v)) (refers : Trusts trusted v.Refers)
      (type : v.valueType = kind.valueType) : v.payload ≠ 0 :=
    fun null => present v stores refers ⟨kind, asks, Value.isRef_of_type type, null⟩
  obtain ⟨opcode, args⟩ := op
  cases opcode with
  | guardToObject =>
      cases tests
      exact .guardRef .object (payload rfl)
  | guardToString =>
      cases tests
      exact .guardRef .string (payload rfl)
  | guardToSymbol =>
      cases tests
      exact .guardRef .symbol (payload rfl)
  | guardToBigInt =>
      cases tests
      exact .guardRef .bigint (payload rfl)
  | guardIsNullOrUndefined => exact .guardNullish
  | guardIsNull => exact .guardTag (by decide) Value.isNull_eq
  | guardIsUndefined => exact .guardTag (by decide) Value.isUndefined_eq
  | guardToBoolean => exact .guardToBoolean
  | guardIsNumber => exact .guardNumber
  | guardToInt32 => exact .guardToInt32
  | guardBooleanToInt32 => exact .guardBooleanToInt32
  | guardToInt32Index => exact .guardToInt32Index
  | guardToInt32ModUint32 => exact .guardToInt32ModUint32
  | guardToUint8Clamped => exact .guardClampedByte
  | guardNonDoubleType => exact .guardNonDoubleType
  | _ => cases tests

theorem follows (setting : Setting) (s : EvalState) (op : Op) :
    Follows setting s .none (op.emit setting.env) (op.eval setting.env.data s) := by
  have tested {input : OperandId} (tests : op.tested? = some input) :
      Follows setting s .none (op.emit setting.env) (op.eval setting.env.data s) := by
    refine follows_tested setting tests fun v _ refers => ?_
    rintro ⟨kind, -, ref, null⟩
    obtain ⟨cell, address⟩ := (show v.Refers from refers) kind ref
    exact Block.address_ne_zero _ (address.symm.trans null)
  obtain ⟨opcode, args⟩ := op
  cases opcode with
  | returnFromIc => exact .returnFromIc
  | int32ToIntPtr => exact .int32ToIntPtr
  | guardNumberToIntPtrIndex => exact .guardNumberIndex
  | guardNonDoubleType => exact .guardNonDoubleType
  | guardShape => exact .guardShape
  | guardProto => exact .guardProto
  | guardNullProto => exact .guardNullProto
  | guardClass => exact .guardClass
  | guardAnyClass => exact .guardAnyClass
  | hasClassResult => exact .hasClass
  | callRegExpMatcherResult => exact .callRegExpMatcher
  | callRegExpSearcherResult => exact .callRegExpSearcher
  | callRegExpTesterResult => exact .callRegExpTester
  | regExpFlagResult => exact .regExpFlag
  | callSubstringKernelResult => exact .callSubstringKernel
  | guardDynamicSlotValue => exact .guardDynamicSlot
  | loadFixedSlotResult => exact .loadFixedSlotResult
  | loadDynamicSlotResult => exact .loadDynamicSlotResult
  | loadObject => exact .loadObject
  | loadInt32Constant => exact .loadInt32Constant
  | loadValueTag => exact .loadValueTag
  | guardTagNotEqual => exact .guardTagNotEqual
  | loadDenseElementResult => exact .loadDenseElement
  | loadInt32ArrayLengthResult => exact .loadArrayLength
  | loadInt32Result => exact .loadInt32Result
  | loadBooleanResult | loadUndefinedResult => exact .storeImm
  | loadObjectResult => exact .loadObjectResult
  | loadIntPtrResult => exact .loadIntPtrResult
  | loadTypedResult => exact .loadTypedResult
  | _ => exact tested rfl

end Op

end InlineCache
