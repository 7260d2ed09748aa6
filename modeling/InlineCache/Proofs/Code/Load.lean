import InlineCache.Code.Machine
import InlineCache.Proofs.Code.Word

/-!
Loads.  Each word that code loads from an object or from its shape is the part of the object that the
evaluation looks at.
-/

namespace InlineCache

namespace Block

theorem address_inj {first second : Block} (same : first.address = second.address) :
    first = second := by
  have found := congrArg ofAddress? same
  rw [ofAddress?_address, ofAddress?_address] at found
  exact Option.some.inj found

end Block

namespace Shape

theorem protoAddress_eq_zero (shape : Shape) :
    decide (shape.protoAddress = 0) = shape.proto.isNone := by
  rw [protoAddress]
  cases shape.proto with
  | none => rfl
  | some id => exact decide_eq_false (Block.address_ne_zero _)

end Shape

namespace Heap

variable (heap : Heap) (id : CellId)

theorem load64?_object (displacement : UInt64) :
    heap.load64? (Block.object id).address displacement =
      heap.objectWord? id displacement.toNat := by
  rw [load64?, Block.ofAddress?_address]

theorem load64?_shape :
    heap.load64? (Block.object id).address (UInt64.ofNat layout.shape) =
      some (Block.shape (heap.object id).shape).address := by
  rw [load64?_object]
  rfl

theorem load64?_shapeClass :
    heap.load64? (Block.shape id).address (UInt64.ofNat layout.shapeClass) =
      some (Block.descriptor (heap.shape id).classKind).address := by
  rw [load64?, Block.ofAddress?_address]
  rfl

theorem load64?_shapeProto :
    heap.load64? (Block.shape id).address (UInt64.ofNat layout.shapeProto) =
      some (heap.shape id).protoAddress := by
  rw [load64?, Block.ofAddress?_address]
  rfl

theorem load64?_slots :
    heap.load64? (Block.object id).address (UInt64.ofNat layout.slots) =
      some (Block.slots id).address := by
  rw [load64?_object]
  rfl

theorem load64?_elements :
    heap.load64? (Block.object id).address (UInt64.ofNat layout.elements) =
      some (Block.elements id).address := by
  rw [load64?_object]
  rfl

theorem load32?_elementCount :
    heap.load32? (Block.object id).address (Word.ofInt32 (Int32.ofNat layout.elementCount)) =
      some (heap.object id).elementCount := by
  rw [load32?, Block.ofAddress?_address]
  rfl

end Heap

/-- A displacement that is not negative stands for itself. -/
theorem Word.toNat_ofInt32 {n : Int32} (nonnegative : 0 ≤ n.toInt) :
    (ofInt32 n).toNat = n.toInt.toNat := by
  have extended : 0 ≤ n.toInt64 := by
    rw [Int64.le_iff_toInt_le, Int32.toInt_toInt64]
    exact nonnegative
  rw [ofInt32, Int64.toNat_toUInt64_of_le extended, Int32.toNatClampNeg_toInt64]
  rfl

namespace Inst

variable {entry : Entry} {m : Machine} {dst base : Register} {w : UInt64}

theorem exec_load64 {offset : Source}
    (loads : m.context.heap.load64? (m.regs base) (m.source offset) = some w) :
    ∃ reads, (load64 dst base offset).exec entry m = .next { m.setReg dst w with reads } := by
  refine ⟨⟨m.regs base, m.source offset⟩ :: m.reads, ?_⟩
  rw [exec, Machine.load64?, loads]
  rfl

theorem exec_load32 {offset : Int32} {half : UInt32}
    (loads : m.context.heap.load32? (m.regs base) (Word.ofInt32 offset) = some half) :
    ∃ reads, (load32 dst base offset).exec entry m =
      .next { m.setReg dst half.toUInt64 with reads } := by
  refine ⟨⟨m.regs base, Word.ofInt32 offset⟩ :: m.reads, ?_⟩
  rw [exec, Machine.load32?, loads]
  rfl

theorem exec_loadIndexed64 {index : Register}
    (loads : m.context.heap.load64? (m.regs base) ((m.regs index).toUInt32.toUInt64 * 8) = some w) :
    ∃ reads, (loadIndexed64 dst base index).exec entry m = .next { m.setReg dst w with reads } := by
  refine ⟨⟨m.regs base, (m.regs index).toUInt32.toUInt64 * 8⟩ :: m.reads, ?_⟩
  rw [exec, Machine.load64?, loads]
  rfl

theorem exec_branchTestShape {obj scratch : Register} {shape : Source} {zeroed : Option Register}
    {target : Label} {actual expected : UInt64}
    (loads : m.context.heap.load64? (m.regs obj) (UInt64.ofNat layout.shape) = some actual)
    (source : (m.setReg scratch actual).source shape = expected) :
    ∃ reads, (branchTestShape .notEqual obj shape scratch zeroed target).exec entry m =
      .branch (!decide (actual = expected)) target { m.setReg scratch actual with reads } := by
  refine ⟨⟨m.regs obj, UInt64.ofNat layout.shape⟩ :: m.reads, ?_⟩
  rw [exec, Machine.load64?, loads, ← source]
  cases shape <;> simp only [Option.map_some, compareWord, Cond.holds64, ne_eq, decide_not] <;> rfl

theorem exec_branchTestClass {obj scratch : Register} {classWord : Source}
    {zeroed : Option Register} {target : Label} {shape actual expected : UInt64}
    (loadsShape : m.context.heap.load64? (m.regs obj) (UInt64.ofNat layout.shape) = some shape)
    (loads : m.context.heap.load64? shape (UInt64.ofNat layout.shapeClass) = some actual)
    (source : (m.setReg scratch actual).source classWord = expected) :
    ∃ reads, (branchTestClass .notEqual obj classWord scratch zeroed target).exec entry m =
      .branch (!decide (actual = expected)) target { m.setReg scratch actual with reads } := by
  refine ⟨⟨shape, UInt64.ofNat layout.shapeClass⟩ :: ⟨m.regs obj, UInt64.ofNat layout.shape⟩ ::
    m.reads, ?_⟩
  rw [exec, Machine.load64?, loadsShape]
  simp only [Option.map_some, Machine.load64?, loads, compareWord, Cond.holds64, ← source, ne_eq,
    decide_not]
  cases classWord <;> rfl

theorem exec_branchPtr {lhs : Register} {rhs : Source} {target : Label} {actual expected : UInt64}
    (held : m.regs lhs = actual) (source : m.source rhs = expected) :
    (branchPtr .notEqual lhs rhs target).exec entry m =
      .branch (!decide (actual = expected)) target m := by
  rw [exec, held, source, Cond.holds64, decide_not]

end Inst

end InlineCache
