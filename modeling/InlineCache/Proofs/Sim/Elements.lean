import InlineCache.Proofs.Sim.Slots

/-!
Loads of elements and of their number.
-/

namespace InlineCache

theorem Heap.load64?_element (heap : Heap) (id : CellId) (n : UInt32) :
    heap.load64? (Block.elements id).address (n.toUInt64 * 8) =
      ((heap.object id).element? n.toNat).map Value.bits := by
  have small := n.toNat_lt
  have whole : (n.toUInt64 * 8).toNat = n.toNat * 8 := by
    rw [UInt64.toNat_mul, UInt32.toNat_toUInt64]
    exact Nat.mod_eq_of_lt (by show n.toNat * 8 < _; omega)
  rw [load64?, Block.ofAddress?_address]
  dsimp only
  rw [whole, if_pos (Nat.mul_mod_left ..), Nat.mul_div_cancel _ (by decide)]

/-- An index below the length field of an object is that of an element. -/
theorem Object.element?_of_lt (object : Object) {n : UInt32} (below : n < object.elementCount) :
    ∃ v, object.element? n.toNat = some v := by
  refine ⟨_, Array.getElem?_eq_getElem (?_ : n.toNat < object.elements.size)⟩
  rw [elementCount, UInt32.lt_iff_toNat_lt, UInt32.toNat_ofNat'] at below
  exact Nat.lt_of_lt_of_le below (Nat.mod_le _ _)

/-- The end of a load from the elements. -/
def Asm.loadElement (object index : Register) (hole : Label) : Asm Unit := do
  let value ← allocateRegister
  emit (.load64 value object (imm layout.elements))
  emit (.loadIndexed64 value value index)
  emit (.branchPtr .equal value (.imm tagBits.hole) hole)
  emit (.storeOutput value)

namespace Follows

variable {setting : Setting} {s : EvalState} {window : Option Window}
  {held : List (Register × UInt64)} {own : List (Source × UInt64)}
  {paths : List (Label × ExitStatus)} {result : Except Stop Unit × EvalState} {code : Asm Unit}
  {object index : OperandId} {cell : CellId}

theorem load32 {base reg : Register} {offset : Int32} {old : UInt64} (half : UInt32)
    (loads : ∀ m, (Facts.mk window held ((.reg reg, old) :: own) paths).Hold m →
      s.context.heap.load32? (m.regs base) (Word.ofInt32 offset) = some half)
    (rest : Follows setting s ⟨window, held, (.reg reg, half.toUInt64) :: own, paths⟩ code result) :
    Follows setting s ⟨window, held, (.reg reg, old) :: own, paths⟩
      (Asm.emit (.load32 reg base offset) >>= fun _ => code) result := by
  apply write half.toUInt64
  · intro m hold context
    apply Inst.exec_load32
    rw [context]
    exact loads m hold
  · exact rest

theorem loadArrayLength :
    Follows setting s .none (Asm.loadArrayLength object)
      (Op.eval setting.env.data ⟨.loadInt32ArrayLengthResult, object, ()⟩ s) := by
  rw [Op.eval]
  apply Follows.object
  intro cell stores
  dsimp only
  apply useRegister stores rfl
  intro reg
  apply allocateRegister
  intro length junk
  apply load32 (s.context.heap.object cell).elementCount
  · intro m hold
    rw [hold.reg (.head _)]
    exact Heap.load32?_elementCount _ _
  · generalize (s.context.heap.object cell).elementCount = count
    apply exitPath
    intro fail
    have range : 0x7FFFFFFF < count ↔ ¬count.toNat < 0x80000000 := by
      rw [UInt32.lt_iff_toNat_lt, Nat.not_lt]
      rfl
    apply branch (decide (0x7FFFFFFF < count)) (.head _)
    · intro m hold _
      refine ⟨m.reads, ?_⟩
      rw [Inst.exec, hold.scratch (.head _), UInt32.toUInt32_toUInt64]
      rfl
    · exact .bind (.emit rfl) fun _ => .emit rfl
    · intro large
      rw [if_neg (range.mp (of_decide_eq_true large))]
      exact ⟨_, rfl, rfl⟩
    · intro fits
      rw [if_pos (Decidable.not_not.mp (mt range.mpr (of_decide_eq_false fits)))]
      apply put (Value.ofInt32 count.toInt32).bits
      · intro m hold
        rw [Inst.exec, hold.scratch (.head _), Word.box, Word.boxInt32_eq, UInt32.toUInt32_toUInt64]
      · exact storeOutput fun m hold => hold.scratch (.head _)

theorem loadElement_tidy {reg index : Register} {fail : Label} :
    Asm.Tidy [] (Asm.loadElement reg index fail) := by
  apply Asm.Tidy.bind .allocateRegister
  intro value
  exact .bind (.emit rfl) fun _ => .bind (.emit rfl) fun _ => .bind (.emit rfl) fun _ => .emit rfl

theorem loadElement {reg index : Register} {fail : Label} {n : Int32} {v : Value}
    (element : (s.context.heap.object cell).element? n.toUInt32.toNat = some v)
    (listed : (reg, (Block.object cell).address) ∈ held) (leaves : (fail, .bailout) ∈ paths)
    (indexed : ∀ m, (Facts.mk none held own paths).Hold m → m.regs index = Word.ofInt32 n) :
    Follows setting s ⟨none, held, own, paths⟩ (Asm.loadElement reg index fail)
      ((if v.isHole then Eval.bail else Eval.setOutput v) s) := by
  apply allocateRegister
  intro value junk
  apply load64 (Block.elements cell).address
  · intro m hold
    rw [hold.reg listed]
    exact Heap.load64?_elements _ _
  · apply write v.bits
    · intro m hold context
      apply Inst.exec_loadIndexed64
      have rest : (Facts.mk none held own paths).Hold m :=
        ⟨hold.held, fun fact member => hold.own fact (.tail _ member)⟩
      rw [hold.scratch (.head _), indexed m rest, context, Word.half_ofInt32, Heap.load64?_element, element]
      rfl
    · apply branch v.isHole leaves
      · intro m hold _
        refine ⟨m.reads, ?_⟩
        rw [Inst.exec, hold.scratch (.head _), Value.isHole_eq]
        rfl
      · exact .emit rfl
      · intro hole
        rw [if_pos hole]
        exact ⟨_, rfl, rfl⟩
      · intro some
        rw [if_neg (Bool.eq_false_iff.mp some)]
        exact storeOutput fun m hold => hold.scratch (.head _)

theorem loadDenseElement :
    Follows setting s .none (Asm.loadDenseElement setting.env object index)
      (Op.eval setting.env.data ⟨.loadDenseElementResult, object, index, ()⟩ s) := by
  rw [Op.eval]
  apply Follows.object
  intro cell stores
  dsimp only
  apply int32
  intro n indexed
  apply useRegister stores rfl
  intro reg
  apply useRegister indexed rfl
  intro index
  apply allocateRegister
  intro length junk
  apply load32 (s.context.heap.object cell).elementCount
  · intro m hold
    rw [hold.reg (.tail _ (.head _))]
    exact Heap.load32?_elementCount _ _
  · apply exitPath
    intro fail
    apply branch (decide ((s.context.heap.object cell).elementCount ≤ n.toUInt32)) (.head _)
    · intro m hold _
      refine ⟨m.reads, ?_⟩
      rw [Inst.exec, hold.reg (.head _), OperandValue.word, Machine.source, hold.scratch (.head _), UInt32.toUInt32_toUInt64]
      rw [Word.half_ofInt32]
      rfl
    · dsimp only
      split
      · exact .bind (.emit rfl) fun _ => loadElement_tidy
      · exact loadElement_tidy
    · intro outside
      rw [if_pos (of_decide_eq_true outside)]
      exact ⟨_, rfl, rfl⟩
    · intro inside
      have below : n.toUInt32 < (s.context.heap.object cell).elementCount :=
        UInt32.not_le.mp (of_decide_eq_false inside)
      obtain ⟨v, element⟩ := Object.element?_of_lt _ below
      rw [if_neg (of_decide_eq_false inside), element]
      dsimp only
      split
      · apply put (Word.ofInt32 n)
        · intro m hold
          rw [Inst.exec, hold.scratch (.head _), hold.reg (.head _), OperandValue.word,
            UInt32.toUInt32_toUInt64]
          rw [Word.half_ofInt32, if_neg (of_decide_eq_false inside)]
        · exact loadElement element (.tail _ (.head _)) (.head _) fun m hold => hold.scratch (.head _)
      · exact loadElement element (.tail _ (.head _)) (.head _) fun m hold => hold.reg (.head _)

end Follows

end InlineCache
