import InlineCache.Proofs.Sim.Objects

/-!
Loads of slots and elements.
-/

namespace InlineCache

theorem Heap.load64?_dynamicSlot (heap : Heap) (id : CellId) {offset : Int32}
    (nonnegative : 0 ≤ offset.toInt) (aligned : offset.toInt % 8 = 0) :
    heap.load64? (Block.slots id).address (Word.ofInt32 offset) =
      ((heap.object id).dynamicSlotAt? offset).map Value.bits := by
  have small := offset.toInt_lt
  have index : Object.dynamicSlotIndex offset = offset.toInt.toNat / 8 :=
    Object.slotIndex_eq nonnegative small
  rw [load64?, Block.ofAddress?_address]
  dsimp only
  rw [Word.toNat_ofInt32 nonnegative, if_pos (by omega), Object.dynamicSlotAt?, if_neg (by omega),
    index]

theorem Heap.load64?_fixedSlot (heap : Heap) (id : CellId) {offset : Int32}
    (nonnegative : 0 ≤ offset.toInt - Object.fixedSlotBase)
    (aligned : (offset.toInt - Object.fixedSlotBase) % 8 = 0) :
    heap.load64? (Block.object id).address (Word.ofInt32 offset) =
      ((heap.object id).fixedSlotAt? offset).map Value.bits := by
  have small := offset.toInt_lt
  rw [Object.fixedSlotBase] at nonnegative aligned
  have index : Object.fixedSlotIndex offset = (offset.toInt.toNat - 32) / 8 := by
    rw [Object.fixedSlotIndex, Object.fixedSlotBase, Object.slotIndex_eq nonnegative (by omega)]
    omega
  have fields : ¬offset.toInt.toNat = layout.shape ∧ ¬offset.toInt.toNat = layout.slots ∧
      ¬offset.toInt.toNat = layout.elements ∧
      layout.fixedSlots ≤ offset.toInt.toNat ∧ offset.toInt.toNat % 8 = 0 := by
    simp only [layout]
    omega
  rw [load64?_object, Word.toNat_ofInt32 (by omega), objectWord?, if_neg fields.1,
    if_neg fields.2.1, if_neg fields.2.2.1, if_pos fields.2.2.2, Object.fixedSlotAt?,
    Object.fixedSlotBase, if_neg (by omega), index]
  rfl

theorem Heap.load64?_flags (heap : Heap) (id : CellId) :
    ∃ v, (heap.object id).fixedSlot? flagsSlot = some v ∧
      heap.load64? (Block.object id).address (UInt64.ofNat (layout.fixedSlots + 8 * flagsSlot)) =
        some v.bits := by
  refine ⟨(heap.object id).fixed[0], rfl, ?_⟩
  rw [load64?_object]
  rfl

namespace Follows

variable {setting : Setting} {s : EvalState} {window : Option Window}
  {held : List (Register × UInt64)} {own : List (Source × UInt64)}
  {paths : List (Label × ExitStatus)} {result : Except Stop Unit × EvalState} {code : Asm Unit}
  {object : OperandId} {field : Field} {cell : CellId}

theorem checkDynamicSlot {facts : Facts} {n : Int32}
    (rest : 0 ≤ n.toInt → n.toInt % 8 = 0 → Follows setting s facts code result) :
    Follows setting s facts (Asm.checkDynamicSlot n >>= fun _ => code) result := by
  rw [Asm.checkDynamicSlot]
  split
  · intro state m after _ runs
    obtain ⟨_, _, rejects, -⟩ := Asm.runs_bind.mp runs
    exact absurd rejects Asm.not_runs_reject
  · rename_i passed
    exact rest (by omega) (by omega)

theorem checkFixedSlot {facts : Facts} {n : Int32}
    (rest : 0 ≤ n.toInt - Object.fixedSlotBase → (n.toInt - Object.fixedSlotBase) % 8 = 0 →
      Follows setting s facts code result) :
    Follows setting s facts (Asm.checkFixedSlot n >>= fun _ => code) result := by
  rw [Asm.checkFixedSlot]
  split
  · intro state m after _ runs
    obtain ⟨_, _, rejects, -⟩ := Asm.runs_bind.mp runs
    exact absurd rejects Asm.not_runs_reject
  · rename_i passed
    exact rest (by omega) (by omega)

theorem loadDynamicSlot {reg : Register} {offset : Source} {n : Int32} {v : Value}
    {next : Register → Asm Unit} (listed : (reg, (Block.object cell).address) ∈ held)
    (source : (offset, Word.ofInt32 n) ∈ own) (nonnegative : 0 ≤ n.toInt)
    (aligned : n.toInt % 8 = 0)
    (slot : (s.context.heap.object cell).dynamicSlotAt? n = some v)
    (rest : ∀ dst, Follows setting s ⟨window, held, (.reg dst, v.bits) :: own, paths⟩ (next dst)
      result) :
    Follows setting s ⟨window, held, own, paths⟩ (Asm.loadDynamicSlot reg offset >>= next)
      result := by
  rw [Asm.loadDynamicSlot, bind_assoc]
  apply allocateRegister
  intro dst junk
  rw [bind_assoc]
  apply load64 (Block.slots cell).address
  · intro m hold
    rw [hold.reg listed]
    exact Heap.load64?_slots _ _
  · rw [bind_assoc]
    apply load64 v.bits
    · intro m hold
      rw [hold.scratch (.head _), hold.source (.tail _ source),
        Heap.load64?_dynamicSlot _ _ nonnegative aligned, slot]
      rfl
    · exact rest dst

theorem guardDynamicSlot {offset word : Field} :
    Follows setting s .none (Asm.guardDynamicSlot setting.env object offset word)
      (Op.eval setting.env.data ⟨.guardDynamicSlotValue, object, offset, word, ()⟩ s) := by
  rw [Op.eval]
  apply Follows.object
  intro cell stores
  dsimp only
  apply useRegister stores rfl
  intro reg
  apply int32Source
  intro source n found
  rw [Eval.fieldInt32_of found, pure_bind]
  apply checkDynamicSlot
  intro nonnegative aligned
  cases slot : (s.context.heap.object cell).dynamicSlotAt? n with
  | none =>
      simp only [Eval.slotAt, slot, Eval.fieldWord]
      cases setting.env.data.wordOf? word.offset .value <;> exact fails rfl s
  | some v =>
      simp only [Eval.slotAt, slot, pure_bind]
      apply loadDynamicSlot (.head _) (.head _) nonnegative aligned slot
      intro actual
      apply releaseSource [(.reg actual, v.bits)] source
      apply fieldSource
      intro expected w found
      rw [Eval.fieldWord_of found, pure_bind]
      apply exitPath
      intro fail
      apply guardBranch _ (.head _)
      · intro m hold _
        exact ⟨m.reads, Inst.exec_branchPtr (hold.scratch (.tail _ (.head _)))
          (hold.source (.head _))⟩
      · exact .bind .releaseRegister fun _ => .releaseSource
      · apply releaseSource [(expected, w)] (.reg actual)
        rw [← bind_pure (Asm.releaseSource expected)]
        exact releaseSource [] expected done

theorem loadFixedSlotResult :
    Follows setting s .none (Asm.loadFixedSlotResult setting.env object field)
      (Op.eval setting.env.data ⟨.loadFixedSlotResult, object, field, ()⟩ s) := by
  rw [Op.eval, Eval.loadSlot]
  apply Follows.object
  intro cell stores
  dsimp only
  apply useRegister stores rfl
  intro reg
  apply int32Source
  intro source n found
  rw [Eval.fieldInt32_of found, pure_bind]
  apply checkFixedSlot
  intro nonnegative aligned
  cases slot : (s.context.heap.object cell).fixedSlotAt? n with
  | none =>
      simp only [Eval.slotAt, slot]
      exact fails rfl s
  | some v =>
      simp only [Eval.slotAt, slot, pure_bind]
      apply allocateRegister
      intro dst junk
      apply load64 v.bits
      · intro m hold
        rw [hold.reg (.head _), hold.source (.tail _ (.head _)), OperandValue.word,
          Heap.load64?_fixedSlot _ _ nonnegative aligned, slot]
        rfl
      · exact storeOutput fun m hold => hold.scratch (.head _)

theorem loadDynamicSlotResult :
    Follows setting s .none (Asm.loadDynamicSlotResult setting.env object field)
      (Op.eval setting.env.data ⟨.loadDynamicSlotResult, object, field, ()⟩ s) := by
  rw [Op.eval, Eval.loadSlot]
  apply Follows.object
  intro cell stores
  dsimp only
  apply useRegister stores rfl
  intro reg
  apply int32Source
  intro source n found
  rw [Eval.fieldInt32_of found, pure_bind]
  apply checkDynamicSlot
  intro nonnegative aligned
  cases slot : (s.context.heap.object cell).dynamicSlotAt? n with
  | none =>
      simp only [Eval.slotAt, slot]
      exact fails rfl s
  | some v =>
      simp only [Eval.slotAt, slot, pure_bind]
      apply loadDynamicSlot (.head _) (.head _) nonnegative aligned slot
      intro dst
      exact storeOutput fun m hold => hold.scratch (.head _)

theorem regExpFlag {mask : Int32} :
    Follows setting s .none (Asm.regExpFlag object mask)
      (Op.eval setting.env.data ⟨.regExpFlagResult, object, mask, ()⟩ s) := by
  rw [Op.eval]
  apply Follows.object
  intro cell stores
  dsimp only
  apply useRegister stores rfl
  intro reg
  obtain ⟨v, slot, loads⟩ := s.context.heap.load64?_flags cell
  rw [slot]
  apply allocateRegister
  intro flags junk
  apply load64 v.bits
  · intro m hold
    rw [hold.reg (.head _)]
    exact loads
  · apply put (v.bits &&& mask.toUInt32.toUInt64)
    · intro m hold
      rw [Inst.exec, hold.scratch (.head _)]
    · have same := Word.and_mask_eq_zero v.bits mask
      apply put (Word.ofBool (v.bits.toUInt32.toInt32 &&& mask ≠ 0))
      · intro m hold
        rw [Inst.exec, hold.scratch (.head _), Cond.holds64]
        simp only [ne_eq, ← same]
        rfl
      · exact boxToOutput (.boolean _) rfl rfl fun m hold => hold.scratch (.head _)

end Follows

end InlineCache
