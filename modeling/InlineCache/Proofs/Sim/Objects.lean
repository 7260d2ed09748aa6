import InlineCache.Proofs.Code.Load
import InlineCache.Proofs.Sim.Guards

/-!
Guards on the shapes and slots of objects.
-/

namespace InlineCache

namespace Follows

variable {setting : Setting} {s : EvalState} {window : Option Window}
  {held : List (Register × UInt64)} {own : List (Source × UInt64)}
  {paths : List (Label × ExitStatus)} {result : Except Stop Unit × EvalState} {code : Asm Unit}
  {object : OperandId} {field : Field} {cell : CellId}

theorem load64 {base reg : Register} {offset : Source} {old : UInt64} (w : UInt64)
    (loads : ∀ m, (Facts.mk window held ((.reg reg, old) :: own) paths).Hold m →
      s.context.heap.load64? (m.regs base) (m.source offset) = some w)
    (rest : Follows setting s ⟨window, held, (.reg reg, w) :: own, paths⟩ code result) :
    Follows setting s ⟨window, held, (.reg reg, old) :: own, paths⟩
      (Asm.emit (.load64 reg base offset) >>= fun _ => code) result := by
  apply write w
  · intro m hold context
    apply Inst.exec_load64
    rw [context]
    exact loads m hold
  · exact rest

theorem loadShapeWord {reg : Register} {displacement : Nat} {w : UInt64}
    {next : Register → Asm Unit} (listed : (reg, (Block.object cell).address) ∈ held)
    (loads : s.context.heap.load64? (Block.shape (s.context.heap.object cell).shape).address
      (UInt64.ofNat displacement) = some w)
    (rest : ∀ dst, Follows setting s ⟨window, held, (.reg dst, w) :: own, paths⟩ (next dst) result) :
    Follows setting s ⟨window, held, own, paths⟩ (Asm.loadShapeWord reg displacement >>= next)
      result := by
  rw [Asm.loadShapeWord, bind_assoc]
  apply allocateRegister
  intro dst junk
  rw [bind_assoc]
  apply load64 (Block.shape (s.context.heap.object cell).shape).address
  · intro m hold
    rw [hold.reg listed]
    exact Heap.load64?_shape _ _
  · rw [bind_assoc]
    apply load64 w
    · intro m hold
      rw [hold.scratch (.head _)]
      exact loads
    · exact rest dst

theorem zeroedRegister {facts : Facts} {reg : Register} {next : Option Register → Asm Unit}
    (rest : ∀ zeroed, Follows setting s facts (next zeroed) result) :
    Follows setting s facts (Asm.zeroedRegister setting.env object reg >>= next) result := by
  rw [Asm.zeroedRegister, bind_assoc]
  apply allocation
  intro state m _
  exact rest _

theorem guardShape :
    Follows setting s .none (Asm.guardShape setting.env object field)
      (Op.eval setting.env.data ⟨.guardShape, object, field, ()⟩ s) := by
  rw [Op.eval]
  apply Follows.object
  intro cell stores
  dsimp only
  apply useRegister stores rfl
  intro reg
  apply fieldSource
  intro expected word found
  rw [Eval.fieldWord_of found, pure_bind]
  apply allocateRegister
  intro scratch junk
  apply exitPath
  intro fail
  apply zeroedRegister
  intro zeroed
  apply guardBranchSet (Block.shape (s.context.heap.object cell).shape).address _ (.head _)
  · intro m before after context
    apply Inst.exec_branchTestShape
    · rw [before.reg (.head _), context]
      exact Heap.load64?_shape _ _
    · exact after.source (.tail _ (.head _))
  · exact .bind .releaseRegister fun _ => .releaseSource
  · exact releaseBoth

/-- A word of the shape is compared with one that is expected. -/
theorem compareProto {reg : Register} {expected : Source} {word : UInt64} :
    Follows setting s ⟨none, [(reg, (Block.object cell).address)], [(expected, word)], []⟩
      (do
        let actual ← Asm.loadShapeWord reg layout.shapeProto
        let fail ← Asm.failurePath
        Asm.emit (.branchPtr .notEqual actual expected fail)
        Asm.releaseRegister actual
        Asm.releaseSource expected)
      (Eval.guardThat
        ((s.context.heap.shapeOf (s.context.heap.object cell)).protoAddress = word) s) := by
  apply loadShapeWord (.head _) (Heap.load64?_shapeProto _ _)
  intro actual
  apply exitPath
  intro fail
  apply guardBranch _ (.head _)
  · intro m hold _
    exact ⟨m.reads, Inst.exec_branchPtr (hold.scratch (.head _)) (hold.source (.tail _ (.head _)))⟩
  · exact .bind .releaseRegister fun _ => .releaseSource
  · exact releaseBoth

theorem guardProto :
    Follows setting s .none (Asm.guardProto object (Asm.fieldSource setting.env field .object))
      (Op.eval setting.env.data ⟨.guardProto, object, field, ()⟩ s) := by
  rw [Op.eval]
  apply Follows.object
  intro cell stores
  dsimp only
  apply useRegister stores rfl
  intro reg
  apply fieldSource
  intro expected word found
  rw [Eval.fieldWord_of found, pure_bind]
  exact compareProto

theorem guardNullProto :
    Follows setting s .none (Asm.guardProto object (return Asm.imm 0))
      (Op.eval setting.env.data ⟨.guardNullProto, object, ()⟩ s) := by
  rw [Op.eval]
  apply Follows.object
  intro cell stores
  dsimp only
  apply useRegister stores rfl
  intro reg
  rw [pure_bind]
  apply immSource 0
  have same := (s.context.heap.shapeOf (s.context.heap.object cell)).protoAddress_eq_zero
  show Follows _ _ _ _ (Eval.guardThat _ s)
  rw [← same]
  exact compareProto

theorem guardClassWord {source : Source} {word : UInt64} {passed : Bool}
    (stores : s.Stores object.toNat (.ref .object (Block.object cell).address))
    (same : passed = decide ((Block.descriptor
      (s.context.heap.shapeOf (s.context.heap.object cell)).classKind).address = word)) :
    Follows setting s ⟨none, [], [(source, word)], []⟩ (Asm.guardClass setting.env object source)
      (Eval.guardThat passed s) := by
  apply useRegister stores rfl
  intro reg
  apply allocateRegister
  intro scratch junk
  apply exitPath
  intro fail
  apply zeroedRegister
  intro zeroed
  rw [same]
  apply guardBranchSet (Block.descriptor
    (s.context.heap.shapeOf (s.context.heap.object cell)).classKind).address _ (.head _)
  · intro m before after context
    apply Inst.exec_branchTestClass
    · rw [before.reg (.head _), context]
      exact Heap.load64?_shape _ _
    · rw [context]
      exact Heap.load64?_shapeClass _ _
    · exact after.source (.tail _ (.head _))
  · exact .bind .releaseRegister fun _ => .releaseSource
  · exact releaseBoth

theorem guardClass {kind : ClassKind} :
    Follows setting s .none
      (Asm.guardClass setting.env object (.imm (Block.descriptor kind).address))
      (Op.eval setting.env.data ⟨.guardClass, object, kind, ()⟩ s) := by
  rw [Op.eval]
  apply Follows.object
  intro cell stores
  apply immSource (Block.descriptor kind).address
  apply guardClassWord stores
  rw [decide_eq_decide]
  constructor
  · exact fun same => congrArg (fun kind => (Block.descriptor kind).address) same
  · exact fun same => Block.descriptor.inj (Block.address_inj same)

theorem guardAnyClass :
    Follows setting s .none
      (Asm.fieldSource setting.env field .descriptor >>= Asm.guardClass setting.env object)
      (Op.eval setting.env.data ⟨.guardAnyClass, object, field, ()⟩ s) := by
  rw [Op.eval, Eval.classMatches, bind_assoc]
  apply fieldSource
  intro source word found
  apply Follows.object
  intro cell stores
  rw [Eval.fieldWord_of found]
  exact guardClassWord stores rfl

theorem hasClass :
    Follows setting s .none (Asm.hasClass setting.env object field)
      (Op.eval setting.env.data ⟨.hasClassResult, object, field, ()⟩ s) := by
  rw [Op.eval, Eval.classMatches, bind_assoc]
  apply Follows.object
  intro cell stores
  apply useRegister stores rfl
  intro reg
  apply fieldSource
  intro expected word found
  rw [Eval.fieldWord_of found]
  apply loadShapeWord (.head _) (Heap.load64?_shapeClass _ _)
  intro actual
  apply put (Word.ofBool (decide ((Block.descriptor
    (s.context.heap.shapeOf (s.context.heap.object cell)).classKind).address = word)))
  · intro m hold
    rw [Inst.exec, hold.scratch (.head _), hold.source (.tail _ (.head _))]
    rfl
  · apply put (Value.ofBool (decide ((Block.descriptor
      (s.context.heap.shapeOf (s.context.heap.object cell)).classKind).address = word))).bits
    · intro m hold
      rw [Inst.exec, hold.scratch (.head _)]
      exact congrArg _ (congrArg _ (OperandValue.box_word (.boolean _) rfl rfl))
    · exact storeOutput fun m hold => hold.scratch (.head _)

end Follows

end InlineCache
