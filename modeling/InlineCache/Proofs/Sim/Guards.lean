import InlineCache.Proofs.Sim.Reading

/-!
Guards on the tags of values.
-/

namespace InlineCache

namespace Follows

variable {trusted : Bool} {setting : Setting trusted} {s : EvalState} {input result : OperandId} {α : Type}

/-- A guard whose result is the payload of the value that passes. -/
theorem guardPayload {view : Value → Option α} {make : α → OperandValue} {tag : ValueType}
    {held seen : PayloadType} (single : tag ≠ .double)
    (misses : ∀ v : Value, v.valueType ≠ tag → view v = none)
    (hits : ∀ v, s.Stores input.toNat (.boxed v) → Trusts trusted v.Refers → v.valueType = tag →
      ∃ a, view v = some a ∧ (make a).form = .payload held ∧
        (make a).word = Word.unbox v.bits seen ∧ Trusts trusted (make a).Valid) :
    Follows setting s .none (Asm.guardPayload input result tag held seen)
      (Eval.guardView view make input result s) := by
  apply value
  intro v stores refers
  apply guardType stores single
  · exact fun reg => .bind .definePayloadReg fun dst => .emit rfl
  · intro other
    rw [misses v other]
    rfl
  · intro tagged reg
    obtain ⟨a, viewed, form, word, valid⟩ := hits v stores refers tagged
    rw [viewed]
    apply definePayloadReg
    intro dst
    apply define (make a) form valid
    intro m hold _
    refine ⟨m.reads, ?_⟩
    rw [Inst.exec, hold.reg (.head _), word]
    rfl

/-- A guard on references follows the evaluation where the reference is none to the address zero. -/
theorem guardRef (kind : RefKind)
    (present : ∀ v, s.Stores input.toNat (.boxed v) → Trusts trusted v.Refers →
      v.valueType = kind.valueType → v.payload ≠ 0) :
    Follows setting s .none (Asm.guardPayload input result kind.valueType kind.payload kind.payload)
      (Eval.guardRef kind input result s) := by
  show Follows _ _ _ _ (Eval.guardView (Value.ref? kind) (.ref kind) input result s)
  apply guardPayload
  · cases kind <;> decide
  · exact fun v => Value.ref?_of_other
  · intro v stores refers type
    refine ⟨v.payload, Value.ref?_of_type (present v stores refers type) type, rfl, ?_, ?_⟩
    · cases kind <;> rfl
    · exact refers.imp fun refers => refers kind (Value.isRef_of_type type)

theorem guardToBoolean :
    Follows setting s .none (Asm.guardPayload input result .boolean .boolean .boolean)
      (Eval.guardView Value.boolean? .boolean input result s) := by
  apply guardPayload
  · decide
  · exact fun v => Value.boolean?_of_other
  · intro v _ _ type
    obtain ⟨b, viewed, word⟩ := Value.boolean?_of_type type
    exact ⟨b, viewed, rfl, word.symm, .of trivial⟩

theorem guardBooleanToInt32 :
    Follows setting s .none (Asm.guardPayload input result .boolean .int32 .boolean)
      (Eval.guardView Value.boolean? (fun b => .int32 (if b then 1 else 0)) input result s) := by
  apply guardPayload
  · decide
  · exact fun v => Value.boolean?_of_other
  · intro v _ _ type
    obtain ⟨b, viewed, word⟩ := Value.boolean?_of_type type
    refine ⟨b, viewed, rfl, ?_, .of trivial⟩
    rw [word]
    cases b <;> rfl

theorem guardToInt32 :
    Follows setting s .none (Asm.guardPayload input result .int32 .int32 .int32)
      (Eval.guardView Value.int32? .int32 input result s) := by
  apply guardPayload
  · decide
  · exact fun v => Value.int32?_of_other
  · intro v _ _ type
    exact ⟨_, Value.int32?_of_type type, rfl, rfl, .of trivial⟩

/-- A guard that only tests the tag. -/
theorem guardTag {test : Value → Bool} {type : ValueType} (single : type ≠ .double)
    (same : ∀ v, test v = decide (v.valueType = type)) :
    Follows setting s .none (discard (Asm.guardType input type)) (Eval.guardValue test input s) := by
  apply value
  intro v stores _
  apply guardType stores single
  · exact fun _ => .pure ()
  · intro other
    rw [same, decide_eq_false other]
    rfl
  · intro tagged reg
    rw [same, decide_eq_true tagged]
    exact done

theorem guardNonDoubleType {type : ValueType} :
    Follows setting s .none
      (if type = .double then Asm.reject .doubleTypeGuard else discard (Asm.guardType input type))
      ((if type = .double then Eval.fail (.malformed .doubleTypeGuard)
        else Eval.guardValue (fun value => value.valueType = type) input) s) := by
  by_cases double : type = .double
  · rw [if_pos double, if_pos double]
    exact fails rfl s
  · rw [if_neg double, if_neg double]
    exact guardTag double fun _ => rfl

theorem guardNumber :
    Follows setting s .none (Asm.guardNumber input) (Eval.guardValue Value.isNumber input s) := by
  apply value
  intro v stores _
  apply allocation
  intro state m carries
  dsimp only
  split
  · rename_i known
    have number : v.isNumber = true := by
      rw [Value.isNumber, Value.isInt32_eq_type, Value.isDouble_eq_type]
      rcases known with int32 | double
      · simp [carries.type_of_known stores int32]
      · simp [carries.type_of_known stores double]
    rw [number]
    exact done
  · apply useValueReg stores
    intro reg
    apply exitPath
    intro fail
    rw [← bind_pure (Asm.emit _)]
    apply guardBranch v.isNumber (.head _)
    · intro m hold _
      refine ⟨m.reads, ?_⟩
      rw [Inst.exec, hold.reg (.head _), Value.isNumber_eq]
      cases Word.isNumber v.bits <;> rfl
    · exact .pure ()
    · exact done

theorem guardNullish :
    Follows setting s .none (Asm.guardNullish input)
      (Eval.guardValue Value.isNullOrUndefined input s) := by
  apply value
  intro v stores _
  have nullish : v.isNullOrUndefined = decide (v.valueType = .null ∨ v.valueType = .undefined) := by
    rw [Value.isNullOrUndefined, Value.isNull_eq, Value.isUndefined_eq, Bool.decide_or]
  apply allocation
  intro state m carries
  dsimp only
  split
  · rename_i known
    rw [nullish, decide_eq_true (known.imp (carries.type_of_known stores)
      (carries.type_of_known stores))]
    exact done
  · apply useValueReg stores
    intro reg
    apply newLabel
    intro ok
    apply exitPath
    intro fail
    apply branchUnless (decide (v.valueType = .undefined)) (decide (v.valueType ≠ .null)) (.head _)
    · intro m hold _
      refine ⟨m.reads, ?_⟩
      rw [Inst.exec, hold.reg (.head _), Value.hasType_eq]
      by_cases same : v.valueType = .undefined <;> simp [same]
    · intro m hold _
      exact ⟨m.reads, Inst.exec_branchTestType _ (hold.reg (.head _)) .null fail⟩
    · exact Inst.noConfusion
    · intro defined other
      rw [nullish, decide_eq_false (not_or.mpr ⟨of_decide_eq_true other, of_decide_eq_false defined⟩)]
      exact ⟨_, rfl, rfl⟩
    · intro passes
      have passed : v.valueType = .null ∨ v.valueType = .undefined := by
        simpa [or_comm] using passes
      rw [nullish, decide_eq_true passed]
      rfl

end Follows

end InlineCache
