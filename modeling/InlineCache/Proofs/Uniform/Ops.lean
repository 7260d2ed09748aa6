import InlineCache.Proofs.Emit.HeedsOps
import InlineCache.Proofs.Uniform.Convert

/-!
Each operation acts in the same way for every configuration, except one that reads the operand that it
defines.
-/

namespace InlineCache

namespace Inst

variable {entry : Entry} {m : Machine} {cond : Cond} {obj scratch : Register} {source : Source}
  {zeroed : Option Register} {target : Label}

/-- A test of the shape faults where there is no object. -/
theorem exec_branchTestShape_eq :
    (branchTestShape cond obj source scratch zeroed target).exec entry m =
      ((m.context.heap.load64? (m.regs obj) (UInt64.ofNat layout.shape)).map fun w =>
        (w, ⟨m.regs obj, UInt64.ofNat layout.shape⟩ :: m.reads)).elim .fault fun read =>
          .branch (cond.holds64 read.1 ((m.setReg scratch read.1).source source)) target
            { m.setReg scratch read.1 with reads := read.2 } := by
  rw [exec, Machine.load64?]
  cases m.context.heap.load64? (m.regs obj) (UInt64.ofNat layout.shape) with
  | none => rfl
  | some w => cases source <;> rfl

/-- A test of the class faults where there is no object, or one without a shape. -/
theorem exec_branchTestClass_eq :
    (branchTestClass cond obj source scratch zeroed target).exec entry m =
      ((m.context.heap.load64? (m.regs obj) (UInt64.ofNat layout.shape)).bind fun shape =>
        (m.context.heap.load64? shape (UInt64.ofNat layout.shapeClass)).map fun w =>
          (w, ⟨shape, UInt64.ofNat layout.shapeClass⟩ ::
            ⟨m.regs obj, UInt64.ofNat layout.shape⟩ :: m.reads)).elim .fault fun read =>
          .branch (cond.holds64 read.1 ((m.setReg scratch read.1).source source)) target
            { m.setReg scratch read.1 with reads := read.2 } := by
  rw [exec, Machine.load64?]
  cases m.context.heap.load64? (m.regs obj) (UInt64.ofNat layout.shape) with
  | none => rfl
  | some shape =>
      simp only [Option.map_some, Option.bind_some, Machine.load64?]
      cases m.context.heap.load64? shape (UInt64.ofNat layout.shapeClass) with
      | none => rfl
      | some w => cases source <;> rfl

end Inst

namespace Uniform

variable {entry : Entry} {origin : Machine} {view : View} {ι : Type} {data : StubData}
  {config : ι → CodeConfig} {object input id : OperandId} {field : Field} {reg : ι → Register}
  {held : ι → List (Nat × Register)} {own : ι → List (Source × UInt64)}
  {float : ι → Option (FloatRegister × Option Double)} {paths : ι → List (Label × ExitStatus)}
  {labels : ι → List Label}

section Guards

theorem guardPayload {tag : ValueType} {form seen : PayloadType} (single : tag ≠ .double) :
    Uniform entry origin view (fun _ : ι => .none) (fun _ => none)
      fun _ => Asm.guardPayload input id tag form seen := by
  apply guardType single
  intro view
  apply definePayloadReg
  apply last
  apply fill
  · intro i m hold
    rw [Inst.exec, hold.reg (.head _)]
  · exact defined

theorem guardTag {type : ValueType} (single : type ≠ .double) :
    Uniform entry origin view (fun _ : ι => .none) (fun _ => none)
      fun _ => discard (Asm.guardType input type) := by
  apply guardType single
  intro view
  exact done

theorem guardNumber :
    Uniform entry origin view (fun _ : ι => .none) (fun _ => none)
      fun _ => Asm.guardNumber input := by
  apply table fun _ => .of_tidy .guardNumber
  · intro i a m b shows _ _
    rw [shows.knownType]
  dsimp only
  split
  · exact done
  apply useValueReg
  · rintro i _ ⟨⟩
  apply exitPath
  apply last
  apply branch _ (fun _ => .head _)
  · intro i m hold
    rw [Inst.exec, hold.reg (.head _)]
  · exact done

theorem guardNullish :
    Uniform entry origin view (fun _ : ι => .none) (fun _ => none)
      fun _ => Asm.guardNullish input := by
  apply table fun _ => .of_tidy .guardNullish
  · intro i a m b shows _ _
    rw [shows.knownType]
  dsimp only
  split
  · exact done
  apply useValueReg
  · rintro i _ ⟨⟩
  apply newLabel
  apply exitPath
  apply branchAhead
  · intro i m hold
    rw [Inst.exec, hold.reg (.head _)]
  · intro _
    apply skip (fun _ _ _ _ => Inst.noConfusion)
    apply last
    apply land
    exact done
  · intro _
    apply branch _ (fun _ => .head _)
    · intro i m hold
      rw [Inst.exec, hold.reg (.head _)]
    · apply last
      apply bind
      exact done

theorem guardTagNotEqual {lhs rhs : OperandId} :
    Uniform entry origin view (fun _ : ι => .none) (fun _ => none)
      fun _ => Asm.guardTagNotEqual lhs rhs := by
  apply useRegister
  · rintro i _ ⟨⟩
  apply useRegister
  · rintro i _ ⟨⟩
  apply exitPath
  apply newLabel
  apply branch _ (fun _ => .head _)
  · intro i m hold
    rw [Inst.exec, Machine.source, hold.reg (.head _), hold.reg (.tail _ (.head _))]
  apply branchAhead
  · intro i m hold
    rw [Inst.exec, Asm.imm, Machine.source, hold.reg (.tail _ (.head _))]
  · intro _
    apply skip (fun _ _ _ _ => Inst.noConfusion)
    apply last
    apply land
    exact done
  · intro _
    apply branch _ (fun _ => .head _)
    · intro i m hold
      rw [Inst.exec, Asm.imm, Machine.source, hold.reg (.head _)]
    · apply last
      apply bind
      exact done

theorem int32ToIntPtr :
    Uniform entry origin view (fun _ : ι => .none) (fun _ => none)
      fun _ => Asm.useRegister input >>= fun src => Asm.definePayloadReg id .intptr >>= fun dst =>
        Asm.emit (.int32ToIntPtr src dst) := by
  apply useRegister
  · rintro i _ ⟨⟩
  apply definePayloadReg
  apply last
  apply fill
  · intro i m hold
    rw [Inst.exec, hold.reg (.head _)]
  · exact defined

theorem loadValueTag :
    Uniform entry origin view (fun _ : ι => .none) (fun _ => none)
      fun _ => Asm.loadValueTag input id := by
  apply table fun _ => .of_tidy .loadValueTag
  · intro i a m b shows _ _
    rw [shows.knownType]
  split
  · apply definePayloadReg
    apply last
    apply fill
    · exact fun _ _ _ => rfl
    · exact defined
  · apply useValueReg
    · rintro i _ ⟨⟩
    apply definePayloadReg
    apply last
    apply fill
    · intro i m hold
      rw [Inst.exec, hold.reg (.head _)]
    · exact defined

end Guards

section Objects

/-- A word of the shape of an object. -/
theorem loadShapeWord {displacement : Nat} {next : ι → Register → Asm Unit}
    (listed : ∀ i, (object.toNat, reg i) ∈ held i)
    (rest : ∀ w reads, Uniform entry origin { view with reads }
      (fun p : ι × Register => ⟨none, held p.1, (.reg p.2, w) :: own p.1, none, paths p.1,
        labels p.1⟩)
      (fun _ => none) fun p => next p.1 p.2) :
    Uniform entry origin view
      (fun i => ⟨none, held i, own i, none, paths i, labels i⟩) (fun _ => none)
      fun i => Asm.loadShapeWord (reg i) displacement >>= next i := by
  simp only [Asm.loadShapeWord, bind_assoc, pure_bind]
  apply allocateRegister
  apply load64 (view.word object.toNat) (UInt64.ofNat layout.shape)
  · exact fun i m hold => hold.reg (listed i.1)
  · exact fun _ _ _ => rfl
  intro shape
  apply load64 shape (UInt64.ofNat displacement)
  · exact fun i m hold => hold.scratch (.head _)
  · exact fun _ _ _ => rfl
  intro w
  exact (rest w _).along (fun i : ι × Register × UInt64 => (i.1, i.2.1)) fun _ _ _ shows => shows

/-- A register and a word are compared, and both are given back. -/
theorem compare {source : ι → Source} {w word : UInt64} :
    Uniform entry origin view
      (fun i => ⟨none, held i, (.reg (reg i), w) :: (source i, word) :: own i, none, paths i,
        labels i⟩)
      (fun _ => none) fun i => (do
        let fail ← Asm.failurePath
        Asm.emit (.branchPtr .notEqual (reg i) (source i) fail)
        Asm.releaseRegister (reg i)
        Asm.releaseSource (source i)) := by
  apply exitPath
  apply branch _ (fun _ => .head _)
  · intro i m hold
    rw [Inst.exec, hold.scratch (.head _), hold.source (.tail _ (.head _))]
  apply releaseRegister fun _ => []
  apply last
  apply releaseSource fun _ => []
  exact done

theorem guardShape (words : entry.words = data.words) :
    Uniform entry origin view (fun _ : ι => .none) (fun _ => none)
      fun i => Asm.guardShape ⟨data, config i⟩ object field := by
  apply useRegister
  · rintro i _ ⟨⟩
  apply fieldSource words
  intro word
  apply allocateRegister
  apply exitPath
  apply zeroedRegister
  apply test _ (fun w => Cond.holds64 w word .notEqual) (fun _ => .head _)
  · intro i m hold after
    rw [Inst.exec_branchTestShape_eq, hold.reg (.head _), hold.context, hold.reads]
    simp only [(after _).source (.tail _ (.head _))]
    rfl
  intro w reads
  apply releaseRegister fun _ => []
  apply last
  apply releaseSource fun _ => []
  exact done

theorem guardProto (words : entry.words = data.words) :
    Uniform entry origin view (fun _ : ι => .none) (fun _ => none)
      fun i => Asm.guardProto object (Asm.fieldSource ⟨data, config i⟩ field .object) := by
  apply useRegister
  · rintro i _ ⟨⟩
  apply fieldSource words
  intro word
  apply loadShapeWord fun _ => .head _
  intro w reads
  exact compare

theorem guardNullProto :
    Uniform entry origin view (fun _ : ι => .none) (fun _ => none)
      fun _ => Asm.guardProto object (return Asm.imm 0) := by
  simp only [Asm.guardProto, pure_bind]
  apply useRegister
  · rintro i _ ⟨⟩
  apply immSource 0
  apply loadShapeWord fun _ => .head _
  intro w reads
  exact compare

theorem guardClass {source : ι → Source} {word : UInt64} :
    Uniform entry origin view (fun i => ⟨none, [], [(source i, word)], none, [], []⟩) (fun _ => none)
      fun i => Asm.guardClass ⟨data, config i⟩ object (source i) := by
  apply useRegister
  · rintro i _ ⟨⟩
  apply allocateRegister
  apply exitPath
  apply zeroedRegister
  apply test _ (fun w => Cond.holds64 w word .notEqual) (fun _ => .head _)
  · intro i m hold after
    rw [Inst.exec_branchTestClass_eq, hold.reg (.head _), hold.context, hold.reads]
    simp only [(after _).source (.tail _ (.head _))]
    rfl
  intro w reads
  apply releaseRegister fun _ => []
  apply last
  apply releaseSource fun _ => []
  exact done

theorem guardAnyClass (words : entry.words = data.words) :
    Uniform entry origin view (fun _ : ι => .none) (fun _ => none)
      fun i => Asm.fieldSource ⟨data, config i⟩ field .descriptor >>=
        Asm.guardClass ⟨data, config i⟩ object := by
  apply fieldSource words
  intro word
  exact guardClass

theorem hasClass (words : entry.words = data.words) :
    Uniform entry origin view (fun _ : ι => .none) (fun _ => none)
      fun i => Asm.hasClass ⟨data, config i⟩ object field := by
  apply useRegister
  · rintro i _ ⟨⟩
  apply fieldSource words
  intro word
  apply loadShapeWord fun _ => .head _
  intro w reads
  apply put
  · intro i m hold
    rw [Inst.exec, hold.scratch (.head _), hold.source (.tail _ (.head _))]
  apply put
  · intro i m hold
    rw [Inst.exec, hold.scratch (.head _)]
  apply putOut
  exact fun i m hold => hold.scratch (.head _)

end Objects

section Slots

theorem checkFixedSlot {notes : ι → Notes} {code : ι → Asm Unit} {n : Int32}
    (rest : Uniform entry origin view notes (fun _ => none) code) :
    Uniform entry origin view notes (fun _ => none)
      fun i => Asm.checkFixedSlot n >>= fun _ => code i := by
  rw [Asm.checkFixedSlot]
  split
  · refine fails fun i a b runs => ?_
    obtain ⟨_, _, rejects, -⟩ := Asm.runs_bind.mp runs
    exact Asm.not_runs_reject rejects
  · exact rest

theorem checkDynamicSlot {notes : ι → Notes} {code : ι → Asm Unit} {n : Int32}
    (rest : Uniform entry origin view notes (fun _ => none) code) :
    Uniform entry origin view notes (fun _ => none)
      fun i => Asm.checkDynamicSlot n >>= fun _ => code i := by
  rw [Asm.checkDynamicSlot]
  split
  · refine fails fun i a b runs => ?_
    obtain ⟨_, _, rejects, -⟩ := Asm.runs_bind.mp runs
    exact Asm.not_runs_reject rejects
  · exact rest

theorem loadDynamicSlot {offset : ι → Source} {displacement : UInt64} {next : ι → Register → Asm Unit}
    (listed : ∀ i, (object.toNat, reg i) ∈ held i) (source : ∀ i, (offset i, displacement) ∈ own i)
    (rest : ∀ w reads, Uniform entry origin { view with reads }
      (fun p : ι × Register => ⟨none, held p.1, (.reg p.2, w) :: own p.1, none, paths p.1,
        labels p.1⟩)
      (fun _ => none) fun p => next p.1 p.2) :
    Uniform entry origin view
      (fun i => ⟨none, held i, own i, none, paths i, labels i⟩) (fun _ => none)
      fun i => Asm.loadDynamicSlot (reg i) (offset i) >>= next i := by
  simp only [Asm.loadDynamicSlot, bind_assoc, pure_bind]
  apply allocateRegister
  apply load64 (view.word object.toNat) (UInt64.ofNat layout.slots)
  · exact fun i m hold => hold.reg (listed i.1)
  · exact fun _ _ _ => rfl
  intro slots
  apply load64 slots displacement
  · exact fun i m hold => hold.scratch (.head _)
  · exact fun i m hold => hold.source (.tail _ (source i.1))
  intro w
  exact (rest w _).along (fun i : ι × Register × UInt64 => (i.1, i.2.1)) fun _ _ _ shows => shows

variable (words : entry.words = data.words)
  (extended : ∀ offset word, data.wordOf? offset .rawInt32 = .ok word → Word.signExtend word = word)

include words extended

theorem guardDynamicSlot {offset value : Field} :
    Uniform entry origin view (fun _ : ι => .none) (fun _ => none)
      fun i => Asm.guardDynamicSlot ⟨data, config i⟩ object offset value := by
  apply useRegister
  · rintro i _ ⟨⟩
  apply int32Source words extended
  intro n
  apply checkDynamicSlot
  apply loadDynamicSlot
  · exact fun _ => .head _
  · exact fun _ => .head _
  intro w reads
  apply releaseSource fun p : ((ι × Register) × Source) × Register => [(.reg p.2, w)]
  apply fieldSource words
  intro word
  apply exitPath
  apply branch _ (fun _ => .head _)
  · intro i m hold
    rw [Inst.exec, hold.scratch (.tail _ (.head _)), hold.source (.head _)]
  apply releaseRegister fun p : ((((ι × Register) × Source) × Register) × Source) × Label =>
    [(p.1.2, word)]
  apply last
  apply releaseSource fun _ => []
  exact done

theorem loadFixedSlotResult :
    Uniform entry origin view (fun _ : ι => .none) (fun _ => none)
      fun i => Asm.loadFixedSlotResult ⟨data, config i⟩ object field := by
  apply useRegister
  · rintro i _ ⟨⟩
  apply int32Source words extended
  intro n
  apply checkFixedSlot
  apply allocateRegister
  apply load64
  · exact fun i m hold => hold.reg (.head _)
  · exact fun i m hold => hold.source (.tail _ (.head _))
  intro w
  apply putOut
  exact fun i m hold => hold.scratch (.head _)

theorem loadDynamicSlotResult :
    Uniform entry origin view (fun _ : ι => .none) (fun _ => none)
      fun i => Asm.loadDynamicSlotResult ⟨data, config i⟩ object field := by
  apply useRegister
  · rintro i _ ⟨⟩
  apply int32Source words extended
  intro n
  apply checkDynamicSlot
  apply loadDynamicSlot
  · exact fun _ => .head _
  · exact fun _ => .head _
  intro w reads
  apply putOut
  exact fun i m hold => hold.scratch (.head _)

end Slots

section Results

theorem callOut {helper : Helper} {a b c : OperandId} :
    Uniform entry origin view (fun _ : ι => .none) (fun _ => none)
      fun _ => Asm.callOut helper a b c := by
  apply useRegister
  · rintro i _ ⟨⟩
  apply useRegister
  · rintro i _ ⟨⟩
  apply useRegister
  · rintro i _ ⟨⟩
  apply allocateRegister
  apply exitPath
  apply callsHelpers
  apply callHelper _ _ _ (fun _ => .head _)
  · intro i m hold
    exact ⟨hold.reg (.tail _ (.tail _ (.head _))), hold.reg (.tail _ (.head _)), hold.reg (.head _)⟩
  intro answer context
  apply putOut
  exact fun i m hold => hold.scratch (.head _)

theorem regExpFlag {mask : Int32} :
    Uniform entry origin view (fun _ : ι => .none) (fun _ => none)
      fun _ => Asm.regExpFlag object mask := by
  apply useRegister
  · rintro i _ ⟨⟩
  apply allocateRegister
  apply load64
  · exact fun i m hold => hold.reg (.head _)
  · exact fun _ _ _ => rfl
  intro w
  apply put
  · intro i m hold
    rw [Inst.exec, hold.scratch (.head _)]
  apply put
  · intro i m hold
    rw [Inst.exec, Asm.imm, Machine.source, hold.scratch (.head _)]
  apply boxToOutput
  exact fun i m hold => hold.scratch (.head _)

theorem loadArrayLength :
    Uniform entry origin view (fun _ : ι => .none) (fun _ => none)
      fun _ => Asm.loadArrayLength object := by
  apply useRegister
  · rintro i _ ⟨⟩
  apply allocateRegister
  apply load32
  · exact fun i m hold => hold.reg (.head _)
  intro w
  apply exitPath
  apply branch _ (fun _ => .head _)
  · intro i m hold
    rw [Inst.exec, Asm.imm, Machine.source, hold.scratch (.head _)]
  apply put
  · intro i m hold
    rw [Inst.exec, hold.scratch (.head _)]
  apply putOut
  exact fun i m hold => hold.scratch (.head _)

/-- An index that is inside is not changed by a mask. -/
theorem maskIndex {code : ι → Asm Unit} {index : ι → Register} {masks : ι → Bool} {w limit : UInt64}
    (inside : ¬limit.toUInt32 ≤ w.toUInt32)
    (indexed : ∀ i {m}, (Notes.mk none (held i) ((.reg (reg i), limit) :: own i) (float i) (paths i)
      (labels i)).Hold view m → m.regs (index i) = w)
    (rest : Uniform entry origin view (fun i => ⟨none, held i,
      (.reg (reg i), if masks i then w else limit) :: own i, float i, paths i, labels i⟩)
      (fun _ => none) code) :
    Uniform entry origin view (fun i => ⟨none, held i, (.reg (reg i), limit) :: own i, float i,
      paths i, labels i⟩) (fun _ => none) fun i =>
        if masks i then
          Asm.emit (.spectreMaskIndex (index i) (reg i) (reg i)) >>= fun _ => code i
        else code i := by
  obtain ⟨fate, rest⟩ := rest
  refine ⟨fate, fun i => ?_⟩
  have acts := rest i
  dsimp only at acts ⊢
  by_cases masked : masks i = true
  · rw [if_pos masked] at acts ⊢
    refine ⟨(Asm.Growing.emit _).bind fun _ => acts.grows, ?_⟩
    intro a m b shows led runs sound
    obtain ⟨_, middle, emits, runs⟩ := Asm.runs_bind.mp runs
    cases Asm.runs_emit.mp emits
    have exec : (Inst.spectreMaskIndex (index i) (reg i) (reg i)).exec entry m =
        .next (m.setReg (reg i) w) := by
      rw [Inst.exec, shows.hold.scratch (.head _), indexed i shows.hold]
      exact congrArg (fun w => Effect.next (m.setReg (reg i) w)) (if_neg inside)
    exact acts.acts _ _ _ ((shows.set w).emitted _) (CodeBuffer.flow_emit_effect led _ exec) runs
      sound
  · rw [if_neg masked] at acts ⊢
    exact acts

theorem loadDenseElement {index : OperandId} :
    Uniform entry origin view (fun _ : ι => .none) (fun _ => none)
      fun i => Asm.loadDenseElement ⟨data, config i⟩ object index := by
  apply useRegister
  · rintro i _ ⟨⟩
  apply useRegister
  · rintro i _ ⟨⟩
  apply allocateRegister
  apply load32
  · exact fun i m hold => hold.reg (.tail _ (.head _))
  intro limit
  apply exitPath
  apply branchUnless _ (fun _ => .head _)
  · intro i m hold
    rw [Inst.exec, Machine.source, hold.reg (.head _), hold.scratch (.head _)]
  · intro i
    have finish (index : Register) : Asm.Growing (do
        let value ← Asm.allocateRegister
        Asm.emit (.load64 value i.1.1.1.2 (Asm.imm layout.elements))
        Asm.emit (.loadIndexed64 value value index)
        Asm.emit (.branchPtr .equal value (.imm tagBits.hole) i.2)
        Asm.emit (.storeOutput value)) :=
      (Asm.Growing.of_tidy .allocateRegister).bind fun _ => (Asm.Growing.emit _).bind fun _ =>
        (Asm.Growing.emit _).bind fun _ => (Asm.Growing.emit _).bind fun _ => .emit _
    dsimp only
    split
    · exact (Asm.Growing.emit _).bind fun _ => finish _
    · exact finish _
  intro inside
  apply maskIndex (of_decide_eq_false inside)
  · exact fun i m hold => hold.reg (.head _)
  apply allocateRegister
  apply load64
  · exact fun i m hold => hold.reg (.tail _ (.head _))
  · exact fun _ _ _ => rfl
  intro elements
  apply loadIndexed64 _ (((view.unbox object.toNat).unbox index.toNat).word index.toNat)
  · exact fun i m hold => hold.scratch (.head _)
  · intro i m hold
    have masked := hold.scratch (.tail _ (.head _))
    split at masked
    · rw [if_pos ‹_›]
      exact masked
    · rw [if_neg ‹_›]
      exact hold.reg (.head _)
  intro w
  apply branch _ (fun _ => .head _)
  · intro i m hold
    rw [Inst.exec, Machine.source, hold.scratch (.head _)]
  apply putOut
  exact fun i m hold => hold.scratch (.head _)

theorem loadObject (words : entry.words = data.words) :
    Uniform entry origin view (fun _ : ι => .none) (fun _ => none)
      fun i => Asm.loadObject ⟨data, config i⟩ field id := by
  simp only [Asm.loadObject, Asm.typedWord]
  cases found : data.wordOf? field.offset .object with
  | error error =>
      refine fails fun i a b runs => ?_
      obtain ⟨_, _, throws, -⟩ := Asm.runs_bind.mp runs
      exact Asm.not_runs_throw throws
  | ok word =>
      simp only [pure_bind]
      split
      · exact fails fun _ _ _ => Asm.not_runs_reject
      · apply definePayloadReg
        exact loadWord (words ▸ StubData.word_of_wordOf? found)

theorem loadInt32Constant (words : entry.words = data.words)
    (extended : ∀ offset word, data.wordOf? offset .rawInt32 = .ok word →
      Word.signExtend word = word) :
    Uniform entry origin view (fun _ : ι => .none) (fun _ => none)
      fun i => Asm.loadInt32Constant ⟨data, config i⟩ field id := by
  simp only [Asm.loadInt32Constant, Asm.int32Word]
  cases found : data.int32? field.offset with
  | error error =>
      refine fails fun i a b runs => ?_
      obtain ⟨_, _, throws, -⟩ := Asm.runs_bind.mp runs
      exact Asm.not_runs_throw throws
  | ok n =>
      simp only [pure_bind]
      apply definePayloadReg
      exact loadWord (words ▸ StubData.word_of_int32? extended found)

theorem boxResult {type : PayloadType} :
    Uniform entry origin view (fun _ : ι => .none) (fun _ => none)
      fun _ => Asm.useRegister input >>= fun src => Asm.boxToOutput src type := by
  apply useRegister
  · rintro i _ ⟨⟩
  apply boxToOutput
  exact fun i m hold => hold.reg (.head _)

theorem storeImm {value : Value} :
    Uniform entry origin view (fun _ : ι => .none) (fun _ => none) fun _ => Asm.storeImm value := by
  apply allocateRegister
  apply put value.bits (fun _ _ _ => rfl)
  apply putOut
  exact fun i m hold => hold.scratch (.head _)

theorem loadIntPtrResult :
    Uniform entry origin view (fun _ : ι => .none) (fun _ => none)
      fun _ => Asm.loadIntPtrResult input := by
  apply useRegister
  · rintro i _ ⟨⟩
  apply allocateRegister
  apply allocateFloat
  apply boxIntPtr
  · exact fun i m hold => hold.reg (.head _)
  apply releaseFloat
  apply putOut
  exact fun i m hold => hold.scratch (.head _)

theorem loadTypedResult {typed : TypedOperand} :
    Uniform entry origin view (fun _ : ι => .none) (fun _ => none)
      fun _ => Asm.loadTypedResult typed := by
  apply table fun _ => .of_tidy .loadTypedResult
  · intro i a m b shows _ runs
    rw [shows.payload? rfl]
    intro empty
    have bare : a.allocation.payload? typed.id = none := by
      rw [Allocation.payload?, Allocation.location_eq_place, empty]
      rfl
    rw [bare] at runs
    obtain ⟨_, _, uses, -⟩ := Asm.runs_bind.mp runs
    obtain ⟨-, _, fetches, -⟩ := Asm.runs_useValueReg uses
    exact fetches.somewhere empty
  split
  · split
    · exact fails fun _ _ _ => Asm.not_runs_reject
    · exact boxResult
  · apply useValueReg
    · rintro i _ ⟨⟩
    apply putOut
    exact fun i m hold => hold.reg (.head _)

end Results

end Uniform

/-- An operation acts in the same way for every configuration. -/
theorem Op.uniform {entry : Entry} {origin : Machine} {data : StubData}
    (words : entry.words = data.words)
    (extended : ∀ offset word, data.wordOf? offset .rawInt32 = .ok word → Word.signExtend word = word)
    (op : Op) (apart : op.readsResult = false) (view : View) :
    Uniform entry origin view (fun _ : CodeConfig => .none) (fun _ => none)
      fun config => op.emit ⟨data, config⟩ := by
  obtain ⟨opcode, args⟩ := op
  open InlineCache.Uniform in
  cases opcode with
  | returnFromIc => exact ret .returned
  | guardToObject | guardToString | guardToSymbol | guardToBigInt | guardToBoolean | guardToInt32
  | guardBooleanToInt32 => exact guardPayload ValueType.noConfusion
  | guardIsNullOrUndefined => exact guardNullish
  | guardIsNull | guardIsUndefined => exact guardTag ValueType.noConfusion
  | guardIsNumber => exact guardNumber
  | guardToInt32Index => apply guardIndex .int32Exact (of_decide_eq_false apart)
  | guardToInt32ModUint32 => apply guardIndex .modUint32 (of_decide_eq_false apart)
  | int32ToIntPtr => exact int32ToIntPtr
  | guardNumberToIntPtrIndex => exact guardNumberIndex
  | guardToUint8Clamped => exact guardClampedByte (of_decide_eq_false apart)
  | guardNonDoubleType =>
      obtain ⟨input, type, ⟨⟩⟩ := args
      by_cases double : type = .double
      · refine fails fun config a b runs => ?_
        rw [Op.emit, if_pos double] at runs
        exact Asm.not_runs_reject runs
      · simp only [Op.emit, if_neg double]
        exact guardTag double
  | guardShape => exact guardShape words
  | guardProto => exact guardProto words
  | guardNullProto => exact guardNullProto
  | guardClass =>
      apply immSource
      exact guardClass
  | guardAnyClass => exact guardAnyClass words
  | hasClassResult => exact hasClass words
  | callRegExpMatcherResult | callRegExpSearcherResult | callRegExpTesterResult
  | callSubstringKernelResult => exact callOut
  | regExpFlagResult => exact regExpFlag
  | guardDynamicSlotValue => exact guardDynamicSlot words extended
  | loadFixedSlotResult => exact loadFixedSlotResult words extended
  | loadDynamicSlotResult => exact loadDynamicSlotResult words extended
  | loadObject => exact loadObject words
  | loadInt32Constant => exact loadInt32Constant words extended
  | loadValueTag => exact loadValueTag
  | guardTagNotEqual => exact guardTagNotEqual
  | loadDenseElementResult => exact loadDenseElement
  | loadInt32ArrayLengthResult => exact loadArrayLength
  | loadInt32Result | loadObjectResult => exact boxResult
  | loadBooleanResult | loadUndefinedResult => exact storeImm
  | loadIntPtrResult => exact loadIntPtrResult
  | loadTypedResult => exact loadTypedResult

end InlineCache
