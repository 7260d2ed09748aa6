import InlineCache.Proofs.Emit.Outline
import InlineCache.Proofs.Sim.Numbers
import InlineCache.Proofs.Uniform.Rules

/-!
Conversions of numbers act in the same way for every configuration, both where the code of a conversion
is carried out and where it is passed by on the way to a label.
-/

namespace InlineCache

/-- Code that converts the number in a float register, for an operand that is to be defined. -/
structure Converting (entry : Entry) (origin : Machine)
    (convert : Register → FloatRegister → Asm Unit) : Prop where
  tidy : ∀ labels dst float, Asm.Tidy labels (convert dst float)
  runs : ∀ {ι : Type} {view : View} {result : Nat} {type : PayloadType} {d : Double}
    {dst : ι → Register} {number : ι → FloatRegister} {held : ι → List (Nat × Register)}
    {own : ι → List (Source × UInt64)} {paths : ι → List (Label × ExitStatus)}
    {labels : ι → List Label} {code : ι → Asm Unit},
    (∀ w, Uniform entry origin view (fun i => ⟨some ⟨result, dst i, type, some w⟩, held i, own i,
      some (number i, some d), paths i, labels i⟩) (fun _ => none) code) →
    Uniform entry origin view (fun i => ⟨some ⟨result, dst i, type, none⟩, held i, own i,
      some (number i, some d), paths i, labels i⟩) (fun _ => none)
      fun i => convert (dst i) (number i) >>= fun _ => code i
  passes : ∀ {ι : Type} {view : View} {dst : ι → Register} {number : ι → FloatRegister}
    {window : ι → Option Window} {held : ι → List (Nat × Register)}
    {own : ι → List (Source × UInt64)} {float : ι → Option (FloatRegister × Option Double)}
    {paths : ι → List (Label × ExitStatus)} {labels : ι → List Label} {target : ι → Label}
    {code : ι → Asm Unit},
    (∀ i, target i ∈ labels i) →
    Uniform entry origin view
      (fun i => ⟨window i, held i, own i, float i, paths i, labels i⟩) (fun i => some (target i))
      code →
    Uniform entry origin view
      (fun i => ⟨window i, held i, own i, float i, paths i, labels i⟩) (fun i => some (target i))
      fun i => convert (dst i) (number i) >>= fun _ => code i

namespace Converting

variable {entry : Entry} {origin : Machine}

theorem growing_doubleWay {convert : Register → FloatRegister → Asm Unit}
    (converting : Converting entry origin convert) {value dst : Register} {isDouble done : Label}
    {status : ExitStatus} :
    Asm.Growing (Asm.doubleWay value isDouble done status (convert dst)) := by
  refine (Asm.Growing.emit _).bind fun _ => (Asm.Growing.of_tidy (.exitPath _)).bind fun fail => ?_
  refine (Asm.Growing.emit _).bind fun _ => ?_
  exact (Asm.Growing.of_tidy (.doublePath fun float => converting.tidy _ _ _)).bind fun _ => .emit _

/-- An instruction that jumps to an exit path where there is no answer. -/
theorem orFail (inst : Register → FloatRegister → Label → Inst) (answer : Double → Option UInt64)
    (plain : ∀ dst float fail, (inst dst float fail).isBind = false)
    (hits : ∀ dst float fail m w, answer (m.floats float) = some w →
      (inst dst float fail).exec entry m = .next (m.setReg dst w))
    (misses : ∀ dst float fail m, answer (m.floats float) = none →
      ∃ n, (inst dst float fail).exec entry m = .jump fail n ∧ m.Alike n) :
    Converting entry origin fun dst => Asm.convertOrFail (inst dst) where
  tidy _ dst float := .convertOrFail (plain dst) float
  runs {ι view result type d dst number held own paths labels code} rest := by
    simp only [Asm.convertOrFail, Asm.failurePath, bind_assoc]
    apply Uniform.exitPath
    cases found : answer d with
    | some w =>
        apply Uniform.fill w
        · intro i m hold
          exact hits _ _ _ _ _ ((congrArg answer (hold.float _ _ rfl)).trans found)
        · exact (rest w).forgetPath
    | none =>
        obtain ⟨fate, acts⟩ := rest 0
        refine Uniform.leave (view.seen .bailout) (fun _ => .head _) (fun i => (acts i.1).grows) ?_
        intro i a m shows
        obtain ⟨n, jumps, alike⟩ := misses (dst i.1) (number i.1) i.2 m
          ((congrArg answer (shows.hold.float _ _ rfl)).trans found)
        refine ⟨n, jumps, ?_⟩
        rw [Machine.seen, View.seen, alike.output, alike.context, alike.reads, shows.output,
          shows.context, shows.reads]
  passes {ι view dst number window held own float paths labels target code} member rest := by
    simp only [Asm.convertOrFail, Asm.failurePath, bind_assoc]
    apply Uniform.exitPath
    apply Uniform.skip
    · intro i a m _ binds
      have bound := plain (dst i.1) (number i.1) i.2
      rw [binds] at bound
      cases bound
    · exact rest.forgetPath

/-- A number that has no answer becomes -1. -/
theorem orMinusOne (answer : Double → Option UInt64)
    (hits : ∀ dst float fail m w, answer (m.floats float) = some w →
      (Inst.doubleToIntPtrExact float dst fail).exec entry m = .next (m.setReg dst w))
    (misses : ∀ dst float fail m, answer (m.floats float) = none →
      ∃ w, (Inst.doubleToIntPtrExact float dst fail).exec entry m = .jump fail (m.setReg dst w) ∨
        (Inst.doubleToIntPtrExact float dst fail).exec entry m = .jump fail m) :
    Converting entry origin Asm.convertOrMinusOne where
  tidy _ _ _ := .convertOrMinusOne
  runs {ι view result type d dst number held own paths labels code} rest := by
    simp only [Asm.convertOrMinusOne, bind_assoc]
    apply Uniform.newLabel
    apply Uniform.newLabel
    cases exact : answer d with
    | some w =>
        apply Uniform.fill w
        · intro i m hold
          exact hits _ _ _ _ _ ((congrArg answer (hold.float _ _ rfl)).trans exact)
        · apply Uniform.jump (fun _ _ m shows => ⟨m, rfl, shows⟩)
          apply Uniform.passBind
          · intro i distinct same
            exact (List.nodup_cons.mp distinct).1 (same ▸ .head _)
          · apply Uniform.skip (fun _ _ _ _ => Inst.noConfusion)
            apply Uniform.land
            exact (rest w).forgetLabel.forgetLabel
    | none =>
        apply Uniform.jump
        · intro i a m shows
          obtain ⟨w, jumps | jumps⟩ := misses (dst i.1.1) (number i.1.1) i.1.2 m
            ((congrArg answer (shows.hold.float _ _ rfl)).trans exact)
          · exact ⟨_, jumps, (shows.fill w).blank⟩
          · exact ⟨_, jumps, shows⟩
        · apply Uniform.skip (fun _ _ _ _ => Inst.noConfusion)
          apply Uniform.land
          apply Uniform.fill (Int64.toUInt64 (-1)) (fun _ _ _ => rfl)
          apply Uniform.bind
          exact (rest _).forgetLabel.forgetLabel
  passes {ι view dst number window held own float paths labels target code} member rest := by
    simp only [Asm.convertOrMinusOne, bind_assoc]
    apply Uniform.newLabel
    apply Uniform.newLabel
    apply Uniform.skip (fun _ _ _ _ => Inst.noConfusion)
    apply Uniform.skip (fun _ _ _ _ => Inst.noConfusion)
    apply Uniform.passBind
    · intro i distinct same
      exact (List.nodup_cons.mp (List.nodup_cons.mp distinct).2).1 (same ▸ member i.1.1)
    · apply Uniform.skip (fun _ _ _ _ => Inst.noConfusion)
      apply Uniform.passBind
      · intro i distinct same
        exact (List.nodup_cons.mp distinct).1 (same ▸ .tail _ (member i.1.1))
      · exact rest.forgetLabel.forgetLabel

theorem int32Exact : Converting entry origin
    fun dst => Asm.convertOrFail fun float fail => .doubleToInt32Exact float dst fail :=
  orFail (fun dst float fail => .doubleToInt32Exact float dst fail)
    (fun d => d.int32?.map Word.ofInt32) (fun _ _ _ => rfl)
    (fun _ _ _ _ _ => Inst.exec_doubleToInt32Exact)
    fun _ _ _ _ => Inst.exec_doubleToInt32Exact_none

theorem modUint32 : Converting entry origin
    fun dst => Asm.convertOrFail fun float fail => .truncateDoubleModUint32 float dst fail :=
  orFail (fun dst float fail => .truncateDoubleModUint32 float dst fail)
    (fun d => d.truncateInt64?.map (Word.ofInt32 ∘ Int64.toInt32)) (fun _ _ _ => rfl)
    (fun _ _ _ _ _ => Inst.exec_truncateDoubleModUint32)
    fun _ _ _ m outside => ⟨m, Inst.exec_truncateDoubleModUint32_none outside, .refl m⟩

theorem index (supportsOutOfBounds : Bool) : Converting entry origin
    fun dst => if supportsOutOfBounds then Asm.convertOrMinusOne dst
      else Asm.convertOrFail fun float fail => .doubleToIntPtrExact float dst fail := by
  cases supportsOutOfBounds with
  | true =>
      exact orMinusOne (fun d => d.int64?.map Int64.toUInt64)
        (fun _ _ _ _ _ => Inst.exec_doubleToIntPtrExact)
        fun _ _ _ _ => Inst.exec_doubleToIntPtrExact_none _
  | false =>
      refine orFail (fun dst float fail => .doubleToIntPtrExact float dst fail)
        (fun d => d.int64?.map Int64.toUInt64) (fun _ _ _ => rfl)
        (fun _ _ _ _ _ => Inst.exec_doubleToIntPtrExact) ?_
      intro dst float fail m inexact
      obtain ⟨w, jumps | jumps⟩ := Inst.exec_doubleToIntPtrExact_none fail inexact
      · exact ⟨_, jumps, rfl, rfl, rfl⟩
      · exact ⟨_, jumps, .refl m⟩

theorem clampedByte :
    Converting entry origin fun dst float => Asm.emit (.clampDoubleToUint8 float dst) where
  tidy _ _ _ := .emit rfl
  runs {ι view result type d dst number held own paths labels code} rest := by
    apply Uniform.fill (Word.ofInt32 d.roundClampByte)
    · intro i m hold
      rw [Inst.exec, hold.float _ _ rfl]
    · exact rest _
  passes _ rest := Uniform.skip (fun _ _ _ _ => Inst.noConfusion) rest

end Converting

/-- What is converted to an index is a value that is somewhere, and not the index itself. -/
theorem Shows.not_runs_boxedIndex {entry : Entry} {origin : Machine} {view : View} {a b : Assembler}
    {m : Machine} {input id : OperandId} {status : ExitStatus}
    {convert : Register → FloatRegister → Asm Unit} (shows : Shows view .none a m)
    (reached : a.Reaches entry origin m)
    (unusable : input = id ∨ a.allocation.place input.toNat = .nowhere) :
    ¬(Asm.definePayloadReg id .intptr >>= fun dst =>
      Asm.int32OrDouble input dst status (convert dst)).Runs a () b := by
  intro runs
  obtain ⟨dst, middle, defines, converts⟩ := Asm.runs_bind.mp runs
  obtain ⟨n, opened, -⟩ := Shows.definePayloadReg shows reached defines
  have single : middle.allocation.knownType input ≠ some .double := by
    rw [opened.knownType]
    exact opened.single _
  by_cases own : input = id
  · subst own
    obtain ⟨_, _, looks, converts⟩ := Asm.runs_bind.mp converts
    obtain ⟨rfl, rfl⟩ := Asm.runs_allocation.mp looks
    rw [if_neg single] at converts
    obtain ⟨reg, _, uses, -⟩ := Asm.runs_bind.mp converts
    exact (Asm.useValueReg_revises uses).revised.boxable .intptr
      (Asm.definePayloadReg_revises defines).revised.form rfl
  · have empty := unusable.resolve_left own
    have apart : input.toNat ≠ id.toNat := fun same => own (UInt8.toNat_inj.mp same)
    exact Asm.not_runs_int32OrDouble single (Asm.definePayloadReg_nowhere defines apart empty) converts

namespace Uniform

variable {entry : Entry} {origin : Machine} {view : View} {ι : Type} {code : ι → Asm Unit}
  {dst value : ι → Register} {window : ι → Option Window} {held : ι → List (Nat × Register)}
  {own : ι → List (Source × UInt64)} {float : ι → Option (FloatRegister × Option Double)}
  {paths : ι → List (Label × ExitStatus)} {labels : ι → List Label} {isDouble finish : ι → Label}
  {convert : Register → FloatRegister → Asm Unit} {status : ExitStatus} {id input : OperandId}
  {result : Nat} {type : PayloadType}

theorem doublePath (converting : Converting entry origin convert)
    (listed : ∀ i, (id.toNat, value i) ∈ held i)
    (rest : ∀ w, Uniform entry origin view (fun i => ⟨some ⟨result, dst i, type, some w⟩, held i,
      own i, none, paths i, labels i⟩) (fun _ => none) code) :
    Uniform entry origin view (fun i => ⟨some ⟨result, dst i, type, none⟩, held i, own i, none,
      paths i, labels i⟩) (fun _ => none)
      fun i => Asm.doublePath (value i) (convert (dst i)) >>= fun _ => code i := by
  simp only [Asm.doublePath, bind_assoc]
  apply allocateFloat
  apply setFloat (Word.unboxDouble (view.word id.toNat))
  · intro i m hold
    rw [Inst.exec, hold.reg (listed i.1)]
  · apply converting.runs
    intro w
    apply releaseFloat
    exact (rest w).along Prod.fst fun _ _ _ shows => shows

theorem passDoublePath (converting : Converting entry origin convert)
    (member : ∀ i, finish i ∈ labels i)
    (rest : Uniform entry origin view
      (fun i => ⟨window i, held i, own i, none, paths i, labels i⟩) (fun i => some (finish i)) code) :
    Uniform entry origin view
      (fun i => ⟨window i, held i, own i, none, paths i, labels i⟩) (fun i => some (finish i))
      fun i => Asm.doublePath (value i) (convert (dst i)) >>= fun _ => code i := by
  simp only [Asm.doublePath, bind_assoc]
  apply passAllocateFloat
  apply skip (fun _ _ _ _ => Inst.noConfusion)
  apply converting.passes
  · exact fun i => member i.1
  · apply passReleaseFloat
    exact rest.along Prod.fst fun _ _ _ shows => shows

/-- The way of a double is taken. -/
theorem doubleWay (converting : Converting entry origin convert)
    (listed : ∀ i, (id.toNat, value i) ∈ held i) :
    Uniform entry origin view (fun i => ⟨some ⟨result, dst i, type, none⟩, held i, own i, none,
      paths i, labels i⟩) (fun i => some (isDouble i))
      fun i => Asm.doubleWay (value i) (isDouble i) (finish i) status (convert (dst i)) := by
  apply last
  simp only [Asm.doubleWay, bind_assoc]
  apply land
  apply exitPath
  apply branch _ (fun _ => .head _)
  · intro i m hold
    rw [Inst.exec, hold.reg (listed i.1)]
  · apply doublePath converting
    · exact fun i => listed i.1
    · intro w
      apply bind
      exact defined

/-- The way of a double is passed by. -/
theorem passDoubleWay {word : UInt64} (converting : Converting entry origin convert)
    (member : ∀ i, finish i ∈ labels i)
    (other : ∀ i, (labels i).Nodup → isDouble i ≠ finish i) :
    Uniform entry origin view (fun i => ⟨some ⟨result, dst i, type, some word⟩, held i, own i, none,
      paths i, labels i⟩) (fun i => some (finish i))
      fun i => Asm.doubleWay (value i) (isDouble i) (finish i) status (convert (dst i)) := by
  apply last
  simp only [Asm.doubleWay, bind_assoc]
  apply passBind other
  apply exitPath
  apply skip (fun _ _ _ _ => Inst.noConfusion)
  apply passDoublePath converting
  · exact fun i => member i.1
  · apply land
    exact defined

/-- The ways of an int32 and of a double through a conversion. -/
theorem int32OrDouble (converting : Converting entry origin convert) (other : result ≠ input.toNat) :
    Uniform entry origin view (fun i => ⟨some ⟨result, dst i, type, none⟩, held i, own i, none,
      paths i, labels i⟩) (fun _ => none)
      fun i => Asm.int32OrDouble input (dst i) status (convert (dst i)) := by
  apply table
  · exact fun i => .of_tidy (.int32OrDouble fun R float => converting.tidy R (dst i) float)
  · intro i a m b shows _ _
    rw [shows.knownType, if_neg (shows.single _)]
  apply useValueReg
  · rintro i _ ⟨⟩
    exact other
  apply table
  · refine fun i => (Asm.Growing.of_tidy .allocation).bind fun found => ?_
    split
    · exact .emit _
    refine Asm.Growing.newLabel.bind fun notInt32 => Asm.Growing.newLabel.bind fun done => ?_
    refine (Asm.Growing.emit _).bind fun _ => (Asm.Growing.emit _).bind fun _ => ?_
    exact (Asm.Growing.emit _).bind fun _ => converting.growing_doubleWay
  · intro i a m b shows _ _
    rw [shows.knownType]
  have small (i : ι × Register) {word : Option UInt64} {own : List (Source × UInt64)}
      {paths : List (Label × ExitStatus)} {labels : List Label} {m : Machine}
      (hold : (Notes.mk (some ⟨result, dst i.1, type, word⟩) ((input.toNat, i.2) :: held i.1) own none
        paths labels).Hold (view.box input.toNat) m) :
      (Inst.unboxPayload i.2 (dst i.1) .int32).exec entry m =
        .next (m.setReg (dst i.1) (Word.unbox ((view.box input.toNat).word input.toNat) .int32)) := by
    rw [Inst.exec, hold.reg (.head _)]
  split
  · apply last
    apply fill
    · exact fun i m hold => small i hold
    · exact defined
  · apply newLabel
    apply newLabel
    apply branchAhead
    · intro i m hold
      rw [Inst.exec, hold.reg (.head _)]
    · intro _
      apply skip (fun _ _ _ _ => Inst.noConfusion)
      apply skip (fun _ _ _ _ => Inst.noConfusion)
      exact doubleWay converting fun _ => .head _
    · intro _
      apply fill
      · exact fun i m hold => small i.1.1 hold
      · apply jump (fun _ _ m shows => ⟨m, rfl, shows⟩)
        apply passDoubleWay converting
        · exact fun _ => .head _
        · intro i distinct same
          exact (List.nodup_cons.mp distinct).1 (same ▸ .head _)

/-- A conversion whose result is not its operand. -/
theorem guardIndex (converting : Converting entry origin convert) (other : input ≠ id) :
    Uniform entry origin view (fun _ : ι => .none) (fun _ => none)
      fun _ => Asm.definePayloadReg id type >>= fun dst =>
        Asm.int32OrDouble input dst status (convert dst) := by
  apply definePayloadReg
  exact int32OrDouble converting fun same => other (UInt8.toNat_inj.mp same).symm

/-- An int32 is clamped where it is. -/
theorem guardClampedByte (other : input ≠ id) :
    Uniform entry origin view (fun _ : ι => .none) (fun _ => none)
      fun _ => Asm.guardClampedByte input id := by
  have converting : Converting entry origin
      fun dst float => Asm.emit (.clampDoubleToUint8 float dst) := .clampedByte
  apply definePayloadReg
  apply table
  · refine fun i => (Asm.Growing.of_tidy .allocation).bind fun found => ?_
    split
    · exact .of_tidy (.knownDouble fun float => .emit rfl)
    refine (Asm.Growing.of_tidy .useValueReg).bind fun value => ?_
    refine Asm.Growing.newLabel.bind fun done => Asm.Growing.newLabel.bind fun isDouble => ?_
    refine (Asm.Growing.emit _).bind fun _ => (Asm.Growing.emit _).bind fun _ => ?_
    refine (Asm.Growing.emit _).bind fun _ => (Asm.Growing.emit _).bind fun _ => ?_
    apply converting.growing_doubleWay
  · intro i a m b shows _ _
    rw [shows.knownType, if_neg (shows.single _)]
  apply useValueReg
  · rintro i _ ⟨⟩
    exact fun same => other (UInt8.toNat_inj.mp same).symm
  apply newLabel
  apply newLabel
  apply branchAhead
  · intro i m hold
    rw [Inst.exec, hold.reg (.head _)]
  · intro _
    apply skip (fun _ _ _ _ => Inst.noConfusion)
    apply skip (fun _ _ _ _ => Inst.noConfusion)
    apply skip (fun _ _ _ _ => Inst.noConfusion)
    apply doubleWay converting
    exact fun _ => .head _
  · intro _
    apply fill
    · intro i m hold
      rw [Inst.exec, hold.reg (.head _)]
    apply refill
    · intro i m written
      rw [Inst.exec, written]
    apply jump (fun _ _ m shows => ⟨m, rfl, shows⟩)
    apply passDoubleWay converting
    · exact fun _ => .tail _ (.head _)
    · intro i distinct same
      exact (List.nodup_cons.mp distinct).1 (same ▸ .head _)

/-- An operand that is no index yet is read only after the table has said what it is. -/
theorem payload?_of_guardNumberIndex {supportsOutOfBounds : Bool} {a b : Assembler} {m : Machine}
    (shows : Shows view .none a m) (reached : a.Reaches entry origin m)
    (runs : (Asm.guardNumberIndex input supportsOutOfBounds id).Runs a () b) :
    a.allocation.payload? input = view.payload? input.toNat := by
  refine shows.payload? rfl fun empty => ?_
  obtain ⟨_, _, looks, runs⟩ := Asm.runs_bind.mp runs
  obtain ⟨rfl, rfl⟩ := Asm.runs_allocation.mp looks
  have bare : a.allocation.payload? input = none := by
    rw [Allocation.payload?, Allocation.location_eq_place, empty]
    rfl
  rw [bare] at runs
  revert runs
  apply shows.not_runs_boxedIndex reached (.inr empty)

theorem guardNumberIndex {supportsOutOfBounds : Bool} :
    Uniform entry origin view (fun _ : ι => .none) (fun _ => none)
      fun _ => Asm.guardNumberIndex input supportsOutOfBounds id := by
  apply table fun _ => .of_tidy .guardNumberIndex
  · intro i a m b shows led runs
    rw [payload?_of_guardNumberIndex shows led
      (Asm.runs_bind.mpr ⟨_, _, Asm.runs_allocation.mpr ⟨rfl, rfl⟩, runs⟩)]
  split
  · apply useRegister
    · rintro i _ ⟨⟩
    apply definePayloadReg
    apply last
    apply fill
    · intro i m hold
      rw [Inst.exec, hold.reg (.head _)]
    · exact defined
  · exact fails fun _ _ _ => Asm.not_runs_reject
  · have converting : Converting entry origin _ := .index supportsOutOfBounds
    by_cases own : input = id
    · apply impossible
      · intro i
        refine (Asm.Growing.of_tidy .definePayloadReg).bind fun dst => ?_
        exact .of_tidy (.int32OrDouble fun labels float => converting.tidy _ _ _)
      · intro i a m b shows led
        apply shows.not_runs_boxedIndex led (.inl own)
    · apply guardIndex converting own

end Uniform

end InlineCache
