import InlineCache.Proofs.Agreement
import InlineCache.Proofs.Encoding
import InlineCache.Proofs.Number.Guards
import InlineCache.Proofs.Op.Decoding

/-!
An index survives its trip.  A number is made an int64 by one conversion and a value again by another, and what
comes out is the number that went in, but for the sign of a zero.
-/

namespace InlineCache

namespace Value

variable {v : Value} {d : Double} {n : Int64}

theorem exists_number? (number : v.isNumber = true) : ∃ d, v.number? = some d := by
  rw [number?]
  rcases isNumber_iff.mp number with double | int32
  · obtain ⟨none, some⟩ := double?_of_type double
    exact ⟨_, by rw [none, some]⟩
  · exact ⟨_, by rw [int32?_of_type int32]⟩

/-- Boxing the int64 that a number is stores the number. -/
theorem ofIntPtr_eq (index : d.int64? = some n) : ofIntPtr n = ofNumber d.plain := by
  obtain ⟨integral, part⟩ := Double.int64?_eq_some_iff.mp index
  obtain ⟨plainIntegral, plainPart⟩ := d.plain_integral
  rw [integral] at plainIntegral
  rw [part] at plainPart
  rw [ofIntPtr]
  split
  · rename_i small
    have same : n.toInt32.toInt = n.toInt := by
      rw [Int64.toInt_toInt32, Int.bmod_def]
      omega
    refine (ofNumber_eq_ofInt32_iff.mpr ⟨Double.int32?_eq_some_iff.mpr ⟨plainIntegral, ?_⟩, d.plain_ne⟩).symm
    rw [plainPart, same]
  · rename_i large
    rw [← plainPart, Double.ofInt_truncate plainIntegral d.plain_ne, ofNumber_eq_ofDouble]
    rintro m ⟨found, -⟩
    have whole := (Double.int32?_eq_some_iff.mp found).2
    have low := m.le_toInt
    have high := m.toInt_lt
    omega

/-- An int64 is boxed as an int32 when it fits, and else as a double. -/
theorem valueType_ofIntPtr (n : Int64) :
    (ofIntPtr n).valueType =
      if -2 ^ 31 ≤ n.toInt ∧ n.toInt < 2 ^ 31 then .int32 else .double := by
  rw [ofIntPtr]
  split
  · rw [if_pos (by omega)]
    exact valueType_of_tagged (tagged_ofInt32 _)
  · rw [if_neg (by omega)]
    exact valueType_of_tagged (tagged_ofDouble _)

example : ofIntPtr 0x80000000 = ⟨0x41E0000000000000⟩ := by decide

end Value

namespace Eval

/-- The inputs fill the first slots that are empty. -/
theorem defineInputs_eq (filled : List (Option OperandValue)) (inputs : List Value) (free : Nat)
    (small : filled.length + inputs.length ≤ 256) (output : Value) (context : Context) :
    defineInputs filled.length inputs
        ⟨⟨filled ++ List.replicate (inputs.length + free) none⟩, output, context⟩ =
      (.ok (), ⟨⟨filled ++ (inputs.map fun v => some (.boxed v)) ++ List.replicate free none⟩,
        output, context⟩) := by
  induction inputs generalizing filled with
  | nil =>
      rw [List.map_nil, List.append_nil, List.length_nil, Nat.zero_add]
      rfl
  | cons v inputs ih =>
      rw [List.length_cons] at small
      have self : (UInt8.ofNat filled.length).toNat = filled.length :=
        UInt8.toNat_ofNat_of_lt' (show filled.length < 256 by omega)
      have slots : filled ++ List.replicate ((v :: inputs).length + free) none =
          filled ++ none :: List.replicate (inputs.length + free) none := by
        rw [List.length_cons, Nat.add_right_comm, List.replicate_succ]
      have empty : (filled ++ none :: List.replicate (inputs.length + free) none)[
          (UInt8.ofNat filled.length).toNat]? = some none := by
        rw [self, List.getElem?_append_right (Nat.le_refl _), Nat.sub_self]
        rfl
      have rest := ih (filled ++ [some (.boxed v)]) (by
        rw [List.length_append, List.length_singleton]
        omega)
      rw [List.length_append, List.length_singleton] at rest
      rw [slots, defineInputs, bind_apply, define_apply, EvalState.define_empty _ empty, self,
        List.set_append_right _ _ (Nat.le_refl _), Nat.sub_self, List.set_cons_zero]
      simpa using rest

/-- The inputs are stored, and the operands behind them are empty. -/
theorem exists_inputs {inputs : List Value} {count : Nat} (small : inputs.length ≤ 256)
    (room : inputs.length ≤ count) (context : Context) :
    ∃ s, defineInputs 0 inputs ⟨.empty count, .undefined, context⟩ = (.ok (), s) ∧
      (∀ i v, inputs[i]? = some v → s.Stores i (.boxed v)) ∧
      ∀ i, inputs.length ≤ i → i < count → s.operands.slots[i]? = some none := by
  obtain ⟨free, rfl⟩ := Nat.exists_eq_add_of_le room
  refine ⟨_, defineInputs_eq [] inputs free (by simpa using small) .undefined context, ?_, ?_⟩
  · intro i v given
    obtain ⟨bound, -⟩ := List.getElem?_eq_some_iff.mp given
    show (_ ++ _)[_]? = _
    rw [List.nil_append, List.getElem?_append_left (by rwa [List.length_map]), List.getElem?_map,
      given]
    rfl
  · intro i behind within
    dsimp only
    rw [List.nil_append, List.getElem?_append_right (by rwa [List.length_map]), List.length_map,
      List.getElem?_replicate, if_pos (by omega)]

variable {data : StubData} {s : EvalState} {id : OperandId} {n : Int64}

theorem ops_loadIntPtr (stores : s.Stores id.toNat (.intptr n)) :
    ops data [⟨.loadIntPtrResult, id, ()⟩, ⟨.returnFromIc, ()⟩] s =
      (.error (.outcome (.returned (.ofIntPtr n))), { s with output := .ofIntPtr n }) := by
  have reads : Operands.intptr s.operands id = .ok n := Operands.read_eq .intptr _ stores
  rw [ops_cons, bind_apply, Op.eval, bind_apply, use_apply, reads]
  rfl

end Eval

namespace Op

/-- Makes an index of a number and puts it out. -/
def indexTrip (input : OperandId) (supportsOutOfBounds : Bool) (result : OperandId) : List Op :=
  [⟨.guardNumberToIntPtrIndex, input, supportsOutOfBounds, result, ()⟩,
    ⟨.loadIntPtrResult, result, ()⟩, ⟨.returnFromIc, ()⟩]

/-- How the trip of a number ends. -/
def tripOutcome (supportsOutOfBounds : Bool) (d : Double) : Outcome :=
  match d.int64? with
  | some n => .returned (.ofIntPtr n)
  | none => if supportsOutOfBounds then .returned (.ofIntPtr (-1)) else .bailout

variable {s : EvalState} {input result : OperandId} {v : Value} {d : Double}

theorem eval_indexTrip (data : StubData) (supportsOutOfBounds : Bool)
    (stores : s.Stores input.toNat (.boxed v)) (number : v.number? = some d)
    (empty : s.operands.slots[result.toNat]? = some none) :
    ∃ t, Eval.ops data (indexTrip input supportsOutOfBounds result) s =
      (.error (.outcome (tripOutcome supportsOutOfBounds d)), t) := by
  have reads : Operands.number s.operands input = .ok d := by
    rw [Operands.number, EvalState.get_of_stores stores]
    dsimp only [bind, Except.bind]
    rw [number]
    rfl
  -- Whatever index is defined, it is put out.
  have defined (n : Int64) : ∃ t, (Eval.define result (.intptr n) >>= fun _ =>
      Eval.ops data [⟨.loadIntPtrResult, result, ()⟩, ⟨.returnFromIc, ()⟩]) s =
        (.error (.outcome (.returned (.ofIntPtr n))), t) := by
    obtain ⟨bound, -⟩ := List.getElem?_eq_some_iff.mp empty
    rw [Eval.bind_apply, Eval.define_apply, EvalState.define_empty _ empty]
    exact ⟨_, Eval.ops_loadIntPtr (List.getElem?_set_self bound)⟩
  rw [indexTrip, Eval.ops_cons, eval, Eval.bind_apply, Eval.bind_apply, Eval.use_apply, reads,
    tripOutcome]
  dsimp only
  cases d.int64? with
  | some n => exact Eval.bind_apply .. ▸ defined n
  | none =>
      cases supportsOutOfBounds with
      | true => exact Eval.bind_apply .. ▸ defined (-1)
      | false => exact ⟨s, rfl⟩

theorem followed_indexTrip {trusted supportsOutOfBounds : Bool} (setting : Setting trusted) :
    ∀ op ∈ indexTrip input supportsOutOfBounds result, op.Followed setting := by
  intro op member s
  simp only [indexTrip, List.mem_cons, List.not_mem_nil, or_false] at member
  rcases member with rfl | rfl | rfl
  · exact .guardNumberIndex
  · exact .loadIntPtrResult
  · exact .returnFromIc

end Op

namespace StubProgram

/-- The evaluation ends so, and the code answers it, whatever it is compiled for. -/
structure EndsWith (program : StubProgram) (data : StubData) (inputs : List Value)
    (context : Context) (outcome : Outcome) : Prop where
  evaluated : (evaluate program data inputs context).ending = .ok outcome
  compiled : ∀ config summary buffer, emitStub program data config = .ok (summary, buffer) →
    (evaluate program data inputs context).AnsweredBy
      (runCode ⟨inputs.map Value.bits, data.words⟩ buffer.insts.toList none (.start context))

theorem endsWith_indexTrip {program : StubProgram} (data : StubData) (context : Context)
    {input result : OperandId} {supportsOutOfBounds : Bool} {inputs : List Value} {v : Value}
    {d : Double}
    (read : program.terminatedOps = .ok (Op.indexTrip input supportsOutOfBounds result))
    (count : inputs.length = program.inputCount.toNat) (given : inputs[input.toNat]? = some v)
    (fresh : program.inputCount.toNat ≤ result.toNat)
    (room : result.toNat < program.operandCount.toNat) (number : v.number? = some d) :
    program.EndsWith data inputs context (Op.tripOutcome supportsOutOfBounds d) := by
  constructor
  · have small : inputs.length ≤ 256 := count ▸ Nat.le_of_lt program.inputCount.toNat_lt
    have enough : inputs.length ≤ program.operandCount.toNat := by omega
    obtain ⟨s, begins, stores, empty⟩ := Eval.exists_inputs small enough context
    obtain ⟨t, ends⟩ := Op.eval_indexTrip data supportsOutOfBounds (stores _ v given) number
      (empty result.toNat (by omega) room)
    obtain ⟨stop, u, stops, evaluates⟩ := evaluate_eq (Cursor.terminated read) data count context
    rw [Eval.bind_apply, begins] at stops
    cases stops.symm.trans ends
    rw [evaluates]
    rfl
  · intro config summary buffer emits
    let setting : Setting false := ⟨⟨data, config⟩, inputs, context, trivial, trivial, trivial⟩
    exact setting.answers_followed read (Op.followed_indexTrip setting) count emits

end StubProgram

/-- A number that is an integer of the int64 range is made an index and comes out as itself, but for the sign of
a zero: as an int32 when it fits, and else as a double.  Any other number bails out, or comes out as minus one
where indices out of bounds are supported. -/
theorem index_survives_its_trip (program : StubProgram) (data : StubData) (context : Context)
    {input result : OperandId} {supportsOutOfBounds : Bool} {inputs : List Value} {v : Value}
    (read : program.terminatedOps = .ok (Op.indexTrip input supportsOutOfBounds result))
    (count : inputs.length = program.inputCount.toNat) (given : inputs[input.toNat]? = some v)
    (fresh : program.inputCount.toNat ≤ result.toNat)
    (room : result.toNat < program.operandCount.toNat) (number : v.isNumber = true) :
    ∃ d, v.number? = some d ∧
      (∀ n : ℤ, d.datum = .finite n → -2 ^ 63 ≤ n → n < 2 ^ 63 →
        let w := Value.ofNumber d.plain
        program.EndsWith data inputs context (.returned w) ∧
          (∃ e, w.number? = some e ∧ e.numEq d = true) ∧
          (w.isInt32 = true ↔ -2 ^ 31 ≤ n ∧ n < 2 ^ 31) ∧
          (w.isDouble = true ↔ ¬(-2 ^ 31 ≤ n ∧ n < 2 ^ 31))) ∧
      ((∀ n : ℤ, ¬(d.datum = .finite n ∧ -2 ^ 63 ≤ n ∧ n < 2 ^ 63)) →
        program.EndsWith data inputs context
          (if supportsOutOfBounds then .returned (.ofInt32 (-1)) else .bailout)) := by
  obtain ⟨d, known⟩ := Value.exists_number? number
  have ends := StubProgram.endsWith_indexTrip data context read count given fresh room known
  rw [Op.tripOutcome] at ends
  refine ⟨d, known, fun n exact low high => ?_, fun other => ?_⟩
  · obtain ⟨index, found, rfl⟩ :=
      Option.map_eq_some_iff.mp (Double.toInt_int64?_eq_some_iff.mpr ⟨exact, low, high⟩)
    have stored : Value.ofIntPtr index = Value.ofNumber d.plain := Value.ofIntPtr_eq found
    have isNumber : d.isNaN = false :=
      Double.not_isNaN_of_isFinite (Double.datum_eq_finite.mp exact).1
    rw [found] at ends
    dsimp only at ends ⊢
    rw [← stored, Value.isInt32_eq_type, Value.isDouble_eq_type, Value.valueType_ofIntPtr]
    refine ⟨ends, ⟨d.plain, ?_, ?_⟩, ?_, ?_⟩
    · rw [stored]
      exact Value.number?_ofNumber (d.plain_isNaN.trans isNumber)
    · exact d.plain_numEq isNumber
    · split <;> simp_all
    · split <;> simp_all
  · have none : d.int64? = none := by
      rw [Option.eq_none_iff_forall_ne_some]
      intro index found
      refine other index.toInt (Double.toInt_int64?_eq_some_iff.mp ?_)
      rw [found]
      rfl
    rw [none] at ends
    exact ends

/-! The least int64 as a double, in the second of two inputs. -/

namespace LeastIndex

def program : StubProgram :=
  ⟨(Op.indexTrip 1 false 2).flatMap Op.encode, 3, 2⟩

def least : Value := ⟨0xC3E0000000000000⟩

def inputs : List Value := [.hole, least]

end LeastIndex

/-- The least int64 belongs to the range, while the number with the other sign does not. -/
theorem least_index_survives_its_trip :
    LeastIndex.least.isNumber = true ∧
      (evaluate LeastIndex.program .empty LeastIndex.inputs .empty).ending =
        .ok (.returned LeastIndex.least) ∧
      ∃ summary buffer m,
        emitStub LeastIndex.program .empty ⟨2, 1, 4, true, .constant, true⟩ = .ok (summary, buffer) ∧
        runCode ⟨LeastIndex.inputs.map Value.bits, []⟩ buffer.insts.toList none (.start .empty) =
          some (.returned, m) ∧ m.output = LeastIndex.least.bits := by
  have emitted : (emitStub LeastIndex.program .empty ⟨2, 1, 4, true, .constant, true⟩).isOk = true := by
    decide +kernel
  cases emits : emitStub LeastIndex.program .empty ⟨2, 1, 4, true, .constant, true⟩ with
  | error error =>
      rw [emits] at emitted
      cases emitted
  | ok stub =>
      have decodes : (Cursor.start LeastIndex.program.code).Decodes (Op.indexTrip 1 false 2) .terminal :=
        .cons rfl rfl (.cons rfl rfl (.terminal rfl rfl))
      have given : LeastIndex.inputs[(1 : OperandId).toNat]? = some LeastIndex.least := rfl
      have number : LeastIndex.least.isNumber = true := by decide
      obtain ⟨d, known, inside, -⟩ := index_survives_its_trip LeastIndex.program .empty .empty
        (LeastIndex.program.terminatedOps_eq decodes) rfl given (by decide) (by decide) number
      obtain rfl : ⟨0xC3E0000000000000⟩ = d :=
        Option.some.inj ((show LeastIndex.least.number? = some _ by decide).symm.trans known)
      have exact : Double.datum ⟨0xC3E0000000000000⟩ = .finite (-2 ^ 63 : ℤ) :=
        (Double.toInt_int64?_eq_some_iff.mp (by decide)).1
      obtain ⟨ends, -⟩ := inside _ exact (by decide) (by decide)
      have same : Value.ofNumber (Double.plain ⟨0xC3E0000000000000⟩) = LeastIndex.least := by decide
      rw [same] at ends
      have answered := ends.compiled _ _ _ emits
      rw [EvalResult.AnsweredBy, ends.evaluated] at answered
      obtain ⟨m, runs, output, -⟩ := answered
      exact ⟨number, ends.evaluated, stub.1, stub.2, m, rfl, runs, output⟩

end InlineCache
