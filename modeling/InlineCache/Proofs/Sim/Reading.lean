import InlineCache.Proofs.Sim.Define

/-!
Reading operands and words of stub data, on the side of the evaluation and on the side of the code, and
testing the tag of an operand.
-/

namespace InlineCache

/-- A word that is read as an int32 has its sign extended. -/
theorem StubData.word_of_int32? {data : StubData}
    (extended : ∀ offset word, data.wordOf? offset .rawInt32 = .ok word → Word.signExtend word = word)
    {offset : Nat} {n : Int32} (found : data.int32? offset = .ok n) :
    data.words[offset / 8]? = some (Word.ofInt32 n) := by
  rw [int32?] at found
  cases raw : data.wordOf? offset .rawInt32 with
  | error error =>
      rw [raw] at found
      cases found
  | ok word =>
      rw [raw] at found
      cases found
      rw [word_of_wordOf? raw, ← Word.signExtend_eq, extended offset word raw]

theorem Location.payload?_of_boxed {location : Location} (form : location.form? = some .boxed) :
    location.payload? = none := by
  cases location <;> cases form <;> rfl

namespace Carries

theorem payload?_of_payload {trusted : Bool} {setting : Setting trusted} {s : EvalState}
    {facts : Facts} {a : Assembler} {m : Machine} {id : OperandId} {stored : OperandValue}
    {type : PayloadType}
    (carries : Carries setting s facts none a m) (stores : s.Stores id.toNat stored)
    (form : stored.form = .payload type) (somewhere : a.allocation.place id.toNat ≠ .nowhere) :
    a.allocation.payload? id = some type :=
  Location.payload?_of_form ((carries.located stores somewhere).1.trans (congrArg some form))

theorem payload?_of_boxed {trusted : Bool} {setting : Setting trusted} {s : EvalState}
    {facts : Facts} {a : Assembler} {m : Machine} {id : OperandId} {v : Value}
    (carries : Carries setting s facts none a m)
    (stores : s.Stores id.toNat (.boxed v)) : a.allocation.payload? id = none := by
  by_cases empty : a.allocation.place id.toNat = .nowhere
  · rw [Allocation.payload?, Allocation.location_eq_place, empty]
    rfl
  · exact Location.payload?_of_boxed (carries.located stores empty).1

end Carries

/-- A branch on the tag of a value that is not of a type. -/
theorem Inst.exec_branchTestType (entry : Entry) {m : Machine} {reg : Register} {v : Value}
    (held : m.regs reg = v.bits) (type : ValueType) (target : Label) :
    (Inst.branchTestType .notEqual reg type target).exec entry m =
      .branch (decide (v.valueType ≠ type)) target m := by
  rw [exec, held, Value.hasType_eq]
  by_cases same : v.valueType = type <;> simp [same]

namespace Follows

variable {trusted : Bool} {setting : Setting trusted} {s : EvalState} {facts : Facts} {window : Option Window}
  {held : List (Register × UInt64)} {own : List (Source × UInt64)}
  {paths : List (Label × ExitStatus)} {result : Except Stop Unit × EvalState} {code : Asm Unit}
  {id : OperandId} {α : Type}

/-- The evaluation reads an operand. -/
theorem get {next : OperandValue → Eval Unit}
    (rest : ∀ stored, s.Stores id.toNat stored → Trusts trusted stored.Valid →
      Follows setting s facts code (next stored s)) :
    Follows setting s facts code ((Eval.use Operands.get id >>= next) s) := by
  rw [Eval.bind_apply, Eval.use_apply, Operands.get]
  intro state m after carries runs sound
  cases found : s.operands.slots[id.toNat]? with
  | none => exact fails rfl s state m after carries runs sound
  | some slot =>
      cases slot with
      | none => exact fails rfl s state m after carries runs sound
      | some stored =>
          exact rest stored found (carries.valid _ _ found) state m after carries runs sound

/-- The evaluation reads an operand through a view. -/
theorem read {expected : OperandKind} {view : OperandValue → Option α} {next : α → Eval Unit}
    (rest : ∀ stored a, s.Stores id.toNat stored → Trusts trusted stored.Valid →
      view stored = some a → Follows setting s facts code (next a s)) :
    Follows setting s facts code ((Eval.use (·.read expected view) id >>= next) s) := by
  rw [Eval.bind_apply, Eval.use_apply]
  intro state m after carries runs sound
  cases found : s.operands.slots[id.toNat]? with
  | none =>
      rw [Operands.read, Operands.get, found]
      exact fails rfl s state m after carries runs sound
  | some slot =>
      cases slot with
      | none =>
          rw [Operands.read, Operands.get, found]
          exact fails rfl s state m after carries runs sound
      | some stored =>
          rw [Operands.read_eq expected view found]
          cases seen : view stored with
          | none => exact fails rfl s state m after carries runs sound
          | some a =>
              exact rest stored a found (carries.valid _ _ found) seen state m after carries runs sound

theorem value {next : Value → Eval Unit}
    (rest : ∀ v, s.Stores id.toNat (.boxed v) → Trusts trusted v.Refers →
      Follows setting s facts code (next v s)) :
    Follows setting s facts code ((Eval.use Operands.value id >>= next) s) := by
  apply read
  intro stored v stores valid seen
  cases stored <;> cases seen
  exact rest v stores valid

theorem cell {setting : Setting} {kind : RefKind} {next : Address → Eval Unit}
    (rest : ∀ cell, s.Stores id.toNat (.ref kind (kind.block cell).address) →
      Follows setting s facts code (next (kind.block cell).address s)) :
    Follows setting s facts code ((Eval.use (·.cell kind) id >>= next) s) := by
  apply read
  intro stored address stores valid seen
  cases stored with
  | ref found other =>
      obtain ⟨rfl, same⟩ := Option.ite_none_right_eq_some.mp seen
      cases same
      obtain ⟨cell, rfl⟩ := valid
      exact rest cell stores
  | _ => cases seen

theorem int32 {next : Int32 → Eval Unit}
    (rest : ∀ n, s.Stores id.toNat (.int32 n) → Follows setting s facts code (next n s)) :
    Follows setting s facts code ((Eval.use Operands.int32 id >>= next) s) := by
  apply read
  intro stored n stores _ seen
  cases stored <;> cases seen
  exact rest n stores

theorem intptr {next : Int64 → Eval Unit}
    (rest : ∀ n, s.Stores id.toNat (.intptr n) → Follows setting s facts code (next n s)) :
    Follows setting s facts code ((Eval.use Operands.intptr id >>= next) s) := by
  apply read
  intro stored n stores _ seen
  cases stored <;> cases seen
  exact rest n stores

theorem valueTag {next : ValueType → Eval Unit}
    (rest : ∀ type, s.Stores id.toNat (.valueTag type) → Follows setting s facts code (next type s)) :
    Follows setting s facts code ((Eval.use Operands.valueTag id >>= next) s) := by
  apply read
  intro stored type stores _ seen
  cases stored <;> cases seen
  exact rest type stores

theorem object {setting : Setting} {next : Address × Object → Eval Unit}
    (rest : ∀ cell, s.Stores id.toNat (.ref .object (Block.object cell).address) →
      Follows setting s facts code
        (next ((Block.object cell).address, s.context.heap.object cell) s)) :
    Follows setting s facts code ((Eval.objectOf id >>= next) s) := by
  rw [Eval.objectOf, bind_assoc]
  apply cell
  intro cell stores
  have found : s.context.heap.objectAt (RefKind.object.block cell).address =
      s.context.heap.object cell := by
    rw [Heap.objectAt, Block.ofAddress?_address]
    rfl
  have pair : ((Eval.heap >>= fun heap => (pure ((RefKind.object.block cell).address,
      heap.objectAt (RefKind.object.block cell).address) : Eval (Address × Object))) >>= next) s =
      next ((Block.object cell).address, s.context.heap.object cell) s := by
    rw [← found]
    rfl
  rw [pair]
  exact rest cell stores

/-- The code looks at the table, which says of operands what the evaluation says. -/
theorem allocation {next : Allocation → Asm Unit}
    (rest : ∀ state m, Carries setting s facts none state m →
      Follows setting s facts (next state.allocation) result) :
    Follows setting s facts (Asm.allocation >>= next) result := by
  intro state m after carries runs sound
  obtain ⟨_, _, looks, runs⟩ := Asm.runs_bind.mp runs
  obtain ⟨rfl, rfl⟩ := Asm.runs_allocation.mp looks
  exact rest _ m carries _ _ _ carries runs sound

/-- A word that stands in the code. -/
theorem immSource (word : UInt64)
    (rest : Follows setting s ⟨window, held, (.imm word, word) :: own, paths⟩ code result) :
    Follows setting s ⟨window, held, own, paths⟩ code result := by
  intro state m after carries runs sound
  refine rest state m after { carries with
    hold := ⟨carries.hold.held, List.forall_mem_cons.mpr ⟨rfl, carries.hold.own⟩⟩
    scratch := ?_
    apart := List.pairwise_cons.mpr ⟨fun _ _ _ impossible => (nomatch impossible), carries.apart⟩ }
    runs sound
  intro reg w member
  rcases List.mem_cons.mp member with impossible | before
  · cases impossible
  · exact carries.scratch reg w before

/-- A word of stub data is in the code, or it is loaded into a scratch register. -/
theorem wordSource {field : Field} {word : UInt64} {next : Source → Asm Unit}
    (found : setting.env.data.words[field.offset / 8]? = some word)
    (rest : ∀ source, Follows setting s ⟨window, held, (source, word) :: own, paths⟩ (next source)
      result) :
    Follows setting s ⟨window, held, own, paths⟩
      (Asm.wordSource setting.env field word >>= next) result := by
  unfold Asm.wordSource
  cases setting.env.config.policy with
  | constant => exact immSource word (rest (.imm word))
  | address =>
      dsimp only
      rw [bind_assoc]
      apply allocateRegister
      intro reg junk
      rw [bind_assoc]
      apply write word
      · intro m _ _
        refine ⟨m.reads, ?_⟩
        rw [Inst.exec, show setting.entry.words = setting.env.data.words from rfl, found]
        rfl
      · exact rest (.reg reg)

theorem fieldSource {field : Field} {type : FieldType} {next : Source → Asm Unit}
    (rest : ∀ source word, setting.env.data.wordOf? field.offset type = .ok word →
      Follows setting s ⟨window, held, (source, word) :: own, paths⟩ (next source) result) :
    Follows setting s ⟨window, held, own, paths⟩
      (Asm.fieldSource setting.env field type >>= next) result := by
  rw [Asm.fieldSource, bind_assoc, Asm.typedWord]
  cases found : setting.env.data.wordOf? field.offset type with
  | error error =>
      intro state m after _ runs
      obtain ⟨_, _, fails, -⟩ := Asm.runs_bind.mp runs
      exact absurd fails Asm.not_runs_throw
  | ok word => exact wordSource (StubData.word_of_wordOf? found) fun source => rest source word found

theorem int32Source {setting : Setting} {field : Field} {next : Int32 × Source → Asm Unit}
    (rest : ∀ source n, setting.env.data.int32? field.offset = .ok n →
      Follows setting s ⟨window, held, (source, Word.ofInt32 n) :: own, paths⟩ (next (n, source))
        result) :
    Follows setting s ⟨window, held, own, paths⟩
      (Asm.int32Source setting.env field >>= next) result := by
  rw [Asm.int32Source, bind_assoc, Asm.int32Word]
  cases found : setting.env.data.int32? field.offset with
  | error error =>
      intro state m after _ runs
      obtain ⟨_, _, fails, -⟩ := Asm.runs_bind.mp runs
      exact absurd fails Asm.not_runs_throw
  | ok n =>
      show Follows _ _ _ ((Asm.wordSource setting.env field (Word.ofInt32 n) >>= _) >>= next) _
      rw [bind_assoc]
      exact wordSource (StubData.word_of_int32? setting.extended found) fun source => rest source n found

/-- A tag that is taken as proven. -/
theorem setKnownType {id : OperandId} {stored : OperandValue} {type : ValueType}
    (stores : s.Stores id.toNat stored) (tagged : stored.type? = some type)
    (single : type ≠ .double) (rest : Follows setting s facts code result) :
    Follows setting s facts (Asm.setKnownType id type >>= fun _ => code) result := by
  intro state m after carries runs sound
  obtain ⟨_, middle, sets, runs⟩ := Asm.runs_bind.mp runs
  cases Asm.runs_setKnownType.mp sets
  exact rest _ _ _ (carries.learn stores tagged single) runs sound

theorem forgetPath {path : Label × ExitStatus}
    (rest : Follows setting s ⟨window, held, own, paths⟩ code result) :
    Follows setting s ⟨window, held, own, path :: paths⟩ code result := by
  intro state m after carries runs sound
  exact rest _ _ _ (carries.forget rfl (fun _ member => member) (.refl _)
    fun _ member => .tail _ member) runs sound

/-- The tag of a value is tested, unless it is proven. -/
theorem guardType {input : OperandId} {type : ValueType} {v : Value}
    {next : Register → Asm Unit} (stores : s.Stores input.toNat (.boxed v))
    (single : type ≠ .double) (tidy : ∀ reg, Asm.Tidy [] (next reg))
    (stops : v.valueType ≠ type → result = (.error (.outcome .bailout), s))
    (rest : v.valueType = type → ∀ reg,
      Follows setting s ⟨window, (reg, v.bits) :: held, own, paths⟩ (next reg) result) :
    Follows setting s ⟨window, held, own, paths⟩ (Asm.guardType input type >>= next) result := by
  rw [Asm.guardType, bind_assoc]
  apply allocation
  intro state m carries
  dsimp only
  rw [bind_assoc]
  apply useValueReg stores
  intro reg
  by_cases proven : state.allocation.knownType input = some type
  · rw [if_neg (not_not_intro proven)]
    exact rest (carries.type_of_known stores proven) reg
  · rw [if_pos proven, bind_assoc]
    apply exitPath
    intro fail
    rw [bind_assoc]
    apply branch (decide (v.valueType ≠ type)) (.head _)
    · intro m hold _
      exact ⟨m.reads, Inst.exec_branchTestType _ (hold.reg (.head _)) type fail⟩
    · rw [bind_assoc]
      exact .bind (.setKnownType _ _) fun _ => tidy reg
    · intro different
      exact ⟨_, stops (of_decide_eq_true different), rfl⟩
    · intro same
      have tagged : v.valueType = type := by simpa using same
      rw [bind_assoc]
      apply setKnownType stores (congrArg some tagged) single
      exact forgetPath (rest tagged reg)

end Follows

end InlineCache
