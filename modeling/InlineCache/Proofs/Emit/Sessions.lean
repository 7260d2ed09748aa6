import InlineCache.Proofs.Emit.Truth

/-!
Sessions with the allocator: calls in any order, and between them instructions of the client, which
write what the client holds.  After each step the code so far has the meaning of every operand that has
a place at that place.
-/

namespace InlineCache

namespace AllocatorCall

/-- What a call says of operands is true. -/
def Honest (entry : Entry) (meaning : Nat → Meaning) : AllocatorCall → Prop
  | .defineInputs count =>
      ∀ index < count, entry.inputs[index]?.map (fun w => .value ⟨w⟩) = some (meaning index)
  | .setKnownType id type => (meaning id.toNat).type? = some type
  | .useNumber id => (meaning id.toNat).number?.isSome
  | .beginOp _ | .allocateRegister | .releaseRegister _ | .allocateFloat | .releaseFloat _
  | .defineValueReg _ | .definePayloadReg _ _ | .useValueReg _ | .useRegister _ => True

instance (entry : Entry) (meaning : Nat → Meaning) :
    (call : AllocatorCall) → Decidable (call.Honest entry meaning)
  | .defineInputs count => inferInstanceAs (Decidable (∀ index < count, _ = _))
  | .setKnownType _ _ => inferInstanceAs (Decidable (_ = _))
  | .useNumber _ => inferInstanceAs (Decidable (_ = true))
  | .beginOp _ | .allocateRegister | .releaseRegister _ | .allocateFloat | .releaseFloat _
  | .defineValueReg _ | .definePayloadReg _ _ | .useValueReg _ | .useRegister _ => .isTrue trivial

/-- The operand that a call defines, and the form in which the client is to put it into the register
that it is answered. -/
def defines? : AllocatorCall → Option (OperandId × Form)
  | .defineValueReg id => some (id, .boxed)
  | .definePayloadReg id type => some (id, .payload type)
  | _ => none

/-- The answer to a use is a register with the operand in the form that was asked for. -/
def Answers (meaning : Nat → Meaning) (m : Machine) : AllocatorCall → Answer → Prop
  | .useValueReg id, .reg reg => (meaning id.toNat).Shows ⟨.boxed, m.regs reg⟩
  | .useRegister id, .reg reg => ∃ type, (meaning id.toNat).Shows ⟨.payload type, m.regs reg⟩
  | .useNumber id, .floatReg reg => (meaning id.toNat).number? = some (m.floats reg)
  | _, _ => True

end AllocatorCall

/-- The client adds instructions that write only scratch registers, and the one that it was answered. -/
structure ClientCode (entry : Entry) (origin : Machine) (answered : Option Register)
    (before : Assembler) (m : Machine) (after : Assembler) (n : Machine) : Prop where
  longer : before.buffer.insts.toList <+: after.buffer.insts.toList
  allocation : after.allocation = before.allocation
  started : before.Reaches entry origin m
  reached : after.Reaches entry origin n
  regs : ∀ reg : Register, before.allocation.scratch.contains reg.index = false →
    some reg ≠ answered → n.regs reg = m.regs reg
  floats : ∀ reg : FloatRegister, before.allocation.scratchFloats.contains reg.index = false →
    n.floats reg = m.floats reg
  slots : n.slots = m.slots
  saves : n.saves = m.saves

/-- The states of the allocator that a client can come to. -/
inductive Session (entry : Entry) (origin : Machine) (config : CodeConfig)
    (meaning : Nat → Meaning) : Assembler → Prop
  | start {ops : List Op} {count : Nat} {allocation : Allocation}
      (started : Allocation.start ops count config = .ok allocation) :
      Session entry origin config meaning (.start allocation)
  | call {state after : Assembler} {call : AllocatorCall} {answer : AllocatorCall.Answer}
      (session : Session entry origin config meaning state) (defines : call.defines? = none)
      (honest : call.Honest entry meaning) (runs : call.run.Runs state answer after) :
      Session entry origin config meaning after
  | define {state middle after : Assembler} {m n : Machine} {call : AllocatorCall} {id : OperandId}
      {form : Form} {reg : Register}
      (session : Session entry origin config meaning state)
      (defines : call.defines? = some (id, form)) (runs : call.run.Runs state (.reg reg) middle)
      (client : ClientCode entry origin (some reg) middle m after n)
      (shows : (meaning id.toNat).Shows ⟨form, n.regs reg⟩) :
      Session entry origin config meaning after
  | client {state after : Assembler} {m n : Machine}
      (session : Session entry origin config meaning state)
      (client : ClientCode entry origin none state m after n) :
      Session entry origin config meaning after

namespace Asm

variable {entry : Entry} {origin m : Machine} {config : CodeConfig} {flight : List Resource}
  {meaning : Nat → Meaning}

theorem allocateRegister_truthful (runs : allocateRegister.Runs state reg after)
    (balanced : state.allocation.Balanced config flight)
    (truthful : Truthful entry origin meaning state m) :
    ∃ n, Truthful entry origin meaning after n := by
  obtain ⟨middle, takes, rfl⟩ := runs_allocateRegister runs
  obtain ⟨n, keeps, -, -⟩ := takes.keeps balanced truthful.reached
  exact ⟨n, (truthful.of_keeps keeps).relabel rfl (fun _ => rfl) (fun _ _ => .inl)
    fun callers => callers⟩

theorem allocateFloat_truthful (runs : allocateFloat.Runs state reg after)
    (balanced : state.allocation.Balanced config flight)
    (truthful : Truthful entry origin meaning state m) :
    ∃ n, Truthful entry origin meaning after n := by
  obtain ⟨middle, takes, rfl⟩ := runs_allocateFloat runs
  obtain ⟨n, taken, -⟩ := takes.truthful balanced truthful
  exact ⟨n, taken.relabel rfl (fun _ => rfl) (fun _ _ => .inl) fun callers => callers⟩

theorem releaseRegister_truthful (runs : (releaseRegister reg).Runs state answer after)
    (truthful : Truthful entry origin meaning state m) :
    Truthful entry origin meaning after m := by
  rw [runs_releaseRegister.mp runs]
  split <;>
    exact truthful.relabel rfl (fun _ => rfl) (fun _ _ => .inl) fun callers => callers

theorem ReleasesFloat.truthful (releases : ReleasesFloat state reg after)
    (balanced : state.allocation.Balanced config flight)
    (truthful : Truthful entry origin meaning state m) :
    ∃ n, Truthful entry origin meaning after n := by
  cases releases with
  | scratch _ held returns =>
      have dropped : Truthful entry origin meaning
          (state.withAllocation (state.allocation.dropFloat reg)) m :=
        truthful.relabel rfl (fun _ => rfl) (fun _ _ => .inl) fun callers => callers
      obtain ⟨n, keeps, -⟩ := returns.keeps (balanced.dropFloat held) dropped.reached
      exact ⟨n, dropped.of_keeps keeps⟩
  | other => exact ⟨m, truthful⟩

theorem DefinesInput.truthful (defines : DefinesInput state index after) (small : index < 256)
    (bound : index < state.allocation.operands.length)
    (balanced : state.allocation.Balanced config flight) {w : UInt64}
    (input : entry.inputs[index]? = some w) (means : meaning index = .value ⟨w⟩)
    (truthful : Truthful entry origin meaning state m) :
    ∃ n, Truthful entry origin meaning after n := by
  have same : (UInt8.ofNat index).toNat = index := UInt8.toNat_ofNat_of_lt' small
  have marked : Truthful entry origin meaning
      (state.withAllocation (state.allocation.markDefined (UInt8.ofNat index)).unpin) m :=
    truthful.relabel rfl (fun i => Allocation.place_markDefined _ _ i)
      (fun i type known => .inl ((Allocation.known_markDefined _ _ i).symm.trans known))
      fun callers => callers
  cases defines with
  | unused => exact ⟨m, marked⟩
  | loaded reg middle takes =>
      have markedBalanced : (state.allocation.markDefined (UInt8.ofNat index)).unpin.Balanced
          config flight := balanced.markDefined.unpin
      obtain ⟨n, keeps, -, -⟩ := takes.keeps markedBalanced marked.reached
      have taken := marked.of_keeps keeps
      have alone := (takes.balanced markedBalanced).not_place_of_flight (.head _)
      have loads : (Inst.loadInput reg (UInt8.ofNat index)).exec entry n =
          .next (n.setReg reg w) := by
        rw [Inst.exec, same, input]
        rfl
      have written : Moves entry origin index middle n
          (middle.emitted (.loadInput reg (UInt8.ofNat index))) (n.setReg reg w) :=
        .write taken.reached loads fun i _ => alone i
      refine ⟨_, taken.of_moves (written.relabel rfl ?_ fun callers => callers) ?_ ?_⟩
      · intro i other
        exact Allocation.place_setLocation_ne (Ne.symm other)
      · intro content held
        rw [Assembler.allocation_withAllocation, Allocation.content_setLocation_self (by
          rw [takes.length]
          exact (Allocation.length_modifyOperand ..).symm ▸ bound)] at held
        cases held
        rw [means]
        simp only [Machine.wordAt, Machine.regs_setReg, if_true]
        rfl
      · intro i type known
        exact .inl ((Allocation.known_setLocation _ _ _ _).symm.trans known)

theorem defineInputs_truthful (runs : (defineInputs count).Runs state answer after)
    (inputs : ∀ index < count,
      entry.inputs[index]?.map (fun w => .value ⟨w⟩) = some (meaning index))
    (balanced : state.allocation.Balanced config flight)
    (truthful : Truthful entry origin meaning state m) :
    ∃ n, Truthful entry origin meaning after n := by
  refine (defineInputs_induct
    (P := fun index current => current.allocation.Balanced config flight ∧
      (index ≤ count → ∃ n, Truthful entry origin meaning current n))
    ?_ runs ⟨balanced, fun _ => ⟨m, truthful⟩⟩).2 (Nat.le_refl count)
  rintro index current next ⟨balanced, earlier⟩ small bound undefined defines
  refine ⟨defines.balanced small bound undefined balanced, fun more => ?_⟩
  obtain ⟨n, truthful⟩ := earlier (Nat.le_of_succ_le more)
  obtain ⟨w, input, means⟩ := Option.map_eq_some_iff.mp (inputs index more)
  exact defines.truthful small bound balanced input means.symm truthful

/-- A register that is taken for an operand lists the operand there, with what happens to be in it. -/
theorem TakesRegister.moves_define {id : OperandId} {location : Location}
    (takes : TakesRegister (state.withAllocation (state.allocation.markDefined id)) reg middle)
    (balanced : state.allocation.Balanced config flight) (reached : state.Reaches entry origin m)
    {after : Assembler} (code : after.buffer = middle.buffer)
    (places : ∀ i, after.allocation.place i =
      (middle.allocation.setLocation id.toNat location).place i)
    (callers : ∀ n, middle.allocation.Callers origin n → after.allocation.Callers origin n) :
    ∃ n, Moves entry origin id.toNat state m after n := by
  have marked : Moves entry origin id.toNat state m
      (state.withAllocation (state.allocation.markDefined id)) m :=
    (Moves.refl id.toNat reached).relabel rfl
      (fun i _ => Allocation.place_markDefined _ _ i) fun callers => callers
  obtain ⟨n, keeps, -, -⟩ := takes.keeps balanced.markDefined marked.reached
  exact ⟨n, (marked.trans (.of_keeps keeps)).relabel code
    (fun i other => (places i).trans (Allocation.place_setLocation_ne (Ne.symm other)))
    (callers n)⟩

/-- What a call that defines an operand leaves. -/
structure Defines (entry : Entry) (origin : Machine) (id : OperandId) (form : Form)
    (reg : Register) (before : Assembler) (m : Machine) (after : Assembler) : Prop where
  moves : ∃ n, Moves entry origin id.toNat before m after n
  held : ∀ n, after.allocation.content n id.toNat = some ⟨form, n.regs reg⟩
  resource : (after.allocation.place id.toNat).resource? = some (.register reg)
  known : ∀ i tag, after.allocation.known i = some tag → before.allocation.known i = some tag ∨
    i = id.toNat ∧ ∃ type, form = .payload type ∧ type.valueType? = some tag

theorem defineValueReg_defines {id : OperandId} (runs : (defineValueReg id).Runs state reg after)
    (balanced : state.allocation.Balanced config flight) (reached : state.Reaches entry origin m) :
    Defines entry origin id .boxed reg state m after := by
  obtain ⟨bound, -, middle, takes, rfl⟩ := runs_defineValueReg runs
  have place : (middle.allocation.setLocation id.toNat (.valueReg reg)).place id.toNat =
      .valueReg reg := by
    refine Allocation.place_setLocation_self ?_
    rw [takes.length]
    exact (Allocation.length_modifyOperand ..).symm ▸ bound
  refine ⟨takes.moves_define balanced reached rfl (fun _ => rfl) fun _ callers => callers,
    fun n => Allocation.content_of_place place n, ?_, ?_⟩
  · rw [Assembler.allocation_withAllocation, place]
    rfl
  · intro i tag known
    exact .inl ((Allocation.known_markDefined _ _ i).symm.trans ((takes.known i).symm.trans
      ((Allocation.known_setLocation _ _ _ _).symm.trans known)))

theorem definePayloadReg_defines {id : OperandId}
    (runs : (definePayloadReg id type).Runs state reg after)
    (balanced : state.allocation.Balanced config flight) (reached : state.Reaches entry origin m) :
    Defines entry origin id (.payload type) reg state m after := by
  obtain ⟨bound, -, middle, takes, rfl⟩ := runs_definePayloadReg runs
  have places (i : Nat) :
      ((middle.allocation.setLocation id.toNat (.payloadReg reg type)).learn id type).place i =
        (middle.allocation.setLocation id.toNat (.payloadReg reg type)).place i := by
    unfold Allocation.learn
    cases type.valueType? with
    | none => rfl
    | some tag => exact Allocation.place_setKnownType _ _ _ _
  have callers (n : Machine) (callers : middle.allocation.Callers origin n) :
      ((middle.allocation.setLocation id.toNat (.payloadReg reg type)).learn id type).Callers
        origin n := by
    unfold Allocation.learn
    cases type.valueType? with
    | none => exact callers
    | some tag => exact callers
  have place := (places id.toNat).trans (Allocation.place_setLocation_self (by
    rw [takes.length]
    exact (Allocation.length_modifyOperand ..).symm ▸ bound))
  refine ⟨takes.moves_define balanced reached rfl places callers,
    fun n => Allocation.content_of_place place n, ?_, ?_⟩
  · rw [Assembler.allocation_withAllocation, place]
    rfl
  · intro i tag known
    have before (known : (middle.allocation.setLocation id.toNat (.payloadReg reg type)).known i =
        some tag) : state.allocation.known i = some tag :=
      (Allocation.known_markDefined _ _ i).symm.trans ((takes.known i).symm.trans
        ((Allocation.known_setLocation _ _ _ _).symm.trans known))
    unfold Allocation.learn at known
    cases tagged : type.valueType? with
    | none =>
        rw [tagged] at known
        exact .inl (before known)
    | some found =>
        rw [tagged, Assembler.allocation_withAllocation, Option.elim_some,
          Allocation.known_setKnownType] at known
        split at known
        · rename_i own
          exact .inr ⟨own.1.symm, type, rfl, tagged.trans known⟩
        · exact .inl (before known)

end Asm

namespace AllocatorCall

variable {entry : Entry} {origin m : Machine} {config : CodeConfig} {flight : List Resource}
  {meaning : Nat → Meaning}

theorem runs_defines {call : AllocatorCall} {id : OperandId} {form : Form} {reg : Register}
    (defines : call.defines? = some (id, form)) (runs : call.run.Runs state (.reg reg) after)
    (balanced : state.allocation.Balanced config flight) (reached : state.Reaches entry origin m) :
    Asm.Defines entry origin id form reg state m after := by
  cases call with
  | defineValueReg id =>
      cases defines
      obtain ⟨_, runs, ⟨⟩⟩ := Asm.runs_answer.mp runs
      exact Asm.defineValueReg_defines runs balanced reached
  | definePayloadReg id type =>
      cases defines
      obtain ⟨_, runs, ⟨⟩⟩ := Asm.runs_answer.mp runs
      exact Asm.definePayloadReg_defines runs balanced reached
  | _ => cases defines

/-- Every call that defines no operand leaves to each its meaning. -/
theorem truthful {call : AllocatorCall} (runs : call.run.Runs state answer after)
    (defines : call.defines? = none) (honest : call.Honest entry meaning)
    (canonical : ∀ i, (meaning i).Canonical)
    (balanced : state.allocation.Balanced config flight)
    (truthful : Truthful entry origin meaning state m) :
    ∃ n, Truthful entry origin meaning after n ∧ call.Answers meaning n answer := by
  cases call with
  | defineInputs count =>
      obtain ⟨_, ran, rfl⟩ := Asm.runs_answer.mp runs
      obtain ⟨n, truthful⟩ := Asm.defineInputs_truthful ran honest balanced truthful
      exact ⟨n, truthful, trivial⟩
  | beginOp index =>
      obtain ⟨_, ran, rfl⟩ := Asm.runs_answer.mp runs
      obtain ⟨n, sheds⟩ := Asm.beginOp_sheds ran balanced truthful.reached
      exact ⟨n, truthful.of_sheds sheds, trivial⟩
  | allocateRegister =>
      obtain ⟨_, ran, rfl⟩ := Asm.runs_answer.mp runs
      obtain ⟨n, truthful⟩ := Asm.allocateRegister_truthful ran balanced truthful
      exact ⟨n, truthful, trivial⟩
  | releaseRegister reg =>
      obtain ⟨_, ran, rfl⟩ := Asm.runs_answer.mp runs
      exact ⟨m, Asm.releaseRegister_truthful ran truthful, trivial⟩
  | allocateFloat =>
      obtain ⟨_, ran, rfl⟩ := Asm.runs_answer.mp runs
      obtain ⟨n, truthful⟩ := Asm.allocateFloat_truthful ran balanced truthful
      exact ⟨n, truthful, trivial⟩
  | releaseFloat reg =>
      obtain ⟨_, ran, rfl⟩ := Asm.runs_answer.mp runs
      obtain ⟨n, truthful⟩ := (Asm.runs_releaseFloat ran).truthful balanced truthful
      exact ⟨n, truthful, trivial⟩
  | defineValueReg | definePayloadReg => cases defines
  | useValueReg id =>
      obtain ⟨reg, ran, rfl⟩ := Asm.runs_answer.mp runs
      exact Asm.useValueReg_truthful ran balanced (canonical _) truthful
  | useRegister id =>
      obtain ⟨reg, ran, rfl⟩ := Asm.runs_answer.mp runs
      obtain ⟨n, type, truthful, shows, -⟩ := Asm.useRegister_truthful ran balanced truthful
      exact ⟨n, truthful, type, shows⟩
  | useNumber id =>
      obtain ⟨reg, ran, rfl⟩ := Asm.runs_answer.mp runs
      obtain ⟨n, truthful, number⟩ :=
        (Asm.runs_useNumber ran).truthful balanced (canonical _) truthful
      obtain ⟨d, isNumber⟩ := Option.isSome_iff_exists.mp honest
      exact ⟨n, truthful, isNumber.trans (congrArg some (number d isNumber).symm)⟩
  | setKnownType id type =>
      obtain ⟨_, ran, rfl⟩ := Asm.runs_answer.mp runs
      rw [Asm.runs_setKnownType.mp ran]
      refine ⟨m, truthful.relabel rfl (fun _ => Allocation.place_setKnownType _ _ _ _) ?_
        fun callers => callers, trivial⟩
      intro i tag known
      rw [Assembler.allocation_withAllocation, Allocation.known_setKnownType] at known
      split at known
      · rename_i own
        cases known
        exact .inr (own.1 ▸ honest)
      · exact .inl known

end AllocatorCall

namespace ClientCode

variable {entry : Entry} {origin m n : Machine} {config : CodeConfig} {answered : Option Register}
  {before after : Assembler}

/-- The client writes to no operand but the one that it was answered. -/
theorem content (client : ClientCode entry origin answered before m after n)
    (balanced : before.allocation.Balanced config []) (i : Nat)
    (other : ∀ reg, some reg = answered →
      (before.allocation.place i).resource? ≠ some (.register reg)) :
    after.allocation.content n i = before.allocation.content m i := by
  rw [client.allocation, Allocation.content, Allocation.content]
  have unheld {resource : Resource} :
      (before.allocation.place i).resource? = some resource →
        before.allocation.pool resource = 0 := balanced.pool_of_place i
  cases place : before.allocation.place i with
  | nowhere => rfl
  | payloadReg reg type | valueReg reg =>
      rw [place] at unheld other
      have empty := unheld rfl
      simp only [Allocation.pool, Nat.add_eq_zero_iff, Bool.toNat_eq_zero] at empty
      have same := client.regs reg empty.2 fun answer => other reg answer rfl
      simp only [Location.content?, Machine.wordAt, same]
  | floatReg reg =>
      rw [place] at unheld
      have empty := unheld rfl
      simp only [Allocation.pool, Nat.add_eq_zero_iff, Bool.toNat_eq_zero] at empty
      simp only [Location.content?, Machine.wordAt, client.floats reg empty.2]
  | payloadSlot slot type | valueSlot slot | floatSlot slot =>
      simp only [Location.content?, Machine.wordAt, client.slots]

theorem callers (client : ClientCode entry origin answered before m after n)
    (balanced : before.allocation.Balanced config [])
    (callers : before.allocation.Callers origin m) : after.allocation.Callers origin n := by
  rw [client.allocation]
  intro saves
  obtain ⟨free, saved⟩ := callers saves
  refine ⟨fun reg available => ?_, fun reg slot listed => ?_⟩
  · have sum := balanced.ledger (.float reg)
    have once := Allocation.quota_le_one config (.float reg)
    simp only [Allocation.pool, available, Bool.toNat_true] at sum
    have unheld : before.allocation.scratchFloats.contains reg.index = false := by
      rw [← Bool.toNat_eq_zero]
      omega
    exact (client.floats reg unheld).trans (free reg available)
  · rw [client.saves]
    exact saved reg slot listed

end ClientCode

namespace Session

variable {entry : Entry} {origin : Machine} {config : CodeConfig} {meaning : Nat → Meaning}
  {state : Assembler}

/-- What one step of a session keeps, a session keeps. -/
theorem truthful (canonical : ∀ i, (meaning i).Canonical)
    (session : Session entry origin config meaning state) :
    state.allocation.Balanced config [] ∧ ∃ m, Truthful entry origin meaning state m := by
  induction session with
  | @start _ _ allocation started =>
      have balanced := Allocation.Balanced.start started
      obtain ⟨table, -, rfl⟩ := Allocation.start_ok started
      refine ⟨balanced, origin, rfl, fun i content held => ?_, fun i type known => ?_,
        fun _ => ⟨fun _ _ => rfl, fun reg slot listed => ?_⟩⟩
      · cases (Allocation.content_of_place (Allocation.place_blank _ table i) origin).symm.trans held
      · cases (Allocation.known_blank _ table i).symm.trans known
      · exact absurd listed List.not_mem_nil
  | call session defines honest runs ih =>
      obtain ⟨balanced, m, truthful⟩ := ih
      obtain ⟨n, told, -⟩ := AllocatorCall.truthful runs defines honest canonical balanced truthful
      exact ⟨AllocatorCall.balanced runs balanced, n, told⟩
  | @define state middle after m n call id form reg session defines runs client shows ih =>
      obtain ⟨balanced, first, truthful⟩ := ih
      have defined := AllocatorCall.runs_defines defines runs balanced truthful.reached
      have balanced := AllocatorCall.balanced runs balanced
      obtain ⟨second, moves⟩ := defined.moves
      obtain rfl : second = m := by
        have same := moves.reached.symm.trans client.started
        cases same
        rfl
      have others (i : Nat) (other : i ≠ id.toNat) :
          after.allocation.content n i = state.allocation.content first i := by
        refine (client.content balanced i ?_).trans (moves.contents i other)
        rintro _ ⟨⟩ shared
        exact other (balanced.place_unique shared defined.resource)
      refine ⟨client.allocation ▸ balanced, n, client.reached, fun i content held => ?_,
        fun i tag known => ?_, client.callers balanced (moves.callers truthful.callers)⟩
      · by_cases own : i = id.toNat
        · subst own
          rw [client.allocation, defined.held] at held
          exact Option.some.inj held ▸ shows
        · exact truthful.shown i content ((others i own).symm.trans held)
      · rw [client.allocation] at known
        rcases defined.known i tag known with before | ⟨rfl, type, rfl, tagged⟩
        · exact truthful.known i tag before
        · exact shows.type?_of_payload tagged
  | @client state after m n session client ih =>
      obtain ⟨balanced, first, truthful⟩ := ih
      obtain rfl : first = m := by
        have same := truthful.reached.symm.trans client.started
        cases same
        rfl
      refine ⟨client.allocation ▸ balanced, n, client.reached, fun i content held => ?_,
        fun i tag known => ?_, client.callers balanced truthful.callers⟩
      · rw [client.content balanced i fun _ impossible => nomatch impossible] at held
        exact truthful.shown i content held
      · rw [client.allocation] at known
        exact truthful.known i tag known

/-- Calls one after the other, each honest, are a session. -/
theorem calls {calls : List AllocatorCall} (session : Session entry origin config meaning state)
    (defines : ∀ call ∈ calls, call.defines? = none)
    (honest : ∀ call ∈ calls, call.Honest entry meaning)
    (runs : (AllocatorCall.runAll calls).Runs state () after) :
    Session entry origin config meaning after := by
  unfold AllocatorCall.runAll at runs
  induction calls generalizing state with
  | nil => exact Asm.runs_forM_nil.mp runs ▸ session
  | cons call calls ih =>
      obtain ⟨middle, first, rest⟩ := Asm.runs_forM_cons.mp runs
      obtain ⟨answer, runs⟩ := Asm.runs_discard.mp first
      exact ih (session.call (defines call (.head _)) (honest call (.head _)) runs)
        (fun other member => defines other (.tail _ member))
        (fun other member => honest other (.tail _ member)) rest

/-- A client can define an operand by moving the word of its meaning into the register. -/
theorem defineImm (session : Session entry origin config meaning state)
    (canonical : ∀ i, (meaning i).Canonical) (call : AllocatorCall) {id : OperandId} {form : Form}
    {reg : Register} {word : UInt64} (defines : call.defines? = some (id, form))
    (answers : (call.run state).1.toOption = some (.reg reg))
    (means : (meaning id.toNat).word? form = some word) :
    Session entry origin config meaning ((call.run state).2.emitted (.movImm reg word)) := by
  have runs := Asm.runs_of_toOption answers
  obtain ⟨balanced, m, truthful⟩ := session.truthful canonical
  obtain ⟨n, moves⟩ := (AllocatorCall.runs_defines defines runs balanced truthful.reached).moves
  refine session.define defines runs
    { longer := ?_
      allocation := rfl
      started := moves.reached
      reached := moves.reached.emitted rfl
      regs := ?_
      floats := fun _ _ => rfl
      slots := rfl
      saves := rfl } ?_
  · rw [Assembler.buffer_emitted, CodeBuffer.emit, Array.toList_push]
    exact List.prefix_append _ _
  · intro other _ different
    rw [Machine.regs_setReg, if_neg]
    rintro rfl
    exact different rfl
  · rw [Machine.regs_setReg, if_pos rfl]
    exact means

end Session

/-- In any session, the code so far leads to a machine that has for every operand with a place the word
of its meaning in the form of the place, and for the caller its float registers; and an operand that is
used next is found in the register that the use answers. -/
theorem allocator_preserves_values {entry : Entry} {origin : Machine} {config : CodeConfig}
    {meaning : Nat → Meaning} {state : Assembler} (canonical : ∀ i, (meaning i).Canonical)
    (session : Session entry origin config meaning state) :
    (∃ m, state.Reaches entry origin m ∧
      (∀ i form, (state.allocation.place i).form? = some form →
        (meaning i).word? form = some (m.wordAt (state.allocation.place i))) ∧
      state.allocation.Callers origin m) ∧
    ∀ (call : AllocatorCall) (answer : AllocatorCall.Answer) (after : Assembler),
      call.defines? = none → call.Honest entry meaning → call.run.Runs state answer after →
      ∃ n, after.Reaches entry origin n ∧ call.Answers meaning n answer := by
  obtain ⟨balanced, m, truthful⟩ := session.truthful canonical
  refine ⟨⟨m, truthful.reached, fun i form located => ?_, truthful.callers⟩, ?_⟩
  · exact truthful.shown i ⟨form, m.wordAt (state.allocation.place i)⟩ (by
      rw [Allocation.content, Location.content?, located]
      rfl)
  · intro call answer after defines honest runs
    obtain ⟨n, told, answers⟩ :=
      AllocatorCall.truthful runs defines honest canonical balanced truthful
    exact ⟨n, told.reached, answers⟩

/-- One general register and one float register. -/
def scarce : CodeConfig := ⟨1, 1, 3, true, .constant, true⟩

/-- Two inputs, the int32 seven and a half. -/
def twoInputs : Entry := ⟨[0x7FF8000100000007, 0x3FE0000000000000], []⟩

/-- The inputs, and an int64. -/
def threeMeanings (i : Nat) : Meaning :=
  [.value ⟨0x7FF8000100000007⟩, .value ⟨0x3FE0000000000000⟩].getD i (.intptr 5)

theorem threeMeanings_canonical : ∀ i, (threeMeanings i).Canonical
  | 0 => fun impossible => absurd impossible (by decide)
  | 1 => fun _ => by decide
  | _ + 2 => trivial

/-- Three operands pass through one register, so that two of them end in slots. -/
theorem scarce_session_preserves_values :
    ∃ state, Session twoInputs (.start .empty) scarce threeMeanings state ∧
      state.allocation.operands.map (·.location) =
        [.valueReg ⟨0⟩, .floatSlot 1, .payloadSlot 2 .intptr] ∧
      ∃ m, state.Reaches twoInputs (.start .empty) m ∧
        ∀ i form, (state.allocation.place i).form? = some form →
          (threeMeanings i).word? form = some (m.wordAt (state.allocation.place i)) := by
  have started : Allocation.start
      [⟨.guardIsNumber, 0, ()⟩, ⟨.loadIntPtrResult, 2, ()⟩, ⟨.guardIsNumber, 0, ()⟩,
        ⟨.guardIsNumber, 1, ()⟩] 3 scarce = .ok _ := rfl
  have blank : Session twoInputs (.start .empty) scarce threeMeanings (.start _) := .start started
  have inputs := blank.calls (by decide) (by decide)
    (Asm.runs_of_isOk (by decide) : (AllocatorCall.runAll
      [.defineInputs 2, .setKnownType 1 .double, .useNumber 1, .beginOp 0]).Runs _ () _)
  have defined := inputs.defineImm threeMeanings_canonical (.definePayloadReg 2 .intptr)
    (show _ = some (2, Form.payload .intptr) from rfl)
    (show _ = some (AllocatorCall.Answer.reg ⟨0⟩) by decide) (show _ = some 5 from rfl)
  have session := defined.calls (by decide) (by decide)
    (Asm.runs_of_isOk (by decide) : (AllocatorCall.runAll
      [.beginOp 1, .allocateFloat, .useValueReg 0]).Runs _ () _)
  obtain ⟨⟨m, reached, words, -⟩, -⟩ := allocator_preserves_values threeMeanings_canonical session
  exact ⟨_, session, by decide, m, reached, words⟩

end InlineCache
