import InlineCache.Proofs.Emit.Truth
import InlineCache.Proofs.Sim.Define
import InlineCache.Proofs.Sim.Reading

/-!
Before the first operation the inputs are defined.  An input is an operand that both sides know as a
boxed value, unless no operation mentions it and the code does not load it.
-/

namespace InlineCache

variable {trusted : Bool} {setting : Setting trusted} {s : EvalState} {a b : Assembler} {m n : Machine}

/-- The code to define an input loads it, unless no operation mentions it.  Nothing else changes. -/
theorem Asm.DefinesInput.loads {entry : Entry} {origin : Machine} {config : CodeConfig} {index : Nat}
    {w : UInt64} (defines : DefinesInput a index b) (small : index < 256)
    (bound : index < a.allocation.operands.length) (undefined : a.allocation.defined index = false)
    (balanced : a.allocation.Balanced config []) (reached : a.Reaches entry origin m)
    (given : entry.inputs[index]? = some w) :
    ∃ n, b.Reaches entry origin n ∧ m.Alike n ∧
      (∀ i content, b.allocation.content n i = some content →
        i = index ∧ content = ⟨.boxed, w⟩ ∨ i ≠ index ∧ a.allocation.content m i = some content) ∧
      ∀ i, b.allocation.known i = a.allocation.known i := by
  have same : (UInt8.ofNat index).toNat = index := UInt8.toNat_ofNat_of_lt' small
  have marked (i : Nat) : (a.allocation.markDefined (UInt8.ofNat index)).unpin.content m i =
      a.allocation.content m i :=
    congrArg (·.content? m) (Allocation.place_markDefined _ _ i)
  have nowhere := balanced.place_of_undefined undefined
  have elsewhere {i : Nat} {content : Content} (found : a.allocation.content m i = some content) :
      i ≠ index := by
    rintro rfl
    rw [Allocation.content_of_place nowhere] at found
    cases found
  cases defines with
  | unused =>
      refine ⟨m, reached, .refl m, fun i content found => .inr ?_,
        fun i => Allocation.known_markDefined _ _ i⟩
      have before := (marked i).symm.trans found
      exact ⟨elsewhere before, before⟩
  | loaded reg middle takes =>
      have markedBalanced : (a.allocation.markDefined (UInt8.ofNat index)).unpin.Balanced config [] :=
        balanced.markDefined.unpin
      have alone := (takes.balanced markedBalanced).not_place_of_flight (.head _)
      have length : middle.allocation.operands.length = a.allocation.operands.length :=
        takes.length.trans (Allocation.length_modifyOperand ..)
      obtain ⟨n, keeps, -, -⟩ := takes.keeps markedBalanced reached
      have loads : (Inst.loadInput reg (UInt8.ofNat index)).exec entry n =
          .next (n.setReg reg w) := by
        rw [Inst.exec, same, given]
        rfl
      refine ⟨n.setReg reg w, keeps.reached.emitted loads,
        ⟨keeps.alike.output, keeps.alike.context, keeps.alike.reads⟩, ?_, ?_⟩
      · intro i content found
        by_cases own : i = index
        · subst own
          rw [Assembler.allocation_withAllocation,
            Allocation.content_setLocation_self (length ▸ bound)] at found
          cases found
          refine .inl ⟨rfl, ?_⟩
          simp only [Machine.wordAt, Machine.regs_setReg, if_true]
        · have place : (middle.allocation.setLocation index (.valueReg reg)).place i =
              middle.allocation.place i := Allocation.place_setLocation_ne (Ne.symm own)
          have before : (middle.allocation.setLocation index (.valueReg reg)).content
              (n.setReg reg w) i = middle.allocation.content n i :=
            (Allocation.content_of_place place _).trans (Location.content?_setReg (alone i) n _)
          have held := (keeps.contents i).symm.trans (before.symm.trans found)
          exact .inr ⟨own, (marked i).symm.trans held⟩
      · intro i
        exact (Allocation.known_setLocation ..).trans
          ((keeps.known i).trans (Allocation.known_markDefined _ _ i))

namespace Carries

/-- Nothing is known at the start, and the output is undefined. -/
theorem start {ops : List Op} {count : Nat} {allocation : Allocation}
    (started : Allocation.start ops count setting.env.config = .ok allocation) (slots : Nat) :
    Carries setting ⟨.empty slots, .undefined, setting.context⟩ .none none (.start allocation)
      setting.origin := by
  have balanced := Allocation.Balanced.start started
  obtain ⟨table, -, rfl⟩ := Allocation.start_ok started
  have unstored (i : Nat) (stored : OperandValue) :
      ¬EvalState.Stores ⟨.empty slots, .undefined, setting.context⟩ i stored := by
    intro stores
    rw [EvalState.Stores, Operands.empty, List.getElem?_replicate] at stores
    split at stores <;> cases stores
  refine .idle balanced rfl ?shown ?known (fun i stored stores => absurd stores (unstored i stored))
    (fun i stored stores => absurd stores (unstored i stored)) rfl rfl
  case shown =>
    intro i content found
    rw [Assembler.start, Allocation.content_of_place (Allocation.place_blank _ table i)] at found
    cases found
  case known =>
    intro i type known
    rw [Assembler.start, Allocation.known_blank] at known
    cases known

/-- Operands that lose their places are looked for nowhere. -/
theorem of_sheds (carries : Carries setting s .none none a m)
    (sheds : Sheds setting.entry setting.origin a m b n)
    (balanced : b.allocation.Balanced setting.env.config []) : Carries setting s .none none b n :=
  .idle balanced sheds.reached
    (fun i content found => carries.shown_idle (sheds.contents i content found))
    (fun i _ known => carries.known_idle ((sheds.known i).symm.trans known))
    (fun i stored stores => (sheds.defined i).trans (carries.defined i stored stores)) carries.valid
    (sheds.alike.output.trans carries.output) (sheds.alike.context.trans carries.context)

/-- One more operand is known, on both sides, as a boxed value. -/
theorem define_boxed (carries : Carries setting s .none none a m) {id : OperandId} {v : Value}
    {operands : Operands} (evaluates : s.operands.define id (.boxed v) = .ok operands)
    (refers : Trusts trusted v.Refers) (balanced : b.allocation.Balanced setting.env.config [])
    (reached : b.Reaches setting.entry setting.origin n) (alike : m.Alike n)
    (contents : ∀ i content, b.allocation.content n i = some content →
      i = id.toNat ∧ content = ⟨.boxed, v.bits⟩ ∨ a.allocation.content m i = some content)
    (known : ∀ i, b.allocation.known i = a.allocation.known i)
    (defined : ∀ i, a.allocation.defined i = true → b.allocation.defined i = true)
    (definedSelf : b.allocation.defined id.toNat = true) :
    Carries setting { s with operands } .none none b n := by
  have stores {i : Nat} {stored : OperandValue} : EvalState.Stores { s with operands } i stored ↔
      i = id.toNat ∧ stored = .boxed v ∨ s.Stores i stored := EvalState.stores_define evaluates
  refine .idle balanced reached ?shown ?known ?defined ?valid (alike.output.trans carries.output)
    (alike.context.trans carries.context)
  case shown =>
    intro i content found
    rcases contents i content found with ⟨rfl, rfl⟩ | before
    · exact ⟨_, stores.mpr (.inl ⟨rfl, rfl⟩), rfl⟩
    · obtain ⟨stored, same, shows⟩ := carries.shown_idle before
      exact ⟨stored, stores.mpr (.inr same), shows⟩
  case known =>
    intro i type tagged
    obtain ⟨single, stored, same, told⟩ := carries.known_idle ((known i).symm.trans tagged)
    exact ⟨single, stored, stores.mpr (.inr same), told⟩
  case defined =>
    intro i stored found
    rcases stores.mp found with ⟨rfl, -⟩ | before
    · exact definedSelf
    · exact defined i (carries.defined i stored before)
  case valid =>
    intro i stored found
    rcases stores.mp found with ⟨-, rfl⟩ | before
    · exact refers
    · exact carries.valid i stored before

theorem input (carries : Carries setting s .none none a m) {index : Nat} {v : Value}
    {operands : Operands} (defines : Asm.DefinesInput a index b) (small : index < 256)
    (bound : index < a.allocation.operands.length) (undefined : a.allocation.defined index = false)
    (given : setting.inputs[index]? = some v)
    (evaluates : s.operands.define (UInt8.ofNat index) (.boxed v) = .ok operands) :
    ∃ n, Carries setting { s with operands } .none none b n := by
  have same : (UInt8.ofNat index).toNat = index := UInt8.toNat_ofNat_of_lt' small
  have loaded : setting.entry.inputs[index]? = some v.bits := by
    rw [Setting.entry, List.getElem?_map, given]
    rfl
  obtain ⟨n, reached, alike, contents, known⟩ :=
    defines.loads small bound undefined carries.balanced carries.reached loaded
  have refers := setting.refer.imp fun refer => refer v (List.mem_of_getElem? given)
  refine ⟨n, carries.define_boxed evaluates refers
    (defines.balanced small bound undefined carries.balanced) reached alike ?_ known defines.defined
    (same.symm ▸ defines.defined_self small bound)⟩
  intro i content found
  rw [same]
  exact (contents i content found).imp_right And.right

end Carries

namespace Eval

theorem defineInputs_concat (index : Nat) (inputs : List Value) (v : Value) :
    defineInputs index (inputs ++ [v]) =
      (defineInputs index inputs >>= fun _ =>
        define (UInt8.ofNat (index + inputs.length)) (.boxed v)) := by
  induction inputs generalizing index with
  | nil =>
      rw [List.nil_append, defineInputs, defineInputs, defineInputs, pure_bind]
      exact bind_pure _
  | cons first rest ih =>
      rw [List.cons_append, defineInputs, defineInputs, bind_assoc, ih, List.length_cons,
        Nat.add_right_comm, Nat.add_assoc]

/-- There may be more inputs than operands, but no input is a number that is none. -/
theorem exit?_of_defineInputs {index : Nat} {inputs : List Value} {s t : EvalState} {stop : Stop}
    (fails : defineInputs index inputs s = (.error stop, t)) :
    ∃ error, stop = .error error ∧ (Stop.error error).exit? = none := by
  induction inputs generalizing index s with
  | nil => cases fails
  | cons first rest ih =>
      rw [defineInputs, bind_apply, define_apply] at fails
      cases defines : s.operands.define (UInt8.ofNat index) (.boxed first) with
      | ok operands =>
          rw [defines] at fails
          exact ih fails
      | error error =>
          rw [defines] at fails
          cases fails
          exact ⟨error, rfl, Operands.exit?_of_define defines⟩

end Eval

namespace Follows

theorem defineInputs :
    Follows setting s .none (Asm.defineInputs setting.inputs.length)
      (Eval.defineInputs 0 setting.inputs s) := by
  intro state m after carries runs _
  have defined := Asm.defineInputs_induct
    (P := fun index current => index ≤ setting.inputs.length →
      ∀ t, Eval.defineInputs 0 (setting.inputs.take index) s = (.ok (), t) →
        ∃ n, Carries setting t .none none current n)
    ?_ runs ?_ (Nat.le_refl _)
  · rw [List.take_length] at defined
    cases evaluates : Eval.defineInputs 0 setting.inputs s with
    | mk ending t =>
        cases ending with
        | ok _ => exact defined t evaluates
        | error stop =>
            obtain ⟨error, rfl, silent⟩ := Eval.exit?_of_defineInputs evaluates
            exact fails silent t _ _ _ carries runs ‹_›
  · intro index current next earlier small bound undefined defines more t evaluates
    have given : setting.inputs[index]? = some setting.inputs[index] :=
      List.getElem?_eq_getElem more
    rw [List.take_succ_eq_append_getElem more, Eval.defineInputs_concat, Eval.bind_apply] at evaluates
    cases front : Eval.defineInputs 0 (setting.inputs.take index) s with
    | mk ending middle =>
        rw [front] at evaluates
        cases ending with
        | error stop => cases evaluates
        | ok _ =>
            obtain ⟨n, carries⟩ := earlier (Nat.le_of_succ_le more) middle front
            rw [List.length_take, Nat.min_eq_left (Nat.le_of_succ_le more), Nat.zero_add] at evaluates
            dsimp only at evaluates
            rw [Eval.define_apply] at evaluates
            cases define : middle.operands.define (UInt8.ofNat index) (.boxed setting.inputs[index]) with
            | error error =>
                rw [define] at evaluates
                cases evaluates
            | ok operands =>
                rw [define] at evaluates
                cases evaluates
                exact carries.input defines small bound undefined given define
  · rintro - t ⟨⟩
    exact ⟨m, carries⟩

/-- The output is undefined until an operation stores one. -/
theorem prologue (fresh : s.output = .undefined) :
    Follows setting s .none (Asm.prologue setting.inputs.length)
      (Eval.defineInputs 0 setting.inputs s) := by
  apply allocateRegister
  intro reg junk
  apply put Value.undefined.bits
  · exact fun m _ => rfl
  intro state m after carries runs sound
  obtain ⟨_, middle, stores, runs⟩ := Asm.runs_bind.mp runs
  cases Asm.runs_emit.mp stores
  have same : { m with output := m.regs reg } = m := by
    rw [carries.hold.scratch (.head _), ← fresh, ← carries.output]
  have reached : (state.emitted (.storeOutput reg)).Reaches setting.entry setting.origin m :=
    carries.reached.emitted (congrArg Effect.next same)
  have stored := carries.stay reached rfl fun _ member => member
  exact releaseSource [] (.reg reg) defineInputs _ _ _ stored runs sound

end Follows

end InlineCache
