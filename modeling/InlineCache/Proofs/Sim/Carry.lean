import InlineCache.Proofs.Sim.Keep
import InlineCache.Proofs.Sim.Scene

/-!
What single instructions and single entries of the table do to the machine that carries an evaluation.
-/

namespace InlineCache

theorem Allocation.Balanced.not_place_of_scratch {config : CodeConfig} {flight : List Resource}
    {allocation : Allocation} (balanced : allocation.Balanced config flight) {reg : Register}
    (scratch : allocation.scratch.contains reg.index = true) (i : Nat) :
    (allocation.place i).resource? ≠ some (.register reg) := by
  intro held
  have empty := balanced.pool_of_place i held
  simp only [Allocation.pool, scratch, Bool.toNat_true, Nat.add_eq_zero_iff] at empty
  exact absurd empty.2 (by decide)

theorem Allocation.Balanced.not_place_of_scratchFloat {config : CodeConfig} {flight : List Resource}
    {allocation : Allocation} (balanced : allocation.Balanced config flight) {reg : FloatRegister}
    (scratch : allocation.scratchFloats.contains reg.index = true) (i : Nat) :
    (allocation.place i).resource? ≠ some (.float reg) := by
  intro held
  have empty := balanced.pool_of_place i held
  simp only [Allocation.pool, scratch, Bool.toNat_true, Nat.add_eq_zero_iff] at empty
  exact absurd empty.2 (by decide)

/-- Registers of operands stay pinned when a scratch register is given back. -/
theorem Allocation.Balanced.pinned_remove {config : CodeConfig} {flight : List Resource}
    {allocation : Allocation} (balanced : allocation.Balanced config flight)
    {reg other : Register} (scratch : allocation.scratch.contains reg.index = true) {i : Nat}
    (located : (allocation.place i).register? = some other)
    (pinned : allocation.pinned.contains other.index = true) :
    (allocation.pinned.remove reg.index).contains other.index = true := by
  rw [RegisterSet.contains_remove_of_ne, pinned]
  intro same
  obtain rfl : reg = other := congrArg Register.mk same
  exact balanced.not_place_of_scratch scratch i (Location.resource?_eq_register.mpr located)

/-- Words that are in registers of their own are in other registers than the one that is given back. -/
theorem index_ne_of_apart {front back : List (Source × UInt64)} {reg other : Register} {v w : UInt64}
    (apart : (front ++ (.reg reg, w) :: back).Pairwise fun first second =>
      ∀ reg, first.1 = .reg reg → second.1 ≠ .reg reg)
    (member : (.reg other, v) ∈ front ++ back) : reg.index ≠ other.index := by
  intro same
  obtain rfl : reg = other := congrArg Register.mk same
  obtain ⟨-, later, earlier⟩ := List.pairwise_append.mp apart
  rcases List.mem_append.mp member with early | late
  · exact earlier _ early _ (.head _) reg rfl rfl
  · exact (List.pairwise_cons.mp later).1 _ late reg rfl rfl

namespace Carries

variable {trusted : Bool} {setting : Setting trusted} {s : EvalState} {facts : Facts} {window : Option Window}
  {held : List (Register × UInt64)} {own : List (Source × UInt64)}
  {paths : List (Label × ExitStatus)} {pending later : Option Label} {a b : Assembler}
  {m n : Machine} {reads : List HeapRead}

/-- What changes of the machine and of the table shows neither in operands nor in registers. -/
theorem aside (carries : Carries setting s facts pending a m)
    (led : b.buffer.flow setting.entry setting.origin = .running later n)
    (balanced : b.allocation.Balanced setting.env.config [])
    (operands : b.allocation.operands = a.allocation.operands)
    (pinned : b.allocation.pinned = a.allocation.pinned)
    (scratch : b.allocation.scratch = a.allocation.scratch)
    (exits : ∀ path ∈ a.exits, path ∈ b.exits) (regs : n.regs = m.regs)
    (output : n.output = m.output) (context : n.context = m.context)
    (contents : ∀ i, a.allocation.content n i = a.allocation.content m i) :
    Carries setting s facts later b n := by
  have place (i : Nat) : b.allocation.place i = a.allocation.place i := by
    simp only [Allocation.place, operands]
  have known (i : Nat) : b.allocation.known i = a.allocation.known i := by
    simp only [Allocation.known, operands]
  have defined (i : Nat) : b.allocation.defined i = a.allocation.defined i := by
    simp only [Allocation.defined, operands]
  exact
    { balanced
      led
      shown := by
        intro i content found
        refine carries.shown i content ?_
        rw [← contents, Allocation.content, ← place]
        exact found
      known := fun i type tagged => carries.known i type ((known i).symm.trans tagged)
      defined := fun i stored found => (defined i).trans (carries.defined i stored found)
      valid := carries.valid
      output := output.trans carries.output
      context := context.trans carries.context
      hold :=
        { held := fun fact member => (congrFun regs _).trans (carries.hold.held fact member)
          own := Machine.sources_congr carries.hold.own fun reg _ _ => congrFun regs reg }
      opened := by
        intro w opens
        obtain ⟨located, held, written, fresh, aside⟩ := carries.opened w opens
        refine ⟨(place _).trans located, pinned ▸ held, fun word wrote => ?_, fresh, aside⟩
        exact (congrFun regs _).trans (written word wrote)
      held := by
        intro fact member
        obtain ⟨held, i, located⟩ := carries.held fact member
        exact ⟨pinned ▸ held, i, (congrArg _ (place i)).trans located⟩
      scratch := fun reg w member => scratch ▸ pinned ▸ carries.scratch reg w member
      apart := carries.apart
      paths := by
        intro fact member
        obtain ⟨path, listed, same⟩ := carries.paths fact member
        exact ⟨path, exits path listed, same⟩ }

/-- The code goes on, or looks for a label, with nothing written. -/
theorem still (carries : Carries setting s facts pending a m)
    (led : b.buffer.flow setting.entry setting.origin = .running later { m with reads })
    (allocation : b.allocation = a.allocation) (exits : ∀ path ∈ a.exits, path ∈ b.exits) :
    Carries setting s facts later b { m with reads } :=
  carries.aside led (allocation ▸ carries.balanced) (congrArg _ allocation) (congrArg _ allocation)
    (congrArg _ allocation) exits rfl rfl rfl fun i => Allocation.content_congr _ i rfl rfl rfl

theorem stay (carries : Carries setting s facts pending a m)
    (led : b.buffer.flow setting.entry setting.origin = .running later m)
    (allocation : b.allocation = a.allocation) (exits : ∀ path ∈ a.exits, path ∈ b.exits) :
    Carries setting s facts later b m :=
  carries.still led allocation exits

theorem asks (carries : Carries setting s facts pending a m) {status : ExitStatus} {label : Label}
    (runs : (Asm.exitPath status).Runs a label b) : Carries setting s facts pending b m := by
  refine carries.still ?_ (Asm.runs_exitPath runs).1
    fun path => ((Asm.Tidy.exitPath status).grows runs).mem_exits
  rw [Asm.flow_exitPath runs]
  exact carries.led

/-- No operand is kept as a number. -/
theorem not_float (carries : Carries setting s facts pending a m) (i : Nat) :
    (a.allocation.place i).floatRegister? = none := by
  cases place : a.allocation.place i with
  | floatReg reg =>
      rcases carries.shown i _ (Allocation.content_of_place place m) with ⟨stored, -, shows⟩ | ⟨w, opens, rfl⟩
      · cases stored <;> cases congrArg Content.form shows
      · rw [(carries.opened w opens).1] at place
        cases place
  | _ => rfl

theorem led_emitted (carries : Carries setting s facts none a m) {inst : Inst} {label : Label}
    (jumps : inst.exec setting.entry m = .jump label n) :
    (a.emitted inst).buffer.flow setting.entry setting.origin = .running (some label) n := by
  rw [Assembler.buffer_emitted, CodeBuffer.flow_emit, carries.led, Flow.step_running, jumps]
  rfl

/-- Code that looks for a label passes by other instructions. -/
theorem skip {label : Label} (carries : Carries setting s facts (some label) a m) (inst : Inst)
    (plain : inst ≠ .bind label) : Carries setting s facts (some label) (a.emitted inst) m := by
  refine carries.still ?_ rfl fun _ member => member
  rw [Assembler.buffer_emitted, CodeBuffer.flow_emit, carries.led, Flow.step, if_neg plain]

theorem land {label : Label} (carries : Carries setting s facts (some label) a m) :
    Carries setting s facts none (a.emitted (.bind label)) m := by
  refine carries.still ?_ rfl fun _ member => member
  rw [Assembler.buffer_emitted, CodeBuffer.flow_emit, carries.led, Flow.step, if_pos rfl]

/-- What is known of other registers stays known when a scratch register is written. -/
theorem hold_set {reg : Register} {old : UInt64}
    (carries : Carries setting s ⟨window, held, (.reg reg, old) :: own, paths⟩ pending a m)
    (new : UInt64) :
    (Facts.mk window held ((.reg reg, new) :: own) paths).Hold (m.setReg reg new) where
  held := by
    intro fact member
    obtain ⟨-, i, located⟩ := carries.held fact member
    have alone := carries.balanced.not_place_of_scratch (carries.scratch reg old (.head _)).1 i
    refine Eq.trans (if_neg ?_) (carries.hold.held fact member)
    intro same
    exact alone (same ▸ Location.resource?_eq_register.mpr located)
  own := by
    rintro ⟨source, w⟩ member
    rcases List.mem_cons.mp member with same | before
    · cases same
      exact if_pos rfl
    · refine Machine.sources_setReg new (List.forall_mem_cons.mp carries.hold.own).2 ?_ _ before
      exact fun w member => (List.pairwise_cons.mp carries.apart).1 _ member reg rfl rfl

/-- A scratch register is written, and perhaps something that does not show. -/
theorem setBeside {reg : Register} {old new : UInt64}
    (carries : Carries setting s ⟨window, held, (.reg reg, old) :: own, paths⟩ pending a m)
    (led : b.buffer.flow setting.entry setting.origin = .running later n)
    (allocation : b.allocation = a.allocation) (exits : ∀ path ∈ a.exits, path ∈ b.exits)
    (regs : n.regs = (m.setReg reg new).regs) (output : n.output = m.output)
    (context : n.context = m.context)
    (contents : ∀ i, a.allocation.content n i = a.allocation.content (m.setReg reg new) i) :
    Carries setting s ⟨window, held, (.reg reg, new) :: own, paths⟩ later b n := by
  obtain ⟨scratch, -⟩ := carries.scratch reg old (.head _)
  have alone := carries.balanced.not_place_of_scratch scratch
  have same (i : Nat) : b.allocation.content n i = a.allocation.content m i := by
    rw [allocation, contents]
    exact Location.content?_setReg (alone i) m new
  have distinct := List.pairwise_cons.mp carries.apart
  have hold := carries.hold_set new
  exact
    { balanced := allocation ▸ carries.balanced
      led
      shown := fun i content found => carries.shown i content ((same i).symm.trans found)
      known := fun i type known => carries.known i type (allocation ▸ known)
      defined := fun i stored found => allocation ▸ carries.defined i stored found
      valid := carries.valid
      output := output.trans carries.output
      context := context.trans carries.context
      hold :=
        { held := fun fact member => (congrFun regs _).trans (hold.held fact member)
          own := Machine.sources_congr hold.own fun other _ _ => congrFun regs other }
      opened := by
        intro w opens
        obtain ⟨place, pinned, written, fresh, aside⟩ := carries.opened w opens
        refine ⟨allocation ▸ place, allocation ▸ pinned, fun word wrote => ?_, fresh, aside⟩
        refine (congrFun regs _).trans (Eq.trans (if_neg ?_) (written word wrote))
        intro same
        exact alone w.result (by rw [place, ← same]; rfl)
      held := allocation ▸ carries.held
      scratch := by
        intro other w member
        rw [allocation]
        rcases List.mem_cons.mp member with same | before
        · cases same
          exact carries.scratch reg old (.head _)
        · exact carries.scratch other w (.tail _ before)
      apart := List.pairwise_cons.mpr ⟨fun fact member => distinct.1 fact member, distinct.2⟩
      paths := fun fact member => by
        obtain ⟨path, listed, same⟩ := carries.paths fact member
        exact ⟨path, exits path listed, same⟩ }

/-- A scratch register is written. -/
theorem set {reg : Register} {old new : UInt64}
    (carries : Carries setting s ⟨window, held, (.reg reg, old) :: own, paths⟩ pending a m)
    (led : b.buffer.flow setting.entry setting.origin =
      .running later { m.setReg reg new with reads })
    (allocation : b.allocation = a.allocation) (exits : ∀ path ∈ a.exits, path ∈ b.exits) :
    Carries setting s ⟨window, held, (.reg reg, new) :: own, paths⟩ later b
      { m.setReg reg new with reads } :=
  carries.setBeside led allocation exits rfl rfl rfl fun i => Allocation.content_congr _ i rfl rfl rfl

/-- The register of the operand that is being defined is written. -/
theorem fill {result : Nat} {reg : Register} {type : PayloadType} {old : Option UInt64}
    {new : UInt64}
    (carries : Carries setting s ⟨some ⟨result, reg, type, old⟩, held, own, paths⟩ pending a m)
    (led : b.buffer.flow setting.entry setting.origin =
      .running later { m.setReg reg new with reads })
    (allocation : b.allocation = a.allocation) (exits : ∀ path ∈ a.exits, path ∈ b.exits) :
    Carries setting s ⟨some ⟨result, reg, type, some new⟩, held, own, paths⟩ later b
      { m.setReg reg new with reads } := by
  obtain ⟨place, pinned, -, fresh, aside⟩ := carries.opened _ rfl
  have located : (a.allocation.place result).resource? = some (.register reg) := by
    rw [place]
    rfl
  have contents (i : Nat) (other : i ≠ result) :
      b.allocation.content { m.setReg reg new with reads } i = a.allocation.content m i := by
    have elsewhere : (a.allocation.place i).resource? ≠ some (.register reg) :=
      fun shared => other (carries.balanced.place_unique shared located)
    rw [allocation]
    exact (Allocation.content_congr _ i rfl rfl rfl).trans (Location.content?_setReg elsewhere m new)
  exact
    { balanced := allocation ▸ carries.balanced
      led
      shown := by
        intro i content found
        by_cases own : i = result
        · exact .inr ⟨_, rfl, own.symm⟩
        · rcases carries.shown i content ((contents i own).symm.trans found) with known | ⟨w, ⟨⟩, same⟩
          · exact .inl known
          · exact absurd same.symm own
      known := by
        intro i tag known
        rw [allocation] at known
        rcases carries.known i tag known with before | ⟨w, ⟨⟩, same⟩
        · exact .inl before
        · exact .inr ⟨_, rfl, same⟩
      defined := fun i stored found => allocation ▸ carries.defined i stored found
      valid := carries.valid
      output := carries.output
      context := carries.context
      hold :=
        { held := fun fact member => by
            refine Eq.trans ?_ (carries.hold.held fact member)
            exact if_neg (aside fact member)
          own := Machine.sources_setReg new carries.hold.own fun w member =>
            carries.balanced.not_place_of_scratch (carries.scratch _ w member).1 _ located }
      opened := by
        rintro w ⟨⟩
        refine ⟨allocation ▸ place, allocation ▸ pinned, ?_, fresh, aside⟩
        rintro word ⟨⟩
        exact if_pos rfl
      held := allocation ▸ carries.held
      scratch := allocation ▸ carries.scratch
      apart := carries.apart
      paths := fun fact member => by
        obtain ⟨path, listed, same⟩ := carries.paths fact member
        exact ⟨path, exits path listed, same⟩ }

/-- The evaluation comes to know the operand that has been written. -/
theorem close {id : OperandId} {reg : Register} {type : PayloadType} {value : OperandValue}
    {operands : Operands}
    (carries : Carries setting s ⟨some ⟨id.toNat, reg, type, some value.word⟩, held, own, paths⟩
      pending a m)
    (form : value.form = .payload type) (valid : Trusts trusted value.Valid)
    (defines : s.operands.define id value = .ok operands) :
    Carries setting { s with operands } .none pending a m := by
  obtain ⟨place, -, written, -, -⟩ := carries.opened _ rfl
  have own : EvalState.Stores { s with operands } id.toNat value :=
    (EvalState.stores_define defines).mpr (.inl ⟨rfl, rfl⟩)
  have stays {i : Nat} {stored : OperandValue} (found : s.Stores i stored) :
      EvalState.Stores { s with operands } i stored :=
    (EvalState.stores_define defines).mpr (.inr found)
  refine .idle carries.balanced carries.led ?shown ?known ?defined ?valid carries.output carries.context
  case shown =>
    intro i content found
    rcases carries.shown i content found with ⟨stored, before, shows⟩ | ⟨w, ⟨⟩, rfl⟩
    · exact ⟨stored, stays before, shows⟩
    · refine ⟨value, own, ?_⟩
      rw [Allocation.content_of_place place] at found
      rw [← Option.some.inj found, OperandValue.content, form, ← written _ rfl]
      rfl
  case known =>
    intro i tag known
    rcases carries.known i tag known with ⟨different, stored, before, tagged⟩ | ⟨w, ⟨⟩, rfl, tagged⟩
    · exact ⟨different, stored, stays before, tagged⟩
    · refine ⟨?_, value, own, (OperandValue.type?_of_form form).trans tagged⟩
      rintro rfl
      exact type.valueType?_ne_double tagged
  case defined =>
    intro i stored found
    rcases (EvalState.stores_define defines).mp found with ⟨rfl, rfl⟩ | before
    · exact carries.balanced.placed _ (by rw [place]; exact Location.noConfusion)
    · exact carries.defined i stored before
  case valid =>
    intro i stored found
    rcases (EvalState.stores_define defines).mp found with ⟨rfl, rfl⟩ | before
    · exact valid
    · exact carries.valid i stored before

/-- A register of an operand that an operation has asked for. -/
theorem grasp (carries : Carries setting s ⟨window, held, own, paths⟩ pending a m) {i : Nat}
    {stored : OperandValue} {reg : Register} (found : s.Stores i stored)
    (located : (a.allocation.place i).register? = some reg)
    (pinned : a.allocation.pinned.contains reg.index = true) :
    Carries setting s ⟨window, (reg, m.regs reg) :: held, own, paths⟩ pending a m :=
  { carries with
    hold := ⟨List.forall_mem_cons.mpr ⟨rfl, carries.hold.held⟩, carries.hold.own⟩
    opened := by
      intro w opens
      obtain ⟨place, pinned, written, fresh, aside⟩ := carries.opened w opens
      refine ⟨place, pinned, written, fresh, List.forall_mem_cons.mpr ⟨?_, aside⟩⟩
      rintro rfl
      have same := carries.balanced.place_unique (i := i) (j := w.result)
        (Location.resource?_eq_register.mpr located) (by rw [place]; rfl)
      exact fresh stored (same ▸ found)
    held := List.forall_mem_cons.mpr ⟨⟨pinned, i, located⟩, carries.held⟩ }

/-- An exit path of a status. -/
theorem aim (carries : Carries setting s ⟨window, held, own, paths⟩ pending a m) {label : Label}
    {status : ExitStatus}
    (listed : ∃ path ∈ a.exits, path.label = label ∧ path.status = status) :
    Carries setting s ⟨window, held, own, (label, status) :: paths⟩ pending a m :=
  { carries with
    hold := ⟨carries.hold.held, carries.hold.own⟩
    paths := List.forall_mem_cons.mpr ⟨listed, carries.paths⟩ }

/-- A scratch register that was not held before. -/
theorem grab (carries : Carries setting s ⟨window, held, own, paths⟩ pending a m) {reg : Register}
    (scratch : a.allocation.scratch.contains reg.index = true)
    (pinned : a.allocation.pinned.contains reg.index = true)
    (other : ∀ w, (.reg reg, w) ∉ own) :
    Carries setting s ⟨window, held, (.reg reg, m.regs reg) :: own, paths⟩ pending a m :=
  { carries with
    hold := ⟨carries.hold.held, List.forall_mem_cons.mpr ⟨rfl, carries.hold.own⟩⟩
    scratch := by
      intro taken w member
      rcases List.mem_cons.mp member with same | before
      · cases same
        exact ⟨scratch, pinned⟩
      · exact carries.scratch taken w before
    apart := by
      refine List.pairwise_cons.mpr ⟨?_, carries.apart⟩
      rintro ⟨source, w⟩ member taken ⟨⟩ rfl
      exact other w member }

/-- A scratch register is given back. -/
theorem drop {front back : List (Source × UInt64)} {reg : Register} {w : UInt64}
    (carries : Carries setting s ⟨window, held, front ++ (.reg reg, w) :: back, paths⟩ pending a m) :
    Carries setting s ⟨window, held, front ++ back, paths⟩ pending
      (a.withAllocation (a.allocation.release reg)) m := by
  obtain ⟨scratch, -⟩ := carries.scratch reg w (List.mem_append_right _ (.head _))
  have fewer : (front ++ back).Sublist (front ++ (.reg reg, w) :: back) :=
    (List.sublist_cons_self _ _).append_left _
  exact
    { carries with
      balanced := carries.balanced.release scratch
      hold := ⟨carries.hold.held, fun fact member => carries.hold.own fact (fewer.subset member)⟩
      opened := by
        intro w opens
        obtain ⟨place, pinned, rest⟩ := carries.opened w opens
        have located : (a.allocation.place w.result).register? = some w.reg := by
          rw [place]
          rfl
        exact ⟨place, carries.balanced.pinned_remove scratch located pinned, rest⟩
      held := by
        intro fact member
        obtain ⟨pinned, i, located⟩ := carries.held fact member
        exact ⟨carries.balanced.pinned_remove scratch located pinned, i, located⟩
      scratch := by
        intro other v member
        obtain ⟨scratch, pinned⟩ := carries.scratch other v (fewer.subset member)
        have different := index_ne_of_apart carries.apart member
        refine ⟨?_, ?_⟩
        · exact (RegisterSet.contains_remove_of_ne different).trans scratch
        · exact (RegisterSet.contains_remove_of_ne different).trans pinned
      apart := carries.apart.sublist fewer }

/-- The tag of an operand is taken as proven. -/
theorem learn (carries : Carries setting s facts pending a m) {id : OperandId}
    {stored : OperandValue} {type : ValueType} (found : s.Stores id.toNat stored)
    (tagged : stored.type? = some type) (single : type ≠ .double) :
    Carries setting s facts pending (a.withAllocation (a.allocation.setKnownType id type)) m :=
  { carries with
    balanced := carries.balanced.setKnownType id type
    shown := fun i content shows => carries.shown i content
      ((congrArg (·.content? m) (Allocation.place_setKnownType _ _ _ _)).symm.trans shows)
    known := by
      intro i tag known
      rw [Assembler.allocation_withAllocation, Allocation.known_setKnownType] at known
      split at known
      · rename_i own
        cases known
        exact .inl ⟨single, stored, own.1 ▸ found, tagged⟩
      · exact carries.known i tag known
    defined := fun i other found =>
      (Allocation.defined_setKnownType _ _ _ _).trans (carries.defined i other found)
    opened := by
      intro w opens
      obtain ⟨place, rest⟩ := carries.opened w opens
      exact ⟨(Allocation.place_setKnownType _ _ _ _).trans place, rest⟩
    held := by
      intro fact member
      obtain ⟨pinned, i, located⟩ := carries.held fact member
      exact ⟨pinned, i, by rw [← located]; exact congrArg _ (Allocation.place_setKnownType _ _ _ _)⟩ }

end Carries

end InlineCache
