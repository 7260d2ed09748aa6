import InlineCache.Proofs.Emit.HeedsOps
import InlineCache.Proofs.Emit.WellFormed

/-!
Well-kinded programs violate no invariant of the allocator.  Between two operations each operand that is
still used is somewhere, in the form of its kind; an operation reads only such operands, and the table of
last uses keeps those in place that operations behind it read.
-/

namespace InlineCache

/-- An input is defined, and it is loaded if some operation mentions it. -/
structure Outline.Enters (before after : Outline) : Prop where
  known : after.known = before.known
  defined : after.defined = true
  lastUse : after.lastUse = before.lastUse
  form : after.form = some .boxed ∨ after.form = before.form ∧ before.lastUse = none

namespace Allocation

theorem outline_blank (config : CodeConfig) (table : List (Option Nat)) (i : Nat) :
    (blank config table).outline i = ⟨none, none, false, table[i]?.join⟩ := by
  simp only [outline, blank, List.getElem?_map]
  cases table[i]? <;> rfl

/-- Before the operation of an index. -/
structure Ready (kinds : Kinds) (table : List (Option Nat)) (index : Nat) (allocation : Allocation) :
    Prop where
  suits : allocation.Suits kinds (UsedFrom index table)
  lastUse : ∀ i, allocation.lastUse i = table[i]?.join

namespace Ready

variable {kinds : Kinds} {table : List (Option Nat)} {index : Nat} {before after : Allocation}

theorem start (config : CodeConfig) (table : List (Option Nat)) :
    (blank config table).Ready (.inputs 0) table 0 where
  suits i := by
    rw [outline_blank]
    exact
      { placed := fun somewhere => absurd rfl somewhere
        tagged := fun known => absurd rfl known
        single := nofun
        defined := rfl
        form := nofun
        present := nofun }
  lastUse i := by rw [← lastUse_outline, outline_blank]

theorem alike (ready : before.Ready kinds table index) (alike : before.Alike after) :
    after.Ready kinds table index where
  suits := ready.suits.alike alike
  lastUse i := (alike.lastUse i).trans (ready.lastUse i)

/-- An operand that is not used anymore may lose its place. -/
theorem evict {i : Nat} (ready : before.Ready kinds table index)
    (stale : (table[i]?.join).all (· < index) = true) :
    (before.setLocation i .nowhere).Ready kinds table index := by
  have revises := Revises.clear before i
  have cleared := revises.revised
  refine ⟨ready.suits.revises revises fun _ => ?_, fun j => ?_⟩
  · have suited := ready.suits i
    rw [cleared]
    refine
      { placed := fun somewhere => absurd rfl somewhere
        tagged := suited.tagged
        single := suited.single
        defined := suited.defined
        form := nofun
        present := fun used => absurd used (not_usedFrom_iff.mp stale) }
  · exact (lastUse_setLocation ..).trans (ready.lastUse j)

theorem defineInput {i : Nat} (ready : before.Ready (.inputs i) table 0)
    (revises : before.Revises i Outline.Enters after) : after.Ready (.inputs (i + 1)) table 0 := by
  have enters := revises.revised
  refine ⟨fun j => ?_, fun j => ?_⟩
  · by_cases own : j = i
    · subst own
      have suited := ready.suits j
      have undefined : (before.outline j).defined = false := by
        rw [suited.defined, Kinds.inputs, if_neg (Nat.lt_irrefl j)]
        rfl
      have nowhere : (before.outline j).form = none := by
        cases form : (before.outline j).form with
        | none => rfl
        | some _ => cases undefined.symm.trans (suited.placed (form ▸ Option.some_ne_none _))
      rw [Kinds.inputs, if_pos (Nat.lt_succ_self j)]
      refine
        { placed := fun _ => enters.defined
          tagged := fun _ => enters.defined
          single := enters.known ▸ suited.single
          defined := enters.defined
          form := fun form found => ?_
          present := fun used _ => ?_ }
      · rcases enters.form with boxed | ⟨same, -⟩
        · exact boxed.symm.trans found
        · cases (found.symm.trans same).trans nowhere
      · rcases enters.form with boxed | ⟨-, unused⟩
        · exact boxed ▸ Option.some_ne_none _
        · obtain ⟨last, found, -⟩ := used
          rw [lastUse_outline, ready.lastUse, found] at unused
          cases unused
    · have same : Kinds.inputs (i + 1) j = Kinds.inputs i j := by
        simp only [Kinds.inputs, Nat.lt_succ_iff_lt_or_eq, own, or_false]
      rw [same, revises.other j own]
      exact ready.suits j
  · exact (revises.lastUse enters.lastUse j).trans (ready.lastUse j)

end Ready

end Allocation

namespace Asm

open Allocation

variable {state after : Assembler} {index : Nat}

theorem DefinesInput.revises (defines : DefinesInput state index after) (small : index < 256)
    (bound : index < state.allocation.operands.length) :
    state.allocation.Revises index Outline.Enters after.allocation := by
  have self : (UInt8.ofNat index).toNat = index := UInt8.toNat_ofNat_of_lt' small
  have marked : state.allocation.Revises index (fun o p => p = { o with defined := true })
      (state.allocation.markDefined (UInt8.ofNat index)).unpin :=
    (self ▸ Revises.markDefined (self.symm ▸ bound)).alike (.of_operands rfl)
  cases defines with
  | unused unmentioned =>
      refine ⟨marked.length, ?_, marked.other⟩
      rw [Nat.mod_eq_of_lt small] at unmentioned
      rw [Assembler.allocation_withAllocation, marked.revised]
      exact ⟨rfl, rfl, rfl, .inr ⟨rfl, by rwa [lastUse_outline]⟩⟩
  | loaded reg middle takes =>
      have taken := marked.alike takes.alike
      have listed := taken.trans (.setLocation (.valueReg reg) (taken.length.symm ▸ bound))
      refine listed.mono ?_
      rintro o _ ⟨_, rfl, rfl⟩
      exact ⟨rfl, rfl, rfl, .inl rfl⟩

theorem beginOp_ready {kinds : Kinds} {table : List (Option Nat)}
    (ready : state.allocation.Ready kinds table index) :
    Ensures Lawful (beginOp index) state fun _ after => after.allocation.Ready kinds table index := by
  refine ⟨fun _ after runs => ?_, fun error fails => absurd fails not_fails_beginOp⟩
  refine beginOp_induct (P := fun middle => middle.allocation.Ready kinds table index) ?_ runs
    (ready.alike (.of_operands rfl))
  intro before middle i before_ready stale _ freed
  rw [ready.lastUse] at stale
  exact (before_ready.alike (.of_operands freed.operands)).evict stale

theorem defineInput_ready {table : List (Option Nat)} (small : index < 256)
    (ready : state.allocation.Ready (.inputs index) table 0) :
    Ensures Lawful (defineInput index) state fun _ after =>
      after.allocation.Ready (.inputs (index + 1)) table 0 := by
  refine ⟨fun _ after runs => ?_, fun error fails => ?_⟩
  · obtain ⟨bound, -, defines⟩ := runs_defineInput runs
    rw [Nat.mod_eq_of_lt small] at bound
    exact ready.defineInput (defines.revises small bound)
  · cases fails_defineInput fails with
    | twice defined =>
        have undefined := (ready.suits index).defined
        rw [Nat.mod_eq_of_lt small] at defined
        rw [Kinds.inputs, if_neg (Nat.lt_irrefl index), defined_outline, defined] at undefined
        cases undefined
    | outside | register => exact fun _ => CodeError.noConfusion

theorem Quiet.ready {stretch : Asm α} (quiet : Quiet stretch) {kinds : Kinds}
    {table : List (Option Nat)} (ready : state.allocation.Ready kinds table index) :
    Ensures Lawful stretch state fun _ after => after.allocation.Ready kinds table index :=
  (quiet state).mono fun _ _ alike => ready.alike alike

theorem defineInputs_ready {count : Nat} {table : List (Option Nat)} (small : count ≤ 256)
    (ready : state.allocation.Ready (.inputs 0) table 0) :
    Ensures Lawful (defineInputs count) state fun _ after =>
      after.allocation.Ready (.inputs count) table 0 := by
  -- the inputs up to some index are defined, and those from there on are left
  let reached (left : List Nat) (state : Assembler) : Prop :=
    ∃ n, left = List.range' n (count - n) ∧ n ≤ count ∧ state.allocation.Ready (.inputs n) table 0
  refine (Ensures.forM reached ?_ ?_).mono ?_
  · rintro next rest state ⟨n, left, -, ready⟩
    have more : 0 < count - n := by
      cases gap : count - n with
      | zero =>
          rw [gap] at left
          cases left
      | succ => exact Nat.succ_pos _
    rw [show count - n = count - (n + 1) + 1 by omega, List.range'_succ] at left
    obtain ⟨rfl, rfl⟩ := List.cons.inj left
    exact (defineInput_ready (by omega) ready).mono fun _ _ later => ⟨next + 1, rfl, by omega, later⟩
  · exact ⟨0, List.range_eq_range', Nat.zero_le _, ready⟩
  · rintro _ after ⟨n, left, le, ready⟩
    have done : count - n = 0 := by
      have length := congrArg List.length left
      rw [List.length_range'] at length
      exact length.symm
    rwa [show count = n by omega]

theorem prologue_ready {count : Nat} {table : List (Option Nat)} (small : count ≤ 256)
    (ready : state.allocation.Ready (.inputs 0) table 0) :
    Ensures Lawful (prologue count) state fun _ after =>
      after.allocation.Ready (.inputs count) table 0 := by
  refine (Quiet.allocateRegister.ready ready).bind fun reg _ ready => ?_
  refine ((Quiet.emit _).ready ready).bind fun _ _ ready => ?_
  refine ((Quiet.emit _).ready ready).bind fun _ _ ready => ?_
  exact (Quiet.releaseRegister.ready ready).bind fun _ _ ready => defineInputs_ready small ready

end Asm

/-- An operation that reads and defines an operand is in no well-kinded program. -/
theorem Op.WellKinded.apart {kinds : Kinds} {op : Op} (wellKinded : op.WellKinded kinds) :
    op.readsResult = false := by
  have distinct {input result : OperandId} {admits : OperandKind → Bool} {kind : OperandKind}
      (reads : (input, admits) ∈ op.reads) (defines : (result, kind) ∈ op.results) :
      decide (input = result) = false := by
    refine decide_eq_false fun same => ?_
    obtain ⟨_, defined, -⟩ := wellKinded.1 _ reads
    cases defined.symm.trans (same ▸ wellKinded.2 _ defines)
  obtain ⟨opcode, args⟩ := op
  cases opcode with
  | guardToInt32Index | guardToInt32ModUint32 | guardToUint8Clamped =>
      exact distinct (.head _) (.head _)
  | _ => rfl

namespace Asm

open Allocation

/-- Before the operation of an index of a program whose code is emitted. -/
structure Ahead (env : EmitEnv) (inputs : Nat) (kinds : Kinds) (table : List (Option Nat))
    (index : Nat) (state : Assembler) : Prop where
  ready : state.allocation.Ready kinds table index
  draft : state.Draft (env.site inputs) [] []
  balanced : state.allocation.Balanced env.config []

variable {env : EmitEnv} {inputs : Nat} {kinds : Kinds} {table : List (Option Nat)} {index : Nat}
  {state : Assembler}

theorem prologue_ahead (env : EmitEnv) {ops : List Op} {count : Nat} (inputs : UInt8)
    (started : Allocation.start ops count env.config = .ok (.blank env.config table)) :
    Ensures Lawful (prologue inputs.toNat) (.start (.blank env.config table)) fun _ after =>
      Ahead env inputs.toNat (.inputs inputs.toNat) table 0 after := by
  have drafted : (Assembler.start (.blank env.config table)).Draft (env.site inputs.toNat) [] [] :=
    .start started
  have balanced : (blank env.config table).Balanced (env.site inputs.toNat).config [] := .start started
  have writes : Writes (env.site inputs.toNat) [] [] [] (prologue inputs.toNat) :=
    .prologue (Nat.le_refl _)
  refine ((prologue_ready (Nat.le_of_lt inputs.toNat_lt) (.start env.config table)).and
    fun answer after runs => writes (.start (.blank env.config table)) answer after runs drafted
      balanced).mono ?_
  exact fun _ _ ⟨ready, draft, balanced, _⟩ => ⟨ready, draft, balanced⟩

/-- A well-kinded operation leaves those operands in their places that it mentions itself. -/
theorem emit_suits {op : Op} (ready : state.allocation.Ready kinds table index)
    (wellKinded : op.WellKinded kinds)
    (mentioned : ∀ id ∈ op.operands, UsedFrom index table id.toNat) :
    Ensures Lawful (op.emit env) state fun _ after =>
      after.allocation.Suits (kinds.after op) (UsedFrom index table) :=
  (op.emit_heeds env wellKinded.apart state).serves kinds _ ready.suits
    (fun read member => ⟨wellKinded.1 read member, mentioned _ (Op.mem_operands (.inl ⟨_, member⟩))⟩)
    wellKinded.2

/-- A well-kinded operation leaves its operands as the next one wants them. -/
theorem emit_ready {op : Op} (ready : state.allocation.Ready kinds table index)
    (wellKinded : op.WellKinded kinds)
    (mentioned : ∀ id ∈ op.operands, UsedFrom index table id.toNat) :
    Ensures Lawful (op.emit env) state fun _ after =>
      after.allocation.Ready (kinds.after op) table (index + 1) := by
  have heeds := op.emit_heeds env wellKinded.apart state
  have served : Ensures Lawful (op.emit env) state fun _ after =>
      after.allocation.Suits (kinds.after op) (UsedFrom index table) :=
    emit_suits ready wellKinded mentioned
  refine (served.and fun answer after runs => heeds.finds ready.suits.grounded answer after runs).mono
    fun _ after kept => ⟨fun i => ?_, fun i => (kept.2.lastUse i).trans (ready.lastUse i)⟩
  exact (kept.1 i).weaken fun ⟨last, found, later⟩ => ⟨last, found, by omega⟩

theorem emitOp_ahead {op : Op} (ahead : Ahead env inputs kinds table index state)
    (wellKinded : op.WellKinded kinds)
    (mentioned : ∀ id ∈ op.operands, UsedFrom index table id.toNat) :
    Ensures Lawful (emitOp env (op, index)) state fun _ after =>
      Ahead env inputs (kinds.after op) table (index + 1) after := by
  have begins := (beginOp_ready ahead.ready).and fun answer after runs =>
    Writes.beginOp state answer after runs ahead.draft ahead.balanced
  refine begins.bind fun _ begun ⟨ready, draft, balanced, _⟩ => ?_
  have emits := (emit_ready ready wellKinded mentioned).and fun answer after runs =>
    op.emit_writes env inputs [] [] begun answer after runs draft balanced
  refine emits.bind fun _ after ⟨ready, draft, balanced, _⟩ => .allocation_bind ?_
  rw [balanced.checkAliasing_ok]
  exact .pure ⟨ready, draft, balanced⟩

/-- The rest of a well-kinded program is emitted without a violation. -/
theorem emitOps_lawful {ops : List Op} (ahead : Ahead env inputs kinds table index state)
    (wellKinded : WellKinded kinds ops)
    (mentioned : ∀ op k, (op, k) ∈ ops.zipIdx index → ∀ id ∈ op.operands, UsedFrom k table id.toNat) :
    Ensures Lawful ((ops.zipIdx index).forM (emitOp env)) state fun _ _ => True := by
  induction ops generalizing kinds index state with
  | nil => exact .pure trivial
  | cons op rest ih =>
      rw [List.zipIdx_cons] at mentioned ⊢
      exact (emitOp_ahead ahead wellKinded.1 (mentioned op index (.head _))).bind fun _ _ ahead =>
        ih ahead wellKinded.2 fun op k member => mentioned op k (.tail _ member)

end Asm

/-- Emitting a well-kinded program violates no invariant of the allocator. -/
theorem well_kinded_violates_nothing (program : StubProgram) (data : StubData) (config : CodeConfig)
    (wellKinded : program.WellKinded) (violation : Violation) :
    emitStub program data config ≠ .error (.invariant violation) := by
  intro violated
  rcases emitStub_error violated with ⟨_, _, other⟩ | ⟨_, other⟩ | ⟨_, other⟩ |
    ⟨ops, allocation, read, -, started, fails⟩
  · cases other
  · cases other
  · cases other
  · obtain ⟨table, uses, rfl⟩ := Allocation.start_ok started
    have emitted : Asm.Ensures Asm.Lawful (Asm.body ⟨data, config⟩ program.inputCount.toNat ops)
        (.start (.blank config table)) fun _ _ => True :=
      (Asm.prologue_ahead _ program.inputCount started).bind fun _ _ ahead =>
        Asm.emitOps_lawful ahead (wellKinded ops read) fun op k listed id mentioned =>
          Allocation.usedFrom_lastUses uses listed mentioned
    exact emitted.fails _ fails violation rfl

/-- Two int32s are added while few registers are left, and the sum is boxed. -/
theorem scarce_sum_violates_nothing :
    let program : StubProgram := ⟨[1, 0, 3, 6, 1, 4, 10, 2, 5, 24, 3, 4, 5, 2, 0, 0], 6, 3⟩
    program.WellKinded ∧ ∀ violation,
      emitStub program .empty ⟨4, 1, 6, true, .address, true⟩ ≠ .error (.invariant violation) :=
  have wellKinded : (⟨[1, 0, 3, 6, 1, 4, 10, 2, 5, 24, 3, 4, 5, 2, 0, 0], 6, 3⟩ :
      StubProgram).WellKinded := by
    decide +kernel
  ⟨wellKinded, well_kinded_violates_nothing _ .empty ⟨4, 1, 6, true, .address, true⟩ wellKinded⟩

end InlineCache
