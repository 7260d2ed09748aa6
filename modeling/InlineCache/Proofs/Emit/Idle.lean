import InlineCache.Proofs.Emit.Restored
import InlineCache.Proofs.Emit.SparesOps

/-!
A blank operand from one operation to the next.  Between operations an operand loses its place, or it stays
where it is; so one that was blank before an operation is blank behind it, and one that no operation mentions
any more is as good as blank.
-/

namespace InlineCache

/-- The trail of an operand, from where it is now. -/
def Speculation.trail (run : Speculation) (operand : Nat) (state : Assembler) : Trail :=
  ⟨run, operand, state.buffer.insts.toList, state.allocation.place operand⟩

namespace Asm

variable {state middle after : Assembler}

/-- An operand that loses its place is in no float register, which would have to be restored. -/
theorem Frees.still {index : Nat} (freed : Frees state (state.allocation.place index) middle)
    (single : state.allocation.Single) : middle.buffer = state.buffer ∧ middle.exits = state.exits := by
  generalize place : state.allocation.place index = location at freed
  cases freed with
  | nowhere | register | slot => exact ⟨rfl, rfl⟩
  | float => exact absurd (place ▸ rfl) (single.place index)

theorem Frees.current {location : Location} (freed : Frees state location middle) :
    middle.allocation.currentOp = state.allocation.currentOp := by
  cases freed with
  | nowhere | register | slot => rfl
  | float _ _ returns => cases returns <;> rfl

theorem beginOp_current {index : Nat} {answer : Unit} (runs : (beginOp index).Runs state answer after) :
    after.allocation.currentOp = some index :=
  beginOp_induct (P := fun middle => middle.allocation.currentOp = some index)
    (fun current _ _ freed => freed.current.trans current) runs rfl

/-- What an operation finds when it begins: no code is added, and an operand is in its place or nowhere. -/
theorem beginOp_stays {index : Nat} {answer : Unit} (operand : Nat)
    (runs : (beginOp index).Runs state answer after) (single : state.allocation.Single) :
    after.allocation.Single ∧ after.buffer = state.buffer ∧ after.exits = state.exits ∧
      after.allocation.operands.length = state.allocation.operands.length ∧
      after.allocation.defined operand = state.allocation.defined operand ∧
      after.allocation.known operand = state.allocation.known operand ∧
      (after.allocation.place operand = state.allocation.place operand ∨
        after.allocation.place operand = .nowhere) := by
  refine beginOp_induct
    (P := fun middle => middle.allocation.Single ∧ middle.buffer = state.buffer ∧
      middle.exits = state.exits ∧
      middle.allocation.operands.length = state.allocation.operands.length ∧
      middle.allocation.defined operand = state.allocation.defined operand ∧
      middle.allocation.known operand = state.allocation.known operand ∧
      (middle.allocation.place operand = state.allocation.place operand ∨
        middle.allocation.place operand = .nowhere))
    ?_ runs ⟨single.alike (.of_operands rfl), rfl, rfl, rfl, rfl, rfl, .inl rfl⟩
  rintro before middle id ⟨single, buffer, exits, length, defined, known, place⟩ - - freed
  obtain ⟨sameBuffer, sameExits⟩ := freed.still single
  have same : middle.allocation.operands = before.allocation.operands := freed.operands
  have alike : before.allocation.Alike middle.allocation := .of_operands same
  refine ⟨freed.single single, sameBuffer.trans buffer, sameExits.trans exits, ?_, ?_, ?_, ?_⟩
  · exact (Allocation.length_setLocation ..).trans (alike.length.trans length)
  · exact (Allocation.defined_setLocation ..).trans ((alike.defined operand).trans defined)
  · have kept : middle.allocation.known operand = before.allocation.known operand := by
      rw [Allocation.known, same, Allocation.known]
    exact (Allocation.known_setLocation ..).trans (kept.trans known)
  · rw [Assembler.allocation_withAllocation]
    by_cases own : id = operand
    · exact .inr (own ▸ Allocation.place_clear ..)
    · rw [Allocation.place_setLocation_ne own, Allocation.place, same]
      exact place

/-- An input is defined in a register of its own. -/
theorem DefinesInput.spared {config : CodeConfig} {trail : Trail} {index : Nat}
    (defines : DefinesInput state index after) (small : index < 256)
    (bound : index < state.allocation.operands.length)
    (undefined : state.allocation.defined index = false)
    (spared : state.Spared config trail [] .none) : after.Spared config trail [] .none := by
  have balanced := defines.balanced small bound undefined spared.balanced
  have revises := defines.revises small bound
  have single := spared.single.revises revises Outline.Single.enters
  have fixed := spared.fixed.revises revises fun enters _ => enters.defined
  have other : index ≠ trail.operand := spared.fixed.ne bound undefined
  have marked : trail.Tracks [] (state.withAllocation
      (state.allocation.markDefined (UInt8.ofNat index)).unpin) :=
    spared.tracks.relabel rfl (Allocation.place_markDefined ..) (Allocation.known_markDefined ..)
  cases defines with
  | unused => exact ⟨balanced, single, fixed, marked, spared.given, .none _ _⟩
  | loaded reg middle takes =>
      have unpinned : (state.allocation.markDefined (UInt8.ofNat index)).unpin.Balanced config [] :=
        spared.balanced.markDefined.unpin
      have loaded : trail.Tracks [] (middle.emitted (.loadInput reg (UInt8.ofNat index))) := by
        refine (takes.tracks unpinned marked).apart rfl rfl rfl rfl fun resource touched => ?_
        cases List.mem_singleton.mp touched
        exact (takes.balanced unpinned).not_place_of_flight (.head _) _
      refine ⟨balanced, single, fixed, loaded.relabel rfl (Allocation.place_setLocation_ne other)
        (Allocation.known_setLocation ..), spared.given.of_same takes.exits, .none _ _⟩

theorem Spares.prologue {config : CodeConfig} {trail : Trail} {count : Nat} :
    Spares config trail [] .none [] (prologue count) := by
  refine allocateRegister_bind fun reg => emit_bind (by simp) (emit_bind (by simp) ?_)
  refine releaseRegister.bind fun _ state answer after runs spared => ?_
  exact defineInputs_induct (P := fun _ state => state.Spared config trail [] .none)
    (fun spared small bound undefined defines => defines.spared small bound undefined spared) runs spared

end Asm

namespace Assembler

/-- Between operations an operand is blank, unless the next one takes away its place. -/
structure Idle (config : CodeConfig) (run : Speculation) (operand index : Nat) (state : Assembler) :
    Prop where
  balanced : state.allocation.Balanced config []
  single : state.allocation.Single
  fixed : state.allocation.Fixed operand
  given : state.exits.Given [] state.buffer.labels
  waits : ∀ label m, run.flow state.buffer.insts.toList = .running (some label) m →
    label < state.buffer.labels
  blank : (state.allocation.lastUse operand).all (· < index) = true ∨
    ∀ m, run.flow state.buffer.insts.toList = .running none m →
      (state.allocation.place operand).BlankIn (state.allocation.known operand) m

variable {config : CodeConfig} {run : Speculation} {operand index : Nat} {state after : Assembler}

theorem Spared.idle {trail : Trail} {scope : Scope} (spared : state.Spared config trail [] scope)
    (index : Nat) : state.Idle config trail.run trail.operand index :=
  ⟨spared.balanced, spared.single, spared.fixed, spared.given.drop,
    fun label m flow => (spared.tracks.waits label m flow).1, .inr spared.tracks.here⟩

/-- An operand is spared from where it is blank. -/
theorem Spared.start (balanced : state.allocation.Balanced config []) (single : state.allocation.Single)
    (fixed : state.allocation.Fixed operand)
    (given : state.exits.Given [] state.buffer.labels)
    (waits : ∀ label m, run.flow state.buffer.insts.toList = .running (some label) m →
      label < state.buffer.labels)
    (blank : ∀ m, run.flow state.buffer.insts.toList = .running none m →
      (state.allocation.place operand).BlankIn (state.allocation.known operand) m) :
    state.Spared config (run.trail operand state) [] .none := by
  have code : ∃ insts, state.buffer.insts.toList = (run.trail operand state).passed ++ insts ∧
      (run.trail operand state).start.along insts = state.allocation.place operand ∧
      run.BlankAlong (run.trail operand state).passed (run.trail operand state).start insts :=
    ⟨[], (List.append_nil _).symm, rfl, .nil fun m flow => ⟨_, blank m flow⟩⟩
  exact ⟨balanced, single, fixed, ⟨code, blank, fun label m flow => ⟨waits label m flow, nofun⟩⟩, given,
    .none _ _⟩

namespace Idle

/-- When an operation begins the operand is where it was, or nowhere. -/
theorem begins {answer : Unit} (idle : state.Idle config run operand index)
    (runs : (Asm.beginOp index).Runs state answer after) :
    after.buffer = state.buffer ∧ after.Spared config (run.trail operand after) [] .none := by
  have balanced := Asm.beginOp_balanced runs idle.balanced
  obtain ⟨single, buffer, exits, length, defined, known, place⟩ :=
    Asm.beginOp_stays operand runs idle.single
  refine ⟨buffer, .start balanced single (idle.fixed.mono length defined.trans) ?_ ?_ ?_⟩
  · rw [exits, buffer]
    exact idle.given
  · rw [buffer]
    exact idle.waits
  · rw [buffer, known]
    intro m flow
    rcases idle.blank with stale | blank
    · rw [Asm.beginOp_evicts runs stale]
      exact Location.blankIn_nowhere
    · rcases place with same | nowhere
      · exact same ▸ blank m flow
      · exact nowhere ▸ Location.blankIn_nowhere

/-- Through the code of an operation the operand stays blank. -/
theorem emits {env : EmitEnv} {op : Op} (idle : state.Idle env.config run operand index)
    (runs : (Asm.emitOp env (op, index)).Runs state () after) :
    ∃ begun, (Asm.beginOp index).Runs state () begun ∧ begun.buffer = state.buffer ∧
      (op.emit env).Runs begun () after ∧ after.Spared env.config (run.trail operand begun) [] .none := by
  obtain ⟨begun, begins, emits⟩ := Asm.runs_emitOp runs
  obtain ⟨code, spared⟩ := idle.begins begins
  exact ⟨begun, begins, code, emits, op.emit_spares env _ _ _ _ emits spared⟩

theorem forM {env : EmitEnv} {ops : List Op} (idle : state.Idle env.config run operand index)
    (runs : ((ops.zipIdx index).forM (Asm.emitOp env)).Runs state () after) :
    after.Idle env.config run operand (index + ops.length) := by
  induction ops generalizing state index with
  | nil =>
      cases Asm.runs_forM_nil.mp runs
      exact idle
  | cons op rest ih =>
      obtain ⟨middle, first, others⟩ := Asm.runs_forM_cons.mp runs
      obtain ⟨begun, -, -, -, spared⟩ := idle.emits first
      have behind := ih (spared.idle (index + 1)) others
      rwa [List.length_cons, Nat.add_comm rest.length, ← Nat.add_assoc]

/-- What is no operand of the program is nowhere all the time. -/
theorem body (env : EmitEnv) {listed ops : List Op} {count inputs : Nat} {allocation : Allocation}
    (started : Allocation.start listed count env.config = .ok allocation)
    (outside : allocation.operands.length ≤ operand)
    (runs : (Asm.body env inputs ops).Runs (.start allocation) () after) :
    after.Idle env.config run operand ops.length := by
  have balanced : allocation.Balanced env.config [] := .start started
  obtain ⟨middle, prologue, visits⟩ := Asm.runs_body.mp runs
  have fixed : allocation.Fixed operand := fun bound => absurd bound (Nat.not_lt_of_le outside)
  obtain ⟨table, -, rfl⟩ := Allocation.start_ok started
  have start : (Assembler.start (Allocation.blank env.config table)).Spared env.config
      (run.trail operand (.start (Allocation.blank env.config table))) [] .none := by
    refine .start balanced (.start _ _) fixed ⟨nofun, nofun⟩ (fun label m flow => nomatch flow) fun m _ => ?_
    have nowhere : (Assembler.start (Allocation.blank env.config table)).allocation.place operand =
        .nowhere := Allocation.place_blank ..
    exact nowhere ▸ Location.blankIn_nowhere
  have idle := ((Asm.Spares.prologue _ _ _ prologue start).idle 0).forM visits
  rwa [Nat.zero_add] at idle

end Idle

end Assembler

end InlineCache
