import InlineCache.Proofs.Code.Flow
import InlineCache.Proofs.Emit.Runs

/-!
Labels.  Code generation only adds to the code and to the exit paths.  The label of an exit path is
bound nowhere before the exit paths themselves are emitted: a stretch of code binds no label but those
that it has asked for.
-/

namespace InlineCache

def Inst.isBind : Inst → Bool
  | .bind _ => true
  | _ => false

namespace Assembler

/-- The second state has what the first one has, and new exit paths have new labels. -/
structure Grows (before after : Assembler) : Prop where
  code : before.buffer.insts.toList <+: after.buffer.insts.toList
  labels : before.buffer.labels ≤ after.buffer.labels
  exits : ∃ more, after.exits = before.exits ++ more ∧
    ∀ path ∈ more, before.buffer.labels ≤ path.label

/-- Exit paths have labels of their own that are not bound yet. -/
structure Sound (state : Assembler) : Prop where
  given : ∀ path ∈ state.exits, path.label < state.buffer.labels
  distinct : (state.exits.map ExitPath.label).Nodup
  unbound : ∀ path ∈ state.exits, .bind path.label ∉ state.buffer.insts.toList
  bound : ∀ label, .bind label ∈ state.buffer.insts.toList → label < state.buffer.labels

/-- A label that was handed out, but not to an exit path. -/
structure Reserves (state : Assembler) (label : Label) : Prop where
  given : label < state.buffer.labels
  free : ∀ path ∈ state.exits, path.label ≠ label

theorem Grows.refl (state : Assembler) : state.Grows state :=
  ⟨List.prefix_rfl, Nat.le_refl _, [], (List.append_nil _).symm, fun _ member => nomatch member⟩

theorem Grows.trans {a b c : Assembler} (first : a.Grows b) (second : b.Grows c) : a.Grows c := by
  obtain ⟨more, added, fresh⟩ := first.exits
  obtain ⟨others, addedLater, freshLater⟩ := second.exits
  refine ⟨first.code.trans second.code, Nat.le_trans first.labels second.labels, more ++ others, ?_, ?_⟩
  · rw [addedLater, added, List.append_assoc]
  · intro path member
    rcases List.mem_append.mp member with early | late
    · exact fresh path early
    · exact Nat.le_trans first.labels (freshLater path late)

theorem Grows.mem_exits {a b : Assembler} (grows : a.Grows b) {path : ExitPath}
    (member : path ∈ a.exits) : path ∈ b.exits := by
  obtain ⟨more, exits, -⟩ := grows.exits
  exact exits ▸ List.mem_append_left _ member

theorem Grows.of_buffer {before after : Assembler} (code : after.buffer = before.buffer)
    (exits : after.exits = before.exits) : before.Grows after :=
  ⟨code ▸ List.prefix_rfl, Nat.le_of_eq (congrArg CodeBuffer.labels code.symm), [],
    exits.trans (List.append_nil _).symm, fun _ member => nomatch member⟩

theorem Grows.emitted (state : Assembler) (inst : Inst) : state.Grows (state.emitted inst) := by
  refine ⟨?_, Nat.le_refl _, [], (List.append_nil _).symm, fun _ member => nomatch member⟩
  rw [buffer_emitted, CodeBuffer.emit, Array.toList_push]
  exact List.prefix_append _ _

theorem Reserves.grows {before after : Assembler} {label : Label}
    (reserves : before.Reserves label) (grows : before.Grows after) : after.Reserves label := by
  obtain ⟨more, added, fresh⟩ := grows.exits
  refine ⟨Nat.lt_of_lt_of_le reserves.given grows.labels, ?_⟩
  intro path member
  rw [added] at member
  rcases List.mem_append.mp member with early | late
  · exact reserves.free path early
  · exact Nat.ne_of_gt (Nat.lt_of_lt_of_le reserves.given (fresh path late))

theorem Sound.of_buffer {before after : Assembler} (sound : before.Sound)
    (code : after.buffer = before.buffer) (exits : after.exits = before.exits) : after.Sound := by
  obtain ⟨given, distinct, unbound, bound⟩ := sound
  exact ⟨by rwa [exits, code], by rwa [exits], by rwa [exits, code], by rwa [code]⟩

theorem mem_emitted {state : Assembler} {inst other : Inst} :
    other ∈ (state.emitted inst).buffer.insts.toList ↔
      other ∈ state.buffer.insts.toList ∨ other = inst := by
  rw [buffer_emitted, CodeBuffer.emit, Array.toList_push, List.mem_append, List.mem_singleton]

theorem Sound.emitted {state : Assembler} (sound : state.Sound) {inst : Inst}
    (reserved : ∀ label, inst = .bind label → state.Reserves label) : (state.emitted inst).Sound where
  given := sound.given
  distinct := sound.distinct
  unbound path member bound := by
    rcases mem_emitted.mp bound with before | now
    · exact sound.unbound path member before
    · exact (reserved _ now.symm).free path member rfl
  bound label bound := by
    rcases mem_emitted.mp bound with before | now
    · exact sound.bound label before
    · exact (reserved _ now.symm).given

end Assembler

namespace Asm

/-- A stretch that binds only labels that it was given or has asked for. -/
def Tidy (reserved : List Label) (stretch : Asm α) : Prop :=
  ∀ state answer after, stretch.Runs state answer after →
    state.Grows after ∧ (state.Sound → (∀ label ∈ reserved, state.Reserves label) → after.Sound)

theorem Tidy.grows {stretch : Asm α} (tidy : Tidy [] stretch)
    (runs : stretch.Runs state answer after) : state.Grows after :=
  (tidy state answer after runs).1

namespace Tidy

variable {R : List Label} {α β : Type}

theorem pure (a : α) : Tidy R (pure a : Asm α) := by
  intro state answer after runs
  obtain ⟨-, rfl⟩ := runs_pure.mp runs
  exact ⟨.refl state, fun sound _ => sound⟩

theorem bind {stretch : Asm α} {next : α → Asm β} (first : Tidy R stretch)
    (second : ∀ a, Tidy R (next a)) : Tidy R (stretch >>= next) := by
  intro state answer after runs
  obtain ⟨a, middle, runsFirst, runsSecond⟩ := runs_bind.mp runs
  obtain ⟨grows, keeps⟩ := first _ _ _ runsFirst
  obtain ⟨growsLater, keepsLater⟩ := second a _ _ _ runsSecond
  refine ⟨grows.trans growsLater, fun sound reserves => keepsLater (keeps sound reserves) ?_⟩
  exact fun label member => (reserves label member).grows grows

theorem throw (error : CodeError) : Tidy R (throw error : Asm α) :=
  fun _ _ _ runs => absurd runs not_runs_throw

theorem violate (violation : Violation) : Tidy R (violate violation : Asm α) :=
  throw _

theorem reject (defect : Defect) : Tidy R (reject defect : Asm α) :=
  throw _

theorem modify {change : Assembler → Assembler}
    (code : ∀ state, (change state).buffer = state.buffer)
    (exits : ∀ state, (change state).exits = state.exits) :
    Tidy R (modify change : Asm Unit) := by
  intro state answer after runs
  rw [runs_modify.mp runs]
  exact ⟨.of_buffer (code state) (exits state),
    fun sound _ => sound.of_buffer (code state) (exits state)⟩

theorem modifyAllocation (change : Allocation → Allocation) : Tidy R (modifyAllocation change) :=
  modify (fun _ => rfl) fun _ => rfl

theorem setLocation (index : Nat) (location : Location) : Tidy R (setLocation index location) :=
  modifyAllocation _

theorem setKnownType (id : OperandId) (type : ValueType) : Tidy R (setKnownType id type) :=
  modifyAllocation _

theorem allocation : Tidy R allocation := by
  intro state answer after runs
  obtain ⟨-, rfl⟩ := runs_allocation.mp runs
  exact ⟨.refl state, fun sound _ => sound⟩

theorem emit {inst : Inst} (plain : inst.isBind = false) : Tidy R (emit inst) := by
  intro state answer after runs
  rw [runs_emit.mp runs]
  refine ⟨.emitted state inst, fun sound _ => sound.emitted ?_⟩
  rintro label rfl
  cases plain

theorem emit_bind {label : Label} (member : label ∈ R) : Tidy R (Asm.emit (.bind label)) := by
  intro state answer after runs
  rw [runs_emit.mp runs]
  refine ⟨.emitted state _, fun sound reserves => sound.emitted ?_⟩
  rintro _ ⟨⟩
  exact reserves label member

/-- A new label may be bound by what comes after. -/
theorem newLabel_bind {next : Label → Asm β} (rest : ∀ label, Tidy (label :: R) (next label)) :
    Tidy R (newLabel >>= next) := by
  intro state answer after runs
  obtain ⟨label, middle, asks, runs⟩ := runs_bind.mp runs
  cases asks
  obtain ⟨grows, keeps⟩ := rest _ _ _ _ runs
  have asked : state.Grows { state with buffer := state.buffer.newLabel.2 } :=
    ⟨List.prefix_rfl, Nat.le_succ _, [], (List.append_nil _).symm, fun _ member => nomatch member⟩
  refine ⟨asked.trans grows, fun sound reserves => keeps ?_ ?_⟩
  · exact ⟨fun path member => Nat.lt_succ_of_lt (sound.given path member), sound.distinct,
      sound.unbound, fun label bound => Nat.lt_succ_of_lt (sound.bound label bound)⟩
  · intro label member
    rcases List.mem_cons.mp member with rfl | before
    · exact ⟨Nat.lt_succ_self _, fun path member => Nat.ne_of_lt (sound.given path member)⟩
    · exact (reserves label before).grows asked

end Tidy

/-- An exit path for the registers that are saved is there already, or it is added under a new
label. -/
theorem exitPath_gives (runs : (exitPath status).Runs state label after) :
    after.allocation = state.allocation ∧ after.buffer.insts = state.buffer.insts ∧
      (∃ path ∈ after.exits, path.label = label ∧ path.status = status ∧
        path.saved = state.allocation.saved) ∧
      (after = state ∨
        label = state.buffer.labels ∧ after.buffer = state.buffer.newLabel.2 ∧
          after.exits = state.exits ++ [⟨label, status, state.allocation.saved⟩]) := by
  have runs : (((.ok (state.exits.add state.buffer status state.allocation.saved).1,
      { state with
        exits := (state.exits.add state.buffer status state.allocation.saved).2.1
        buffer := (state.exits.add state.buffer status state.allocation.saved).2.2 }) :
      Except CodeError Label × Assembler)) = (.ok label, after) := runs
  cases found : state.exits.find? fun path =>
      path.status = status && path.saved = state.allocation.saved with
  | some path =>
      have added : state.exits.add state.buffer status state.allocation.saved =
          (path.label, state.exits, state.buffer) := by
        rw [ExitPaths.add, found]
      rw [added] at runs
      cases runs
      have matched := List.find?_some found
      rw [Bool.and_eq_true, decide_eq_true_eq, decide_eq_true_eq] at matched
      exact ⟨rfl, rfl, ⟨path, List.mem_of_find?_eq_some found, rfl, matched⟩, .inl rfl⟩
  | none =>
      have added : state.exits.add state.buffer status state.allocation.saved =
          (state.buffer.labels,
            state.exits ++ [⟨state.buffer.labels, status, state.allocation.saved⟩],
            state.buffer.newLabel.2) := by
        rw [ExitPaths.add, found]
        rfl
      rw [added] at runs
      cases runs
      exact ⟨rfl, rfl, ⟨_, List.mem_append_right _ (List.mem_singleton_self _), rfl, rfl, rfl⟩,
        .inr ⟨rfl, rfl, rfl⟩⟩

theorem runs_exitPath (runs : (exitPath status).Runs state label after) :
    after.allocation = state.allocation ∧ after.buffer.insts = state.buffer.insts ∧
      (∃ path ∈ after.exits, path.label = label ∧ path.status = status) ∧
      (after = state ∨
        label = state.buffer.labels ∧ after.buffer = state.buffer.newLabel.2 ∧
          after.exits = state.exits ++ [⟨label, status, state.allocation.saved⟩]) := by
  obtain ⟨allocation, code, ⟨path, member, named, same, -⟩, added⟩ := exitPath_gives runs
  exact ⟨allocation, code, ⟨path, member, named, same⟩, added⟩

theorem flow_exitPath (runs : (exitPath status).Runs state label after) (entry : Entry)
    (origin : Machine) : after.buffer.flow entry origin = state.buffer.flow entry origin := by
  rw [CodeBuffer.flow, (runs_exitPath runs).2.1]
  rfl

theorem Tidy.exitPath (status : ExitStatus) : Tidy R (exitPath status) := by
  intro state label after runs
  obtain ⟨-, code, -, rfl | ⟨rfl, asked, exits⟩⟩ := runs_exitPath runs
  · exact ⟨.refl _, fun sound _ => sound⟩
  · have labels : after.buffer.labels = state.buffer.labels + 1 := congrArg CodeBuffer.labels asked
    refine ⟨⟨code ▸ List.prefix_rfl, by omega, _, exits, ?_⟩, fun sound _ => ⟨?_, ?_, ?_, ?_⟩⟩
    · intro path member
      cases List.mem_singleton.mp member
      exact Nat.le_refl _
    · intro path member
      rw [exits] at member
      rcases List.mem_append.mp member with before | now
      · exact Nat.lt_of_lt_of_le (sound.given path before) (by omega)
      · rw [List.mem_singleton.mp now]
        show state.buffer.labels < _
        omega
    · rw [exits, List.map_append, List.nodup_append]
      refine ⟨sound.distinct, List.nodup_cons.mpr ⟨List.not_mem_nil, List.nodup_nil⟩, ?_⟩
      intro first early second late same
      obtain ⟨path, member, rfl⟩ := List.mem_map.mp early
      have given := sound.given path member
      rw [List.mem_singleton.mp late] at same
      exact Nat.ne_of_lt given same
    · intro path member
      rw [exits] at member
      rw [code]
      rcases List.mem_append.mp member with before | now
      · exact sound.unbound path before
      · rw [List.mem_singleton.mp now]
        exact fun bound => Nat.lt_irrefl _ (sound.bound _ bound)
    · intro label bound
      rw [code] at bound
      exact Nat.lt_of_lt_of_le (sound.bound label bound) (by omega)

end Asm

end InlineCache
