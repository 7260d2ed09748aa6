import InlineCache.Proofs.Agreement
import InlineCache.Proofs.Emit.WellFormed
import InlineCache.Proofs.Uniform.Ops

/-!
Whole runs.  The codes of a stub for different configurations start where the same view shows; the
inputs and each operation lead all of them to one other view, or end them all in the same way.
-/

namespace InlineCache

namespace View

def start (context : Context) : View :=
  ⟨fun _ => none, fun _ => none, Value.undefined.bits, context, []⟩

/-- The inputs before an index are operands, in boxed form. -/
def withInputs (view : View) (words : List UInt64) (index : Nat) : View :=
  { view with contents := fun i =>
      if i < index then words[i]?.map (⟨.boxed, ·⟩) else view.contents i }

theorem withInputs_zero (view : View) (words : List UInt64) : view.withInputs words 0 = view := by
  simp only [withInputs, Nat.not_lt_zero, if_false]

theorem withInputs_succ (view : View) {words : List UInt64} {index : Nat} {w : UInt64}
    (given : words[index]? = some w) :
    view.withInputs words (index + 1) = (view.withInputs words index).store index ⟨.boxed, w⟩ := by
  simp only [withInputs, store, mk.injEq, and_self, and_true]
  funext i
  rcases Nat.lt_trichotomy i index with before | rfl | behind
  · rw [if_pos (Nat.lt_succ_of_lt before), if_neg (Nat.ne_of_lt before), if_pos before]
  · rw [if_pos (Nat.lt_succ_self i), if_pos rfl, given]
    rfl
  · rw [if_neg (Nat.not_lt_of_le behind), if_neg (Nat.ne_of_gt behind),
      if_neg (Nat.lt_asymm behind)]

end View

variable {entry : Entry} {origin : Machine} {view : View} {a b : Assembler} {m n : Machine}

namespace Shows

theorem start {ops : List Op} {count : Nat} {config : CodeConfig} {allocation : Allocation}
    (started : Allocation.start ops count config = .ok allocation) (context : Context) :
    Shows (.start context) .none (.start allocation) (.start context) := by
  have balanced := Allocation.Balanced.start started
  obtain ⟨table, -, rfl⟩ := Allocation.start_ok started
  refine .idle ⟨config, balanced⟩ ?shown (fun i => Allocation.known_blank ..)
    (fun _ _ stored => nomatch stored) (fun _ known => nomatch known) (fun _ _ stored => nomatch stored)
    rfl rfl rfl
  intro i content found
  rw [Assembler.start, Allocation.content_of_place (Allocation.place_blank _ table i)] at found
  cases found

/-- One more operand is defined, as a boxed value. -/
theorem define_boxed (shows : Shows view .none a m) {index : Nat} {w : UInt64}
    (balanced : ∃ config, b.allocation.Balanced config []) (alike : m.Alike n)
    (contents : ∀ i content, b.allocation.content n i = some content →
      i = index ∧ content = ⟨.boxed, w⟩ ∨ i ≠ index ∧ a.allocation.content m i = some content)
    (known : ∀ i, b.allocation.known i = a.allocation.known i)
    (defined : ∀ i, a.allocation.defined i = true → b.allocation.defined i = true)
    (definedSelf : b.allocation.defined index = true) :
    Shows (view.store index ⟨.boxed, w⟩) .none b n := by
  refine .idle balanced ?shown (fun i => (known i).trans (shows.known i)) ?defined shows.single
    (shows.formed_store Form.noConfusion) (alike.output.trans shows.output)
    (alike.context.trans shows.context) (alike.reads.trans shows.reads)
  case shown =>
    intro i content found
    rw [View.contents_store]
    rcases contents i content found with ⟨rfl, rfl⟩ | ⟨other, before⟩
    · exact if_pos rfl
    · rw [if_neg other]
      exact shows.shown_idle before
  case defined =>
    intro i content found
    by_cases own : i = index
    · exact own ▸ definedSelf
    · rw [View.contents_store, if_neg own] at found
      exact defined i (shows.defined i content found)

theorem input (shows : Shows view .none a m) (reached : a.Reaches entry origin m) {index : Nat}
    {w : UInt64} (defines : Asm.DefinesInput a index b) (small : index < 256)
    (bound : index < a.allocation.operands.length) (undefined : a.allocation.defined index = false)
    (given : entry.inputs[index]? = some w) :
    ∃ n, Shows (view.store index ⟨.boxed, w⟩) .none b n ∧ b.Reaches entry origin n := by
  obtain ⟨config, balanced⟩ := shows.balanced
  obtain ⟨n, reached, alike, contents, known⟩ :=
    defines.loads small bound undefined balanced reached given
  exact ⟨n, shows.define_boxed ⟨config, defines.balanced small bound undefined balanced⟩ alike contents
    known defines.defined (defines.defined_self small bound), reached⟩

theorem defineInputs (shows : Shows view .none a m) (reached : a.Reaches entry origin m)
    (runs : (Asm.defineInputs entry.inputs.length).Runs a () b) :
    ∃ n, Shows (view.withInputs entry.inputs entry.inputs.length) .none b n ∧
      b.Reaches entry origin n := by
  refine Asm.defineInputs_induct
    (P := fun index current => index ≤ entry.inputs.length →
      ∃ n, Shows (view.withInputs entry.inputs index) .none current n ∧ current.Reaches entry origin n)
    ?_ runs ?_ (Nat.le_refl _)
  · intro index current next earlier small bound undefined defines more
    have given : entry.inputs[index]? = some entry.inputs[index] := List.getElem?_eq_getElem more
    obtain ⟨n, before, led⟩ := earlier (Nat.le_of_succ_le more)
    rw [View.withInputs_succ view given]
    exact before.input led defines small bound undefined given
  · intro
    rw [View.withInputs_zero]
    exact ⟨m, shows, reached⟩

end Shows

namespace Uniform

variable {ι : Type}

theorem defineInputs :
    Uniform entry origin view (fun _ : ι => .none) (fun _ => none)
      fun _ => Asm.defineInputs entry.inputs.length :=
  ⟨.goes _, fun _ => ⟨.of_tidy .defineInputs, fun _ _ _ shows led runs _ => shows.defineInputs led runs⟩⟩

/-- The output is made undefined by way of a register. -/
theorem prologue :
    Uniform entry origin view (fun _ : ι => .none) (fun _ => none)
      fun _ => Asm.prologue entry.inputs.length := by
  apply allocateRegister
  apply put Value.undefined.bits
  · exact fun _ m _ => rfl
  apply storeOutput Value.undefined.bits
  · exact fun _ m hold => hold.scratch (.head _)
  apply releaseRegister fun _ => []
  exact defineInputs

end Uniform

/-- Stretches that keep code sound, and that all lead to one fate from where a view shows. -/
structure Together (entry : Entry) (origin : Machine) (view : View) {ι : Type} (code : ι → Asm Unit) :
    Prop where
  tidy : ∀ i, Asm.Tidy [] (code i)
  leads : ∃ fate : Fate, ∀ i a m b, a.Sound → Shows view .none a m → a.Reaches entry origin m →
    (code i).Runs a () b → fate.Holds entry origin b

namespace Together

variable {ι : Type} {first code : ι → Asm Unit}

theorem of_uniform (tidy : ∀ i, Asm.Tidy [] (code i))
    (uniform : Uniform entry origin view (fun _ => .none) (fun _ => none) code) :
    Together entry origin view code := by
  obtain ⟨fate, acts⟩ := uniform
  refine ⟨tidy, fate, fun i a m b sound shows reached runs => ?_⟩
  have kept := (tidy i _ _ _ runs).2 sound fun _ member => absurd member List.not_mem_nil
  exact (acts i).acts a m b shows reached runs kept

theorem pure : Together entry origin view fun _ : ι => pure () :=
  .of_uniform (fun _ => .pure ()) .done

theorem bind (starts : Together entry origin view first)
    (rest : ∀ after, Together entry origin after code) :
    Together entry origin view fun i => first i >>= fun _ => code i := by
  have tidy (i : ι) : Asm.Tidy [] (first i >>= fun _ => code i) :=
    .bind (starts.tidy i) fun _ => (rest view).tidy i
  obtain ⟨fate, begins⟩ := starts.leads
  cases fate with
  | goes after =>
      obtain ⟨fate, ends⟩ := (rest after).leads
      refine ⟨tidy, fate, fun i a m b sound shows reached runs => ?_⟩
      obtain ⟨_, middle, runsFirst, runs⟩ := Asm.runs_bind.mp runs
      obtain ⟨n, seen, led⟩ := begins i a m middle sound shows reached runsFirst
      have kept := (starts.tidy i _ _ _ runsFirst).2 sound
        fun _ member => absurd member List.not_mem_nil
      exact ends i middle n b kept seen led runs
  | ended seen =>
      refine ⟨tidy, .ended seen, fun i a m b sound shows reached runs => ?_⟩
      have kept := (tidy i _ _ _ runs).2 sound fun _ member => absurd member List.not_mem_nil
      obtain ⟨_, middle, runsFirst, runs⟩ := Asm.runs_bind.mp runs
      exact (begins i a m middle sound shows reached runsFirst).grows
        ((rest view).tidy i |>.grows runs) kept

/-- Operands that are not used again lose their places. -/
theorem beginOp (index : Nat) : Together entry origin view fun _ : ι => Asm.beginOp index := by
  refine ⟨fun _ => .beginOp, .goes view, fun i a m b _ shows reached runs => ?_⟩
  obtain ⟨config, balanced⟩ := shows.balanced
  obtain ⟨n, sheds⟩ := Asm.beginOp_sheds runs balanced reached
  exact ⟨n, shows.of_sheds sheds ⟨config, Asm.beginOp_balanced runs balanced⟩, sheds.reached⟩

theorem checkAliasing : Together entry origin view fun _ : ι => Asm.checkAliasing := by
  refine ⟨fun _ => Asm.checkAliasing_tidy, .goes view, fun i a m b _ shows reached runs => ?_⟩
  cases Asm.runs_checkAliasing runs
  exact ⟨m, shows, reached⟩

variable {data : StubData} {ops : List Op}

theorem emitOp (words : entry.words = data.words) (extended : data.Extended) (op : Op × Nat)
    (apart : op.1.readsResult = false) :
    Together entry origin view fun config : CodeConfig => Asm.emitOp ⟨data, config⟩ op :=
  (beginOp op.2).bind fun after =>
    (of_uniform (fun config => op.1.emit_tidy ⟨data, config⟩)
      (op.1.uniform words extended apart after)).bind fun _ => checkAliasing

theorem emitOps (words : entry.words = data.words) (extended : data.Extended)
    {items : List (Op × Nat)} (apart : ∀ op ∈ items, op.1.readsResult = false) (view : View) :
    Together entry origin view
      fun config : CodeConfig => items.forM (Asm.emitOp ⟨data, config⟩) := by
  induction items generalizing view with
  | nil => exact pure
  | cons op rest ih =>
      exact (emitOp words extended op (apart op (.head _))).bind
        (ih fun other member => apart other (.tail _ member))

theorem body (words : entry.words = data.words) (extended : data.Extended)
    (apart : ∀ op ∈ ops, op.readsResult = false) :
    Together entry origin view
      fun config : CodeConfig => Asm.body ⟨data, config⟩ entry.inputs.length ops := by
  refine (of_uniform (fun _ => Asm.prologue_tidy _) .prologue).bind (emitOps words extended ?_)
  exact fun op member => apart op.1 (List.zipIdx_map_fst 0 ops ▸ List.mem_map_of_mem member)

end Together

/-- What a run of the code shows when it has left; code that faults shows nothing. -/
def CodeBuffer.shown? (code : CodeBuffer) (entry : Entry) (context : Context) : Option Seen :=
  (runCode entry code.insts.toList none (.start context)).map fun left => left.2.seen left.1

theorem CodeBuffer.shown?_eq (code : CodeBuffer) (entry : Entry) (context : Context) :
    code.shown? entry context =
      (code.flow entry (.start context)).result?.map fun left => left.2.seen left.1 := by
  rw [shown?, runCode_eq]
  rfl

/-- With the exit paths behind it, code that has ended shows what it has left with. -/
theorem Fate.Holds.shown? {state : Assembler} {seen : Option Seen} {context : Context}
    (holds : (Fate.ended seen).Holds entry (.start context) state) (sound : state.Sound) :
    (state.exits.emit state.buffer).shown? entry context = seen := by
  rw [CodeBuffer.shown?_eq]
  cases seen with
  | none =>
      have faulted : (state.exits.emit state.buffer).flow entry (.start context) = .faulted :=
        ExitPaths.emit_settled (fun _ => rfl) state.exits holds
      rw [faulted]
      rfl
  | some seen =>
      obtain ⟨m, same, exited | ⟨path, listed, status, pending⟩⟩ := holds
      · rw [ExitPaths.emit_settled (fun _ => rfl) state.exits exited]
        exact congrArg some same
      · obtain ⟨n, left, alike⟩ := ExitPaths.emit_leaves listed sound.given sound.distinct pending
        rw [left, ← same, status]
        show some (n.seen seen.status) = some (m.seen seen.status)
        rw [Machine.seen, Machine.seen, alike.output, alike.context, alike.reads]

/-- Code does not go on behind a return. -/
theorem Assembler.not_reaches_of_returns {state : Assembler} {status : ExitStatus}
    (returns : state.buffer.insts.toList.getLast? = some (.ret status)) (m : Machine) :
    ¬state.Reaches entry origin m := by
  intro reached
  obtain ⟨front, code⟩ := List.getLast?_eq_some_iff.mp returns
  rw [Reaches, CodeBuffer.flow, code, List.foldl_append, List.foldl_cons, List.foldl_nil] at reached
  cases led : front.foldl (Flow.step entry) (.running none origin) with
  | running pending n =>
      rw [led] at reached
      cases pending <;> cases reached
  | exited | faulted =>
      rw [led] at reached
      cases reached

end InlineCache
