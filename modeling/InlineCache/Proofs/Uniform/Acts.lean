import InlineCache.Proofs.Uniform.Define

/-!
Code that acts in the same way for every configuration.  A family of stretches of code, each run from
where the same view shows, leads to where one other view shows for all of them, or all of them have left
in the same way.  The rules take stretches from the front, one at a time; what a stretch answers becomes
part of the index of the family.
-/

namespace InlineCache

/-- What a run shows when it has left. -/
structure Seen where
  status : ExitStatus
  output : UInt64
  context : Context
  reads : List HeapRead

def Machine.seen (m : Machine) (status : ExitStatus) : Seen :=
  ⟨status, m.output, m.context, m.reads⟩

def View.seen (view : View) (status : ExitStatus) : Seen :=
  ⟨status, view.output, view.context, view.reads⟩

/-- Where code leads: on, or out, or to a fault. -/
inductive Fate
  | goes (view : View)
  | ended (seen : Option Seen)

/-- The code so far leads there; code that is to leave by an exit path looks for the label of it. -/
def Fate.Holds (entry : Entry) (origin : Machine) (state : Assembler) : Fate → Prop
  | .goes view => ∃ m, Shows view .none state m ∧ state.Reaches entry origin m
  | .ended none => state.buffer.flow entry origin = .faulted
  | .ended (some seen) =>
      ∃ m, m.seen seen.status = seen ∧
        (state.buffer.flow entry origin = .exited seen.status m ∨
          ∃ path ∈ state.exits, path.status = seen.status ∧
            state.buffer.flow entry origin = .running (some path.label) m)

/-- What has ended stays so. -/
theorem Fate.Holds.grows {entry : Entry} {origin : Machine} {a b : Assembler} {seen : Option Seen}
    (holds : (Fate.ended seen).Holds entry origin a) (grows : a.Grows b) (sound : b.Sound) :
    (Fate.ended seen).Holds entry origin b := by
  obtain ⟨rest, code⟩ := grows.code
  have flow : b.buffer.flow entry origin =
      rest.foldl (Flow.step entry) (a.buffer.flow entry origin) := by
    rw [CodeBuffer.flow, ← code, List.foldl_append]
    rfl
  cases seen with
  | none =>
      have faulted : a.buffer.flow entry origin = .faulted := holds
      show b.buffer.flow entry origin = .faulted
      rw [flow, faulted, Flow.foldl_faulted]
  | some seen =>
      obtain ⟨m, same, exited | ⟨path, listed, status, pending⟩⟩ := holds
      · refine ⟨m, same, .inl ?_⟩
        rw [flow, exited, Flow.foldl_exited]
      · have later := grows.mem_exits listed
        refine ⟨m, same, .inr ⟨path, later, status, ?_⟩⟩
        rw [flow, pending]
        refine Flow.foldl_pending _ _ fun bound => sound.unbound path later ?_
        rw [← code]
        exact List.mem_append_right _ bound

/-- A stretch only adds to what there is. -/
def Asm.Growing (stretch : Asm α) : Prop :=
  ∀ state answer after, stretch.Runs state answer after → state.Grows after

namespace Asm.Growing

theorem of_tidy {stretch : Asm α} (tidy : Tidy [] stretch) : Growing stretch :=
  fun _ _ _ runs => tidy.grows runs

theorem pure (a : α) : Growing (pure a : Asm α) :=
  of_tidy (.pure a)

theorem bind {stretch : Asm α} {next : α → Asm β} (first : Growing stretch)
    (rest : ∀ a, Growing (next a)) : Growing (stretch >>= next) := by
  intro state answer after runs
  obtain ⟨a, middle, starts, runs⟩ := runs_bind.mp runs
  exact (first _ _ _ starts).trans (rest a _ _ _ runs)

theorem emit (inst : Inst) : Growing (emit inst) := by
  intro state answer after runs
  rw [runs_emit.mp runs]
  exact .emitted state inst

theorem newLabel : Growing newLabel := by
  rintro state answer after ⟨⟩
  exact ⟨List.prefix_rfl, Nat.le_succ _, [], (List.append_nil _).symm,
    fun _ member => absurd member List.not_mem_nil⟩

end Asm.Growing

/-- A stretch leads where a fate says, run from where a view shows. -/
structure Acts (entry : Entry) (origin : Machine) (view : View) (notes : Notes)
    (pending : Option Label) (code : Asm Unit) (fate : Fate) : Prop where
  grows : Asm.Growing code
  acts : ∀ a m b, Shows view notes a m → a.buffer.flow entry origin = .running pending m →
    code.Runs a () b → b.Sound → fate.Holds entry origin b

/-- All of a family lead to the same. -/
def Uniform (entry : Entry) (origin : Machine) (view : View) {ι : Type} (notes : ι → Notes)
    (pending : ι → Option Label) (code : ι → Asm Unit) : Prop :=
  ∃ fate, ∀ i, Acts entry origin view (notes i) (pending i) (code i) fate

namespace Uniform

variable {entry : Entry} {origin : Machine} {view after : View} {ι : Type} {notes later : ι → Notes}
  {pending : ι → Option Label} {code : ι → Asm Unit} {inst : ι → Inst}

/-- Stretches after which something else shows, whatever they answer. -/
theorem step {α : Type} {stretch : ι → Asm α} {next : ι → α → Asm Unit} {later : ι × α → Notes}
    {seeking : ι × α → Option Label} (grows : ∀ i, Asm.Growing (stretch i))
    (leads : ∀ i {a m answer b}, Shows view (notes i) a m →
      a.buffer.flow entry origin = .running (pending i) m → (stretch i).Runs a answer b →
      ∃ n, Shows after (later (i, answer)) b n ∧
        b.buffer.flow entry origin = .running (seeking (i, answer)) n)
    (rest : Uniform entry origin after later seeking fun p => next p.1 p.2) :
    Uniform entry origin view notes pending fun i => stretch i >>= next i := by
  obtain ⟨fate, rest⟩ := rest
  refine ⟨fate, fun i => ⟨(grows i).bind fun answer => (rest (i, answer)).grows, ?_⟩⟩
  intro a m b shows led runs sound
  obtain ⟨answer, middle, starts, runs⟩ := Asm.runs_bind.mp runs
  obtain ⟨n, seen, leads⟩ := leads i shows led starts
  exact (rest (i, answer)).acts _ _ _ seen leads runs sound

/-- Stretches that answer nothing. -/
theorem stretch {first : ι → Asm Unit} {seeking : ι → Option Label}
    (grows : ∀ i, Asm.Growing (first i))
    (leads : ∀ i {a m b}, Shows view (notes i) a m →
      a.buffer.flow entry origin = .running (pending i) m → (first i).Runs a () b →
      ∃ n, Shows after (later i) b n ∧ b.buffer.flow entry origin = .running (seeking i) n)
    (rest : Uniform entry origin after later seeking code) :
    Uniform entry origin view notes pending fun i => first i >>= fun _ => code i := by
  obtain ⟨fate, rest⟩ := rest
  refine ⟨fate, fun i => ⟨(grows i).bind fun _ => (rest i).grows, ?_⟩⟩
  intro a m b shows led runs sound
  obtain ⟨_, middle, starts, runs⟩ := Asm.runs_bind.mp runs
  obtain ⟨n, seen, leads⟩ := leads i shows led starts
  exact (rest i).acts _ _ _ seen leads runs sound

/-- More may be noted, and the code may not depend on all of the index. -/
theorem along {κ : Type} {more : κ → Notes} (rest : Uniform entry origin view notes pending code)
    (f : κ → ι) (less : ∀ k {a m}, Shows view (more k) a m → Shows view (notes (f k)) a m) :
    Uniform entry origin view more (fun k => pending (f k)) fun k => code (f k) := by
  obtain ⟨fate, acts⟩ := rest
  refine ⟨fate, fun k => ⟨(acts (f k)).grows, ?_⟩⟩
  exact fun a m b shows => (acts (f k)).acts a m b (less k shows)

/-- A stretch with nothing behind it. -/
theorem last (rest : Uniform entry origin view notes pending fun i => code i >>= fun _ => pure ()) :
    Uniform entry origin view notes pending code := by
  simpa only [bind_pure_unit] using rest

/-- Stretches that fail. -/
theorem fails (none : ∀ i a b, ¬(code i).Runs a () b) :
    Uniform entry origin view notes pending code :=
  ⟨.ended .none, fun i => ⟨fun a _ b runs => absurd runs (none i a b),
    fun a _ b _ _ runs => absurd runs (none i a b)⟩⟩

/-- Stretches that fail where the view shows. -/
theorem impossible (grows : ∀ i, Asm.Growing (code i))
    (none : ∀ i {a m b}, Shows view (notes i) a m →
      a.buffer.flow entry origin = .running (pending i) m → ¬(code i).Runs a () b) :
    Uniform entry origin view notes pending code :=
  ⟨.ended .none, fun i => ⟨grows i, fun _ _ _ shows led runs => absurd runs (none i shows led)⟩⟩

/-- Code that looks at the table finds what the view says, if it can be made at all. -/
theorem table {next : ι → Allocation → Asm Unit}
    (grows : ∀ i, Asm.Growing (Asm.allocation >>= next i))
    (same : ∀ i {a m b}, Shows view (notes i) a m →
      a.buffer.flow entry origin = .running (pending i) m → (next i a.allocation).Runs a () b →
      next i a.allocation = code i)
    (rest : Uniform entry origin view notes pending code) :
    Uniform entry origin view notes pending fun i => Asm.allocation >>= next i := by
  obtain ⟨fate, rest⟩ := rest
  refine ⟨fate, fun i => ⟨grows i, ?_⟩⟩
  intro a m b shows led runs sound
  obtain ⟨_, _, looks, runs⟩ := Asm.runs_bind.mp runs
  obtain ⟨rfl, rfl⟩ := Asm.runs_allocation.mp looks
  rw [same i shows led runs] at runs
  exact (rest i).acts _ _ _ shows led runs sound

section Ends

variable {held : ι → List (Nat × Register)} {own : ι → List (Source × UInt64)}
  {float : ι → Option (FloatRegister × Option Double)} {paths : ι → List (Label × ExitStatus)}
  {labels : ι → List Label}

theorem done :
    Uniform entry origin view (fun i => ⟨none, held i, own i, float i, paths i, labels i⟩)
      (fun _ => none) fun _ => pure () := by
  refine ⟨.goes view, fun i => ⟨.pure _, ?_⟩⟩
  intro a m b shows led runs _
  obtain ⟨-, rfl⟩ := Asm.runs_pure.mp runs
  exact ⟨m, shows.clear, led⟩

/-- The operand that was to be defined has got its word. -/
theorem defined {result : Nat} {reg : ι → Register} {type : PayloadType} {word : UInt64} :
    Uniform entry origin view
      (fun i => ⟨some ⟨result, reg i, type, some word⟩, held i, own i, float i, paths i, labels i⟩)
      (fun _ => none) fun _ => pure () := by
  refine ⟨.goes (view.store result ⟨.payload type, word⟩), fun i => ⟨.pure _, ?_⟩⟩
  intro a m b shows led runs _
  obtain ⟨-, rfl⟩ := Asm.runs_pure.mp runs
  exact ⟨m, shows.close, led⟩

end Ends

/-- An instruction after which the code goes straight on. -/
theorem next
    (exec : ∀ i {a m}, Shows view (notes i) a m →
      ∃ n, (inst i).exec entry m = .next n ∧ Shows after (later i) a n)
    (rest : Uniform entry origin after later (fun _ => none) code) :
    Uniform entry origin view notes (fun _ => none) fun i => Asm.emit (inst i) >>= fun _ => code i := by
  refine stretch (fun i => .emit (inst i)) ?_ rest
  intro i a m b shows led runs
  cases Asm.runs_emit.mp runs
  obtain ⟨n, goes, seen⟩ := exec i shows
  exact ⟨n, seen.emitted (inst i), CodeBuffer.flow_emit_effect led (inst i) goes⟩

/-- An instruction that jumps to a label which is bound later in the operation. -/
theorem jump {target : ι → Label}
    (exec : ∀ i {a m}, Shows view (notes i) a m →
      ∃ n, (inst i).exec entry m = .jump (target i) n ∧ Shows after (later i) a n)
    (rest : Uniform entry origin after later (fun i => some (target i)) code) :
    Uniform entry origin view notes (fun _ => none) fun i => Asm.emit (inst i) >>= fun _ => code i := by
  refine stretch (fun i => .emit (inst i)) ?_ rest
  intro i a m b shows led runs
  cases Asm.runs_emit.mp runs
  obtain ⟨n, jumps, seen⟩ := exec i shows
  exact ⟨n, seen.emitted (inst i), CodeBuffer.flow_emit_effect led (inst i) jumps⟩

/-- An instruction that faults. -/
theorem fault (grows : ∀ i, Asm.Growing (code i))
    (exec : ∀ i {a m}, Shows view (notes i) a m → (inst i).exec entry m = .fault) :
    Uniform entry origin view notes (fun _ => none) fun i => Asm.emit (inst i) >>= fun _ => code i := by
  refine ⟨.ended none, fun i => ⟨(Asm.Growing.emit _).bind fun _ => grows i, ?_⟩⟩
  intro a m b shows led runs sound
  obtain ⟨_, middle, emits, runs⟩ := Asm.runs_bind.mp runs
  cases Asm.runs_emit.mp emits
  have faulted : (Fate.ended none).Holds entry origin (a.emitted (inst i)) :=
    CodeBuffer.flow_emit_effect led (inst i) (exec i shows)
  exact faulted.grows (grows i _ _ _ runs) sound

/-- An instruction that leaves by an exit path. -/
theorem leave {fail : ι → Label} (seen : Seen)
    (listed : ∀ i, (fail i, seen.status) ∈ (notes i).paths) (grows : ∀ i, Asm.Growing (code i))
    (exec : ∀ i {a m}, Shows view (notes i) a m →
      ∃ n, (inst i).exec entry m = .jump (fail i) n ∧ n.seen seen.status = seen) :
    Uniform entry origin view notes (fun _ => none) fun i => Asm.emit (inst i) >>= fun _ => code i := by
  refine ⟨.ended (some seen), fun i => ⟨(Asm.Growing.emit _).bind fun _ => grows i, ?_⟩⟩
  intro a m b shows led runs sound
  obtain ⟨_, middle, emits, runs⟩ := Asm.runs_bind.mp runs
  cases Asm.runs_emit.mp emits
  obtain ⟨n, jumps, same⟩ := exec i shows
  obtain ⟨path, member, label, status⟩ := shows.paths _ (listed i)
  have left : (Fate.ended (some seen)).Holds entry origin (a.emitted (inst i)) := by
    refine ⟨n, same, .inr ⟨path, member, status, ?_⟩⟩
    rw [label]
    exact CodeBuffer.flow_emit_effect led (inst i) jumps
  exact left.grows (grows i _ _ _ runs) sound

/-- A branch to an exit path; the code behind it is reached when the branch is not taken. -/
theorem branchUnless {fail : ι → Label} {status : ExitStatus} (taken : Bool)
    (listed : ∀ i, (fail i, status) ∈ (notes i).paths)
    (exec : ∀ i {m}, (notes i).Hold view m → (inst i).exec entry m = .branch taken (fail i) m)
    (grows : ∀ i, Asm.Growing (code i))
    (rest : taken = false → Uniform entry origin view notes (fun _ => none) code) :
    Uniform entry origin view notes (fun _ => none) fun i => Asm.emit (inst i) >>= fun _ => code i := by
  cases taken with
  | false => exact next (fun i _ m shows => ⟨m, exec i shows.hold, shows⟩) (rest rfl)
  | true =>
      refine leave (view.seen status) listed grows ?_
      intro i a m shows
      refine ⟨m, exec i shows.hold, ?_⟩
      rw [Machine.seen, View.seen, shows.output, shows.context, shows.reads]

theorem branch {fail : ι → Label} {status : ExitStatus} (taken : Bool)
    (listed : ∀ i, (fail i, status) ∈ (notes i).paths)
    (exec : ∀ i {m}, (notes i).Hold view m → (inst i).exec entry m = .branch taken (fail i) m)
    (rest : Uniform entry origin view notes (fun _ => none) code) :
    Uniform entry origin view notes (fun _ => none) fun i => Asm.emit (inst i) >>= fun _ => code i := by
  refine branchUnless taken listed exec ?_ fun _ => rest
  obtain ⟨fate, acts⟩ := rest
  exact fun i => (acts i).grows

/-- A branch to a label which is bound later in the operation. -/
theorem branchAhead {target : ι → Label} (taken : Bool)
    (exec : ∀ i {m}, (notes i).Hold view m → (inst i).exec entry m = .branch taken (target i) m)
    (jumps : taken = true → Uniform entry origin view notes (fun i => some (target i)) code)
    (stays : taken = false → Uniform entry origin view notes (fun _ => none) code) :
    Uniform entry origin view notes (fun _ => none) fun i => Asm.emit (inst i) >>= fun _ => code i := by
  cases taken with
  | false => exact next (fun i _ m shows => ⟨m, exec i shows.hold, shows⟩) (stays rfl)
  | true => exact jump (fun i _ m shows => ⟨m, exec i shows.hold, shows⟩) (jumps rfl)

theorem ret (status : ExitStatus) :
    Uniform entry origin view notes (fun _ => none) fun _ => Asm.emit (.ret status) := by
  refine ⟨.ended (some (view.seen status)), fun i => ⟨.emit _, ?_⟩⟩
  intro a m b shows led runs _
  cases Asm.runs_emit.mp runs
  refine ⟨m, ?_, .inl (CodeBuffer.flow_emit_effect led (.ret status) rfl)⟩
  rw [Machine.seen, View.seen, shows.output, shows.context, shows.reads]

/-- A label that is not looked for. -/
theorem bind {label : ι → Label} (rest : Uniform entry origin view notes (fun _ => none) code) :
    Uniform entry origin view notes (fun _ => none)
      fun i => Asm.emit (.bind (label i)) >>= fun _ => code i :=
  next (fun _ _ m shows => ⟨m, rfl, shows⟩) rest

/-- The label that is looked for. -/
theorem land {label : ι → Label} (rest : Uniform entry origin view notes (fun _ => none) code) :
    Uniform entry origin view notes (fun i => some (label i))
      fun i => Asm.emit (.bind (label i)) >>= fun _ => code i := by
  refine stretch (fun i => .emit _) ?_ rest
  intro i a m b shows led runs
  cases Asm.runs_emit.mp runs
  exact ⟨m, shows.emitted _, CodeBuffer.flow_emit_land led⟩

/-- Instructions are passed by while a label is looked for. -/
theorem skip {label : ι → Label}
    (plain : ∀ i {a m}, Shows view (notes i) a m → inst i ≠ .bind (label i))
    (rest : Uniform entry origin view notes (fun i => some (label i)) code) :
    Uniform entry origin view notes (fun i => some (label i))
      fun i => Asm.emit (inst i) >>= fun _ => code i := by
  refine stretch (fun i => .emit _) ?_ rest
  intro i a m b shows led runs
  cases Asm.runs_emit.mp runs
  exact ⟨m, shows.emitted _, CodeBuffer.flow_emit_skip led _ (plain i shows)⟩

end Uniform

end InlineCache
