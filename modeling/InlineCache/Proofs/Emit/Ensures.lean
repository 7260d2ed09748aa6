import InlineCache.Proofs.Emit.Fails
import InlineCache.Proofs.Emit.Tidy

/-!
What a stretch of code generation ends with, whether it succeeds or fails.  The rules go along the
stretch: each part is entered in a state that the parts before it ensure.
-/

namespace InlineCache.Asm

/-- From the state, the stretch ends with an answer in a state as described, or with an error that may
occur. -/
structure Ensures (may : CodeError → Prop) (stretch : Asm α) (state : Assembler)
    (holds : α → Assembler → Prop) : Prop where
  runs : ∀ answer after, stretch.Runs state answer after → holds answer after
  fails : ∀ error, stretch.Fails state error → may error

namespace Ensures

variable {may : CodeError → Prop} {state : Assembler} {α β : Type}

theorem mono {stretch : Asm α} {holds weaker : α → Assembler → Prop}
    (ensures : Ensures may stretch state holds)
    (weaken : ∀ answer after, holds answer after → weaker answer after) :
    Ensures may stretch state weaker :=
  ⟨fun answer after runs => weaken answer after (ensures.runs answer after runs), ensures.fails⟩

theorem and {stretch : Asm α} {holds also : α → Assembler → Prop}
    (ensures : Ensures may stretch state holds)
    (runs : ∀ answer after, stretch.Runs state answer after → also answer after) :
    Ensures may stretch state fun answer after => holds answer after ∧ also answer after :=
  ⟨fun answer after run => ⟨ensures.runs answer after run, runs answer after run⟩, ensures.fails⟩

theorem pure {answer : α} {holds : α → Assembler → Prop} (here : holds answer state) :
    Ensures may (pure answer : Asm α) state holds where
  runs _ _ runs := by
    obtain ⟨rfl, rfl⟩ := runs_pure.mp runs
    exact here
  fails _ fails := absurd fails not_fails_pure

theorem bind {stretch : Asm α} {next : α → Asm β} {middle : α → Assembler → Prop}
    {holds : β → Assembler → Prop} (first : Ensures may stretch state middle)
    (second : ∀ answer after, middle answer after → Ensures may (next answer) after holds) :
    Ensures may (stretch >>= next) state holds where
  runs answer after runs := by
    obtain ⟨a, between, runsFirst, runsSecond⟩ := runs_bind.mp runs
    exact (second a between (first.runs a between runsFirst)).runs answer after runsSecond
  fails error fails := by
    rcases fails_bind.mp fails with failsFirst | ⟨a, between, runsFirst, failsSecond⟩
    · exact first.fails error failsFirst
    · exact (second a between (first.runs a between runsFirst)).fails error failsSecond

theorem throw {error : CodeError} {holds : α → Assembler → Prop} (allowed : may error) :
    Ensures may (throw error : Asm α) state holds where
  runs _ _ runs := absurd runs not_runs_throw
  fails _ fails := fails_throw.mp fails ▸ allowed

theorem violate {violation : Violation} {holds : α → Assembler → Prop}
    (allowed : may (.invariant violation)) :
    Ensures may (violate violation : Asm α) state holds :=
  throw allowed

theorem reject {defect : Defect} {holds : α → Assembler → Prop}
    (allowed : may (.malformed defect)) : Ensures may (reject defect : Asm α) state holds :=
  throw allowed

/-- What comes next starts from the state that was changed. -/
theorem modify_bind {change : Assembler → Assembler} {next : Unit → Asm β}
    {holds : β → Assembler → Prop} (rest : Ensures may (next ()) (change state) holds) :
    Ensures may (modify change >>= next) state holds := by
  have changed : Ensures may (modify change : Asm Unit) state fun _ after => after = change state :=
    ⟨fun _ _ runs => runs_modify.mp runs, fun _ fails => absurd fails not_fails_modify⟩
  exact changed.bind fun _ _ same => same ▸ rest

theorem modify {change : Assembler → Assembler} {holds : Unit → Assembler → Prop}
    (changed : holds () (change state)) : Ensures may (modify change : Asm Unit) state holds where
  runs _ _ runs := runs_modify.mp runs ▸ changed
  fails _ fails := absurd fails not_fails_modify

theorem emit {inst : Inst} {holds : Unit → Assembler → Prop} (emitted : holds () (state.emitted inst)) :
    Ensures may (emit inst) state holds :=
  modify emitted

/-- What comes next may look at the allocation as it is. -/
theorem allocation_bind {next : Allocation → Asm β} {holds : β → Assembler → Prop}
    (rest : Ensures may (next state.allocation) state holds) :
    Ensures may (allocation >>= next) state holds := by
  have found : Ensures may allocation state fun answer after =>
      answer = state.allocation ∧ after = state := by
    refine ⟨fun answer after runs => ?_, fun _ fails => absurd fails not_fails_allocation⟩
    obtain ⟨rfl, rfl⟩ := runs_allocation.mp runs
    exact ⟨rfl, rfl⟩
  refine found.bind ?_
  rintro _ _ ⟨rfl, rfl⟩
  exact rest

theorem forM {visit : β → Asm Unit} (holds : List β → Assembler → Prop)
    (step : ∀ head tail state, holds (head :: tail) state →
      Ensures may (visit head) state fun _ after => holds tail after)
    {items : List β} (start : holds items state) :
    Ensures may (items.forM visit) state fun _ after => holds [] after := by
  induction items generalizing state with
  | nil => exact pure start
  | cons head tail ih => exact bind (step head tail state start) fun _ _ held => ih held

end Ensures

/-- A stretch that emits code and asks for labels, but leaves the operands where they are. -/
def Still (stretch : Asm α) : Prop :=
  ∀ state, Ensures (fun _ => False) stretch state fun _ after => after.allocation = state.allocation

namespace Still

variable {α β : Type}

theorem bind {stretch : Asm α} {next : α → Asm β} (first : Still stretch)
    (second : ∀ answer, Still (next answer)) : Still (stretch >>= next) :=
  fun state => (first state).bind fun answer after same =>
    (second answer after).mono fun _ _ later => later.trans same

theorem emit (inst : Inst) : Still (emit inst) :=
  fun _ => .emit rfl

theorem newLabel : Still newLabel :=
  fun _ => ⟨fun _ _ runs => by cases runs; rfl, fun _ fails => nomatch fails⟩

theorem exitPath (status : ExitStatus) : Still (exitPath status) :=
  fun _ => ⟨fun _ _ runs => (runs_exitPath runs).1, fun _ fails => nomatch fails⟩

theorem zeroedRegister {env : EmitEnv} {object : OperandId} {reg : Register} :
    Still (zeroedRegister env object reg) :=
  fun _ => .allocation_bind (.pure rfl)

theorem convertOrFail (inst : FloatRegister → Label → Inst) (float : FloatRegister) :
    Still (convertOrFail inst float) :=
  bind (exitPath _) fun _ => emit _

theorem convertOrMinusOne (dst : Register) (float : FloatRegister) :
    Still (convertOrMinusOne dst float) :=
  newLabel.bind fun _ => newLabel.bind fun _ => (emit _).bind fun _ => (emit _).bind fun _ =>
    (emit _).bind fun _ => (emit _).bind fun _ => emit _

/-- What holds of the operands before such a stretch holds after it. -/
theorem ensures {stretch : Asm α} (still : Still stretch) {may : CodeError → Prop}
    {state : Assembler} (holds : Allocation → Prop) (here : holds state.allocation) :
    Ensures may stretch state fun _ after => holds after.allocation :=
  ⟨fun answer after runs => (still state).runs answer after runs ▸ here,
    fun error fails => absurd fails ((still state).fails error)⟩

end Still

end InlineCache.Asm
