import InlineCache.Proofs.Eval.Reading
import InlineCache.Proofs.Tier.Routes

/-!
The log of a history: for each call the parties before and after it, and what it has answered.
-/

namespace InlineCache

/-- A call of a history, with the parties to it. -/
structure LogEntry where
  call : Call
  before : Execution
  answer : Except ExecError Outcome
  after : Execution

namespace LogEntry

variable (entry : LogEntry)

def route : Route :=
  entry.before.route entry.call.inputs

/-- The interpreter has run the stub, and has come to an outcome. -/
def interprets : Bool :=
  entry.route = .interpreted && entry.answer.isOk

/-- Native code has run the stub, and has come to an end. -/
def runsNative : Bool :=
  entry.route.isNative && entry.answer ≠ .error .fault

def bailsNative : Bool :=
  entry.route.isNative && entry.answer = .ok .bailout

def finishesNative : Bool :=
  entry.route.isNative && entry.answer.isOk && entry.answer ≠ .ok .bailout

/-- The interpreter has run the stub, which is compiled after it. -/
def compiles : Bool :=
  entry.route = .interpreted && entry.after.stub.tier = .compiled

/-- The stub was compiled, and became interpreted for want of code of the runtime's own. -/
def reclaims : Bool :=
  entry.route = .interpreted && entry.before.stub.tier = .compiled

def moves (tier : Tier) (entry : LogEntry) : Bool :=
  entry.before.stub.tier ≠ tier && entry.after.stub.tier = tier

/-- The entry is one of a call on a runtime that goes by its number, with these options. -/
structure Proper (options : Nat → RuntimeOptions) : Prop where
  id : entry.before.runtime.id = entry.call.runtime
  options : entry.before.runtime.options = options entry.call.runtime
  comes : entry.before.Comes entry.call.inputs entry.answer entry.after

end LogEntry

namespace Fleet

def entry (fleet : Fleet) (call : Call) : LogEntry where
  call
  before := ⟨fleet.runtimes call.runtime, fleet.stubs call.stub, call.context⟩
  answer := (fleet.answer call).1
  after := (fleet.answer call).2

def log (fleet : Fleet) : List Call → List LogEntry
  | [] => []
  | call :: rest => fleet.entry call :: (fleet.call call).log rest

/-- The fleet has grown from these options and stubs. -/
structure Sound (options : Nat → RuntimeOptions) (stubs : Nat → StubProgram × StubData)
    (fleet : Fleet) : Prop where
  id : ∀ r, (fleet.runtimes r).id = r
  options : ∀ r, (fleet.runtimes r).options = options r
  faithful : ∀ s, (fleet.stubs s).Faithful (stubs s).1 (stubs s).2

variable {options : Nat → RuntimeOptions} {stubs : Nat → StubProgram × StubData} {fleet : Fleet}

theorem Sound.start : (Fleet.start options stubs).Sound options stubs :=
  ⟨fun _ => rfl, fun _ => rfl, fun _ => .new _ _⟩

theorem Sound.proper (sound : fleet.Sound options stubs) (call : Call) :
    (fleet.entry call).Proper options :=
  ⟨sound.id call.runtime, sound.options call.runtime,
    Execution.run_comes (sound.faithful call.stub) call.inputs⟩

theorem call_runtime (fleet : Fleet) (call : Call) :
    (fleet.call call).runtimes call.runtime = (fleet.entry call).after.runtime :=
  if_pos rfl

theorem call_other_runtime {r : Nat} {call : Call} (other : r ≠ call.runtime) :
    (fleet.call call).runtimes r = fleet.runtimes r :=
  if_neg other

theorem call_stub (fleet : Fleet) (call : Call) :
    (fleet.call call).stubs call.stub = (fleet.entry call).after.stub :=
  if_pos rfl

theorem call_other_stub {s : Nat} {call : Call} (other : s ≠ call.stub) :
    (fleet.call call).stubs s = fleet.stubs s :=
  if_neg other

theorem Sound.runtime (sound : fleet.Sound options stubs) (call : Call) (r : Nat) :
    ((fleet.call call).runtimes r).id = r ∧ ((fleet.call call).runtimes r).options = options r := by
  by_cases own : r = call.runtime
  · subst own
    obtain ⟨id, same⟩ := (sound.proper call).comes.runtime
    rw [call_runtime]
    exact ⟨id.trans (sound.id _), same.trans (sound.options _)⟩
  · rw [call_other_runtime own]
    exact ⟨sound.id r, sound.options r⟩

theorem Sound.call (sound : fleet.Sound options stubs) (call : Call) :
    (fleet.call call).Sound options stubs where
  id r := (sound.runtime call r).1
  options r := (sound.runtime call r).2
  faithful s := faithful_after (sound.faithful s) [call]

theorem Sound.after (sound : fleet.Sound options stubs) (calls : List Call) :
    (fleet.after calls).Sound options stubs := by
  induction calls generalizing fleet with
  | nil => exact sound
  | cons call rest ih => exact ih (sound.call call)

/-- What holds at first, and is kept by each call, holds of a log and the fleet after it. -/
theorem Sound.log_after {P : List LogEntry → Fleet → Prop} (sound : fleet.Sound options stubs)
    (past : List LogEntry)
    (step : ∀ {past : List LogEntry} {fleet : Fleet} (call : Call), fleet.Sound options stubs →
      P past fleet → P (past ++ [fleet.entry call]) (fleet.call call))
    (initially : P past fleet) (calls : List Call) :
    P (past ++ fleet.log calls) (fleet.after calls) := by
  induction calls generalizing past fleet with
  | nil =>
      rw [log, List.append_nil]
      exact initially
  | cons call rest ih =>
      have next := ih (sound.call call) _ (step call sound initially)
      rwa [List.append_assoc] at next

/-- So does what concerns a part of the fleet, with the calls that concern it. -/
theorem own_log_after {Part : Type} (part : Fleet → Part) (own : Call → Bool)
    {P : List LogEntry → Part → Prop}
    (spares : ∀ (fleet : Fleet) (call : Call), own call = false → part (fleet.call call) = part fleet)
    (step : ∀ {past : List LogEntry} {fleet : Fleet} (call : Call), fleet.Sound options stubs →
      own call = true → P past (part fleet) →
        P (past ++ [fleet.entry call]) (part (fleet.call call)))
    (initially : P [] (part (start options stubs))) (calls : List Call) :
    P (((start options stubs).log calls).filter fun entry => own entry.call)
      (part ((start options stubs).after calls)) := by
  refine Sound.start.log_after
    (P := fun past fleet => P (past.filter fun entry => own entry.call) (part fleet)) []
    (fun {past fleet} call sound holds => ?_) initially calls
  cases concerns : own call with
  | false =>
      have skipped : [fleet.entry call].filter (fun entry => own entry.call) = [] :=
        List.filter_cons_of_neg (Bool.eq_false_iff.mp concerns)
      rw [List.filter_append, skipped, List.append_nil, spares fleet call concerns]
      exact holds
  | true =>
      have kept : [fleet.entry call].filter (fun entry => own entry.call) = [fleet.entry call] :=
        List.filter_cons_of_pos concerns
      rw [List.filter_append, kept]
      exact step call sound concerns holds

end Fleet

/-- The items from the last one that starts anew; all of them if none does. -/
def sinceLast {α : Type} (starts : α → Bool) : List α → List α
  | [] => []
  | a :: rest => if rest.any starts then sinceLast starts rest else a :: rest

theorem sinceLast_concat {α : Type} (starts : α → Bool) (items : List α) (a : α) :
    sinceLast starts (items ++ [a]) =
      (if starts a then [] else sinceLast starts items) ++ [a] := by
  induction items with
  | nil => simp [sinceLast]
  | cons b rest ih =>
      rw [List.cons_append, sinceLast, sinceLast, ih, List.any_append]
      cases anew : starts a <;> cases later : rest.any starts <;> simp [anew]

/-- Eager runtimes, which compile a stub at once and give it up at once, and stubs that return numbers
and bail out of all else. -/
def Sample.eager : Fleet :=
  .start (fun _ => { RuntimeOptions.default with hotThreshold := 1, bailoutLimit := 1 })
    fun _ => (⟨[10, 0, 1, 38, 1, 0], 2, 1⟩, .empty)

/-- One runtime compiles a stub, and another takes it over and bails out of it. -/
def Sample.takeover : List Call :=
  [⟨0, 0, [.ofInt32 1], .empty⟩, ⟨1, 0, [.ofInt32 1], .empty⟩, ⟨1, 0, [.undefined], .empty⟩]

end InlineCache
