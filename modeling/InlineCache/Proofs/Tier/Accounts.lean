import InlineCache.Proofs.Tier.Lifecycle

/-!
The accounts of a runtime.  Each of its counters is the number of its calls of one kind, whatever
stubs they were on, and whatever other runtimes were called in between.
-/

namespace InlineCache

theorem saturatingSucc64_toNat (n : UInt64) :
    (saturatingSucc64 n).toNat = min (n.toNat + 1) 0xFFFFFFFFFFFFFFFF := by
  rw [saturatingSucc64]
  split
  · rename_i greatest
    subst greatest
    rfl
  · rename_i less
    have : n.toNat ≠ 0xFFFFFFFFFFFFFFFF := fun same => less (UInt64.toNat_inj.mp same)
    have := n.toNat_lt
    rw [UInt64.toNat_add, UInt64.toNat_one]
    omega

/-- A bailout of either tier, not of a stub that was disabled before. -/
def LogEntry.bails (entry : LogEntry) : Bool :=
  entry.answer = .ok .bailout && entry.before.stub.tier ≠ .disabled

def LogEntry.throws (entry : LogEntry) : Bool :=
  entry.answer = .ok .exception

/-- A counter counts the entries of a kind, as far as it goes. -/
def Counts (kind : LogEntry → Bool) (entries : List LogEntry) (counter : UInt64) : Prop :=
  counter.toNat = min (entries.countP kind) 0xFFFFFFFFFFFFFFFF

/-- The counters, each with what it counts. -/
structure RuntimeStats.Account (entries : List LogEntry) (stats : RuntimeStats) : Prop where
  interpretedRuns : Counts LogEntry.interprets entries stats.interpretedRuns
  compiledRuns : Counts LogEntry.runsNative entries stats.compiledRuns
  compileSuccesses : Counts LogEntry.compiles entries stats.compileSuccesses
  compileErrors : Counts (LogEntry.moves .interpreterOnly) entries stats.compileErrors
  bailouts : Counts LogEntry.bails entries stats.bailouts
  exceptions : Counts LogEntry.throws entries stats.exceptions
  disabledStubs : Counts (LogEntry.moves .disabled) entries stats.disabledStubs

def tick (kind : LogEntry → Bool) (entry : LogEntry) (counter : UInt64) : UInt64 :=
  if kind entry then saturatingSucc64 counter else counter

theorem Counts.tick {kind : LogEntry → Bool} {entries : List LogEntry} {counter : UInt64}
    (counts : Counts kind entries counter) (entry : LogEntry) :
    Counts kind (entries ++ [entry]) (tick kind entry counter) := by
  rw [Counts] at counts ⊢
  rw [List.countP_append, List.countP_singleton, InlineCache.tick]
  split
  · rw [saturatingSucc64_toNat, counts]
    omega
  · exact counts

namespace RuntimeStats

variable (stats : RuntimeStats) (entry : LogEntry)

def bookRun : RuntimeStats :=
  { stats with
    interpretedRuns := tick LogEntry.interprets entry stats.interpretedRuns
    compiledRuns := tick LogEntry.runsNative entry stats.compiledRuns }

def bookOutcome : RuntimeStats :=
  { stats with
    bailouts := tick LogEntry.bails entry stats.bailouts
    exceptions := tick LogEntry.throws entry stats.exceptions }

def bookTier : RuntimeStats :=
  { stats with
    compileSuccesses := tick LogEntry.compiles entry stats.compileSuccesses
    compileErrors := tick (LogEntry.moves .interpreterOnly) entry stats.compileErrors
    disabledStubs := tick (LogEntry.moves .disabled) entry stats.disabledStubs }

def book : RuntimeStats :=
  ((stats.bookRun entry).bookOutcome entry).bookTier entry

variable {stats entry}

theorem Account.book {entries : List LogEntry} (account : stats.Account entries)
    (entry : LogEntry) : (stats.book entry).Account (entries ++ [entry]) where
  interpretedRuns := account.interpretedRuns.tick entry
  compiledRuns := account.compiledRuns.tick entry
  compileSuccesses := account.compileSuccesses.tick entry
  compileErrors := account.compileErrors.tick entry
  bailouts := account.bailouts.tick entry
  exceptions := account.exceptions.tick entry
  disabledStubs := account.disabledStubs.tick entry

variable (stats)

theorem bookRun_interpreted (route : entry.route = .interpreted) {outcome : Outcome}
    (answers : entry.answer = .ok outcome) :
    stats.bookRun entry =
      { stats with interpretedRuns := saturatingSucc64 stats.interpretedRuns } := by
  have native : entry.runsNative = false := by simp [LogEntry.runsNative, route, Route.isNative]
  have interprets : entry.interprets = true := by
    rw [LogEntry.interprets_interpreted route, answers]
    rfl
  simp [bookRun, tick, native, interprets]

theorem bookRun_native {code : CompiledStub} (route : entry.route = .native code)
    (ends : entry.answer ≠ .error .fault) : stats.bookRun entry = stats.countCompiled := by
  have native : entry.runsNative = true := by
    simp [LogEntry.runsNative, route, Route.isNative, ends]
  simp [bookRun, tick, native, LogEntry.interprets_native route, countCompiled]

theorem bookRun_aside (route : entry.route ≠ .interpreted) (aside : entry.route.isNative = false) :
    stats.bookRun entry = stats := by
  simp [bookRun, tick, LogEntry.interprets, LogEntry.runsNative, route, aside]

theorem bookRun_failed (route : entry.route = .interpreted) {error : ExecError}
    (answers : entry.answer = .error error) : stats.bookRun entry = stats := by
  have aside : entry.route.isNative = false := congrArg Route.isNative route
  have interprets : entry.interprets = false := by
    rw [LogEntry.interprets_interpreted route, answers]
    rfl
  simp [bookRun, tick, interprets, LogEntry.runsNative, aside]

theorem bookRun_faulted (answers : entry.answer = .error .fault) :
    stats.bookRun entry = stats := by
  simp [bookRun, tick, LogEntry.interprets, LogEntry.runsNative, answers, Except.isOk,
    Except.toBool]

theorem bookOutcome_ok {outcome : Outcome} (answers : entry.answer = .ok outcome)
    (enabled : entry.before.stub.tier ≠ .disabled) :
    stats.bookOutcome entry = stats.countOutcome outcome := by
  cases outcome <;>
    simp [bookOutcome, tick, LogEntry.bails, LogEntry.throws, answers, enabled, countOutcome]

theorem bookOutcome_error {error : ExecError} (answers : entry.answer = .error error) :
    stats.bookOutcome entry = stats := by
  simp [bookOutcome, tick, LogEntry.bails, LogEntry.throws, answers]

theorem bookOutcome_skipped (disabled : entry.before.stub.tier = .disabled)
    (answers : entry.answer = .ok .bailout) : stats.bookOutcome entry = stats := by
  simp [bookOutcome, tick, LogEntry.bails, LogEntry.throws, answers, disabled]

theorem bookTier_kept (route : entry.route ≠ .interpreted)
    (kept : entry.after.stub.tier = entry.before.stub.tier) : stats.bookTier entry = stats := by
  simp [bookTier, tick, LogEntry.compiles, LogEntry.moves, route, kept]

theorem bookTier_native {code : CompiledStub} (route : entry.route = .native code)
    (kept : entry.after.stub.tier = entry.before.stub.tier) : stats.bookTier entry = stats :=
  stats.bookTier_kept (fun other => nomatch route.symm.trans other) kept

theorem bookTier_taken (taken : entry.after.stub.tier = entry.before.stub.taken.tier) :
    stats.bookTier entry = stats := by
  have compiles : entry.compiles = false := by
    simp [LogEntry.compiles, taken, TieredStub.taken_tier]
  rcases entry.before.stub.taken_cases with interpreted | same
  · simp [bookTier, tick, compiles, LogEntry.moves, taken, interpreted]
  · simp [bookTier, tick, compiles, LogEntry.moves, taken, same]

theorem bookTier_compiled (route : entry.route = .interpreted)
    (compiled : entry.after.stub.tier = .compiled) :
    stats.bookTier entry = stats.countSuccess := by
  simp [bookTier, tick, LogEntry.compiles, LogEntry.moves, route, compiled, countSuccess]

theorem bookTier_stuck (before : entry.before.stub.tier ≠ .interpreterOnly)
    (stuck : entry.after.stub.tier = .interpreterOnly) :
    stats.bookTier entry = stats.countError := by
  simp [bookTier, tick, LogEntry.compiles, LogEntry.moves, before, stuck, countError]

theorem bookTier_disabled (before : entry.before.stub.tier ≠ .disabled)
    (disabled : entry.after.stub.tier = .disabled) :
    stats.bookTier entry = stats.countDisabled := by
  simp [bookTier, tick, LogEntry.compiles, LogEntry.moves, before, disabled, countDisabled]

end RuntimeStats

namespace LogEntry

variable {options : Nat → RuntimeOptions} {entry : LogEntry}

open RuntimeStats in
/-- A call books itself in the statistics of its runtime. -/
theorem Proper.books (proper : entry.Proper options) :
    entry.after.runtime.stats = entry.before.runtime.stats.book entry := by
  have comes := proper.comes
  generalize answers : entry.answer = answer at comes
  generalize leaves : entry.after = after at comes
  rw [book]
  cases comes with
  | rejected route =>
      have aside : entry.route.isNative = false := congrArg Route.isNative route
      rw [bookRun_aside _ (fun other => nomatch route.symm.trans other) aside,
        bookOutcome_error _ answers,
        bookTier_kept _ (fun other => nomatch route.symm.trans other) (by rw [leaves])]
  | skipped route =>
      have aside : entry.route.isNative = false := congrArg Route.isNative route
      rw [bookRun_aside _ (fun other => nomatch route.symm.trans other) aside,
        bookOutcome_skipped _ (Execution.route_skipped route) answers,
        bookTier_kept _ (fun other => nomatch route.symm.trans other) (by rw [leaves])]
  | failed route =>
      rw [bookRun_failed _ route answers, bookOutcome_error _ answers,
        bookTier_taken _ (congrArg (·.stub.tier) leaves)]
  | stayed route cold =>
      have enabled := Execution.route_interpreted route
      have kept : entry.after.stub.tier = entry.before.stub.taken.tier := by
        rw [leaves]
        exact TieredStub.heated_tier _
      rw [bookRun_interpreted _ route answers, bookOutcome_ok _ answers enabled,
        bookTier_taken _ kept]
      rfl
  | compiled route hot compiles =>
      have enabled := Execution.route_interpreted route
      rw [bookRun_interpreted _ route answers, bookOutcome_ok _ answers enabled,
        bookTier_compiled _ route (congrArg (·.stub.tier) leaves)]
      rfl
  | stuck route hot fails =>
      have enabled := Execution.route_interpreted route
      have unsettled := fun settled => TieredStub.not_hot (.inl settled) _ hot
      rw [bookRun_interpreted _ route answers, bookOutcome_ok _ answers enabled,
        bookTier_stuck _ unsettled (congrArg (·.stub.tier) leaves)]
      rfl
  | finished route | bailed route =>
      obtain ⟨-, tier, -⟩ := Execution.route_native route
      rw [bookRun_native _ route (by simp [answers]), bookOutcome_ok _ answers (by simp [tier]),
        bookTier_native _ route (congrArg (·.stub.tier) leaves)]
      rfl
  | disabled route reached =>
      obtain ⟨-, tier, -⟩ := Execution.route_native route
      rw [bookRun_native _ route (by simp [answers]), bookOutcome_ok _ answers (by simp [tier]),
        bookTier_disabled _ (by simp [tier]) (congrArg (·.stub.tier) leaves)]
      rfl
  | malformed route =>
      rw [bookRun_native _ route (by simp [answers]), bookOutcome_error _ answers,
        bookTier_native _ route (congrArg (·.stub.tier) leaves)]
      rfl
  | faulted route =>
      rw [bookRun_faulted _ answers, bookOutcome_error _ answers,
        bookTier_native _ route (by rw [leaves])]

/-- A call that fails before any code has run the stub to the end books nothing. -/
theorem Proper.unbooked (proper : entry.Proper options)
    (fails : (∃ expected found, entry.answer = .error (.inputCount expected found)) ∨
      ∃ error, entry.answer = .error (.interpreter error)) :
    entry.after.runtime = entry.before.runtime := by
  have comes := proper.comes
  generalize entry.answer = answer at comes fails
  generalize entry.after = after at comes
  cases comes with
  | rejected | failed | skipped | faulted => rfl
  | stayed | compiled | stuck | finished | bailed | disabled | malformed => simp at fails

end LogEntry

namespace Fleet

variable {options : Nat → RuntimeOptions} {stubs : Nat → StubProgram × StubData}

theorem account (options : Nat → RuntimeOptions) (stubs : Nat → StubProgram × StubData)
    (history : List Call) (r : Nat) :
    (((start options stubs).after history).runtimes r).stats.Account
      (((start options stubs).log history).filter fun entry => entry.call.runtime = r) := by
  refine own_log_after (fun fleet => fleet.runtimes r) (fun call => call.runtime = r)
    (P := fun past runtime => runtime.stats.Account past) ?_ ?_ ?_ history
  · intro fleet call other
    exact call_other_runtime fun own => of_decide_eq_false other own.symm
  · intro past fleet call sound own account
    cases of_decide_eq_true own
    rw [call_runtime, (sound.proper call).books]
    exact account.book (fleet.entry call)
  · exact ⟨rfl, rfl, rfl, rfl, rfl, rfl, rfl⟩

/-- No stub has moved to the tier twice, and those that have are there. -/
structure MovedOnce (tier : Tier) (past : List LogEntry) (fleet : Fleet) : Prop where
  distinct : ((past.filter (LogEntry.moves tier)).map (·.call.stub)).Nodup
  there : ∀ entry ∈ past, entry.moves tier = true → (fleet.stubs entry.call.stub).tier = tier

theorem MovedOnce.step {tier : Tier} {past : List LogEntry} {fleet : Fleet}
    (moved : MovedOnce tier past fleet) (settled : tier = .interpreterOnly ∨ tier = .disabled)
    (sound : fleet.Sound options stubs) (call : Call) :
    MovedOnce tier (past ++ [fleet.entry call]) (fleet.call call) := by
  have kept {s : Nat} (there : (fleet.stubs s).tier = tier) :
      ((fleet.call call).stubs s).tier = tier := by
    subst there
    exact sound.settled settled [call]
  constructor
  · rw [List.filter_append, List.map_append]
    cases moves : (fleet.entry call).moves tier with
    | false =>
        rw [List.filter_cons_of_neg (Bool.eq_false_iff.mp moves), List.filter_nil, List.map_nil,
          List.append_nil]
        exact moved.distinct
    | true =>
        rw [List.filter_cons_of_pos moves, List.filter_nil, List.map_singleton,
          List.nodup_append]
        refine ⟨moved.distinct, List.pairwise_singleton _ _, ?_⟩
        rintro _ earlier _ new rfl
        obtain ⟨entry, within, same⟩ := List.mem_map.mp earlier
        rw [List.mem_filter] at within
        have there := moved.there entry within.1 within.2
        rw [same, List.mem_singleton.mp new] at there
        exact (LogEntry.moves_iff.mp moves).1 there
  · intro entry within moves
    rw [List.mem_append, List.mem_singleton] at within
    rcases within with earlier | rfl
    · exact kept (moved.there entry earlier moves)
    · exact (congrArg TieredStub.tier (call_stub fleet call)).trans (LogEntry.moves_iff.mp moves).2

/-- A stub moves once at most to a tier that it never leaves. -/
theorem moves_once {tier : Tier} (settled : tier = .interpreterOnly ∨ tier = .disabled)
    (history : List Call) :
    ((((start options stubs).log history).filter (LogEntry.moves tier)).map
      (·.call.stub)).Nodup := by
  have initially : MovedOnce tier [] (start options stubs) :=
    ⟨List.nodup_nil, fun _ within => absurd within List.not_mem_nil⟩
  have moved := Sound.start.log_after (P := MovedOnce tier) [] (fun call sound moved =>
    moved.step settled sound call) initially history
  exact moved.distinct

end Fleet

/-- After any history of calls each counter of a runtime is the number of its calls of one kind.  No
stub is given to the interpreter for good, or disabled, more than once by all the runtimes together;
and a call that fails for its inputs, or in the interpreter, counts for nothing. -/
theorem statistics_account_for_calls (options : Nat → RuntimeOptions)
    (stubs : Nat → StubProgram × StubData) (history : List Call) (r : Nat) :
    let fleet := (Fleet.start options stubs).after history
    let log := (Fleet.start options stubs).log history
    (fleet.runtimes r).stats.Account (log.filter fun entry => entry.call.runtime = r) ∧
    (∀ tier, tier = .interpreterOnly ∨ tier = .disabled →
      ((log.filter (LogEntry.moves tier)).map (·.call.stub)).Nodup) ∧
    ∀ call : Call,
      (∃ expected found, (fleet.answer call).1 = .error (.inputCount expected found)) ∨
        (∃ error, (fleet.answer call).1 = .error (.interpreter error)) →
      (fleet.call call).runtimes r = fleet.runtimes r := by
  intro fleet log
  have sound : fleet.Sound options stubs := Fleet.Sound.start.after history
  refine ⟨Fleet.account options stubs history r, fun tier settled => ?_, fun call fails => ?_⟩
  · exact Fleet.moves_once settled history
  · by_cases own : r = call.runtime
    · subst own
      rw [Fleet.call_runtime]
      exact (sound.proper call).unbooked fails
    · exact Fleet.call_other_runtime own

theorem statistics_account_for_takeover :
    let calls := Sample.takeover ++ [⟨1, 0, [], .empty⟩, ⟨1, 0, [.undefined], .empty⟩]
    let stats := ((Sample.eager.after calls).runtimes 1).stats
    stats.counters = [1, 1, 1, 0, 1, 0, 1] ∧
      stats.Account ((Sample.eager.log calls).filter fun entry => entry.call.runtime = 1) :=
  ⟨by decide +kernel, (statistics_account_for_calls _ _ _ 1).1⟩

end InlineCache
