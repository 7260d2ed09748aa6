import InlineCache.Proofs.Tier.Log

/-!
The life of a stub.  Its tier and its counters can be read off the calls on it: when it is compiled
and by whom, when it is given up, and when it leaves the interpreter.
-/

namespace InlineCache

theorem saturatingSucc32_toNat (n : UInt32) :
    (saturatingSucc32 n).toNat = min (n.toNat + 1) 0xFFFFFFFF := by
  rw [saturatingSucc32]
  split
  · rename_i greatest
    subst greatest
    rfl
  · rename_i less
    have : n.toNat ≠ 0xFFFFFFFF := fun same => less (UInt32.toNat_inj.mp same)
    have := n.toNat_lt
    rw [UInt32.toNat_add, UInt32.toNat_one]
    omega

/-- The stub has been compiled, or native code has run it to the end: the bailouts before that do not
count any more. -/
def LogEntry.clears (entry : LogEntry) : Bool :=
  entry.compiles || entry.finishesNative

/-- What a stub is, read off the calls on it. -/
structure TieredStub.Recorded (options : Nat → RuntimeOptions) (past : List LogEntry)
    (stub : TieredStub) : Prop where
  code : stub.compiled.isSome = true ↔ stub.tier = .compiled
  /-- The code is what the last runtime to compile the stub has made of it. -/
  origin : ∀ owner code, stub.compiled = some (owner, code) →
    (∃ entry, (past.filter LogEntry.compiles).getLast? = some entry ∧ entry.call.runtime = owner) ∧
      compileStub Helper.all (options owner).code stub.program stub.data = .ok code
  bailouts : ∀ owner code, stub.compiled = some (owner, code) →
    stub.consecutiveBailouts.toNat =
        (sinceLast LogEntry.clears past).countP LogEntry.bailsNative ∧
      stub.consecutiveBailouts.toNat < max 1 (options owner).bailoutLimit.toNat
  /-- The count stops at the greatest number that the stub can hold. -/
  runs : stub.tier = .interpreted →
    stub.interpretedRuns.toNat =
      min ((sinceLast LogEntry.reclaims past).countP LogEntry.interprets) 0xFFFFFFFF

/-- What a call does to a stub, read off the calls on it before. -/
structure LogEntry.Lawful (options : Nat → RuntimeOptions) (past : List LogEntry)
    (entry : LogEntry) : Prop where
  rejected : entry.call.inputs.length ≠ entry.before.stub.program.inputCount.toNat →
    entry.answer = .error (.inputCount entry.before.stub.program.inputCount.toNat
      entry.call.inputs.length) ∧ entry.after = entry.before
  /-- No call ever fails for want of code. -/
  fails : ∀ error, entry.answer = .error error →
    (∃ expected found, error = .inputCount expected found) ∨ (∃ e, error = .interpreter e) ∨
      error = .code (.malformed .wrongOperandKind) ∨ error = .fault
  /-- Native code only ever runs in the runtime that has compiled it. -/
  native : ∀ code, entry.route = .native code →
    (∃ compiling, (past.filter LogEntry.compiles).getLast? = some compiling ∧
      compiling.call.runtime = entry.call.runtime) ∧
    compileStub Helper.all (options entry.call.runtime).code entry.before.stub.program
      entry.before.stub.data = .ok code
  /-- A stub that is interpreted, or has become so in the call, leaves the interpreter at a run that
  makes it hot. -/
  leaves : entry.before.stub.tier = .interpreted ∨ entry.reclaims = true →
    (entry.after.stub.tier ≠ .interpreted ↔
      entry.interprets = true ∧ (options entry.call.runtime).jitEnabled = true ∧
        (options entry.call.runtime).hotThreshold.toNat ≤
          (sinceLast LogEntry.reclaims (past ++ [entry])).countP LogEntry.interprets)
  /-- A stub is disabled at the bailout that makes up the limit of the runtime; a limit of zero counts
  as one. -/
  disables : entry.moves .disabled = true ↔
    entry.bailsNative = true ∧
      (sinceLast LogEntry.clears (past ++ [entry])).countP LogEntry.bailsNative =
        max 1 (options entry.call.runtime).bailoutLimit.toNat

namespace LogEntry

variable {entry : LogEntry}

theorem bailsNative_interpreted (route : entry.route = .interpreted) : entry.bailsNative = false := by
  simp [bailsNative, route, Route.isNative]

theorem clears_interpreted (route : entry.route = .interpreted) : entry.clears = entry.compiles := by
  simp [clears, finishesNative, route, Route.isNative]

theorem interprets_interpreted (route : entry.route = .interpreted) :
    entry.interprets = entry.answer.isOk := by
  simp [interprets, route]

theorem of_interprets (interprets : entry.interprets = true) :
    entry.route = .interpreted ∧ entry.answer.isOk = true := by
  simpa [LogEntry.interprets] using interprets

theorem of_reclaims (reclaims : entry.reclaims = true) :
    entry.route = .interpreted ∧ entry.before.stub.tier = .compiled := by
  simpa [LogEntry.reclaims] using reclaims

theorem bailsNative_native {code : CompiledStub} (route : entry.route = .native code)
    (answers : entry.answer = .ok .bailout) : entry.bailsNative = true := by
  simp [bailsNative, route, Route.isNative, answers]

theorem of_bailsNative (bails : entry.bailsNative = true) :
    (∃ code, entry.route = .native code) ∧ entry.answer = .ok .bailout := by
  rw [bailsNative, Bool.and_eq_true, decide_eq_true_eq] at bails
  refine ⟨?_, bails.2⟩
  cases route : entry.route with
  | native code => exact ⟨code, rfl⟩
  | rejected | skipped | interpreted => simp [route, Route.isNative] at bails

theorem moves_iff {tier : Tier} :
    entry.moves tier = true ↔ entry.before.stub.tier ≠ tier ∧ entry.after.stub.tier = tier := by
  simp [moves]

theorem interprets_native {code : CompiledStub} (route : entry.route = .native code) :
    entry.interprets = false := by
  simp [interprets, route]

theorem compiles_native {code : CompiledStub} (route : entry.route = .native code) :
    entry.compiles = false := by
  simp [compiles, route]

theorem reclaims_native {code : CompiledStub} (route : entry.route = .native code) :
    entry.reclaims = false := by
  simp [reclaims, route]

end LogEntry

namespace TieredStub.Recorded

variable {options : Nat → RuntimeOptions} {past : List LogEntry} {stub : TieredStub}
  {entry : LogEntry}

theorem new (program : StubProgram) (data : StubData) :
    (TieredStub.new program data).Recorded options [] where
  code := by simp [TieredStub.new]
  origin _ _ impossible := nomatch impossible
  bailouts _ _ impossible := nomatch impossible
  runs _ := rfl

/-- Of a stub without code only its runs are to be recorded. -/
theorem bare (none : stub.compiled = none) (tier : stub.tier ≠ .compiled)
    (runs : stub.tier = .interpreted → stub.interpretedRuns.toNat =
      min ((sinceLast LogEntry.reclaims past).countP LogEntry.interprets) 0xFFFFFFFF) :
    stub.Recorded options past where
  code := by simp [none, tier]
  origin _ _ some := nomatch none.symm.trans some
  bailouts _ _ some := nomatch none.symm.trans some
  runs := runs

theorem compiled_eq_none (recorded : stub.Recorded options past) (tier : stub.tier ≠ .compiled) :
    stub.compiled = none :=
  Option.not_isSome_iff_eq_none.mp fun some => tier (recorded.code.mp some)

/-- A call that comes to no outcome in either tier leaves the record as it is. -/
theorem idle (recorded : stub.Recorded options past) (route : entry.route ≠ .interpreted)
    (quiet : entry.route.isNative = true → entry.answer.isOk = false) :
    stub.Recorded options (past ++ [entry]) := by
  have compiles : entry.compiles = false := by simp [LogEntry.compiles, route]
  have reclaims : entry.reclaims = false := by simp [LogEntry.reclaims, route]
  have interprets : entry.interprets = false := by simp [LogEntry.interprets, route]
  have bails : entry.bailsNative = false := by
    rw [LogEntry.bailsNative]
    cases native : entry.route.isNative with
    | true =>
        cases answer : entry.answer with
        | ok outcome =>
            have silent := quiet native
            rw [answer] at silent
            cases silent
        | error error => rfl
    | false => rfl
  have clears : entry.clears = false := by
    rw [LogEntry.clears, compiles, LogEntry.finishesNative, Bool.false_or]
    cases native : entry.route.isNative with
    | true => simp [quiet native]
    | false => rfl
  constructor
  · exact recorded.code
  · simpa [compiles] using recorded.origin
  · simpa [sinceLast_concat, clears, bails] using recorded.bailouts
  · simpa [sinceLast_concat, reclaims, interprets] using recorded.runs

theorem taken_compiled (recorded : stub.Recorded options past) : stub.taken.compiled = none := by
  rw [taken]
  split
  · rfl
  · rename_i other
    exact recorded.compiled_eq_none other

theorem taken_runs (recorded : entry.before.stub.Recorded options past)
    (route : entry.route = .interpreted) (interpreted : entry.before.stub.taken.tier = .interpreted) :
    entry.before.stub.taken.interpretedRuns.toNat =
      min ((if entry.reclaims then [] else sinceLast LogEntry.reclaims past).countP
        LogEntry.interprets) 0xFFFFFFFF := by
  rw [taken] at interpreted ⊢
  split at interpreted
  · rename_i compiled
    simp [LogEntry.reclaims, route, compiled]
  · rename_i other
    simpa [LogEntry.reclaims, route, other] using recorded.runs interpreted

/-- The runs that the stub has been heated by are those of its time in the interpreter. -/
theorem heated_count (recorded : entry.before.stub.Recorded options past)
    (route : entry.route = .interpreted) (answers : entry.answer.isOk = true)
    (interpreted : entry.before.stub.taken.tier = .interpreted) :
    entry.before.stub.taken.heated.interpretedRuns.toNat =
      min ((sinceLast LogEntry.reclaims (past ++ [entry])).countP LogEntry.interprets) 0xFFFFFFFF := by
  have interprets : entry.interprets = true := by
    rw [LogEntry.interprets_interpreted route, answers]
  rw [heated_runs interpreted, saturatingSucc32_toNat, recorded.taken_runs route interpreted,
    sinceLast_concat, List.countP_append, List.countP_singleton, interprets, if_pos rfl]
  omega

theorem hot_iff (recorded : entry.before.stub.Recorded options past)
    (route : entry.route = .interpreted) (answers : entry.answer.isOk = true)
    (interpreted : entry.before.stub.taken.tier = .interpreted) (own : RuntimeOptions) :
    entry.before.stub.taken.heated.Hot own ↔
      own.jitEnabled = true ∧ own.hotThreshold.toNat ≤
        (sinceLast LogEntry.reclaims (past ++ [entry])).countP LogEntry.interprets := by
  have count := recorded.heated_count route answers interpreted
  have bound := own.hotThreshold.toNat_lt
  rw [Hot, heated_tier, UInt32.le_iff_toNat_le, count, and_iff_right interpreted]
  exact and_congr_right fun _ => by omega

theorem failed (recorded : entry.before.stub.Recorded options past)
    (route : entry.route = .interpreted) (answers : entry.answer.isOk = false) :
    entry.before.stub.taken.Recorded options (past ++ [entry]) := by
  have interprets : entry.interprets = false := by
    rw [LogEntry.interprets_interpreted route, answers]
  refine .bare recorded.taken_compiled (taken_tier _) fun interpreted => ?_
  rw [recorded.taken_runs route interpreted, sinceLast_concat, List.countP_append,
    List.countP_singleton, interprets]
  rfl

theorem stayed (recorded : entry.before.stub.Recorded options past)
    (route : entry.route = .interpreted) (answers : entry.answer.isOk = true) :
    entry.before.stub.taken.heated.Recorded options (past ++ [entry]) := by
  have tier := heated_tier entry.before.stub.taken
  refine .bare ?_ ?_ fun interpreted => recorded.heated_count route answers (tier ▸ interpreted)
  · rw [heated_compiled, recorded.taken_compiled]
  · rw [tier]
    exact taken_tier _

/-- With the compilation of a stub its record starts anew. -/
theorem compiledAs {owner : Nat} {code : CompiledStub} (route : entry.route = .interpreted)
    (same : entry.call.runtime = owner) (tier : entry.after.stub.tier = .compiled)
    (compiles : compileStub Helper.all (options owner).code stub.program stub.data = .ok code) :
    (stub.compiledAs owner code).Recorded options (past ++ [entry]) := by
  have compiled : entry.compiles = true := by simp [LogEntry.compiles, route, tier]
  constructor
  · simp [TieredStub.compiledAs]
  · rintro _ _ ⟨⟩
    exact ⟨⟨entry, by simp [compiled], same⟩, compiles⟩
  · rintro _ _ ⟨⟩
    rw [sinceLast_concat, LogEntry.clears_interpreted route, compiled, if_pos rfl, List.nil_append,
      List.countP_singleton, LogEntry.bailsNative_interpreted route]
    exact ⟨rfl, Nat.lt_of_lt_of_le Nat.zero_lt_one (Nat.le_max_left _ _)⟩
  · exact nofun

/-- A call that does not compile the stub, and leaves it its code, leaves the origin of the code. -/
theorem origin_concat (recorded : stub.Recorded options past) (compiles : entry.compiles = false)
    {owner : Nat} {code : CompiledStub} (compiled : stub.compiled = some (owner, code)) :
    (∃ compiling, ((past ++ [entry]).filter LogEntry.compiles).getLast? = some compiling ∧
        compiling.call.runtime = owner) ∧
      compileStub Helper.all (options owner).code stub.program stub.data = .ok code := by
  rw [List.filter_append, List.filter_cons_of_neg (Bool.eq_false_iff.mp compiles), List.filter_nil,
    List.append_nil]
  exact recorded.origin owner code compiled

section

variable {code : CompiledStub}

theorem finished (recorded : stub.Recorded options past) (tier : stub.tier = .compiled)
    (route : entry.route = .native code) {outcome : Outcome} (answers : entry.answer = .ok outcome)
    (finishes : outcome ≠ .bailout) :
    { stub with consecutiveBailouts := 0 }.Recorded options (past ++ [entry]) := by
  have clears : entry.clears = true := by
    simp [LogEntry.clears, LogEntry.finishesNative, route, Route.isNative, answers, Except.isOk,
      Except.toBool, finishes]
  have bails : entry.bailsNative = false := by
    simp [LogEntry.bailsNative, answers, finishes]
  constructor
  · exact recorded.code
  · intro owner code compiled
    exact recorded.origin_concat (LogEntry.compiles_native route) compiled
  · intro owner code compiled
    rw [sinceLast_concat, clears, if_pos rfl, List.nil_append, List.countP_singleton, bails]
    exact ⟨rfl, Nat.lt_of_lt_of_le Nat.zero_lt_one (Nat.le_max_left _ _)⟩
  · exact fun interpreted => nomatch tier.symm.trans interpreted

/-- The bailouts that count against a stub, with the one of this call. -/
theorem bailed_count (recorded : stub.Recorded options past)
    {owner : Nat} (compiled : stub.compiled = some (owner, code))
    (route : entry.route = .native code) (answers : entry.answer = .ok .bailout) :
    (sinceLast LogEntry.clears (past ++ [entry])).countP LogEntry.bailsNative =
      stub.consecutiveBailouts.toNat + 1 := by
  have bails := LogEntry.bailsNative_native route answers
  have clears : entry.clears = false := by
    simp [LogEntry.clears, LogEntry.compiles_native route, LogEntry.finishesNative, answers]
  rw [(recorded.bailouts owner code compiled).1, sinceLast_concat, clears, List.countP_append,
    List.countP_singleton, bails]
  rfl

theorem bailed (recorded : stub.Recorded options past) (tier : stub.tier = .compiled)
    {owner : Nat} (compiled : stub.compiled = some (owner, code))
    (route : entry.route = .native code) (answers : entry.answer = .ok .bailout)
    (below : stub.cooled.consecutiveBailouts < (options owner).bailoutLimit) :
    stub.cooled.Recorded options (past ++ [entry]) := by
  have count := recorded.bailed_count compiled route answers
  have bound := UInt32.lt_iff_toNat_lt.mp below
  have limit := (options owner).bailoutLimit.toNat_lt
  rw [cooled, saturatingSucc32_toNat] at bound
  constructor
  · exact recorded.code
  · intro owner code compiled
    exact recorded.origin_concat (LogEntry.compiles_native route) compiled
  · intro other code own
    cases own.symm.trans compiled
    rw [cooled, saturatingSucc32_toNat, count]
    omega
  · exact fun interpreted => nomatch tier.symm.trans interpreted

end

/-- What a call makes of a stub agrees with the calls on it, that one included. -/
theorem step (recorded : entry.before.stub.Recorded options past) (proper : entry.Proper options) :
    entry.after.stub.Recorded options (past ++ [entry]) := by
  obtain ⟨id, same, comes⟩ := proper
  generalize answers : entry.answer = answer at comes
  generalize leaves : entry.after = after at comes
  -- each ending has its rule above, but those that leave the stub alone share one
  cases comes with
  | rejected route | malformed route | faulted route =>
      refine recorded.idle (fun other => nomatch route.symm.trans other) fun _ => ?_
      rw [answers]
      rfl
  | skipped route =>
      refine recorded.idle (fun other => nomatch route.symm.trans other) fun native => ?_
      rw [LogEntry.route, route] at native
      cases native
  | failed route => exact recorded.failed route (by rw [answers]; rfl)
  | stayed route cold => exact recorded.stayed route (by rw [answers]; rfl)
  | compiled route hot compiles =>
      rw [id]
      refine compiledAs route rfl ?_ ?_
      · rw [leaves]
        rfl
      · rw [← same, heated_program, heated_data, taken_program, taken_data]
        exact compiles
  | stuck route hot fails =>
      refine bare ?_ nofun nofun
      exact (heated_compiled _).trans recorded.taken_compiled
  | finished route finishes =>
      exact recorded.finished (Execution.route_native route).2.1 route answers finishes
  | bailed route below =>
      obtain ⟨-, tier, compiled⟩ := Execution.route_native route
      exact recorded.bailed tier compiled route answers (id ▸ same ▸ below)
  | disabled route reached => exact bare rfl nofun nofun

end TieredStub.Recorded

namespace LogEntry

variable {options : Nat → RuntimeOptions} {past : List LogEntry} {entry : LogEntry}

theorem taken_interpreted
    (interpreted : entry.before.stub.tier = .interpreted ∨ entry.reclaims = true) :
    entry.before.stub.taken.tier = .interpreted := by
  rw [TieredStub.taken]
  split
  · rfl
  · rename_i other
    exact interpreted.resolve_right fun reclaims => other (of_reclaims reclaims).2

theorem native_uninterpreted {code : CompiledStub} (route : entry.route = .native code) :
    ¬ (entry.before.stub.tier = .interpreted ∨ entry.reclaims = true) := by
  rw [reclaims_native route, (Execution.route_native route).2.1]
  simp

/-- Stubs that are left to the interpreter, and disabled ones, stay so. -/
theorem Proper.settled (proper : entry.Proper options)
    (settled : entry.before.stub.tier = .interpreterOnly ∨ entry.before.stub.tier = .disabled) :
    entry.after.stub.tier = entry.before.stub.tier := by
  have uncompiled : entry.before.stub.tier ≠ .compiled := by
    rcases settled with tier | tier <;> simp [tier]
  have comes := proper.comes
  generalize entry.answer = answer at comes
  generalize entry.after = after at comes
  cases comes with
  | rejected | skipped | finished | bailed | malformed | faulted => rfl
  | failed route => exact congrArg TieredStub.tier (TieredStub.taken_eq uncompiled)
  | stayed route cold =>
      exact (TieredStub.heated_tier _).trans
        (congrArg TieredStub.tier (TieredStub.taken_eq uncompiled))
  | compiled route hot | stuck route hot => exact (TieredStub.not_hot settled _ hot).elim
  | disabled route reached => exact (uncompiled (Execution.route_native route).2.1).elim

theorem Proper.fails (proper : entry.Proper options) (error : ExecError)
    (fails : entry.answer = .error error) :
    (∃ expected found, error = .inputCount expected found) ∨ (∃ e, error = .interpreter e) ∨
      error = .code (.malformed .wrongOperandKind) ∨ error = .fault := by
  have comes := proper.comes
  generalize entry.after = after at comes
  rw [fails] at comes
  cases comes with
  | rejected => exact .inl ⟨_, _, rfl⟩
  | failed => exact .inr (.inl ⟨_, rfl⟩)
  | malformed => exact .inr (.inr (.inl rfl))
  | faulted => exact .inr (.inr (.inr rfl))

theorem Proper.native (proper : entry.Proper options)
    (recorded : entry.before.stub.Recorded options past) (code : CompiledStub)
    (route : entry.route = .native code) :
    (∃ compiling, (past.filter LogEntry.compiles).getLast? = some compiling ∧
      compiling.call.runtime = entry.call.runtime) ∧
    compileStub Helper.all (options entry.call.runtime).code entry.before.stub.program
      entry.before.stub.data = .ok code :=
  recorded.origin _ _ (proper.id ▸ (Execution.route_native route).2.2)

theorem Proper.leaves (proper : entry.Proper options)
    (recorded : entry.before.stub.Recorded options past)
    (interpreted : entry.before.stub.tier = .interpreted ∨ entry.reclaims = true) :
    entry.after.stub.tier ≠ .interpreted ↔
      entry.interprets = true ∧ (options entry.call.runtime).jitEnabled = true ∧
        (options entry.call.runtime).hotThreshold.toNat ≤
          (sinceLast LogEntry.reclaims (past ++ [entry])).countP LogEntry.interprets := by
  have tier : entry.before.stub.taken.tier = .interpreted := taken_interpreted interpreted
  obtain ⟨-, same, comes⟩ := proper
  rw [← same]
  generalize answers : entry.answer = answer at comes
  generalize entry.after = after at comes
  cases comes with
  | rejected route =>
      refine iff_of_false (fun left => left ?_) fun interprets => ?_
      · exact interpreted.resolve_right fun reclaims =>
          nomatch route.symm.trans (of_reclaims reclaims).1
      · exact nomatch route.symm.trans (of_interprets interprets.1).1
  | skipped route =>
      rcases interpreted with tier | reclaims
      · exact nomatch (Execution.route_skipped route).symm.trans tier
      · exact nomatch route.symm.trans (of_reclaims reclaims).1
  | failed route =>
      refine iff_of_false (fun left => left tier) fun interprets => ?_
      have answered := (of_interprets interprets.1).2
      rw [answers] at answered
      cases answered
  | stayed route cold =>
      rw [recorded.hot_iff route (by rw [answers]; rfl) tier] at cold
      refine iff_of_false (fun left => left ?_) fun interprets => cold interprets.2
      exact (TieredStub.heated_tier _).trans tier
  | compiled route hot | stuck route hot =>
      have answered : entry.answer.isOk = true := by rw [answers]; rfl
      rw [recorded.hot_iff route answered tier] at hot
      exact iff_of_true nofun ⟨(interprets_interpreted route).trans answered, hot⟩
  | finished route | bailed route | disabled route | malformed route | faulted route =>
      exact (native_uninterpreted route interpreted).elim

theorem Proper.disables (proper : entry.Proper options)
    (recorded : entry.before.stub.Recorded options past) :
    entry.moves .disabled = true ↔
      entry.bailsNative = true ∧
        (sinceLast LogEntry.clears (past ++ [entry])).countP LogEntry.bailsNative =
          max 1 (options entry.call.runtime).bailoutLimit.toNat := by
  obtain ⟨id, same, comes⟩ := proper
  rw [← same, moves_iff]
  generalize answers : entry.answer = answer at comes
  generalize entry.after = after at comes
  cases comes with
  | rejected route | malformed route | faulted route =>
      exact iff_of_false (fun moved => moved.1 moved.2) fun bails =>
        nomatch answers.symm.trans (of_bailsNative bails.1).2
  | skipped route =>
      refine iff_of_false (fun moved => moved.1 moved.2) fun bails => ?_
      obtain ⟨code, native⟩ := (of_bailsNative bails.1).1
      exact nomatch route.symm.trans native
  | failed route =>
      exact iff_of_false (fun moved => TieredStub.taken_enabled moved.1 moved.2) fun bails =>
        nomatch (bailsNative_interpreted route).symm.trans bails.1
  | stayed route cold =>
      refine iff_of_false (fun moved => TieredStub.taken_enabled moved.1 ?_) fun bails =>
        nomatch (bailsNative_interpreted route).symm.trans bails.1
      exact (TieredStub.heated_tier _).symm.trans moved.2
  | compiled route | stuck route =>
      exact iff_of_false (fun moved => nomatch moved.2) fun bails =>
        nomatch (bailsNative_interpreted route).symm.trans bails.1
  | finished route finishes =>
      refine iff_of_false (fun moved => moved.1 moved.2) fun bails => ?_
      cases answers.symm.trans (of_bailsNative bails.1).2
      exact finishes rfl
  | bailed route below =>
      obtain ⟨-, tier, compiled⟩ := Execution.route_native route
      have count := recorded.bailed_count compiled route answers
      have bound := UInt32.lt_iff_toNat_lt.mp below
      have limit := entry.before.runtime.options.bailoutLimit.toNat_lt
      rw [TieredStub.cooled, saturatingSucc32_toNat] at bound
      refine iff_of_false (fun moved => moved.1 moved.2) fun bails => ?_
      omega
  | disabled route reached =>
      obtain ⟨-, tier, compiled⟩ := Execution.route_native route
      have count := recorded.bailed_count compiled route answers
      have before := (recorded.bailouts _ _ compiled).2
      have bound := UInt32.le_iff_toNat_le.mp reached
      rw [TieredStub.cooled, saturatingSucc32_toNat] at bound
      rw [id, ← same] at before
      refine iff_of_true ⟨?_, rfl⟩ ⟨bailsNative_native route answers, ?_⟩
      · rw [tier]
        exact nofun
      · -- the count was below the limit before the call, and has reached it with the call
        omega

end LogEntry

namespace Fleet

variable {options : Nat → RuntimeOptions} {stubs : Nat → StubProgram × StubData} {fleet : Fleet}

theorem Sound.lawful (sound : fleet.Sound options stubs) {past : List LogEntry} (call : Call)
    (recorded : (fleet.stubs call.stub).Recorded options past) :
    (fleet.entry call).Lawful options past where
  rejected differs := by
    have runs := Execution.run_inputCount _ differs
    exact ⟨congrArg Prod.fst runs, congrArg Prod.snd runs⟩
  fails := (sound.proper call).fails
  native := (sound.proper call).native recorded
  leaves := (sound.proper call).leaves recorded
  disables := (sound.proper call).disables recorded

/-- A stub that is left to the interpreter, or disabled, stays so whatever is called. -/
theorem Sound.settled (sound : fleet.Sound options stubs) {s : Nat}
    (settled : (fleet.stubs s).tier = .interpreterOnly ∨ (fleet.stubs s).tier = .disabled)
    (calls : List Call) : ((fleet.after calls).stubs s).tier = (fleet.stubs s).tier := by
  induction calls generalizing fleet with
  | nil => rfl
  | cons call rest ih =>
      have kept : ((fleet.call call).stubs s).tier = (fleet.stubs s).tier := by
        by_cases own : s = call.stub
        · subst own
          rw [call_stub]
          exact (sound.proper call).settled settled
        · rw [call_other_stub own]
      rw [← kept] at settled ⊢
      exact ih (sound.call call) settled

theorem recorded (options : Nat → RuntimeOptions) (stubs : Nat → StubProgram × StubData)
    (history : List Call) (s : Nat) :
    (((start options stubs).after history).stubs s).Recorded options
      (((start options stubs).log history).filter fun entry => entry.call.stub = s) := by
  refine own_log_after (fun fleet => fleet.stubs s) (fun call => call.stub = s)
    (P := fun past stub => stub.Recorded options past) ?_ ?_ (.new _ _) history
  · intro fleet call other
    exact call_other_stub fun own => of_decide_eq_false other own.symm
  · intro past fleet call sound own recorded
    cases of_decide_eq_true own
    rw [call_stub]
    exact recorded.step (sound.proper call)

end Fleet

/-- After any history of calls, of any runtimes on any stubs, a stub is what the calls on it have
made of it; the next call on it does as they tell; and once it is left to the interpreter, or
disabled, it stays so. -/
theorem tiers_follow_history (options : Nat → RuntimeOptions)
    (stubs : Nat → StubProgram × StubData) (history : List Call) (s : Nat) :
    let fleet := (Fleet.start options stubs).after history
    let past := ((Fleet.start options stubs).log history).filter fun entry => entry.call.stub = s
    (fleet.stubs s).Recorded options past ∧
    (∀ call : Call, call.stub = s → (fleet.entry call).Lawful options past) ∧
    ((fleet.stubs s).tier = .interpreterOnly ∨ (fleet.stubs s).tier = .disabled →
      ∀ later : List Call, ((fleet.after later).stubs s).tier = (fleet.stubs s).tier) := by
  intro fleet past
  have sound : fleet.Sound options stubs := Fleet.Sound.start.after history
  have recorded : (fleet.stubs s).Recorded options past := Fleet.recorded options stubs history s
  refine ⟨recorded, ?_, sound.settled⟩
  rintro call rfl
  exact sound.lawful call recorded

theorem tiers_follow_history_to_disabled :
    (Sample.eager.log Sample.takeover).map LogEntry.compiles = [true, true, false] ∧
      ((Sample.eager.after Sample.takeover).stubs 0).tier = .disabled ∧
      ∀ later : List Call,
        (((Sample.eager.after Sample.takeover).after later).stubs 0).tier = .disabled := by
  have disabled : ((Sample.eager.after Sample.takeover).stubs 0).tier = .disabled := by
    decide +kernel
  refine ⟨by decide +kernel, disabled, fun later => ?_⟩
  rw [← disabled]
  exact (tiers_follow_history _ _ Sample.takeover 0).2.2 (.inr disabled) later

end InlineCache
