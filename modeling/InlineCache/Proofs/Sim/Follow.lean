import InlineCache.Proofs.Sim.Carry

/-!
Code that follows an evaluation.  Run from a machine that carries the evaluation, it ends as the
evaluation ends: it goes on with the new state, it returns, or it leaves by an exit path of the right
status.  The rules take stretches of code and of evaluation from the front, one at a time.
-/

namespace InlineCache

/-- The exit that compiled code takes when an evaluation stops so. -/
def Stop.exit? : Stop → Option ExitStatus
  | .outcome .bailout => some .bailout
  | .outcome .exception => some .exception
  | .error (.malformed (.notANumber _ _)) => some .malformed
  | _ => none

/-- The code so far leads to an exit path. -/
def Leaves {trusted : Bool} (setting : Setting trusted) (status : ExitStatus) (context : Context)
    (state : Assembler) : Prop :=
  ∃ path ∈ state.exits, path.status = status ∧
    ∃ m, state.buffer.flow setting.entry setting.origin = .running (some path.label) m ∧
      m.context = context

/-- The code so far leads to where the evaluation has got. -/
def Ends {trusted : Bool} (setting : Setting trusted) (state : Assembler) :
    Except Stop Unit × EvalState → Prop
  | (.ok (), s) => ∃ m, Carries setting s .none none state m
  | (.error (.outcome (.returned v)), s) =>
      ∃ m, state.buffer.flow setting.entry setting.origin = .exited .returned m ∧
        m.output = v.bits ∧ m.context = s.context
  | (.error (.outcome .unsupportedOp), _) => False
  | (.error stop, s) => ∀ status, stop.exit? = some status → Leaves setting status s.context state

theorem Leaves.grows {trusted : Bool} {setting : Setting trusted} {status : ExitStatus}
    {context : Context} {a b : Assembler}
    (leaves : Leaves setting status context a) (grows : a.Grows b) (sound : b.Sound) :
    Leaves setting status context b := by
  obtain ⟨path, listed, same, m, flow, kept⟩ := leaves
  obtain ⟨rest, code⟩ := grows.code
  have listedLater := grows.mem_exits listed
  refine ⟨path, listedLater, same, m, ?_, kept⟩
  rw [CodeBuffer.flow, ← code, List.foldl_append]
  rw [CodeBuffer.flow] at flow
  rw [flow]
  refine Flow.foldl_pending _ _ fun bound => sound.unbound path listedLater ?_
  rw [← code]
  exact List.mem_append_right _ bound

theorem Leaves.ends {trusted : Bool} {setting : Setting trusted} {status : ExitStatus} {s : EvalState}
    {state : Assembler}
    (leaves : Leaves setting status s.context state) {stop : Stop} (exit : stop.exit? = some status) :
    Ends setting state (.error stop, s) := by
  have left : ∀ other, stop.exit? = some other → Leaves setting other s.context state := by
    intro other same
    cases exit.symm.trans same
    exact leaves
  cases stop with
  | error error => exact left
  | outcome outcome => cases outcome <;> first | exact left | cases exit

/-- The code ends as the evaluation does. -/
def Follows {trusted : Bool} (setting : Setting trusted) (s : EvalState) (facts : Facts)
    (code : Asm Unit) (result : Except Stop Unit × EvalState) : Prop :=
  ∀ state m after, Carries setting s facts none state m → code.Runs state () after → after.Sound →
    Ends setting after result

namespace Follows

variable {trusted : Bool} {setting : Setting trusted} {s : EvalState} {facts : Facts} {window : Option Window}
  {held : List (Register × UInt64)} {own : List (Source × UInt64)}
  {paths : List (Label × ExitStatus)} {result : Except Stop Unit × EvalState} {code : Asm Unit}

theorem done : Follows setting s ⟨none, held, own, paths⟩ (pure ()) (.ok (), s) := by
  intro state m after carries runs _
  obtain ⟨-, rfl⟩ := Asm.runs_pure.mp runs
  exact ⟨m, carries.clear⟩

/-- Nothing is asked of code whose evaluation fails for another reason than a number that is none. -/
theorem fails {error : EvalError} (other : (Stop.error error).exit? = none) (t : EvalState) :
    Follows setting s facts code (.error (.error error), t) := by
  intro _ _ _ _ _ _ status exit
  cases other.symm.trans exit

theorem useValueReg {id : OperandId} {v : Value} {next : Register → Asm Unit}
    (stores : s.Stores id.toNat (.boxed v))
    (rest : ∀ reg, Follows setting s ⟨window, (reg, v.bits) :: held, own, paths⟩ (next reg) result) :
    Follows setting s ⟨window, held, own, paths⟩ (Asm.useValueReg id >>= next) result := by
  intro state m after carries runs sound
  obtain ⟨reg, middle, uses, runs⟩ := Asm.runs_bind.mp runs
  obtain ⟨balanced, -⟩ := Asm.useValueReg_balanced uses carries.balanced
  obtain ⟨register, pinned⟩ := Asm.useValueReg_pinned uses carries.balanced
  obtain ⟨-, fetched, fetches, -⟩ := Asm.runs_useValueReg uses
  obtain ⟨form, word⟩ := carries.located stores fetches.somewhere
  obtain ⟨n, keeps, value⟩ := Asm.useValueReg_keeps uses carries.balanced carries.reached form
  have kept := (carries.of_keeps keeps balanced (Asm.Tidy.useValueReg.grows uses)).grasp stores
    register pinned
  rw [value.trans word] at kept
  exact rest reg _ _ _ kept runs sound

theorem useRegister {id : OperandId} {stored : OperandValue} {next : Register → Asm Unit}
    (stores : s.Stores id.toNat stored) {type : PayloadType} (form : stored.form = .payload type)
    (rest : ∀ reg, Follows setting s ⟨window, (reg, stored.word) :: held, own, paths⟩ (next reg)
      result) :
    Follows setting s ⟨window, held, own, paths⟩ (Asm.useRegister id >>= next) result := by
  intro state m after carries runs sound
  obtain ⟨reg, middle, uses, runs⟩ := Asm.runs_bind.mp runs
  obtain ⟨balanced, -⟩ := Asm.useRegister_balanced uses carries.balanced
  obtain ⟨register, pinned⟩ := Asm.useRegister_pinned uses carries.balanced
  obtain ⟨-, _, fetched, fetches, -⟩ := Asm.runs_useRegister uses
  obtain ⟨formed, word⟩ := carries.located stores fetches.somewhere
  obtain ⟨n, keeps, value⟩ :=
    Asm.useRegister_keeps uses carries.balanced carries.reached (formed.trans (congrArg some form))
  have kept := (carries.of_keeps keeps balanced (Asm.Tidy.useRegister.grows uses)).grasp stores
    register pinned
  rw [value.trans word] at kept
  exact rest reg _ _ _ kept runs sound

theorem allocateRegister {next : Register → Asm Unit}
    (rest : ∀ reg w, Follows setting s ⟨window, held, (.reg reg, w) :: own, paths⟩ (next reg)
      result) :
    Follows setting s ⟨window, held, own, paths⟩ (Asm.allocateRegister >>= next) result := by
  intro state m after carries runs sound
  obtain ⟨reg, middle, allocates, runs⟩ := Asm.runs_bind.mp runs
  obtain ⟨n, keeps, balanced, scratch, pinned, unpinned⟩ :=
    Asm.allocateRegister_keeps allocates carries.balanced carries.reached
  have other (w : UInt64) : (.reg reg, w) ∉ own := by
    intro member
    rw [(carries.scratch reg w member).2] at unpinned
    cases unpinned
  have kept := carries.of_keeps keeps balanced (Asm.Tidy.allocateRegister.grows allocates)
  exact rest reg _ _ _ _ (kept.grab scratch pinned other) runs sound

theorem releaseSource (front : List (Source × UInt64)) (source : Source)
    {back : List (Source × UInt64)} {w : UInt64}
    (rest : Follows setting s ⟨window, held, front ++ back, paths⟩ code result) :
    Follows setting s ⟨window, held, front ++ (source, w) :: back, paths⟩
      (Asm.releaseSource source >>= fun _ => code) result := by
  intro state m after carries runs sound
  obtain ⟨_, middle, releases, runs⟩ := Asm.runs_bind.mp runs
  cases source with
  | imm word =>
      obtain ⟨-, rfl⟩ := Asm.runs_pure.mp releases
      exact rest _ _ _ (carries.forget rfl (fun _ member => member)
        ((List.sublist_cons_self _ _).append_left _) fun _ member => member) runs sound
  | reg reg =>
      have released := Asm.runs_releaseRegister.mp releases
      rw [if_pos (carries.scratch reg w (List.mem_append_right _ (.head _))).1] at released
      subst released
      exact rest _ _ _ carries.drop runs sound

theorem exitPath {status : ExitStatus} {next : Label → Asm Unit}
    (rest : ∀ label, Follows setting s ⟨window, held, own, (label, status) :: paths⟩ (next label)
      result) :
    Follows setting s ⟨window, held, own, paths⟩ (Asm.exitPath status >>= next) result := by
  intro state m after carries runs sound
  obtain ⟨label, middle, asks, runs⟩ := Asm.runs_bind.mp runs
  exact rest label _ _ _ ((carries.asks asks).aim (Asm.runs_exitPath asks).2.2.1) runs sound

/-- The two registers of a comparison are given back. -/
theorem releaseBoth {reg : Register} {source : Source} {w x : UInt64} :
    Follows setting s ⟨none, held, (.reg reg, w) :: (source, x) :: own, paths⟩
      (Asm.releaseRegister reg >>= fun _ => Asm.releaseSource source) (.ok (), s) := by
  apply releaseSource [] (.reg reg)
  rw [← bind_pure (Asm.releaseSource source)]
  exact releaseSource [] source done

/-- An instruction that writes a scratch register. -/
theorem write {inst : Inst} {reg : Register} {old : UInt64} (new : UInt64)
    (exec : ∀ m, (Facts.mk window held ((.reg reg, old) :: own) paths).Hold m →
      m.context = s.context →
      ∃ reads, inst.exec setting.entry m = .next { m.setReg reg new with reads })
    (rest : Follows setting s ⟨window, held, (.reg reg, new) :: own, paths⟩ code result) :
    Follows setting s ⟨window, held, (.reg reg, old) :: own, paths⟩
      (Asm.emit inst >>= fun _ => code) result := by
  intro state m after carries runs sound
  obtain ⟨_, middle, emits, runs⟩ := Asm.runs_bind.mp runs
  cases Asm.runs_emit.mp emits
  obtain ⟨reads, next⟩ := exec m carries.hold carries.context
  exact rest _ _ _ (carries.set (carries.reached.emitted next) rfl fun _ member => member) runs sound

theorem put {inst : Inst} {reg : Register} {old : UInt64} (new : UInt64)
    (exec : ∀ m, (Facts.mk window held ((.reg reg, old) :: own) paths).Hold m →
      inst.exec setting.entry m = .next (m.setReg reg new))
    (rest : Follows setting s ⟨window, held, (.reg reg, new) :: own, paths⟩ code result) :
    Follows setting s ⟨window, held, (.reg reg, old) :: own, paths⟩
      (Asm.emit inst >>= fun _ => code) result :=
  write new (fun m hold _ => ⟨m.reads, exec m hold⟩) rest

/-- The machine that a taken branch leaves behind looks for the label of an exit path. -/
theorem leaves_of_branch {state after : Assembler} {m n : Machine} {inst : Inst} {fail : Label}
    {status : ExitStatus} {stop : Stop} {t : EvalState}
    (carries : Carries setting s facts none state m) (listed : (fail, status) ∈ facts.paths)
    (jumps : inst.exec setting.entry m = .jump fail n) (context : n.context = t.context)
    (grows : (state.emitted inst).Grows after) (sound : after.Sound)
    (exit : stop.exit? = some status) : Ends setting after (.error stop, t) := by
  obtain ⟨path, member, label, same⟩ := carries.paths _ listed
  refine Leaves.ends (Leaves.grows (a := state.emitted inst)
    ⟨path, member, same, n, ?_, context⟩ grows sound) exit
  rw [Assembler.buffer_emitted, CodeBuffer.flow_emit, carries.led, Flow.step_running, jumps, label]
  rfl

/-- A branch to an exit path, taken when the evaluation stops; the code after it may bind labels that
were asked for before. -/
theorem branchWithin {inst : Inst} {fail : Label} {status : ExitStatus} (reserved : List Label)
    (taken : Bool) (listed : (fail, status) ∈ facts.paths)
    (exec : ∀ m, facts.Hold m → m.context = s.context →
      ∃ reads, inst.exec setting.entry m = .branch taken fail { m with reads })
    (tidy : Asm.Tidy reserved code)
    (stops : taken = true → ∃ stop, result = (.error stop, s) ∧ stop.exit? = some status)
    (rest : taken = false → Follows setting s facts code result) :
    Follows setting s facts (Asm.emit inst >>= fun _ => code) result := by
  intro state m after carries runs sound
  obtain ⟨_, middle, emits, runs⟩ := Asm.runs_bind.mp runs
  cases Asm.runs_emit.mp emits
  obtain ⟨reads, effect⟩ := exec m carries.hold carries.context
  cases taken with
  | true =>
      obtain ⟨stop, rfl, exit⟩ := stops rfl
      exact leaves_of_branch carries listed effect carries.context (tidy _ _ _ runs).1 sound exit
  | false =>
      exact rest rfl _ _ _
        (carries.still (carries.reached.emitted effect) rfl fun _ member => member) runs sound

theorem branch {inst : Inst} {fail : Label} {status : ExitStatus} (taken : Bool)
    (listed : (fail, status) ∈ facts.paths)
    (exec : ∀ m, facts.Hold m → m.context = s.context →
      ∃ reads, inst.exec setting.entry m = .branch taken fail { m with reads })
    (tidy : Asm.Tidy [] code)
    (stops : taken = true → ∃ stop, result = (.error stop, s) ∧ stop.exit? = some status)
    (rest : taken = false → Follows setting s facts code result) :
    Follows setting s facts (Asm.emit inst >>= fun _ => code) result :=
  branchWithin [] taken listed exec tidy stops rest

/-- A branch that is taken when a guard does not pass. -/
theorem guardBranch {inst : Inst} {fail : Label} (passed : Bool)
    (listed : (fail, .bailout) ∈ facts.paths)
    (exec : ∀ m, facts.Hold m → m.context = s.context →
      ∃ reads, inst.exec setting.entry m = .branch (!passed) fail { m with reads })
    (tidy : Asm.Tidy [] code) (rest : Follows setting s facts code (.ok (), s)) :
    Follows setting s facts (Asm.emit inst >>= fun _ => code) (Eval.guardThat passed s) := by
  apply branch (!passed) listed exec tidy
  · intro taken
    cases passed with
    | true => cases taken
    | false => exact ⟨_, rfl, rfl⟩
  · intro missed
    cases passed with
    | true => exact rest
    | false => cases missed

/-- A guard that writes what it tests to a scratch register. -/
theorem guardBranchSet {inst : Inst} {fail : Label} {reg : Register} {old : UInt64} (new : UInt64)
    (passed : Bool) (listed : (fail, .bailout) ∈ paths)
    (exec : ∀ m, (Facts.mk window held ((.reg reg, old) :: own) paths).Hold m →
      (Facts.mk window held ((.reg reg, new) :: own) paths).Hold (m.setReg reg new) →
      m.context = s.context →
      ∃ reads, inst.exec setting.entry m = .branch (!passed) fail { m.setReg reg new with reads })
    (tidy : Asm.Tidy [] code)
    (rest : Follows setting s ⟨window, held, (.reg reg, new) :: own, paths⟩ code (.ok (), s)) :
    Follows setting s ⟨window, held, (.reg reg, old) :: own, paths⟩
      (Asm.emit inst >>= fun _ => code) (Eval.guardThat passed s) := by
  intro state m after carries runs sound
  obtain ⟨_, middle, emits, runs⟩ := Asm.runs_bind.mp runs
  cases Asm.runs_emit.mp emits
  obtain ⟨reads, effect⟩ := exec m carries.hold (carries.hold_set new) carries.context
  cases passed with
  | false =>
      show Ends setting after (.error (.outcome .bailout), s)
      exact leaves_of_branch carries listed effect carries.context (tidy.grows runs) sound rfl
  | true =>
      exact rest _ _ _
        (carries.set (carries.reached.emitted effect) rfl fun _ member => member) runs sound

theorem newLabel {next : Label → Asm Unit}
    (rest : ∀ label, Follows setting s facts (next label) result) :
    Follows setting s facts (Asm.newLabel >>= next) result := by
  intro state m after carries runs sound
  obtain ⟨label, middle, asks, runs⟩ := Asm.runs_bind.mp runs
  cases asks
  have kept : Carries setting s facts none { state with buffer := state.buffer.newLabel.2 } m :=
    carries.still carries.led rfl fun _ member => member
  exact rest _ _ _ _ kept runs sound

/-- A branch to an exit path that an earlier branch avoids; after it the two ways join. -/
theorem branchUnless {avoid leave : Inst} {ok fail : Label} {status : ExitStatus}
    (avoided taken : Bool) (listed : (fail, status) ∈ paths)
    (execAvoid : ∀ m, (Facts.mk none held own paths).Hold m → m.context = s.context →
      ∃ reads, avoid.exec setting.entry m = .branch avoided ok { m with reads })
    (execLeave : ∀ m, (Facts.mk none held own paths).Hold m → m.context = s.context →
      ∃ reads, leave.exec setting.entry m = .branch taken fail { m with reads })
    (plain : leave ≠ .bind ok)
    (stops : avoided = false → taken = true →
      ∃ stop, result = (.error stop, s) ∧ stop.exit? = some status)
    (rest : avoided = true ∨ taken = false → result = (.ok (), s)) :
    Follows setting s ⟨none, held, own, paths⟩
      (Asm.emit avoid >>= fun _ => Asm.emit leave >>= fun _ => Asm.emit (.bind ok)) result := by
  intro state m after carries runs sound
  simp only [Asm.runs_bind, Asm.runs_emit] at runs
  obtain ⟨_, _, rfl, _, _, rfl, rfl⟩ := runs
  obtain ⟨reads, effect⟩ := execAvoid m carries.hold carries.context
  cases avoided with
  | true =>
      rw [rest (.inl rfl)]
      have jumped : Carries setting s _ (some ok) (state.emitted avoid) { m with reads } :=
        carries.still (carries.led_emitted effect) rfl fun _ member => member
      exact ⟨_, ((jumped.skip leave plain).land).clear⟩
  | false =>
      have went := carries.still (carries.reached.emitted effect) rfl fun _ member => member
      obtain ⟨reads, effect⟩ := execLeave _ went.hold went.context
      cases taken with
      | true =>
          obtain ⟨stop, rfl, exit⟩ := stops rfl rfl
          exact leaves_of_branch went listed effect went.context (.emitted _ _) sound exit
      | false =>
          rw [rest (.inr rfl)]
          have stayed := went.still (went.reached.emitted effect) rfl fun _ member => member
          exact ⟨_, (stayed.still (stayed.reached.emitted rfl) rfl fun _ member => member).clear⟩

/-- The output is stored last. -/
theorem storeOutput {src : Register} {v : Value}
    (holds : ∀ m, (Facts.mk none held own paths).Hold m → m.regs src = v.bits) :
    Follows setting s ⟨none, held, own, paths⟩ (Asm.emit (.storeOutput src))
      (.ok (), { s with output := v }) := by
  intro state m after carries runs _
  cases Asm.runs_emit.mp runs
  have clear := carries.clear
  refine ⟨{ m with output := m.regs src },
    { clear with
      led := carries.reached.emitted rfl
      output := holds m carries.hold
      shown := fun i content found => carries.shown i content
        ((Allocation.content_congr _ i rfl rfl rfl).symm.trans found)
      hold := ⟨fun _ member => (nomatch member), fun _ member => (nomatch member)⟩ }⟩

/-- A payload is boxed to be the output. -/
theorem boxToOutput {src : Register} {type : PayloadType} (stored : OperandValue) {v : Value}
    (form : stored.form = .payload type) (boxed : stored.boxed? = some v)
    (holds : ∀ m, (Facts.mk none held own paths).Hold m → m.regs src = stored.word) :
    Follows setting s ⟨none, held, own, paths⟩ (Asm.boxToOutput src type)
      (.ok (), { s with output := v }) := by
  apply allocateRegister
  intro reg junk
  apply put v.bits
  · intro m hold
    rw [Inst.exec, holds m ⟨hold.held, fun fact member => hold.own fact (.tail _ member)⟩,
      stored.box_word form boxed]
  · exact storeOutput fun m hold => hold.scratch (.head _)

end Follows

end InlineCache
