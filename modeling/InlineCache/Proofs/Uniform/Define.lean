import InlineCache.Proofs.Sim.Inputs
import InlineCache.Proofs.Uniform.Fetch

/-!
Taking registers for scratch work and for operands that are to be defined, and what comes before the
first operation.
-/

namespace InlineCache

namespace View

theorem contents_expect (view : View) (i : Nat) (type : PayloadType) :
    (view.expect i type).contents = view.contents := by
  unfold expect
  cases type.valueType? <;> rfl

theorem known_expect (view : View) (i j : Nat) (type : PayloadType) :
    (view.expect i type).known j =
      if j = i then type.valueType?.or (view.known j) else view.known j := by
  unfold expect
  cases type.valueType? with
  | none => rw [Option.elim_none, Option.none_or, ite_self]
  | some tag => rfl

theorem seen_expect (view : View) (i : Nat) (type : PayloadType) :
    (view.expect i type).output = view.output ∧ (view.expect i type).context = view.context ∧
      (view.expect i type).reads = view.reads := by
  unfold expect
  cases type.valueType? <;> exact ⟨rfl, rfl, rfl⟩

end View

namespace Shows

variable {entry : Entry} {origin : Machine} {view : View} {window : Option Window}
  {held : List (Nat × Register)} {own : List (Source × UInt64)}
  {float : Option (FloatRegister × Option Double)} {paths : List (Label × ExitStatus)}
  {labels : List Label} {a b : Assembler} {m n : Machine} {id : OperandId} {reg : Register}
  {number : FloatRegister}

/-- The operand that is to be defined gets a register. -/
theorem definePayloadReg {type : PayloadType}
    (shows : Shows view ⟨none, held, own, none, paths, labels⟩ a m)
    (reached : a.Reaches entry origin m) (runs : (Asm.definePayloadReg id type).Runs a reg b) :
    ∃ n, Shows (view.expect id.toNat type)
        ⟨some ⟨id.toNat, reg, type, none⟩, held, own, none, paths, labels⟩ b n ∧
      b.Reaches entry origin n := by
  obtain ⟨config, balanced⟩ := shows.balanced
  have grows := Asm.Tidy.definePayloadReg.grows runs
  obtain ⟨n, opens⟩ := Asm.definePayloadReg_opens runs balanced reached
  have fresh : view.contents id.toNat = none := by
    rw [Option.eq_none_iff_forall_ne_some]
    intro content held
    cases (shows.defined _ content held).symm.trans opens.undefined
  obtain ⟨output, context, reads⟩ := view.seen_expect id.toNat type
  refine ⟨n, ?_, opens.reached⟩
  exact
    { balanced := ⟨config, Asm.definePayloadReg_balanced runs balanced⟩
      shown := by
        intro i content found
        by_cases own : i = id.toNat
        · exact .inr ⟨_, rfl, own.symm⟩
        · rw [View.contents_expect]
          refine (shows.shown i content ((opens.contents i own).symm.trans found)).imp_right ?_
          rintro ⟨_, ⟨⟩, -⟩
      known := by
        intro i
        rw [View.known_expect, ← shows.known i]
        exact opens.known i
      defined := by
        intro i content found
        rw [View.contents_expect] at found
        exact opens.defined i (shows.defined i content found)
      single := by
        intro i
        rw [View.known_expect]
        split
        · cases tagged : type.valueType? with
          | none => exact shows.single i
          | some tag =>
              intro double
              exact type.valueType?_ne_double (tagged.trans double)
        · exact shows.single i
      formed := fun i content found => shows.formed i content (View.contents_expect .. ▸ found)
      output := opens.alike.output.trans (shows.output.trans output.symm)
      context := opens.alike.context.trans (shows.context.trans context.symm)
      reads := opens.alike.reads.trans (shows.reads.trans reads.symm)
      opened := by
        rintro _ ⟨⟩
        refine ⟨opens.place, opens.taken, ?_, ?_⟩
        · exact fun _ impossible => absurd impossible.symm (Option.some_ne_none _)
        · rw [View.contents_expect]
          exact fresh
      held := by
        intro note member
        obtain ⟨pinned, located, -⟩ := shows.held note member
        refine ⟨opens.pinned _ pinned, opens.fixed _ _ located pinned ▸ located, ?_⟩
        rintro _ ⟨⟩
        exact (opens.elsewhere _ _ located).symm
      own := Machine.sources_congr shows.own fun other w member =>
        opens.regs other (shows.scratch other w member).2
      scratch := by
        intro other w member
        obtain ⟨scratch, pinned⟩ := shows.scratch other w member
        exact ⟨opens.scratch _ scratch, opens.pinned _ pinned⟩
      apart := shows.apart
      float := fun _ _ impossible => absurd impossible.symm (Option.some_ne_none _)
      paths := by
        intro note member
        obtain ⟨path, listed, same⟩ := shows.paths note member
        exact ⟨path, grows.mem_exits listed, same⟩
      given := fun label member => Nat.lt_of_lt_of_le (shows.given label member) grows.labels
      distinct := shows.distinct }

/-- The register of an operand is written, and with that the operand is defined. -/
theorem close {result : Nat} {type : PayloadType} {word : UInt64}
    (shows : Shows view ⟨some ⟨result, reg, type, some word⟩, held, own, float, paths, labels⟩ a m) :
    Shows (view.store result ⟨.payload type, word⟩) .none a m := by
  obtain ⟨config, balanced⟩ := shows.balanced
  obtain ⟨place, -, written, -⟩ := shows.opened _ rfl
  refine .idle shows.balanced ?shown shows.known ?defined shows.single
    (shows.formed_store Form.noConfusion) shows.output shows.context shows.reads
  case shown =>
    intro i content found
    rw [View.contents_store]
    split
    · rename_i own
      rw [own, Allocation.content_of_place place] at found
      refine Eq.trans ?_ found
      rw [Location.content?, Machine.wordAt, written word rfl]
      rfl
    · rename_i other
      refine (shows.shown i content found).resolve_right ?_
      rintro ⟨_, ⟨⟩, same⟩
      exact other same.symm
  case defined =>
    intro i content found
    rw [View.contents_store] at found
    split at found
    · rename_i own
      exact own ▸ balanced.placed result (by rw [place]; exact Location.noConfusion)
    · exact shows.defined i content found

theorem allocateRegister (shows : Shows view ⟨window, held, own, none, paths, labels⟩ a m)
    (reached : a.Reaches entry origin m) (runs : Asm.allocateRegister.Runs a reg b) :
    ∃ n, Shows view ⟨window, held, (.reg reg, n.regs reg) :: own, none, paths, labels⟩ b n ∧
      b.Reaches entry origin n := by
  obtain ⟨config, balanced⟩ := shows.balanced
  obtain ⟨n, keeps, after, scratch, pinned, unpinned⟩ :=
    Asm.allocateRegister_keeps runs balanced reached
  have other (w : UInt64) : (.reg reg, w) ∉ own := by
    intro member
    rw [(shows.scratch reg w member).2] at unpinned
    cases unpinned
  have kept := shows.of_keeps keeps ⟨config, after⟩ (Asm.Tidy.allocateRegister.grows runs)
  exact ⟨n, kept.grab scratch pinned other, keeps.reached⟩

theorem allocateFloat (shows : Shows view ⟨window, held, own, none, paths, labels⟩ a m)
    (reached : a.Reaches entry origin m) (runs : Asm.allocateFloat.Runs a number b) :
    ∃ n, Shows view ⟨window, held, own, some (number, none), paths, labels⟩ b n ∧
      b.Reaches entry origin n := by
  obtain ⟨config, balanced⟩ := shows.balanced
  obtain ⟨n, keeps, after, scratch⟩ := Asm.allocateFloat_keeps runs balanced reached
  have kept := shows.of_keeps keeps ⟨config, after⟩ (Asm.Tidy.allocateFloat.grows runs)
  refine ⟨n, { kept with float := ?_ }, keeps.reached⟩
  rintro _ _ ⟨⟩
  exact ⟨scratch, fun _ impossible => absurd impossible.symm (Option.some_ne_none _)⟩

theorem releaseFloat (shows : Shows view ⟨window, held, own, float, paths, labels⟩ a m)
    (reached : a.Reaches entry origin m) (runs : (Asm.releaseFloat number).Runs a () b) :
    ∃ n, Shows view ⟨window, held, own, none, paths, labels⟩ b n ∧ b.Reaches entry origin n := by
  obtain ⟨config, balanced⟩ := shows.balanced
  obtain ⟨n, keeps, after⟩ := Asm.releaseFloat_keeps runs balanced reached
  have less : Shows view ⟨window, held, own, none, paths, labels⟩ a m :=
    shows.forget rfl (fun _ member => member) (.refl _) (.inr rfl) (fun _ member => member) (.refl _)
  exact ⟨n, less.of_keeps keeps ⟨config, after⟩ (Asm.Tidy.releaseFloat.grows runs), keeps.reached⟩

/-- The accounts of float registers change, and the code that goes with it is not carried out. -/
theorem account {less : Option (FloatRegister × Option Double)}
    (shows : Shows view ⟨window, held, own, float, paths, labels⟩ a m)
    (balanced : ∃ config, b.allocation.Balanced config [])
    (operands : b.allocation.operands = a.allocation.operands)
    (pinned : b.allocation.pinned = a.allocation.pinned)
    (scratch : b.allocation.scratch = a.allocation.scratch)
    (exits : b.exits = a.exits) (count : b.buffer.labels = a.buffer.labels)
    (numbers : ∀ reg number, less = some (reg, number) →
      b.allocation.scratchFloats.contains reg.index = true ∧
        ∀ d, number = some d → m.floats reg = d) :
    Shows view ⟨window, held, own, less, paths, labels⟩ b m := by
  have place (i : Nat) : b.allocation.place i = a.allocation.place i := by
    simp only [Allocation.place, operands]
  exact
    { shows with
      balanced
      shown := fun i content found => shows.shown i content
        ((congrArg (·.content? m) (place i)).symm.trans found)
      known := fun i => (by simp only [Allocation.known, operands] :
        b.allocation.known i = a.allocation.known i).trans (shows.known i)
      defined := fun i content found => (by simp only [Allocation.defined, operands] :
        b.allocation.defined i = a.allocation.defined i).trans (shows.defined i content found)
      opened := by
        intro w opens
        obtain ⟨located, held, rest⟩ := shows.opened w opens
        exact ⟨(place _).trans located, pinned ▸ held, rest⟩
      held := by
        intro note member
        obtain ⟨held, located, apart⟩ := shows.held note member
        exact ⟨pinned ▸ held, (congrArg _ (place _)).trans located, apart⟩
      scratch := scratch ▸ pinned ▸ shows.scratch
      float := numbers
      paths := exits ▸ shows.paths
      given := count ▸ shows.given }

theorem skip_allocateFloat {label : Label}
    (shows : Shows view ⟨window, held, own, float, paths, labels⟩ a m)
    (led : a.buffer.flow entry origin = .running (some label) m)
    (runs : Asm.allocateFloat.Runs a number b) :
    Shows view ⟨window, held, own, none, paths, labels⟩ b m ∧
      b.buffer.flow entry origin = .running (some label) m := by
  obtain ⟨config, balanced⟩ := shows.balanced
  obtain ⟨middle, takes, rfl⟩ := Asm.runs_allocateFloat runs
  have after := (takes.balanced balanced).holdFloat
  have forgotten {scratchFloats : RegisterSet} (reg : FloatRegister) (found : Option Double)
      (impossible : none = some (reg, found)) : scratchFloats.contains reg.index = true ∧
        ∀ d, found = some d → m.floats reg = d := absurd impossible.symm (Option.some_ne_none _)
  cases takes with
  | pool => exact ⟨shows.account ⟨config, after⟩ rfl rfl rfl rfl rfl forgotten, led⟩
  | save slot =>
      exact ⟨shows.account ⟨config, after⟩ rfl rfl rfl rfl rfl forgotten,
        CodeBuffer.flow_emit_skip led (.saveFloat number slot) Inst.noConfusion⟩
  | spill index slot _ held =>
      rw [shows.not_float] at held
      cases held

theorem skip_releaseFloat {label : Label}
    (shows : Shows view ⟨window, held, own, none, paths, labels⟩ a m)
    (led : a.buffer.flow entry origin = .running (some label) m)
    (runs : (Asm.releaseFloat number).Runs a () b) :
    Shows view ⟨window, held, own, none, paths, labels⟩ b m ∧
      b.buffer.flow entry origin = .running (some label) m := by
  obtain ⟨config, balanced⟩ := shows.balanced
  have releases := Asm.runs_releaseFloat runs
  have after := releases.balanced balanced
  cases releases with
  | other => exact ⟨shows, led⟩
  | scratch _ held returns =>
      have forgotten {scratchFloats : RegisterSet} (reg : FloatRegister) (found : Option Double)
          (impossible : none = some (reg, found)) : scratchFloats.contains reg.index = true ∧
            ∀ d, found = some d → m.floats reg = d := absurd impossible.symm (Option.some_ne_none _)
      cases returns with
      | unsaved => exact ⟨shows.account ⟨config, after⟩ rfl rfl rfl rfl rfl forgotten, led⟩
      | restore slot =>
          exact ⟨shows.account ⟨config, after⟩ rfl rfl rfl rfl rfl forgotten,
            CodeBuffer.flow_emit_skip led (.restoreFloat number slot) Inst.noConfusion⟩

/-- Operands that lose their places are looked for nowhere. -/
theorem of_sheds (shows : Shows view .none a m) (sheds : Sheds entry origin a m b n)
    (balanced : ∃ config, b.allocation.Balanced config []) : Shows view .none b n :=
  .idle balanced (fun i content found => shows.shown_idle (sheds.contents i content found))
    (fun i => (sheds.known i).trans (shows.known i))
    (fun i content found => (sheds.defined i).trans (shows.defined i content found)) shows.single
    shows.formed (sheds.alike.output.trans shows.output) (sheds.alike.context.trans shows.context)
    (sheds.alike.reads.trans shows.reads)

end Shows

end InlineCache
