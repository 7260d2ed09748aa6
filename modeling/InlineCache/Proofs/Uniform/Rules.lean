import InlineCache.Proofs.Sim.Guards
import InlineCache.Proofs.Uniform.Acts

/-!
Rules for what operations are made of: asking for operands, registers, labels and words of stub data,
and the instructions that write what was asked for.
-/

namespace InlineCache.Uniform

variable {entry : Entry} {origin : Machine} {view : View} {ι : Type} {notes : ι → Notes}
  {pending : ι → Option Label} {code : ι → Asm Unit} {inst : ι → Inst} {window : ι → Option Window}
  {held : ι → List (Nat × Register)} {own front back : ι → List (Source × UInt64)}
  {float : ι → Option (FloatRegister × Option Double)} {paths : ι → List (Label × ExitStatus)}
  {labels : ι → List Label} {id : OperandId} {reg : ι → Register} {old : ι → UInt64}

theorem useValueReg {next : ι → Register → Asm Unit}
    (apart : ∀ i w, window i = some w → w.result ≠ id.toNat)
    (rest : Uniform entry origin (view.box id.toNat)
      (fun p : ι × Register => ⟨window p.1, (id.toNat, p.2) :: held p.1, own p.1, none, paths p.1,
        labels p.1⟩)
      (fun _ => none) fun p => next p.1 p.2) :
    Uniform entry origin view
      (fun i => ⟨window i, held i, own i, none, paths i, labels i⟩) (fun _ => none)
      fun i => Asm.useValueReg id >>= next i :=
  step (fun _ => .of_tidy .useValueReg)
    (fun i _ _ _ _ shows led runs => shows.useValueReg led runs (apart i)) rest

theorem useRegister {next : ι → Register → Asm Unit}
    (apart : ∀ i w, window i = some w → w.result ≠ id.toNat)
    (rest : Uniform entry origin (view.unbox id.toNat)
      (fun p : ι × Register => ⟨window p.1, (id.toNat, p.2) :: held p.1, own p.1, none, paths p.1,
        labels p.1⟩)
      (fun _ => none) fun p => next p.1 p.2) :
    Uniform entry origin view
      (fun i => ⟨window i, held i, own i, none, paths i, labels i⟩) (fun _ => none)
      fun i => Asm.useRegister id >>= next i :=
  step (fun _ => .of_tidy .useRegister)
    (fun i _ _ _ _ shows led runs => shows.useRegister led runs (apart i)) rest

theorem definePayloadReg {type : PayloadType} {next : ι → Register → Asm Unit}
    (rest : Uniform entry origin (view.expect id.toNat type)
      (fun p : ι × Register => ⟨some ⟨id.toNat, p.2, type, none⟩, held p.1, own p.1, none, paths p.1,
        labels p.1⟩)
      (fun _ => none) fun p => next p.1 p.2) :
    Uniform entry origin view
      (fun i => ⟨none, held i, own i, none, paths i, labels i⟩) (fun _ => none)
      fun i => Asm.definePayloadReg id type >>= next i :=
  step (fun _ => .of_tidy .definePayloadReg)
    (fun _ _ _ _ _ shows led runs => shows.definePayloadReg led runs) rest

/-- What a scratch register holds when it is handed out may differ. -/
theorem allocateRegister {next : ι → Register → Asm Unit}
    (rest : Uniform entry origin view
      (fun p : ι × Register × UInt64 => ⟨window p.1, held p.1, (.reg p.2.1, p.2.2) :: own p.1, none,
        paths p.1, labels p.1⟩)
      (fun _ => none) fun p => next p.1 p.2.1) :
    Uniform entry origin view
      (fun i => ⟨window i, held i, own i, none, paths i, labels i⟩) (fun _ => none)
      fun i => Asm.allocateRegister >>= next i := by
  obtain ⟨fate, rest⟩ := rest
  have grows : Asm.Growing Asm.allocateRegister := .of_tidy .allocateRegister
  refine ⟨fate, fun i => ⟨grows.bind fun reg => (rest (i, reg, 0)).grows, ?_⟩⟩
  intro a m b shows led runs sound
  obtain ⟨reg, middle, allocates, runs⟩ := Asm.runs_bind.mp runs
  obtain ⟨n, seen, leads⟩ := shows.allocateRegister led allocates
  exact (rest (i, reg, n.regs reg)).acts _ _ _ seen leads runs sound

theorem releaseSource (front : ι → List (Source × UInt64)) {source : ι → Source} {w : ι → UInt64}
    (rest : Uniform entry origin view
      (fun i => ⟨window i, held i, front i ++ back i, float i, paths i, labels i⟩) pending code) :
    Uniform entry origin view
      (fun i => ⟨window i, held i, front i ++ (source i, w i) :: back i, float i, paths i, labels i⟩)
      pending fun i => Asm.releaseSource (source i) >>= fun _ => code i := by
  refine stretch (fun i => .of_tidy .releaseSource) ?_ rest
  intro i a m b shows led runs
  cases equation : source i with
  | imm word =>
      rw [equation] at runs
      obtain ⟨-, rfl⟩ := Asm.runs_pure.mp runs
      exact ⟨m, shows.forget rfl (fun _ member => member) ((List.sublist_cons_self _ _).append_left _)
        (.inl rfl) (fun _ member => member) (.refl _), led⟩
  | reg reg =>
      rw [equation] at runs shows
      have released := Asm.runs_releaseRegister.mp runs
      rw [if_pos (shows.scratch reg _ (List.mem_append_right _ (.head _))).1] at released
      subst released
      exact ⟨m, shows.drop, led⟩

theorem releaseRegister (front : ι → List (Source × UInt64)) {w : ι → UInt64}
    (rest : Uniform entry origin view
      (fun i => ⟨window i, held i, front i ++ back i, float i, paths i, labels i⟩) pending code) :
    Uniform entry origin view
      (fun i => ⟨window i, held i, front i ++ (.reg (reg i), w i) :: back i, float i, paths i,
        labels i⟩)
      pending fun i => Asm.releaseRegister (reg i) >>= fun _ => code i :=
  releaseSource front rest

theorem exitPath {status : ExitStatus} {next : ι → Label → Asm Unit}
    (rest : Uniform entry origin view
      (fun p : ι × Label => ⟨window p.1, held p.1, own p.1, float p.1, (p.2, status) :: paths p.1,
        labels p.1⟩)
      (fun p => pending p.1) fun p => next p.1 p.2) :
    Uniform entry origin view
      (fun i => ⟨window i, held i, own i, float i, paths i, labels i⟩) pending
      fun i => Asm.exitPath status >>= next i := by
  refine step (fun _ => .of_tidy (.exitPath status)) ?_ rest
  intro i a m label b shows led runs
  have grows := (Asm.Tidy.exitPath status).grows runs
  obtain ⟨same, -, listed, -⟩ := Asm.runs_exitPath runs
  have kept := shows.stay same (fun _ => grows.mem_exits) grows.labels
  exact ⟨m, kept.aim listed, (Asm.flow_exitPath runs entry origin).trans led⟩

theorem newLabel {next : ι → Label → Asm Unit}
    (rest : Uniform entry origin view
      (fun p : ι × Label => ⟨window p.1, held p.1, own p.1, float p.1, paths p.1, p.2 :: labels p.1⟩)
      (fun p => pending p.1) fun p => next p.1 p.2) :
    Uniform entry origin view
      (fun i => ⟨window i, held i, own i, float i, paths i, labels i⟩) pending
      fun i => Asm.newLabel >>= next i := by
  refine step (fun _ => .newLabel) ?_ rest
  rintro i a m label b shows led ⟨⟩
  exact ⟨m, shows.ask, led⟩

/-- What comes behind need not know of an exit path. -/
theorem forgetPath {status : ExitStatus}
    (rest : Uniform entry origin view
      (fun i => ⟨window i, held i, own i, float i, paths i, labels i⟩) pending code) :
    Uniform entry origin view
      (fun p : ι × Label => ⟨window p.1, held p.1, own p.1, float p.1, (p.2, status) :: paths p.1,
        labels p.1⟩)
      (fun p => pending p.1) fun p => code p.1 :=
  rest.along Prod.fst fun _ _ _ shows => shows.forget rfl (fun _ member => member) (.refl _) (.inl rfl)
    (fun _ member => .tail _ member) (.refl _)

theorem forgetLabel
    (rest : Uniform entry origin view
      (fun i => ⟨window i, held i, own i, float i, paths i, labels i⟩) pending code) :
    Uniform entry origin view
      (fun p : ι × Label => ⟨window p.1, held p.1, own p.1, float p.1, paths p.1, p.2 :: labels p.1⟩)
      (fun p => pending p.1) fun p => code p.1 :=
  rest.along Prod.fst fun _ _ _ shows => shows.forget rfl (fun _ member => member) (.refl _) (.inl rfl)
    (fun _ member => member) (List.sublist_cons_self _ _)

/-- A tag of an operand that is held is taken as proven. -/
theorem setKnownType {type : ValueType} (single : type ≠ .double)
    (listed : ∀ i, (id.toNat, reg i) ∈ (notes i).held)
    (rest : Uniform entry origin (view.learn id.toNat type) notes pending code) :
    Uniform entry origin view notes pending fun i => Asm.setKnownType id type >>= fun _ => code i := by
  refine stretch (fun _ => .of_tidy (.setKnownType id type)) ?_ rest
  intro i a m b shows led runs
  cases Asm.runs_setKnownType.mp runs
  obtain ⟨config, balanced⟩ := shows.balanced
  have somewhere : a.allocation.place id.toNat ≠ .nowhere := by
    intro empty
    obtain ⟨-, located, -⟩ := shows.held _ (listed i)
    rw [empty] at located
    cases located
  exact ⟨m, shows.learn (balanced.placed _ somewhere) single, led⟩

theorem allocateFloat {next : ι → FloatRegister → Asm Unit}
    (rest : Uniform entry origin view
      (fun p : ι × FloatRegister => ⟨window p.1, held p.1, own p.1, some (p.2, none), paths p.1,
        labels p.1⟩)
      (fun _ => none) fun p => next p.1 p.2) :
    Uniform entry origin view
      (fun i => ⟨window i, held i, own i, none, paths i, labels i⟩) (fun _ => none)
      fun i => Asm.allocateFloat >>= next i :=
  step (fun _ => .of_tidy .allocateFloat)
    (fun _ _ _ _ _ shows led runs => shows.allocateFloat led runs) rest

theorem releaseFloat {number : ι → FloatRegister}
    (rest : Uniform entry origin view
      (fun i => ⟨window i, held i, own i, none, paths i, labels i⟩) (fun _ => none) code) :
    Uniform entry origin view
      (fun i => ⟨window i, held i, own i, float i, paths i, labels i⟩) (fun _ => none)
      fun i => Asm.releaseFloat (number i) >>= fun _ => code i :=
  stretch (fun _ => .of_tidy .releaseFloat)
    (fun _ _ _ _ shows led runs => shows.releaseFloat led runs) rest

section Passing

variable {target : ι → Label}

/-- Accounts are kept of float registers in code that is passed by, too. -/
theorem passAllocateFloat {next : ι → FloatRegister → Asm Unit}
    (rest : Uniform entry origin view
      (fun p : ι × FloatRegister => ⟨window p.1, held p.1, own p.1, none, paths p.1, labels p.1⟩)
      (fun p => some (target p.1)) fun p => next p.1 p.2) :
    Uniform entry origin view
      (fun i => ⟨window i, held i, own i, none, paths i, labels i⟩) (fun i => some (target i))
      fun i => Asm.allocateFloat >>= next i :=
  step (fun _ => .of_tidy .allocateFloat)
    (fun _ _ m _ _ shows led runs => ⟨m, shows.skip_allocateFloat led runs⟩) rest

theorem passReleaseFloat {number : ι → FloatRegister}
    (rest : Uniform entry origin view
      (fun i => ⟨window i, held i, own i, none, paths i, labels i⟩) (fun i => some (target i)) code) :
    Uniform entry origin view
      (fun i => ⟨window i, held i, own i, none, paths i, labels i⟩) (fun i => some (target i))
      fun i => Asm.releaseFloat (number i) >>= fun _ => code i :=
  stretch (fun _ => .of_tidy .releaseFloat)
    (fun _ _ m _ shows led runs => ⟨m, shows.skip_releaseFloat led runs⟩) rest

/-- Of the labels that were asked for, each is another one. -/
theorem passBind {label : ι → Label}
    (other : ∀ i, (notes i).labels.Nodup → label i ≠ target i)
    (rest : Uniform entry origin view notes (fun i => some (target i)) code) :
    Uniform entry origin view notes (fun i => some (target i))
      fun i => Asm.emit (.bind (label i)) >>= fun _ => code i :=
  skip (fun i _ _ shows same => other i shows.distinct (Inst.bind.inj same)) rest

end Passing

section Writing

/-- The scratch register that was asked for last is written. -/
theorem put (new : UInt64)
    (exec : ∀ i {m}, (Notes.mk (window i) (held i) ((.reg (reg i), old i) :: own i) (float i)
      (paths i) (labels i)).Hold view m → (inst i).exec entry m = .next (m.setReg (reg i) new))
    (rest : Uniform entry origin view (fun i => ⟨window i, held i, (.reg (reg i), new) :: own i,
      float i, paths i, labels i⟩) (fun _ => none) code) :
    Uniform entry origin view (fun i => ⟨window i, held i, (.reg (reg i), old i) :: own i, float i,
      paths i, labels i⟩) (fun _ => none) fun i => Asm.emit (inst i) >>= fun _ => code i :=
  next (fun i _ _ shows => ⟨_, exec i shows.hold, shows.set new⟩) rest

/-- A word of the heap is read into the scratch register that was asked for last; there may be none. -/
theorem fetch (read : HeapRead) (found : Option UInt64)
    (exec : ∀ i {m}, (Notes.mk (window i) (held i) ((.reg (reg i), old i) :: own i) (float i)
      (paths i) (labels i)).Hold view m → (inst i).exec entry m =
        .ofOption (found.map fun w => { m.setReg (reg i) w with reads := read :: view.reads }))
    (rest : ∀ w, Uniform entry origin { view with reads := read :: view.reads }
      (fun i => ⟨window i, held i, (.reg (reg i), w) :: own i, float i, paths i, labels i⟩)
      (fun _ => none) code) :
    Uniform entry origin view (fun i => ⟨window i, held i, (.reg (reg i), old i) :: own i, float i,
      paths i, labels i⟩) (fun _ => none) fun i => Asm.emit (inst i) >>= fun _ => code i := by
  cases found with
  | none =>
      obtain ⟨fate, acts⟩ := rest 0
      exact fault (fun i => (acts i).grows) fun i _ _ shows => exec i shows.hold
  | some w =>
      refine next (fun i a m shows => ⟨_, exec i shows.hold, ?_⟩) (rest w)
      exact (shows.set w).observe rfl rfl rfl rfl rfl shows.output shows.context rfl

theorem load64 {base : ι → Register} {offset : ι → Source} (address displacement : UInt64)
    (based : ∀ i {m}, (Notes.mk (window i) (held i) ((.reg (reg i), old i) :: own i) (float i)
      (paths i) (labels i)).Hold view m → m.regs (base i) = address)
    (away : ∀ i {m}, (Notes.mk (window i) (held i) ((.reg (reg i), old i) :: own i) (float i)
      (paths i) (labels i)).Hold view m → m.source (offset i) = displacement)
    (rest : ∀ w, Uniform entry origin { view with reads := ⟨address, displacement⟩ :: view.reads }
      (fun i => ⟨window i, held i, (.reg (reg i), w) :: own i, float i, paths i, labels i⟩)
      (fun _ => none) code) :
    Uniform entry origin view (fun i => ⟨window i, held i, (.reg (reg i), old i) :: own i, float i,
      paths i, labels i⟩) (fun _ => none)
      fun i => Asm.emit (.load64 (reg i) (base i) (offset i)) >>= fun _ => code i := by
  refine fetch ⟨address, displacement⟩ (view.context.heap.load64? address displacement) ?_ rest
  intro i m hold
  rw [← based i hold, ← away i hold, ← hold.context, ← hold.reads, Inst.exec, Machine.load64?,
    Option.map_map]
  rfl

theorem load32 {base : ι → Register} {offset : Int32} (address : UInt64)
    (based : ∀ i {m}, (Notes.mk (window i) (held i) ((.reg (reg i), old i) :: own i) (float i)
      (paths i) (labels i)).Hold view m → m.regs (base i) = address)
    (rest : ∀ w, Uniform entry origin
      { view with reads := ⟨address, Word.ofInt32 offset⟩ :: view.reads }
      (fun i => ⟨window i, held i, (.reg (reg i), w) :: own i, float i, paths i, labels i⟩)
      (fun _ => none) code) :
    Uniform entry origin view (fun i => ⟨window i, held i, (.reg (reg i), old i) :: own i, float i,
      paths i, labels i⟩) (fun _ => none)
      fun i => Asm.emit (.load32 (reg i) (base i) offset) >>= fun _ => code i := by
  refine fetch ⟨address, Word.ofInt32 offset⟩
    ((view.context.heap.load32? address (Word.ofInt32 offset)).map UInt32.toUInt64) ?_ rest
  intro i m hold
  rw [← based i hold, ← hold.context, ← hold.reads, Inst.exec, Machine.load32?, Option.map_map,
    Option.map_map]
  rfl

theorem loadIndexed64 {base index : ι → Register} (address w : UInt64)
    (based : ∀ i {m}, (Notes.mk (window i) (held i) ((.reg (reg i), old i) :: own i) (float i)
      (paths i) (labels i)).Hold view m → m.regs (base i) = address)
    (indexed : ∀ i {m}, (Notes.mk (window i) (held i) ((.reg (reg i), old i) :: own i) (float i)
      (paths i) (labels i)).Hold view m → m.regs (index i) = w)
    (rest : ∀ found, Uniform entry origin
      { view with reads := ⟨address, w.toUInt32.toUInt64 * 8⟩ :: view.reads }
      (fun i => ⟨window i, held i, (.reg (reg i), found) :: own i, float i, paths i, labels i⟩)
      (fun _ => none) code) :
    Uniform entry origin view (fun i => ⟨window i, held i, (.reg (reg i), old i) :: own i, float i,
      paths i, labels i⟩) (fun _ => none)
      fun i => Asm.emit (.loadIndexed64 (reg i) (base i) (index i)) >>= fun _ => code i := by
  refine fetch ⟨address, w.toUInt32.toUInt64 * 8⟩
    (view.context.heap.load64? address (w.toUInt32.toUInt64 * 8)) ?_ rest
  intro i m hold
  rw [← based i hold, ← indexed i hold, ← hold.context, ← hold.reads, Inst.exec, Machine.load64?,
    Option.map_map]
  rfl

/-- The operand that is to be defined gets its word. -/
theorem fill {result : Nat} {type : PayloadType} {word : ι → Option UInt64} (new : UInt64)
    (exec : ∀ i {m}, (Notes.mk (some ⟨result, reg i, type, word i⟩) (held i) (own i) (float i)
      (paths i) (labels i)).Hold view m → (inst i).exec entry m = .next (m.setReg (reg i) new))
    (rest : Uniform entry origin view (fun i => ⟨some ⟨result, reg i, type, some new⟩, held i, own i,
      float i, paths i, labels i⟩) (fun _ => none) code) :
    Uniform entry origin view (fun i => ⟨some ⟨result, reg i, type, word i⟩, held i, own i, float i,
      paths i, labels i⟩) (fun _ => none) fun i => Asm.emit (inst i) >>= fun _ => code i :=
  next (fun i _ _ shows => ⟨_, exec i shows.hold, shows.fill new⟩) rest

/-- The word that is in its register already is made into another one. -/
theorem refill {result : Nat} {type : PayloadType} {word : UInt64} (new : UInt64)
    (exec : ∀ i {m : Machine}, m.regs (reg i) = word →
      (inst i).exec entry m = .next (m.setReg (reg i) new))
    (rest : Uniform entry origin view (fun i => ⟨some ⟨result, reg i, type, some new⟩, held i, own i,
      float i, paths i, labels i⟩) (fun _ => none) code) :
    Uniform entry origin view (fun i => ⟨some ⟨result, reg i, type, some word⟩, held i, own i,
      float i, paths i, labels i⟩) (fun _ => none) fun i => Asm.emit (inst i) >>= fun _ => code i := by
  refine next (fun i a m shows => ⟨_, exec i ?_, shows.fill new⟩) rest
  obtain ⟨-, -, written, -⟩ := shows.opened _ rfl
  exact written word rfl

theorem setFloat {number : ι → FloatRegister} {known : ι → Option Double} (d : Double)
    (exec : ∀ i {m}, (Notes.mk (window i) (held i) (own i) (some (number i, known i)) (paths i)
      (labels i)).Hold view m → (inst i).exec entry m = .next (m.setFloat (number i) d))
    (rest : Uniform entry origin view (fun i => ⟨window i, held i, own i, some (number i, some d),
      paths i, labels i⟩) (fun _ => none) code) :
    Uniform entry origin view (fun i => ⟨window i, held i, own i, some (number i, known i), paths i,
      labels i⟩) (fun _ => none) fun i => Asm.emit (inst i) >>= fun _ => code i :=
  next (fun i _ _ shows => ⟨_, exec i shows.hold, shows.setFloat d⟩) rest

theorem storeOutput (w : UInt64) (holds : ∀ i {m}, (notes i).Hold view m → m.regs (reg i) = w)
    (rest : Uniform entry origin { view with output := w } notes (fun _ => none) code) :
    Uniform entry origin view notes (fun _ => none)
      fun i => Asm.emit (.storeOutput (reg i)) >>= fun _ => code i := by
  refine next (fun i a m shows => ⟨{ m with output := m.regs (reg i) }, rfl, ?_⟩) rest
  exact shows.observe rfl rfl rfl rfl rfl (holds i shows.hold) shows.context shows.reads

/-- The output is stored last. -/
theorem putOut (w : UInt64)
    (holds : ∀ i {m}, (Notes.mk none (held i) (own i) (float i) (paths i) (labels i)).Hold view m →
      m.regs (reg i) = w) :
    Uniform entry origin view (fun i => ⟨none, held i, own i, float i, paths i, labels i⟩)
      (fun _ => none) fun i => Asm.emit (.storeOutput (reg i)) :=
  last (storeOutput w holds done)

theorem boxToOutput {type : PayloadType} (w : UInt64)
    (holds : ∀ i {m}, (Notes.mk none (held i) (own i) none (paths i) (labels i)).Hold view m →
      m.regs (reg i) = w) :
    Uniform entry origin view (fun i => ⟨none, held i, own i, none, paths i, labels i⟩)
      (fun _ => none) fun i => Asm.boxToOutput (reg i) type := by
  refine allocateRegister (put (Word.box w type) ?_ (putOut (Word.box w type) ?_))
  · intro i m hold
    rw [Inst.exec, holds i.1 ⟨hold.held, fun note member => hold.own note (.tail _ member),
      hold.float, hold.context, hold.reads⟩]
  · exact fun i m hold => hold.scratch (.head _)

theorem boxIntPtr {src : ι → Register} {number : ι → FloatRegister} {known : ι → Option Double}
    (n : UInt64)
    (holds : ∀ i {m}, (Notes.mk (window i) (held i) ((.reg (reg i), old i) :: own i)
      (some (number i, known i)) (paths i) (labels i)).Hold view m → m.regs (src i) = n)
    (rest : Uniform entry origin view (fun i => ⟨window i, held i,
      (.reg (reg i), Word.boxIntPtr n) :: own i, some (number i, some (.ofInt n.toInt64.toInt)),
      paths i, labels i⟩) (fun _ => none) code) :
    Uniform entry origin view (fun i => ⟨window i, held i, (.reg (reg i), old i) :: own i,
      some (number i, known i), paths i, labels i⟩) (fun _ => none)
      fun i => Asm.emit (.boxIntPtr (src i) (reg i) (number i)) >>= fun _ => code i := by
  refine next (fun i a m shows => ⟨_, ?_, (shows.setFloat _).set _⟩) rest
  rw [Inst.exec, holds i shows.hold]

theorem callsHelpers (rest : Uniform entry origin view notes (fun _ => none) code) :
    Uniform entry origin view notes (fun _ => none)
      fun i => (modify fun state => { state with callsHelpers := true } : Asm Unit) >>=
        fun _ => code i := by
  refine stretch (fun _ => .of_tidy (.modify (fun _ => rfl) fun _ => rfl)) ?_ rest
  intro i a m b shows led runs
  cases Asm.runs_modify.mp runs
  exact ⟨m, shows.stay rfl (fun _ member => member) (Nat.le_refl _), led⟩

/-- A helper is called, and the code leaves if it has raised. -/
theorem callHelper {helper : Helper} {a b c : ι → Register} {fail : ι → Label} (x y z : UInt64)
    (listed : ∀ i, (fail i, .exception) ∈ paths i)
    (passed : ∀ i {m}, (Notes.mk (window i) (held i) ((.reg (reg i), old i) :: own i) (float i)
      (paths i) (labels i)).Hold view m →
        m.regs (a i) = x ∧ m.regs (b i) = y ∧ m.regs (c i) = z)
    (rest : ∀ answer context, Uniform entry origin { view with context }
      (fun i => ⟨window i, held i, (.reg (reg i), answer) :: own i, float i, paths i, labels i⟩)
      (fun _ => none) code) :
    Uniform entry origin view (fun i => ⟨window i, held i, (.reg (reg i), old i) :: own i, float i,
      paths i, labels i⟩) (fun _ => none)
      fun i => Asm.emit (.callHelper helper (a i) (b i) (c i) (reg i) (fail i)) >>=
        fun _ => code i := by
  obtain ⟨answer, context, called⟩ :
      ∃ answer context, helper.enter view.context x y z = (answer, context) := ⟨_, _, rfl⟩
  have exec (i : ι) {m : Machine} (hold : (Notes.mk (window i) (held i)
      ((.reg (reg i), old i) :: own i) (float i) (paths i) (labels i)).Hold view m) :
      (Inst.callHelper helper (a i) (b i) (c i) (reg i) (fail i)).exec entry m =
        .branch (answer = Helper.exceptionSentinel) (fail i)
          ({ m with context }.setReg (reg i) answer) := by
    obtain ⟨first, second, third⟩ := passed i hold
    rw [Inst.exec, first, second, third, hold.context, called]
  by_cases raised : answer = Helper.exceptionSentinel
  · obtain ⟨fate, acts⟩ := rest answer context
    refine leave ⟨.exception, view.output, context, view.reads⟩ listed (fun i => (acts i).grows) ?_
    intro i a m shows
    refine ⟨{ m with context }.setReg (reg i) answer, ?_, ?_⟩
    · rw [exec i shows.hold, decide_eq_true raised]
      rfl
    · rw [← shows.output, ← shows.reads]
      rfl
  · refine next (fun i a m shows => ⟨{ m with context }.setReg (reg i) answer, ?_, ?_⟩)
      (rest answer context)
    · rw [exec i shows.hold, decide_eq_false raised]
      rfl
    · exact (shows.set answer).observe rfl rfl rfl rfl rfl shows.output rfl shows.reads

/-- A word of the heap is read into the scratch register that was asked for last, and the code leaves if
it is not the one that is wanted. -/
theorem test {fail : ι → Label} (found : Option (UInt64 × List HeapRead)) (taken : UInt64 → Bool)
    (listed : ∀ i, (fail i, .bailout) ∈ paths i)
    (exec : ∀ i {m}, (Notes.mk (window i) (held i) ((.reg (reg i), old i) :: own i) (float i)
      (paths i) (labels i)).Hold view m →
      (∀ w, (Notes.mk (window i) (held i) ((.reg (reg i), w) :: own i) (float i) (paths i)
        (labels i)).Hold view (m.setReg (reg i) w)) →
      (inst i).exec entry m = found.elim .fault fun read => .branch (taken read.1) (fail i)
        { m.setReg (reg i) read.1 with reads := read.2 })
    (rest : ∀ w reads, Uniform entry origin { view with reads }
      (fun i => ⟨window i, held i, (.reg (reg i), w) :: own i, float i, paths i, labels i⟩)
      (fun _ => none) code) :
    Uniform entry origin view (fun i => ⟨window i, held i, (.reg (reg i), old i) :: own i, float i,
      paths i, labels i⟩) (fun _ => none) fun i => Asm.emit (inst i) >>= fun _ => code i := by
  have writes (i : ι) {a : Assembler} {m : Machine} (shows : Shows view ⟨window i, held i,
      (.reg (reg i), old i) :: own i, float i, paths i, labels i⟩ a m) :=
    exec i shows.hold fun w => (shows.set w).hold
  have leads := rest 0 view.reads
  obtain ⟨fate, acts⟩ := leads
  cases found with
  | none => exact fault (fun i => (acts i).grows) fun i _ _ shows => writes i shows
  | some read =>
      obtain ⟨w, reads⟩ := read
      cases left : taken w with
      | true =>
          refine leave ⟨.bailout, view.output, view.context, reads⟩ listed
            (fun i => (acts i).grows) ?_
          intro i a m shows
          refine ⟨{ m.setReg (reg i) w with reads }, ?_, ?_⟩
          · rw [writes i shows, Option.elim_some, left]
            rfl
          · rw [← shows.output, ← shows.context]
            rfl
      | false =>
          refine next (fun i a m shows => ⟨{ m.setReg (reg i) w with reads }, ?_, ?_⟩) (rest w reads)
          · rw [writes i shows, Option.elim_some, left]
            rfl
          · exact (shows.set w).observe rfl rfl rfl rfl rfl shows.output shows.context rfl

end Writing

/-- A word that stands in the code. -/
theorem immSource (word : UInt64)
    (rest : Uniform entry origin view
      (fun i => ⟨window i, held i, (.imm word, word) :: own i, float i, paths i, labels i⟩) pending
      code) :
    Uniform entry origin view (fun i => ⟨window i, held i, own i, float i, paths i, labels i⟩) pending
      code :=
  rest.along id fun _ _ _ shows => shows.quote word

section Data

variable {data : StubData} {config : ι → CodeConfig} {field : Field}

/-- A word of stub data is in the code, or it is loaded into a scratch register. -/
theorem wordSource {word : UInt64} {next : ι → Source → Asm Unit}
    (found : entry.words[field.offset / 8]? = some word)
    (rest : Uniform entry origin view
      (fun p : ι × Source => ⟨window p.1, held p.1, (p.2, word) :: own p.1, none, paths p.1,
        labels p.1⟩)
      (fun _ => none) fun p => next p.1 p.2) :
    Uniform entry origin view
      (fun i => ⟨window i, held i, own i, none, paths i, labels i⟩) (fun _ => none)
      fun i => Asm.wordSource ⟨data, config i⟩ field word >>= next i := by
  refine step (fun _ => .of_tidy .wordSource) ?_ rest
  intro i a m source b shows led runs
  rw [Asm.wordSource] at runs
  cases policy : (config i).policy with
  | constant =>
      rw [policy] at runs
      obtain ⟨rfl, rfl⟩ := Asm.runs_pure.mp runs
      exact ⟨m, shows.quote word, led⟩
  | address =>
      rw [policy] at runs
      obtain ⟨reg, middle, allocates, runs⟩ := Asm.runs_bind.mp runs
      obtain ⟨_, loaded, loads, runs⟩ := Asm.runs_bind.mp runs
      obtain ⟨rfl, rfl⟩ := Asm.runs_pure.mp runs
      cases Asm.runs_emit.mp loads
      obtain ⟨n, seen, leads⟩ := shows.allocateRegister led allocates
      have exec : (Inst.loadStubWord reg field.offset).exec entry n = .next (n.setReg reg word) := by
        rw [Inst.exec, found]
        rfl
      exact ⟨_, (seen.set word).emitted _, CodeBuffer.flow_emit_effect leads _ exec⟩

theorem fieldSource {type : FieldType} {next : ι → Source → Asm Unit}
    (words : entry.words = data.words)
    (rest : ∀ word, Uniform entry origin view
      (fun p : ι × Source => ⟨window p.1, held p.1, (p.2, word) :: own p.1, none, paths p.1,
        labels p.1⟩)
      (fun _ => none) fun p => next p.1 p.2) :
    Uniform entry origin view
      (fun i => ⟨window i, held i, own i, none, paths i, labels i⟩) (fun _ => none)
      fun i => Asm.fieldSource ⟨data, config i⟩ field type >>= next i := by
  simp only [Asm.fieldSource, bind_assoc, Asm.typedWord]
  cases found : data.wordOf? field.offset type with
  | error error =>
      refine fails fun i a b runs => ?_
      obtain ⟨_, _, throws, -⟩ := Asm.runs_bind.mp runs
      exact Asm.not_runs_throw throws
  | ok word =>
      exact wordSource (words ▸ StubData.word_of_wordOf? found) (rest word)

theorem int32Source {next : ι → Int32 × Source → Asm Unit} (words : entry.words = data.words)
    (extended : ∀ offset word, data.wordOf? offset .rawInt32 = .ok word → Word.signExtend word = word)
    (rest : ∀ n, Uniform entry origin view
      (fun p : ι × Source => ⟨window p.1, held p.1, (p.2, Word.ofInt32 n) :: own p.1, none, paths p.1,
        labels p.1⟩)
      (fun _ => none) fun p => next p.1 (n, p.2)) :
    Uniform entry origin view
      (fun i => ⟨window i, held i, own i, none, paths i, labels i⟩) (fun _ => none)
      fun i => Asm.int32Source ⟨data, config i⟩ field >>= next i := by
  simp only [Asm.int32Source, bind_assoc, Asm.int32Word]
  cases found : data.int32? field.offset with
  | error error =>
      refine fails fun i a b runs => ?_
      obtain ⟨_, _, throws, -⟩ := Asm.runs_bind.mp runs
      exact Asm.not_runs_throw throws
  | ok n => exact wordSource (words ▸ StubData.word_of_int32? extended found) (rest n)

/-- The operand that is to be defined gets a word of stub data. -/
theorem loadWord {result : Nat} {type : PayloadType} {word : ι → Option UInt64} {new : UInt64}
    (found : entry.words[field.offset / 8]? = some new) :
    Uniform entry origin view (fun i => ⟨some ⟨result, reg i, type, word i⟩, held i, own i, float i,
      paths i, labels i⟩) (fun _ => none)
      fun i => Asm.loadWord ⟨data, config i⟩ (reg i) field new := by
  have filled := @defined entry origin view ι held own float paths labels result reg type new
  apply last
  refine stretch (fun i => .of_tidy .loadWord) ?_ filled
  intro i a m b shows led runs
  rw [Asm.loadWord] at runs
  cases policy : (config i).policy with
  | constant =>
      rw [policy] at runs
      cases Asm.runs_emit.mp runs
      exact ⟨_, (shows.fill new).emitted _,
        CodeBuffer.flow_emit_effect led (.movImm (reg i) new) rfl⟩
  | address =>
      rw [policy] at runs
      cases Asm.runs_emit.mp runs
      have exec : (Inst.loadStubWord (reg i) field.offset).exec entry m =
          .next (m.setReg (reg i) new) := by
        rw [Inst.exec, found]
        rfl
      exact ⟨_, (shows.fill new).emitted _, CodeBuffer.flow_emit_effect led _ exec⟩

theorem zeroedRegister {env : ι → EmitEnv} {object : OperandId} {next : ι → Option Register → Asm Unit}
    (rest : Uniform entry origin view (fun p : ι × Option Register => notes p.1) (fun _ => none)
      fun p => next p.1 p.2) :
    Uniform entry origin view notes (fun _ => none)
      fun i => Asm.zeroedRegister (env i) object (reg i) >>= next i := by
  refine step (fun i => .of_tidy .zeroedRegister) ?_ rest
  intro i a m zeroed b shows led runs
  obtain ⟨_, _, looks, same⟩ := Asm.runs_bind.mp runs
  obtain ⟨-, rfl⟩ := Asm.runs_allocation.mp looks
  obtain ⟨-, rfl⟩ := Asm.runs_pure.mp same
  exact ⟨m, shows, led⟩

end Data

/-- The tag of an operand is tested, unless it is proven. -/
theorem guardType {type : ValueType} {next : ι → Register → Asm Unit} (single : type ≠ .double)
    (rest : ∀ seen, Uniform entry origin seen
      (fun p : ι × Register => ⟨none, (id.toNat, p.2) :: held p.1, own p.1, none, paths p.1,
        labels p.1⟩)
      (fun _ => none) fun p => next p.1 p.2) :
    Uniform entry origin view
      (fun i => ⟨none, held i, own i, none, paths i, labels i⟩) (fun _ => none)
      fun i => Asm.guardType id type >>= next i := by
  have grows (i : ι) : Asm.Growing (Asm.guardType id type >>= next i) := by
    obtain ⟨fate, acts⟩ := rest view
    exact (Asm.Growing.of_tidy .guardType).bind fun reg => (acts (i, reg)).grows
  simp only [Asm.guardType, bind_assoc] at grows ⊢
  apply table grows
  · intro i a m b shows _ _
    rw [shows.knownType]
  apply useValueReg
  · rintro i _ ⟨⟩
  by_cases proven : view.known id.toNat = some type
  · simp only [proven, ne_eq, not_true_eq_false, if_false, pure_bind]
    exact rest _
  · simp only [ne_eq, proven, not_false_eq_true, if_true, bind_assoc, pure_bind]
    apply exitPath
    apply branch _ (fun _ => .head _)
    · intro i m hold
      rw [Inst.exec, hold.reg (.head _)]
    · apply setKnownType single (fun _ => .head _)
      exact (rest _).forgetPath

end InlineCache.Uniform
