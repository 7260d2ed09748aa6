import InlineCache.Proofs.Sim.Carry
import InlineCache.Proofs.Sim.Reading

/-!
What the code of a stub knows, whatever the registers and slots are that it has it in.  Codes of one
stub for different configurations keep operands at different places, but at the same point of the stub
they hold the same words, and the same has shown.
-/

namespace InlineCache

/-- The content of each operand that has one, the tags that are proven, and what has shown so far. -/
structure View where
  contents : Nat → Option Content
  known : Nat → Option ValueType
  output : UInt64
  context : Context
  reads : List HeapRead

namespace View

def word (view : View) (i : Nat) : UInt64 :=
  (view.contents i).elim 0 Content.word

def store (view : View) (i : Nat) (content : Content) : View :=
  { view with contents := fun j => if j = i then some content else view.contents j }

def learn (view : View) (i : Nat) (type : ValueType) : View :=
  { view with known := fun j => if j = i then some type else view.known j }

/-- The operand in boxed form; boxing a payload proves its tag. -/
def box (view : View) (i : Nat) : View :=
  match view.contents i with
  | some ⟨.payload type, w⟩ =>
      type.valueType?.elim view fun tag =>
        (view.store i ⟨.boxed, Word.box w type⟩).learn i tag
  | _ => view

/-- The operand in the form of the payload that is proven of it. -/
def unbox (view : View) (i : Nat) : View :=
  match view.contents i with
  | some ⟨.boxed, w⟩ =>
      ((view.known i).bind PayloadType.ofValueType?).elim view fun type =>
        view.store i ⟨.payload type, Word.unbox w type⟩
  | _ => view

/-- An operand that is to be defined as a payload has the tag of the payload already. -/
def expect (view : View) (i : Nat) (type : PayloadType) : View :=
  type.valueType?.elim view (view.learn i)

/-- The payload that the operand is. -/
def payload? (view : View) (i : Nat) : Option PayloadType :=
  match view.contents i with
  | some ⟨.payload type, _⟩ => some type
  | _ => none

theorem word_of_contents {view : View} {i : Nat} {content : Content}
    (held : view.contents i = some content) : view.word i = content.word := by
  rw [word, held, Option.elim_some]

theorem contents_store (view : View) (i j : Nat) (content : Content) :
    (view.store i content).contents j = if j = i then some content else view.contents j := rfl

theorem known_learn (view : View) (i j : Nat) (type : ValueType) :
    (view.learn i type).known j = if j = i then some type else view.known j := rfl

end View

/-- What an operation goes by between two of its instructions. -/
structure Notes where
  window : Option Window
  /-- Operands that it has asked for, and the registers that they are in. -/
  held : List (Nat × Register)
  /-- Scratch registers, and words that stand in the code. -/
  own : List (Source × UInt64)
  /-- A float register, and the number in it once there is one. -/
  float : Option (FloatRegister × Option Double)
  paths : List (Label × ExitStatus)
  /-- Labels that it has asked for. -/
  labels : List Label

namespace Notes

def none : Notes := ⟨.none, [], [], .none, [], []⟩

/-- What is in registers. -/
structure Hold (notes : Notes) (view : View) (m : Machine) : Prop where
  held : ∀ note ∈ notes.held, m.regs note.2 = view.word note.1
  own : ∀ note ∈ notes.own, m.source note.1 = note.2
  float : ∀ reg d, notes.float = some (reg, some d) → m.floats reg = d
  context : m.context = view.context
  reads : m.reads = view.reads

variable {notes : Notes} {view : View} {m : Machine}

theorem Hold.reg (hold : notes.Hold view m) {i : Nat} {reg : Register}
    (member : (i, reg) ∈ notes.held) : m.regs reg = view.word i :=
  hold.held _ member

theorem Hold.source (hold : notes.Hold view m) {source : Source} {w : UInt64}
    (member : (source, w) ∈ notes.own) : m.source source = w :=
  hold.own _ member

theorem Hold.scratch (hold : notes.Hold view m) {reg : Register} {w : UInt64}
    (member : (.reg reg, w) ∈ notes.own) : m.regs reg = w :=
  hold.own _ member

end Notes

/-- The table and the machine show what the view says.  An operand that has lost its place is looked
for nowhere. -/
structure Shows (view : View) (notes : Notes) (state : Assembler) (m : Machine) : Prop where
  balanced : ∃ config, state.allocation.Balanced config []
  shown : ∀ i content, state.allocation.content m i = some content →
    view.contents i = some content ∨ ∃ w, notes.window = some w ∧ w.result = i
  known : ∀ i, state.allocation.known i = view.known i
  defined : ∀ i content, view.contents i = some content → state.allocation.defined i = true
  single : ∀ i, view.known i ≠ some .double
  formed : ∀ i content, view.contents i = some content → content.form ≠ .double
  output : m.output = view.output
  context : m.context = view.context
  reads : m.reads = view.reads
  opened : ∀ w, notes.window = some w →
    state.allocation.place w.result = .payloadReg w.reg w.type ∧
      state.allocation.pinned.contains w.reg.index = true ∧
      (∀ word, w.word = some word → m.regs w.reg = word) ∧ view.contents w.result = none
  held : ∀ note ∈ notes.held, state.allocation.pinned.contains note.2.index = true ∧
    (state.allocation.place note.1).register? = some note.2 ∧
      ∀ w, notes.window = some w → w.result ≠ note.1
  own : ∀ note ∈ notes.own, m.source note.1 = note.2
  scratch : ∀ reg w, (.reg reg, w) ∈ notes.own →
    state.allocation.scratch.contains reg.index = true ∧
      state.allocation.pinned.contains reg.index = true
  apart : notes.own.Pairwise fun first second => ∀ reg, first.1 = .reg reg → second.1 ≠ .reg reg
  float : ∀ reg number, notes.float = some (reg, number) →
    state.allocation.scratchFloats.contains reg.index = true ∧
      ∀ d, number = some d → m.floats reg = d
  paths : ∀ note ∈ notes.paths, ∃ path ∈ state.exits, path.label = note.1 ∧ path.status = note.2
  given : ∀ label ∈ notes.labels, label < state.buffer.labels
  distinct : notes.labels.Nodup

namespace Shows

variable {entry : Entry} {origin : Machine} {view : View} {notes : Notes} {window : Option Window}
  {held : List (Nat × Register)} {own : List (Source × UInt64)}
  {float : Option (FloatRegister × Option Double)} {paths : List (Label × ExitStatus)}
  {labels : List Label} {a b : Assembler} {m n : Machine}

theorem shown_idle (shows : Shows view .none a m) {i : Nat} {content : Content}
    (found : a.allocation.content m i = some content) : view.contents i = some content :=
  (shows.shown i content found).resolve_right fun ⟨_, opens, _⟩ => nomatch opens

theorem formed_store (shows : Shows view notes a m) {index : Nat} {new : Content}
    (form : new.form ≠ .double) (i : Nat) (content : Content)
    (found : (view.store index new).contents i = some content) : content.form ≠ .double := by
  rw [View.contents_store] at found
  split at found
  · exact Option.some.inj found ▸ form
  · exact shows.formed i content found

/-- Between two operations there is nothing to go by but the view. -/
theorem idle (balanced : ∃ config, a.allocation.Balanced config [])
    (shown : ∀ i content, a.allocation.content m i = some content → view.contents i = some content)
    (known : ∀ i, a.allocation.known i = view.known i)
    (defined : ∀ i content, view.contents i = some content → a.allocation.defined i = true)
    (single : ∀ i, view.known i ≠ some .double)
    (formed : ∀ i content, view.contents i = some content → content.form ≠ .double)
    (output : m.output = view.output) (context : m.context = view.context)
    (reads : m.reads = view.reads) : Shows view .none a m where
  balanced
  shown i content found := .inl (shown i content found)
  known
  defined
  single
  formed
  output
  context
  reads
  opened := fun _ opens => (nomatch opens)
  held := fun _ member => (nomatch member)
  own := fun _ member => (nomatch member)
  scratch := fun _ _ member => (nomatch member)
  apart := .nil
  float := fun _ _ noted => (nomatch noted)
  paths := fun _ member => (nomatch member)
  given := fun _ member => (nomatch member)
  distinct := List.nodup_nil

/-- An operand that has a place holds what the view says. -/
theorem located (shows : Shows view notes a m) {i : Nat} {form : Form}
    (somewhere : (a.allocation.place i).form? = some form)
    (apart : ∀ w, notes.window = some w → w.result ≠ i) :
    view.contents i = some ⟨form, m.wordAt (a.allocation.place i)⟩ := by
  have found : a.allocation.content m i = some ⟨form, m.wordAt (a.allocation.place i)⟩ := by
    rw [Allocation.content, Location.content?, somewhere]
    rfl
  rcases shows.shown i _ found with same | ⟨w, opens, own⟩
  · exact same
  · exact absurd own (apart w opens)

theorem hold (shows : Shows view notes a m) : notes.Hold view m where
  held note member := by
    obtain ⟨-, located, apart⟩ := shows.held note member
    cases place : a.allocation.place note.1 with
    | payloadReg reg type | valueReg reg =>
        rw [place] at located
        cases located
        have same := shows.located (i := note.1) (by rw [place]; rfl) apart
        rw [View.word_of_contents same, place]
        rfl
    | _ =>
        rw [place] at located
        cases located
  own := shows.own
  float reg d noted := (shows.float reg _ noted).2 d rfl
  context := shows.context
  reads := shows.reads

/-- An operand that has a place is the payload that the view says. -/
theorem payload? (shows : Shows view notes a m) (closed : notes.window = none) {id : OperandId}
    (somewhere : a.allocation.place id.toNat ≠ .nowhere) :
    a.allocation.payload? id = view.payload? id.toNat := by
  rw [Allocation.payload?, Allocation.location_eq_place, View.payload?]
  cases formed : (a.allocation.place id.toNat).form? with
  | none =>
      cases place : a.allocation.place id.toNat with
      | nowhere => exact absurd place somewhere
      | _ =>
          rw [place] at formed
          cases formed
  | some form =>
      have same := shows.located formed fun w opens => absurd (opens.symm.trans closed)
        (Option.some_ne_none _)
      rw [same]
      cases form with
      | payload type => exact Location.payload?_of_form formed
      | boxed => exact Location.payload?_of_boxed formed
      | double => exact absurd rfl (shows.formed _ _ same)

theorem knownType (shows : Shows view notes a m) (id : OperandId) :
    a.allocation.knownType id = view.known id.toNat :=
  (Allocation.knownType_eq_known _ _).trans (shows.known id.toNat)

/-- No operand is kept as a number. -/
theorem not_float (shows : Shows view notes a m) (i : Nat) :
    (a.allocation.place i).floatRegister? = none := by
  cases place : a.allocation.place i with
  | floatReg reg =>
      rcases shows.shown i _ (Allocation.content_of_place place m) with same | ⟨w, opens, rfl⟩
      · exact absurd rfl (shows.formed i _ same)
      · rw [(shows.opened w opens).1] at place
        cases place
  | _ => rfl

/-- The code has grown, and nothing else has changed. -/
theorem stay (shows : Shows view notes a m) (allocation : b.allocation = a.allocation)
    (exits : ∀ path ∈ a.exits, path ∈ b.exits) (labels : a.buffer.labels ≤ b.buffer.labels) :
    Shows view notes b m where
  balanced := allocation ▸ shows.balanced
  shown := allocation ▸ shows.shown
  known := allocation ▸ shows.known
  defined := allocation ▸ shows.defined
  single := shows.single
  formed := shows.formed
  output := shows.output
  context := shows.context
  reads := shows.reads
  opened := allocation ▸ shows.opened
  held := allocation ▸ shows.held
  own := shows.own
  scratch := allocation ▸ shows.scratch
  apart := shows.apart
  float := allocation ▸ shows.float
  paths note member := by
    obtain ⟨path, listed, same⟩ := shows.paths note member
    exact ⟨path, exits path listed, same⟩
  given label member := Nat.lt_of_lt_of_le (shows.given label member) labels
  distinct := shows.distinct

theorem emitted (shows : Shows view notes a m) (inst : Inst) : Shows view notes (a.emitted inst) m :=
  shows.stay rfl (fun _ member => member) (Nat.le_refl _)

/-- Something shows that is no operand. -/
theorem observe {seen : View} (shows : Shows view notes a m) (regs : n.regs = m.regs)
    (floats : n.floats = m.floats) (slots : n.slots = m.slots)
    (contents : seen.contents = view.contents) (known : seen.known = view.known)
    (output : n.output = seen.output) (context : n.context = seen.context)
    (reads : n.reads = seen.reads) : Shows seen notes a n :=
  { shows with
    shown := fun i content found => contents ▸ shows.shown i content
      ((Allocation.content_congr _ i regs floats slots).symm.trans found)
    known := known ▸ shows.known
    defined := contents ▸ shows.defined
    single := known ▸ shows.single
    formed := contents ▸ shows.formed
    output
    context
    reads
    opened := fun w opens => by
      obtain ⟨place, pinned, written, fresh⟩ := shows.opened w opens
      exact ⟨place, pinned, regs ▸ written, contents ▸ fresh⟩
    own := Machine.sources_congr shows.own fun reg _ _ => congrFun regs reg
    float := floats ▸ shows.float }

/-- Less may be noted. -/
theorem forget {less : Notes} (shows : Shows view notes a m) (window : less.window = notes.window)
    (held : ∀ note ∈ less.held, note ∈ notes.held) (own : less.own.Sublist notes.own)
    (float : less.float = notes.float ∨ less.float = none)
    (paths : ∀ note ∈ less.paths, note ∈ notes.paths)
    (labels : less.labels.Sublist notes.labels) : Shows view less a m :=
  { shows with
    shown := window ▸ shows.shown
    opened := window ▸ shows.opened
    held := fun note member => window ▸ shows.held note (held note member)
    own := fun note member => shows.own note (own.subset member)
    scratch := fun reg w member => shows.scratch reg w (own.subset member)
    apart := shows.apart.sublist own
    float := by
      rcases float with same | empty
      · exact same ▸ shows.float
      · intro reg number noted
        rw [empty] at noted
        cases noted
    paths := fun note member => shows.paths note (paths note member)
    given := fun label member => shows.given label (labels.subset member)
    distinct := shows.distinct.sublist labels }

/-- At the end of an operation all that was noted is forgotten. -/
theorem clear (shows : Shows view ⟨none, held, own, float, paths, labels⟩ a m) :
    Shows view .none a m :=
  shows.forget rfl (fun _ member => absurd member List.not_mem_nil) (List.nil_sublist _) (.inr rfl)
    (fun _ member => absurd member List.not_mem_nil) (List.nil_sublist _)

/-- What leaves operands and pinned registers alone shows nowhere. -/
theorem of_keeps (shows : Shows view ⟨window, held, own, none, paths, labels⟩ a m)
    (keeps : Keeps entry origin a m b n) (balanced : ∃ config, b.allocation.Balanced config [])
    (grows : a.Grows b) : Shows view ⟨window, held, own, none, paths, labels⟩ b n where
  balanced
  shown i content found := shows.shown i content ((keeps.contents i).symm.trans found)
  known i := (keeps.known i).trans (shows.known i)
  defined i content found := (keeps.defined i).trans (shows.defined i content found)
  single := shows.single
  formed := shows.formed
  output := keeps.alike.output.trans shows.output
  context := keeps.alike.context.trans shows.context
  reads := keeps.alike.reads.trans shows.reads
  opened w opens := by
    obtain ⟨place, pinned, written, fresh⟩ := shows.opened w opens
    refine ⟨?_, keeps.pinned _ pinned, fun word wrote => ?_, fresh⟩
    · rw [keeps.fixed w.result w.reg (by rw [place]; rfl) pinned, place]
    · exact (keeps.regs w.reg pinned).trans (written word wrote)
  held note member := by
    obtain ⟨pinned, located, apart⟩ := shows.held note member
    refine ⟨keeps.pinned _ pinned, ?_, apart⟩
    rw [keeps.fixed note.1 note.2 located pinned, located]
  own := Machine.sources_congr shows.own fun reg w member =>
    keeps.regs reg (shows.scratch reg w member).2
  scratch reg w member := by
    obtain ⟨scratch, pinned⟩ := shows.scratch reg w member
    exact ⟨keeps.scratch _ scratch, keeps.pinned _ pinned⟩
  apart := shows.apart
  float _ _ impossible := absurd impossible.symm (Option.some_ne_none _)
  paths note member := by
    obtain ⟨path, listed, same⟩ := shows.paths note member
    exact ⟨path, grows.mem_exits listed, same⟩
  given label member := Nat.lt_of_lt_of_le (shows.given label member) grows.labels
  distinct := shows.distinct

end Shows

end InlineCache
