import InlineCache.Eval.Run
import InlineCache.Proofs.Code.Word
import InlineCache.Proofs.Emit.Moves
import InlineCache.Proofs.Emit.TidyOps
import InlineCache.Proofs.Eval.Reading

/-!
Code beside an evaluation.  The code so far leads to a machine that has each operand of the evaluation
in the form of its kind, the same output and the same context.
-/

namespace InlineCache

namespace RefKind

def payload : RefKind → PayloadType
  | .object => .object
  | .string => .string
  | .symbol => .symbol
  | .bigint => .bigint

def block (id : CellId) : RefKind → Block
  | .object => .object id
  | .string => .string id
  | .symbol => .symbol id
  | .bigint => .bigint id

end RefKind

/-- Whatever cell the value refers to has the address of a cell of that kind. -/
def Value.Refers (v : Value) : Prop :=
  ∀ kind, v.isRef kind = true → ∃ id, v.payload = (kind.block id).address

namespace OperandValue

def form : OperandValue → Form
  | .boxed _ => .boxed
  | .ref kind _ => .payload kind.payload
  | .boolean _ => .payload .boolean
  | .int32 _ => .payload .int32
  | .intptr _ => .payload .intptr
  | .valueTag _ => .payload .valueTag

def word : OperandValue → UInt64
  | .boxed v => v.bits
  | .ref _ address => address
  | .boolean b => Word.ofBool b
  | .int32 n => Word.ofInt32 n
  | .intptr n => n.toUInt64
  | .valueTag type => type.byte.toUInt64

/-- What compiled code has for the operand. -/
def content (stored : OperandValue) : Content :=
  ⟨stored.form, stored.word⟩

/-- The tag, of an operand that has a boxed form. -/
def type? : OperandValue → Option ValueType
  | .boxed v => some v.valueType
  | .ref kind _ => some kind.valueType
  | .boolean _ => some .boolean
  | .int32 _ => some .int32
  | .intptr _ | .valueTag _ => none

theorem type?_of_form {stored : OperandValue} {type : PayloadType}
    (form : stored.form = .payload type) : stored.type? = type.valueType? := by
  cases stored with
  | boxed => cases form
  | ref kind => cases kind <;> cases form <;> rfl
  | boolean | int32 | intptr | valueTag =>
      cases form
      rfl

theorem box_word (stored : OperandValue) {type : PayloadType} {v : Value}
    (form : stored.form = .payload type) (boxed : stored.boxed? = some v) :
    Word.box stored.word type = v.bits := by
  cases stored with
  | boxed w => cases form
  | intptr n | valueTag tag => cases boxed
  | int32 n =>
      cases form
      cases boxed
      rw [word, Word.box, Word.boxInt32_eq, Word.toUInt32_ofInt32]
  | boolean b =>
      cases form
      cases boxed
      cases b <;> rfl
  | ref kind address =>
      cases boxed
      cases kind <;> cases form <;> exact UInt64.or_comm _ _

/-- Cells have addresses of cells of their kind. -/
def Valid : OperandValue → Prop
  | .boxed v => v.Refers
  | .ref kind address => ∃ id, address = (kind.block id).address
  | .boolean _ | .int32 _ | .intptr _ | .valueTag _ => True

end OperandValue

/-- What operands hold is in registers and slots only. -/
theorem Allocation.content_congr (allocation : Allocation) {m n : Machine} (i : Nat)
    (regs : n.regs = m.regs) (floats : n.floats = m.floats) (slots : n.slots = m.slots) :
    allocation.content n i = allocation.content m i := by
  unfold Allocation.content Location.content? Machine.wordAt
  rw [regs, floats, slots]

namespace Machine

variable {own : List (Source × UInt64)} {m n : Machine}

/-- Words stand where they stood, in registers and in the code, if their registers keep them. -/
theorem sources_congr (held : ∀ fact ∈ own, m.source fact.1 = fact.2)
    (regs : ∀ reg w, (.reg reg, w) ∈ own → n.regs reg = m.regs reg) :
    ∀ fact ∈ own, n.source fact.1 = fact.2 := by
  rintro ⟨source, w⟩ member
  refine Eq.trans ?_ (held _ member)
  cases source with
  | imm word => rfl
  | reg reg => exact regs reg w member

/-- A register that none of them is in is written. -/
theorem sources_setReg {reg : Register} (new : UInt64)
    (held : ∀ fact ∈ own, m.source fact.1 = fact.2) (elsewhere : ∀ w, (.reg reg, w) ∉ own) :
    ∀ fact ∈ own, (m.setReg reg new).source fact.1 = fact.2 := by
  refine sources_congr held fun other w member => ?_
  rw [regs_setReg, if_neg]
  rintro rfl
  exact elsewhere w member

end Machine

/-- What is asked of words that are trusted; of any others nothing is. -/
def Trusts : Bool → Prop → Prop
  | true, fact => fact
  | false, _ => True

theorem Trusts.of {trusted : Bool} {fact : Prop} (holds : fact) : Trusts trusted fact := by
  cases trusted with
  | true => exact holds
  | false => trivial

theorem Trusts.imp {trusted : Bool} {fact other : Prop} (implies : fact → other)
    (holds : Trusts trusted fact) : Trusts trusted other := by
  cases trusted with
  | true => exact implies holds
  | false => trivial

/-- What a stub is compiled and run with.  Where the words are trusted, int32 words have their sign
extended, and whatever cells the words and the inputs refer to have addresses of cells. -/
structure Setting (trusted : Bool := true) where
  env : EmitEnv
  inputs : List Value
  context : Context
  extended : Trusts trusted (∀ offset word, env.data.wordOf? offset .rawInt32 = .ok word →
    Word.signExtend word = word)
  objects : Trusts trusted (∀ offset word, env.data.wordOf? offset .object = .ok word → word ≠ 0 →
    ∃ id, word = (Block.object id).address)
  refer : Trusts trusted (∀ v ∈ inputs, v.Refers)

namespace Setting

variable {trusted : Bool}

def entry (setting : Setting trusted) : Entry :=
  ⟨setting.inputs.map Value.bits, setting.env.data.words⟩

def origin (setting : Setting trusted) : Machine :=
  .start setting.context

end Setting

/-- The operand that an operation is about to define: it has its register already, but the evaluation
does not know it yet. -/
structure Window where
  result : Nat
  reg : Register
  type : PayloadType
  /-- The word that is in the register, once it is written. -/
  word : Option UInt64

/-- What is known within an operation. -/
structure Facts where
  window : Option Window
  /-- Registers of operands that the operation has asked for, with their words. -/
  held : List (Register × UInt64)
  /-- Scratch registers and words that stand in the code. -/
  own : List (Source × UInt64)
  paths : List (Label × ExitStatus)

namespace Facts

def none : Facts := ⟨.none, [], [], []⟩

/-- The words that are in registers. -/
structure Hold (facts : Facts) (m : Machine) : Prop where
  held : ∀ fact ∈ facts.held, m.regs fact.1 = fact.2
  own : ∀ fact ∈ facts.own, m.source fact.1 = fact.2

theorem Hold.reg {facts : Facts} {m : Machine} (hold : facts.Hold m) {reg : Register} {w : UInt64}
    (member : (reg, w) ∈ facts.held) : m.regs reg = w :=
  hold.held _ member

theorem Hold.source {facts : Facts} {m : Machine} (hold : facts.Hold m) {source : Source}
    {w : UInt64} (member : (source, w) ∈ facts.own) : m.source source = w :=
  hold.own _ member

theorem Hold.scratch {facts : Facts} {m : Machine} (hold : facts.Hold m) {reg : Register}
    {w : UInt64} (member : (.reg reg, w) ∈ facts.own) : m.regs reg = w :=
  hold.own _ member

end Facts

/-- The code so far leads to a machine that carries the state of the evaluation, either going on or
looking for a label. -/
structure Carries {trusted : Bool} (setting : Setting trusted) (s : EvalState) (facts : Facts)
    (pending : Option Label) (state : Assembler) (m : Machine) : Prop where
  balanced : state.allocation.Balanced setting.env.config []
  led : state.buffer.flow setting.entry setting.origin = .running pending m
  shown : ∀ i content, state.allocation.content m i = some content →
    (∃ stored, s.Stores i stored ∧ stored.content = content) ∨
      ∃ w, facts.window = some w ∧ w.result = i
  known : ∀ i type, state.allocation.known i = some type →
    (type ≠ .double ∧ ∃ stored, s.Stores i stored ∧ stored.type? = some type) ∨
      ∃ w, facts.window = some w ∧ w.result = i ∧ w.type.valueType? = some type
  defined : ∀ i stored, s.Stores i stored →
    state.allocation.defined i = true
  valid : ∀ i stored, s.Stores i stored → Trusts trusted stored.Valid
  output : m.output = s.output.bits
  context : m.context = s.context
  hold : facts.Hold m
  opened : ∀ w, facts.window = some w →
    state.allocation.place w.result = .payloadReg w.reg w.type ∧
      state.allocation.pinned.contains w.reg.index = true ∧
      (∀ word, w.word = some word → m.regs w.reg = word) ∧
      (∀ stored, ¬s.Stores w.result stored) ∧
      ∀ fact ∈ facts.held, fact.1 ≠ w.reg
  held : ∀ fact ∈ facts.held, state.allocation.pinned.contains fact.1.index = true ∧
    ∃ i, (state.allocation.place i).register? = some fact.1
  scratch : ∀ reg w, (.reg reg, w) ∈ facts.own →
    state.allocation.scratch.contains reg.index = true ∧
      state.allocation.pinned.contains reg.index = true
  apart : facts.own.Pairwise fun first second => ∀ reg, first.1 = .reg reg → second.1 ≠ .reg reg
  paths : ∀ fact ∈ facts.paths, ∃ path ∈ state.exits, path.label = fact.1 ∧ path.status = fact.2

namespace Carries

variable {trusted : Bool} {setting : Setting trusted} {s : EvalState} {facts : Facts}
  {a b : Assembler} {m n : Machine}

theorem reached (carries : Carries setting s facts none a m) :
    a.Reaches setting.entry setting.origin m :=
  carries.led

/-- Where nothing is known, no operand is about to be defined either. -/
theorem shown_idle {pending : Option Label} (carries : Carries setting s .none pending a m) {i : Nat}
    {content : Content} (found : a.allocation.content m i = some content) :
    ∃ stored, s.Stores i stored ∧ stored.content = content :=
  (carries.shown i content found).resolve_right fun ⟨_, opens, _⟩ => nomatch opens

theorem known_idle {pending : Option Label} (carries : Carries setting s .none pending a m) {i : Nat}
    {type : ValueType} (tagged : a.allocation.known i = some type) :
    type ≠ .double ∧ ∃ stored, s.Stores i stored ∧ stored.type? = some type :=
  (carries.known i type tagged).resolve_right fun ⟨_, opens, _⟩ => nomatch opens

/-- A scene in which nothing is known within an operation. -/
theorem idle {pending : Option Label} (balanced : a.allocation.Balanced setting.env.config [])
    (led : a.buffer.flow setting.entry setting.origin = .running pending m)
    (shown : ∀ i content, a.allocation.content m i = some content →
      ∃ stored, s.Stores i stored ∧ stored.content = content)
    (known : ∀ i type, a.allocation.known i = some type →
      type ≠ .double ∧ ∃ stored, s.Stores i stored ∧ stored.type? = some type)
    (defined : ∀ i stored, s.Stores i stored → a.allocation.defined i = true)
    (valid : ∀ i stored, s.Stores i stored → Trusts trusted stored.Valid)
    (output : m.output = s.output.bits) (context : m.context = s.context) :
    Carries setting s .none pending a m where
  balanced
  led
  shown i content found := .inl (shown i content found)
  known i type tagged := .inl (known i type tagged)
  defined
  valid
  output
  context
  hold := ⟨fun _ member => (nomatch member), fun _ member => (nomatch member)⟩
  opened := fun _ opens => (nomatch opens)
  held := fun _ member => (nomatch member)
  scratch := fun _ _ member => (nomatch member)
  apart := .nil
  paths := fun _ member => (nomatch member)

/-- What is known of registers is known of pinned ones. -/
theorem hold_of_pinned {pending : Option Label} (carries : Carries setting s facts pending a m)
    (same : ∀ reg : Register, a.allocation.pinned.contains reg.index = true →
      n.regs reg = m.regs reg) : facts.Hold n where
  held fact member := (same fact.1 (carries.held fact member).1).trans
    (carries.hold.held fact member)
  own := Machine.sources_congr carries.hold.own fun reg w member =>
    same reg (carries.scratch reg w member).2

theorem of_keeps (carries : Carries setting s facts none a m)
    (keeps : Keeps setting.entry setting.origin a m b n)
    (balanced : b.allocation.Balanced setting.env.config []) (grows : a.Grows b) :
    Carries setting s facts none b n where
  balanced := balanced
  led := keeps.reached
  shown i content held := carries.shown i content ((keeps.contents i).symm.trans held)
  known i type known := carries.known i type ((keeps.known i).symm.trans known)
  defined i stored found := (keeps.defined i).trans (carries.defined i stored found)
  valid := carries.valid
  output := keeps.alike.output.trans carries.output
  context := keeps.alike.context.trans carries.context
  hold := carries.hold_of_pinned keeps.regs
  opened w window := by
    obtain ⟨place, pinned, written, fresh, aside⟩ := carries.opened w window
    refine ⟨?_, keeps.pinned _ pinned, fun word wrote => ?_, fresh, aside⟩
    · rw [keeps.fixed w.result w.reg (by rw [place]; rfl) pinned, place]
    · exact (keeps.regs w.reg pinned).trans (written word wrote)
  held fact member := by
    obtain ⟨pinned, i, located⟩ := carries.held fact member
    refine ⟨keeps.pinned _ pinned, i, ?_⟩
    rw [keeps.fixed i fact.1 located pinned, located]
  scratch reg w member := by
    obtain ⟨scratch, pinned⟩ := carries.scratch reg w member
    exact ⟨keeps.scratch _ scratch, keeps.pinned _ pinned⟩
  apart := carries.apart
  paths fact member := by
    obtain ⟨path, listed, same⟩ := carries.paths fact member
    exact ⟨path, grows.mem_exits listed, same⟩

/-- Less may be known. -/
theorem forget (carries : Carries setting s facts none a m) {less : Facts}
    (window : less.window = facts.window) (held : ∀ fact ∈ less.held, fact ∈ facts.held)
    (own : less.own.Sublist facts.own) (paths : ∀ fact ∈ less.paths, fact ∈ facts.paths) :
    Carries setting s less none a m where
  balanced := carries.balanced
  led := carries.led
  shown i content found := window ▸ carries.shown i content found
  known i type known := window ▸ carries.known i type known
  defined := carries.defined
  valid := carries.valid
  output := carries.output
  context := carries.context
  hold := ⟨fun fact member => carries.hold.held fact (held fact member),
    fun fact member => carries.hold.own fact (own.subset member)⟩
  opened w opens := by
    obtain ⟨place, pinned, written, fresh, aside⟩ := carries.opened w (window ▸ opens)
    exact ⟨place, pinned, written, fresh, fun fact member => aside fact (held fact member)⟩
  held fact member := carries.held fact (held fact member)
  scratch reg w member := carries.scratch reg w (own.subset member)
  apart := carries.apart.sublist own
  paths fact member := carries.paths fact (paths fact member)

/-- At the end of an operation all that was known within it is forgotten. -/
theorem clear {held : List (Register × UInt64)} {own : List (Source × UInt64)}
    {paths : List (Label × ExitStatus)}
    (carries : Carries setting s ⟨.none, held, own, paths⟩ none a m) :
    Carries setting s .none none a m :=
  carries.forget rfl (fun _ member => nomatch member) (List.nil_sublist _)
    fun _ member => nomatch member

/-- An operand that has a place is there in the form of its kind. -/
theorem located (carries : Carries setting s facts none a m) {i : Nat} {stored : OperandValue}
    (stores : s.Stores i stored) (somewhere : a.allocation.place i ≠ .nowhere) :
    (a.allocation.place i).form? = some stored.form ∧
      m.wordAt (a.allocation.place i) = stored.word := by
  have formed : (a.allocation.place i).form?.isSome := by
    cases place : a.allocation.place i with
    | nowhere => exact absurd place somewhere
    | _ => rfl
  obtain ⟨form, found⟩ := Option.isSome_iff_exists.mp formed
  have held : a.allocation.content m i = some ⟨form, m.wordAt (a.allocation.place i)⟩ := by
    rw [Allocation.content, Location.content?, found]
    rfl
  rcases carries.shown i _ held with ⟨other, same, shows⟩ | ⟨w, window, rfl⟩
  · cases stores.symm.trans same
    exact ⟨found.trans (congrArg (some ∘ Content.form) shows.symm),
      (congrArg Content.word shows).symm⟩
  · exact absurd stores ((carries.opened w window).2.2.2.1 stored)

/-- What is taken as the tag of a value is its tag. -/
theorem type_of_known (carries : Carries setting s facts none a m) {id : OperandId} {v : Value}
    (stores : s.Stores id.toNat (.boxed v)) {type : ValueType}
    (known : a.allocation.knownType id = some type) : v.valueType = type := by
  rcases carries.known _ _ known with ⟨-, stored, same, tagged⟩ | ⟨w, window, same, -⟩
  · cases stores.symm.trans same
    exact Option.some.inj tagged
  · exact absurd (same ▸ stores) ((carries.opened w window).2.2.2.1 _)

theorem not_double (carries : Carries setting s facts none a m) (i : Nat) :
    a.allocation.known i ≠ some .double := by
  intro known
  rcases carries.known i .double known with ⟨different, -⟩ | ⟨w, -, -, double⟩
  · exact different rfl
  · exact w.type.valueType?_ne_double double

end Carries

end InlineCache
