import InlineCache.Proofs.Emit.Contents

/-!
Bringing an operand into a form changes what it holds in one way, and what the others hold in none.
-/

namespace InlineCache

/-- The boxed word of what is held. -/
def Content.boxed (content : Content) : UInt64 :=
  match content.form with
  | .boxed => content.word
  | .payload type => Word.box content.word type
  | .double => Word.boxDouble ⟨content.word⟩

/-- The payload of what is held. -/
def Content.payload (content : Content) (type : PayloadType) : UInt64 :=
  match content.form with
  | .boxed => Word.unbox content.word type
  | .payload _ | .double => content.word

/-- A stretch of code that leaves to all operands but one what they hold. -/
structure Moves (entry : Entry) (origin : Machine) (id : Nat) (before : Assembler) (m : Machine)
    (after : Assembler) (n : Machine) : Prop where
  reached : after.Reaches entry origin n
  contents : ∀ i, i ≠ id → after.allocation.content n i = before.allocation.content m i
  callers : before.allocation.Callers origin m → after.allocation.Callers origin n

namespace Moves

variable {entry : Entry} {origin : Machine} {id : Nat} {a b c : Assembler} {m n o : Machine}

theorem trans (first : Moves entry origin id a m b n) (second : Moves entry origin id b n c o) :
    Moves entry origin id a m c o where
  reached := second.reached
  contents i other := (second.contents i other).trans (first.contents i other)
  callers callers := second.callers (first.callers callers)

theorem of_keeps (keeps : Keeps entry origin a m b n) : Moves entry origin id a m b n :=
  ⟨keeps.reached, fun i _ => keeps.contents i, keeps.callers⟩

theorem refl (id : Nat) (reached : a.Reaches entry origin m) : Moves entry origin id a m a m :=
  ⟨reached, fun _ _ => rfl, fun callers => callers⟩

/-- The table changes, but for one operand not in where operands are. -/
theorem relabel (moves : Moves entry origin id a m b n) (code : c.buffer = b.buffer)
    (places : ∀ i, i ≠ id → c.allocation.place i = b.allocation.place i)
    (callers : b.allocation.Callers origin n → c.allocation.Callers origin n) :
    Moves entry origin id a m c n where
  reached := by
    rw [Assembler.Reaches, code]
    exact moves.reached
  contents i other := (congrArg (·.content? n) (places i other)).trans (moves.contents i other)
  callers before := callers (moves.callers before)

/-- The one operand is listed elsewhere. -/
theorem listed (moves : Moves entry origin id a m b n) (location : Location) :
    Moves entry origin id a m (b.withAllocation (b.allocation.setLocation id location)) n :=
  moves.relabel rfl (fun _ other => Allocation.place_setLocation_ne (Ne.symm other))
    fun callers => callers

/-- A tag of an operand is proven. -/
theorem learned (moves : Moves entry origin id a m b n) (operand : OperandId) (type : ValueType) :
    Moves entry origin id a m (b.withAllocation (b.allocation.setKnownType operand type)) n :=
  moves.relabel rfl (fun _ _ => Allocation.place_setKnownType _ _ _ _) fun callers => callers

/-- An instruction writes a register where no other operand is. -/
theorem write {inst : Inst} {reg : Register} {w : UInt64} (reached : a.Reaches entry origin m)
    (next : inst.exec entry m = .next (m.setReg reg w))
    (alone : ∀ i, i ≠ id → (a.allocation.place i).resource? ≠ some (.register reg)) :
    Moves entry origin id a m (a.emitted inst) (m.setReg reg w) where
  reached := reached.emitted next
  contents i other := Location.content?_setReg (alone i other) m w
  callers callers := callers

theorem writeFloat {inst : Inst} {reg : FloatRegister} {d : Double}
    (reached : a.Reaches entry origin m) (next : inst.exec entry m = .next (m.setFloat reg d))
    (alone : ∀ i, i ≠ id → (a.allocation.place i).resource? ≠ some (.float reg))
    (taken : a.allocation.availableFloats.contains reg.index = false) :
    Moves entry origin id a m (a.emitted inst) (m.setFloat reg d) where
  reached := reached.emitted next
  contents i other := Location.content?_setFloat (alone i other) m d
  callers callers saves := by
    obtain ⟨free, saved⟩ := callers saves
    refine ⟨fun other available => ?_, saved⟩
    have different : other ≠ reg := by
      rintro rfl
      rw [show a.allocation.availableFloats.contains other.index = true from available] at taken
      cases taken
    rw [Machine.floats_setFloat, if_neg different]
    exact free other available

end Moves

namespace Allocation

theorem content_of_place {allocation : Allocation} {index : Nat} {location : Location}
    (place : allocation.place index = location) (machine : Machine) :
    allocation.content machine index = location.content? machine :=
  congrArg (·.content? machine) place

end Allocation

namespace Asm

variable {entry : Entry} {origin m : Machine} {config : CodeConfig} {flight : List Resource}

/-- No operand but one is at the register of that one. -/
theorem alone_at {allocation : Allocation} (balanced : allocation.Balanced config flight)
    {index : Nat} {resource : Resource}
    (held : (allocation.place index).resource? = some resource) (i : Nat) (other : i ≠ index) :
    (allocation.place i).resource? ≠ some resource :=
  fun shared => other (balanced.place_unique shared held)

/-- An operand is loaded from its slot into a register that was taken for it. -/
theorem TakesRegister.reload_moves {index : Nat} {location : Location}
    (takes : TakesRegister state reg middle) (balanced : state.allocation.Balanced config flight)
    (reached : state.Reaches entry origin m) (place : state.allocation.place index = location)
    (elsewhere : location.register? = none) (slot : Nat) :
    ∃ n, Moves entry origin index state m
        ((middle.emitted (.restore reg slot)).withAllocation (middle.allocation.vacate slot))
        (n.setReg reg (n.slots slot)) ∧
      state.allocation.content m index = location.content? n ∧
      ∀ i, (middle.allocation.place i).resource? ≠ some (.register reg) := by
  obtain ⟨n, keeps, -, -⟩ := takes.keeps balanced reached
  have alone := (takes.balanced balanced).not_place_of_flight (.head _)
  have same := takes.place index (place ▸ elsewhere)
  have loaded : Moves entry origin index middle n (middle.emitted (.restore reg slot))
      (n.setReg reg (n.slots slot)) :=
    .write keeps.reached rfl fun i _ => alone i
  exact ⟨n, ((Moves.of_keeps keeps).trans loaded).relabel rfl (fun _ _ => rfl) fun callers => callers,
    (keeps.contents _).symm.trans (Allocation.content_of_place (same.trans place) n), alone⟩

/-- The number of an operand is boxed into a register, where the operand is listed from then on. -/
theorem ReturnsFloat.box_moves {index : Nat} {float : FloatRegister}
    (returns : ReturnsFloat (middle.emitted (.boxDouble float reg)) float after)
    (balanced : (middle.allocation.setLocation index (.valueReg reg)).Balanced config
      (.float float :: flight))
    (reached : middle.Reaches entry origin m)
    (alone : ∀ i, i ≠ index → (middle.allocation.place i).resource? ≠ some (.register reg)) :
    ∃ n, Moves entry origin index middle m
        (after.withAllocation (after.allocation.setLocation index (.valueReg reg))) n ∧
      n.regs reg = Word.boxDouble (m.floats float) := by
  have boxed : Moves entry origin index middle m (middle.emitted (.boxDouble float reg))
      (m.setReg reg (Word.boxDouble (m.floats float))) :=
    .write reached rfl alone
  have listed := boxed.listed (.valueReg reg)
  obtain ⟨n, returned, regs⟩ := (returns.relocated index (.valueReg reg)).keeps balanced listed.reached
  refine ⟨n, listed.trans (.of_keeps returned), ?_⟩
  rw [regs, Machine.regs_setReg, if_pos rfl]

theorem FetchesValue.moves {id : OperandId} (fetches : FetchesValue state id reg fetched)
    (balanced : state.allocation.Balanced config flight) (reached : state.Reaches entry origin m) :
    ∃ n content,
      Moves entry origin id.toNat state m
        (fetched.withAllocation (fetched.allocation.setLocation id.toNat (.valueReg reg))) n ∧
      state.allocation.content m id.toNat = some content ∧ n.regs reg = content.boxed ∧
      ∀ type, content.form = .payload type → type.valueType?.isSome := by
  cases fetches with
  | valueReg place =>
      refine ⟨m, _, (Moves.refl _ reached).listed _, Allocation.content_of_place place m, rfl, ?_⟩
      intro type impossible
      cases impossible
  | payloadReg type tag place tagged =>
      have written : Moves entry origin id.toNat state m (state.emitted (.boxPayload reg reg type))
          (m.setReg reg (Word.box (m.regs reg) type)) :=
        .write reached rfl (alone_at balanced (by rw [place]; rfl))
      refine ⟨_, _, (written.learned id tag).listed _, Allocation.content_of_place place m, ?_, ?_⟩
      · rw [Machine.regs_setReg, if_pos rfl]
        rfl
      · rintro _ ⟨⟩
        rw [tagged]
        rfl
  | valueSlot slot middle place takes =>
      obtain ⟨n, loaded, held, -⟩ := takes.reload_moves balanced reached place rfl slot
      refine ⟨_, _, loaded.listed _, held, ?_, ?_⟩
      · rw [Machine.regs_setReg, if_pos rfl]
        rfl
      · intro type impossible
        cases impossible
  | payloadSlot slot type tag middle place takes tagged =>
      obtain ⟨n, loaded, held, alone⟩ := takes.reload_moves balanced reached place rfl slot
      have boxed : Moves entry origin id.toNat _ _ (Assembler.emitted _ (.boxPayload reg reg type)) _ :=
        .write loaded.reached rfl fun i _ => alone i
      refine ⟨_, _, ((loaded.trans boxed).learned id tag).listed _, held, ?_, ?_⟩
      · rw [Machine.regs_setReg, if_pos rfl, Machine.regs_setReg, if_pos rfl]
        rfl
      · rintro _ ⟨⟩
        rw [tagged]
        rfl
  | floatReg float middle after place takes returns =>
      obtain ⟨n, keeps, -, -⟩ := takes.keeps balanced reached
      have taken := takes.balanced balanced
      have same := (takes.place id.toNat (by rw [place]; rfl)).trans place
      have moved := taken.move id.toNat (.valueReg reg) (.float float) (by rw [same]; rfl) rfl
      obtain ⟨o, boxed, word⟩ := returns.box_moves moved keeps.reached
        fun i _ => taken.not_place_of_flight (.head _) i
      refine ⟨o, _, (Moves.of_keeps keeps).trans boxed,
        (keeps.contents _).symm.trans (Allocation.content_of_place same n), word, ?_⟩
      intro type impossible
      cases impossible
  | floatSlot slot float first middle after place takesFloat takes returns =>
      obtain ⟨n, loads, -, -⟩ := takesFloat.keeps balanced reached
      have same := (takesFloat.place id.toNat (by rw [place]; rfl)).trans place
      have loaded := takesFloat.balanced balanced
      have elsewhere : (first.allocation.place id.toNat).register? = none := by
        rw [same]
        rfl
      have defined := loaded.placed id.toNat (by simp [same])
      have stale := balanced_vacate loaded same
      have reloaded : Moves entry origin id.toNat first n (first.emitted (.reloadFloat float slot))
          (n.setFloat float ⟨n.slots slot⟩) :=
        .writeFloat loads.reached rfl (fun i _ => loaded.not_place_of_flight (.head _) i)
          (loaded.float_of_flight (.head _)).1
      have places (i : Nat) (other : i ≠ id.toNat) (allocation : Allocation) :
          (allocation.setLocation id.toNat .nowhere).place i = allocation.place i :=
        Allocation.place_setLocation_ne (Ne.symm other)
      -- while its number is in the float register, the operand is listed nowhere
      have cleared := reloaded.relabel
        (c := ((first.emitted (.reloadFloat float slot)).withAllocation
          ((first.allocation.vacate slot).setLocation id.toNat .nowhere))) rfl
        (fun i other => places i other _) fun callers => callers
      obtain ⟨o, keeps, -, floats⟩ := (takes.cleared id.toNat elsewhere).keeps stale cleared.reached
      have alone := ((takes.cleared id.toNat elsewhere).balanced stale).not_place_of_flight (.head _)
      have relisted := ((cleared.trans (.of_keeps keeps)).relabel (c := middle) rfl
        (fun i other => (places i other _).symm) fun callers => callers)
      obtain ⟨q, boxed, word⟩ := returns.box_moves (takes.balanced_stale elsewhere defined stale)
        relisted.reached fun i other => places i other middle.allocation ▸ alone i
      refine ⟨q, _, ((Moves.of_keeps loads).trans relisted).trans boxed,
        (loads.contents _).symm.trans (Allocation.content_of_place same n), ?_, ?_⟩
      · rw [word, floats, Machine.floats_setFloat, if_pos rfl]
        rfl
      · intro type impossible
        cases impossible

theorem FetchesPayload.moves {id : OperandId}
    (fetches : FetchesPayload state id reg type fetched)
    (balanced : state.allocation.Balanced config flight) (reached : state.Reaches entry origin m) :
    ∃ n content,
      Moves entry origin id.toNat state m
        (fetched.withAllocation (fetched.allocation.setLocation id.toNat (.payloadReg reg type))) n ∧
      state.allocation.content m id.toNat = some content ∧ n.regs reg = content.payload type ∧
      (content.form = .payload type ∨ content.form = .boxed ∧ Proven state id type) := by
  cases fetches with
  | payloadReg place =>
      exact ⟨m, _, (Moves.refl _ reached).listed _, Allocation.content_of_place place m, rfl,
        .inl rfl⟩
  | valueReg place proven =>
      have written : Moves entry origin id.toNat state m (state.emitted (.unboxPayload reg reg type))
          (m.setReg reg (Word.unbox (m.regs reg) type)) :=
        .write reached rfl (alone_at balanced (by rw [place]; rfl))
      refine ⟨_, _, written.listed _, Allocation.content_of_place place m, ?_, .inr ⟨rfl, proven⟩⟩
      rw [Machine.regs_setReg, if_pos rfl]
      rfl
  | payloadSlot slot middle place takes =>
      obtain ⟨n, loaded, held, -⟩ := takes.reload_moves balanced reached place rfl slot
      refine ⟨_, _, loaded.listed _, held, ?_, .inl rfl⟩
      rw [Machine.regs_setReg, if_pos rfl]
      rfl
  | valueSlot slot middle place proven takes =>
      obtain ⟨n, loaded, held, alone⟩ := takes.reload_moves balanced reached place rfl slot
      have unboxed : Moves entry origin id.toNat _ _ (Assembler.emitted _ (.unboxPayload reg reg type)) _ :=
        .write loaded.reached rfl fun i _ => alone i
      refine ⟨_, _, (loaded.trans unboxed).listed _, held, ?_, .inr ⟨rfl, proven⟩⟩
      rw [Machine.regs_setReg, if_pos rfl, Machine.regs_setReg, if_pos rfl]
      rfl

theorem TakesRegister.known (takes : TakesRegister state reg after) (i : Nat) :
    after.allocation.known i = state.allocation.known i := by
  cases takes with
  | pool => rfl
  | spill victim slot => exact Allocation.known_setLocation _ _ _ _

theorem TakesFloat.known (takes : TakesFloat state reg after) (i : Nat) :
    after.allocation.known i = state.allocation.known i := by
  cases takes with
  | pool | save => rfl
  | spill victim slot => exact Allocation.known_setLocation _ _ _ _

theorem ReturnsFloat.known (returns : ReturnsFloat state reg after) (i : Nat) :
    after.allocation.known i = state.allocation.known i := by
  cases returns <;> rfl

/-- Fetching the boxed word of an operand that is kept as a payload proves the tag of the payload. -/
theorem FetchesValue.known {id : OperandId} (fetches : FetchesValue state id reg fetched)
    {i : Nat} {tag : ValueType} (known : fetched.allocation.known i = some tag) :
    state.allocation.known i = some tag ∨
      i = id.toNat ∧ ∃ type, (state.allocation.place i).payload? = some type ∧
        type.valueType? = some tag := by
  have learned {allocation : Allocation} {found : ValueType} {type : PayloadType}
      (place : (state.allocation.place id.toNat).payload? = some type)
      (tagged : type.valueType? = some found)
      (known : (allocation.setKnownType id found).known i = some tag)
      (same : allocation.known i = state.allocation.known i) :
      state.allocation.known i = some tag ∨
        i = id.toNat ∧ ∃ type, (state.allocation.place i).payload? = some type ∧
          type.valueType? = some tag := by
    rw [Allocation.known_setKnownType] at known
    split at known
    · rename_i own
      cases known
      refine .inr ⟨own.1.symm, type, ?_, tagged⟩
      rw [← own.1]
      exact place
    · exact .inl (same.symm.trans known)
  cases fetches with
  | valueReg place => exact .inl known
  | payloadReg type found place tagged => exact learned (by rw [place]; rfl) tagged known rfl
  | valueSlot slot middle place takes => exact .inl ((takes.known i).symm.trans known)
  | payloadSlot slot type found middle place takes tagged =>
      exact learned (by rw [place]; rfl) tagged known (takes.known i)
  | floatReg float middle after place takes returns =>
      exact .inl ((takes.known i).symm.trans ((returns.known i).symm.trans known))
  | floatSlot slot float first middle after place takesFloat takes returns =>
      exact .inl ((takesFloat.known i).symm.trans ((takes.known i).symm.trans
        ((returns.known i).symm.trans known)))

theorem FetchesPayload.known {id : OperandId}
    (fetches : FetchesPayload state id reg type fetched) (i : Nat) :
    fetched.allocation.known i = state.allocation.known i := by
  cases fetches with
  | payloadReg | valueReg => rfl
  | payloadSlot slot middle place takes | valueSlot slot middle place proven takes =>
      exact takes.known i

end Asm

end InlineCache
