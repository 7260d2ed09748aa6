import InlineCache.Proofs.Uniform.Writes

/-!
Asking for operands and registers.  An operand that is wanted in another form than its own changes its
form in the register where it is, or in the one that it is loaded into.
-/

namespace InlineCache

namespace Allocation

/-- Where an operand was listed shows no longer when it is listed elsewhere. -/
theorem setLocation_setKnownType_setLocation (allocation : Allocation) (id : OperandId)
    (type : ValueType) (first second : Location) :
    ((allocation.setLocation id.toNat first).setKnownType id type).setLocation id.toNat second =
      (allocation.setKnownType id type).setLocation id.toNat second := by
  simp only [setLocation, setKnownType, modifyOperand, List.modify_modify_eq]
  rfl

end Allocation

theorem Asm.TakesRegister.grows {state after : Assembler} {reg : Register}
    (takes : TakesRegister state reg after) : state.Grows after := by
  cases takes with
  | pool => exact .of_buffer rfl rfl
  | spill index slot => exact (Assembler.Grows.emitted _ _).trans (.of_buffer rfl rfl)

namespace View

theorem box_of_boxed {view : View} {i : Nat} {w : UInt64}
    (held : view.contents i = some ⟨.boxed, w⟩) : view.box i = view := by
  rw [box, held]

theorem box_of_payload {view : View} {i : Nat} {type : PayloadType} {tag : ValueType} {w : UInt64}
    (held : view.contents i = some ⟨.payload type, w⟩) (tagged : type.valueType? = some tag) :
    view.box i = (view.learn i tag).store i ⟨.boxed, Word.box w type⟩ := by
  rw [box, held]
  dsimp only
  rw [tagged]
  rfl

theorem unbox_of_payload {view : View} {i : Nat} {type : PayloadType} {w : UInt64}
    (held : view.contents i = some ⟨.payload type, w⟩) : view.unbox i = view := by
  rw [unbox, held]

theorem unbox_of_boxed {view : View} {i : Nat} {type : PayloadType} {w : UInt64}
    (held : view.contents i = some ⟨.boxed, w⟩)
    (proven : (view.known i).bind PayloadType.ofValueType? = some type) :
    view.unbox i = view.store i ⟨.payload type, Word.unbox w type⟩ := by
  rw [unbox, held]
  dsimp only
  rw [proven]
  rfl

end View

namespace Shows

variable {entry : Entry} {origin : Machine} {view : View} {window : Option Window}
  {held : List (Nat × Register)} {own : List (Source × UInt64)} {paths : List (Label × ExitStatus)}
  {labels : List Label} {a b middle : Assembler} {m n : Machine} {id : OperandId} {reg : Register}

/-- A register that an operand is in is pinned. -/
theorem pin {notes : Notes} {i : Nat} (shows : Shows view notes a m)
    (located : (a.allocation.place i).register? = some reg) :
    Shows view notes (a.withAllocation (a.allocation.pin reg)) m := by
  obtain ⟨config, balanced⟩ := shows.balanced
  have kept {r : UInt8} (member : a.allocation.pinned.contains r = true) :
      (a.allocation.pin reg).pinned.contains r = true :=
    RegisterSet.contains_insert_of_contains _ member
  exact
    { shows with
      balanced := ⟨config, balanced.pin
        (balanced.not_available_of_place i (Location.resource?_eq_register.mpr located))⟩
      opened := by
        intro w opens
        obtain ⟨place, pinned, rest⟩ := shows.opened w opens
        exact ⟨place, kept pinned, rest⟩
      held := by
        intro note member
        obtain ⟨pinned, rest⟩ := shows.held note member
        exact ⟨kept pinned, rest⟩
      scratch := by
        intro other w member
        obtain ⟨scratch, pinned⟩ := shows.scratch other w member
        exact ⟨scratch, kept pinned⟩ }

/-- An operand is loaded from its slot, in the form that it is kept in. -/
theorem reload (shows : Shows view ⟨window, held, own, none, paths, labels⟩ a m)
    (reached : a.Reaches entry origin m) (takes : Asm.TakesRegister a reg middle) {i slot : Nat}
    (location : Location) (slotted : (a.allocation.place i).resource? = some (.slot slot))
    (register : location.register? = some reg)
    (form : location.form? = (a.allocation.place i).form?)
    (word : ∀ machine : Machine, machine.wordAt (a.allocation.place i) = machine.slots slot) :
    ∃ n, Shows view ⟨window, held, own, none, paths, labels⟩
        ((middle.emitted (.restore reg slot)).withAllocation
          (((middle.allocation.vacate slot).setLocation i location).pin reg)) n ∧
      Assembler.Reaches entry origin ((middle.emitted (.restore reg slot)).withAllocation
        (((middle.allocation.vacate slot).setLocation i location).pin reg)) n := by
  obtain ⟨config, balanced⟩ := shows.balanced
  have somewhere : a.allocation.place i ≠ .nowhere := by
    intro empty
    rw [empty] at slotted
    cases slotted
  have bound := Allocation.lt_of_place somewhere
  obtain ⟨n, keeps, -⟩ := takes.reload_keeps balanced reached bound slotted register form word
  have same := takes.place i (Location.register?_of_slot? (Location.resource?_eq_slot.mp slotted))
  have occupied := Location.resource?_eq_register.mpr register
  have moved := (takes.balanced balanced).move i location (.slot slot)
    (by rw [same]; exact slotted) occupied
  have vacated := moved.vacate
  have place : ((middle.allocation.vacate slot).setLocation i location).place i = location :=
    Allocation.place_setLocation_self (takes.length ▸ bound)
  have listed := vacated.pin (vacated.not_available_of_place i (by
    rw [show ((middle.allocation.setLocation i location).vacate slot).place i = location from place]
    exact occupied))
  refine ⟨n, shows.of_keeps keeps ⟨config, listed⟩ ?_, keeps.reached⟩
  exact takes.grows.trans ((Assembler.Grows.emitted _ _).trans (.of_buffer rfl rfl))

theorem useValueReg (shows : Shows view ⟨window, held, own, none, paths, labels⟩ a m)
    (reached : a.Reaches entry origin m) (runs : (Asm.useValueReg id).Runs a reg b)
    (apart : ∀ w, window = some w → w.result ≠ id.toNat) :
    ∃ n, Shows (view.box id.toNat) ⟨window, (id.toNat, reg) :: held, own, none, paths, labels⟩ b n ∧
      b.Reaches entry origin n := by
  obtain ⟨config, balanced⟩ := shows.balanced
  obtain ⟨after, -⟩ := Asm.useValueReg_balanced runs balanced
  obtain ⟨register, pinned⟩ := Asm.useValueReg_pinned runs balanced
  obtain ⟨-, fetched, fetches, listed⟩ := Asm.runs_useValueReg runs
  suffices fetch : ∃ n, Shows (view.box id.toNat) ⟨window, held, own, none, paths, labels⟩ b n ∧
      b.Reaches entry origin n by
    obtain ⟨n, seen, leads⟩ := fetch
    exact ⟨n, seen.grasp register pinned apart, leads⟩
  have kept (form : (a.allocation.place id.toNat).form? = some .boxed) :
      ∃ n, Shows (view.box id.toNat) ⟨window, held, own, none, paths, labels⟩ b n ∧
        b.Reaches entry origin n := by
    obtain ⟨n, keeps, -⟩ := Asm.useValueReg_keeps runs balanced reached form
    rw [View.box_of_boxed (shows.located form apart)]
    exact ⟨n, shows.of_keeps keeps ⟨config, after⟩ (Asm.Tidy.useValueReg.grows runs), keeps.reached⟩
  have boxes {c : Assembler} {n : Machine} {type : PayloadType} {tag : ValueType}
      (seen : Shows view ⟨window, held, own, none, paths, labels⟩ c n)
      (leads : c.Reaches entry origin n)
      (located : c.allocation.place id.toNat = .payloadReg reg type)
      (tagged : type.valueType? = some tag) :
      Shows (view.box id.toNat) ⟨window, held, own, none, paths, labels⟩
          ((c.emitted (.boxPayload reg reg type)).withAllocation
            ((c.allocation.setKnownType id tag).setLocation id.toNat (.valueReg reg)))
          (n.setReg reg (Word.box (n.regs reg) type)) ∧
        Assembler.Reaches entry origin ((c.emitted (.boxPayload reg reg type)).withAllocation
            ((c.allocation.setKnownType id tag).setLocation id.toNat (.valueReg reg)))
          (n.setReg reg (Word.box (n.regs reg) type)) := by
    obtain ⟨_, steady⟩ := seen.balanced
    have content := seen.located (i := id.toNat) (by rw [located]; rfl) apart
    rw [located] at content
    have defined := steady.placed id.toNat (by rw [located]; exact Location.noConfusion)
    have single : tag ≠ .double :=
      fun double => type.valueType?_ne_double (tagged.trans (congrArg some double))
    have converted := (seen.learn defined single).convert id.toNat (.valueReg reg)
      (Word.box (n.regs reg) type) (by
        rw [Assembler.allocation_withAllocation, Allocation.place_setKnownType, located]
        rfl) apart rfl rfl Form.noConfusion
    rw [View.box_of_payload content tagged]
    exact ⟨converted.stay rfl (fun _ member => member) (Nat.le_refl _),
      show (c.emitted _).Reaches entry origin _ from leads.emitted rfl⟩
  cases fetches with
  | valueReg place => exact kept (by rw [place]; rfl)
  | valueSlot slot middle place takes => exact kept (by rw [place]; rfl)
  | payloadReg type tag place tagged =>
      subst listed
      obtain ⟨seen, leads⟩ := boxes shows reached place tagged
      exact ⟨_, seen.pin register, leads⟩
  | payloadSlot slot type tag middle place takes tagged =>
      obtain ⟨n, seen, leads⟩ := shows.reload reached takes (.payloadReg reg type)
        (by rw [place]; rfl) rfl (by rw [place]; rfl) fun _ => by rw [place]; rfl
      have bound := Allocation.lt_of_place (show a.allocation.place id.toNat ≠ .nowhere by
        rw [place]; exact Location.noConfusion)
      have inside : (((middle.allocation.vacate slot).setLocation id.toNat
          (.payloadReg reg type)).pin reg).place id.toNat = .payloadReg reg type :=
        Allocation.place_setLocation_self (takes.length ▸ bound)
      obtain ⟨seen, leads⟩ := boxes seen leads inside tagged
      have same := Allocation.setLocation_setKnownType_setLocation (middle.allocation.vacate slot) id
        tag (.payloadReg reg type) (.valueReg reg)
      subst listed
      exact ⟨_, seen.stay (congrArg (·.pin reg) same).symm (fun _ member => member) (Nat.le_refl _),
        leads⟩
  | floatReg float middle after located =>
      have content := shows.located (i := id.toNat) (by rw [located]; rfl) apart
      exact absurd rfl (shows.formed _ _ content)
  | floatSlot slot float first middle after located =>
      have content := shows.located (i := id.toNat) (by rw [located]; rfl) apart
      exact absurd rfl (shows.formed _ _ content)

theorem useRegister (shows : Shows view ⟨window, held, own, none, paths, labels⟩ a m)
    (reached : a.Reaches entry origin m) (runs : (Asm.useRegister id).Runs a reg b)
    (apart : ∀ w, window = some w → w.result ≠ id.toNat) :
    ∃ n, Shows (view.unbox id.toNat) ⟨window, (id.toNat, reg) :: held, own, none, paths, labels⟩
        b n ∧ b.Reaches entry origin n := by
  obtain ⟨config, balanced⟩ := shows.balanced
  obtain ⟨after, -⟩ := Asm.useRegister_balanced runs balanced
  obtain ⟨register, pinned⟩ := Asm.useRegister_pinned runs balanced
  obtain ⟨-, type, fetched, fetches, listed⟩ := Asm.runs_useRegister runs
  suffices fetch : ∃ n, Shows (view.unbox id.toNat) ⟨window, held, own, none, paths, labels⟩ b n ∧
      b.Reaches entry origin n by
    obtain ⟨n, seen, leads⟩ := fetch
    exact ⟨n, seen.grasp register pinned apart, leads⟩
  have kept (form : (a.allocation.place id.toNat).form? = some (.payload type)) :
      ∃ n, Shows (view.unbox id.toNat) ⟨window, held, own, none, paths, labels⟩ b n ∧
        b.Reaches entry origin n := by
    obtain ⟨n, keeps, -⟩ := Asm.useRegister_keeps runs balanced reached form
    rw [View.unbox_of_payload (shows.located form apart)]
    exact ⟨n, shows.of_keeps keeps ⟨config, after⟩ (Asm.Tidy.useRegister.grows runs), keeps.reached⟩
  have unboxes {c : Assembler} {n : Machine}
      (seen : Shows view ⟨window, held, own, none, paths, labels⟩ c n)
      (leads : c.Reaches entry origin n)
      (located : c.allocation.place id.toNat = .valueReg reg)
      (proven : (view.known id.toNat).bind PayloadType.ofValueType? = some type) :
      Shows (view.unbox id.toNat) ⟨window, held, own, none, paths, labels⟩
          ((c.emitted (.unboxPayload reg reg type)).withAllocation
            (c.allocation.setLocation id.toNat (.payloadReg reg type)))
          (n.setReg reg (Word.unbox (n.regs reg) type)) ∧
        Assembler.Reaches entry origin ((c.emitted (.unboxPayload reg reg type)).withAllocation
            (c.allocation.setLocation id.toNat (.payloadReg reg type)))
          (n.setReg reg (Word.unbox (n.regs reg) type)) := by
    have content := seen.located (i := id.toNat) (by rw [located]; rfl) apart
    rw [located] at content
    have converted := seen.convert id.toNat (.payloadReg reg type) (Word.unbox (n.regs reg) type)
      (by rw [located]; rfl) apart rfl rfl Form.noConfusion
    rw [View.unbox_of_boxed content proven]
    exact ⟨converted.stay rfl (fun _ member => member) (Nat.le_refl _),
      show (c.emitted _).Reaches entry origin _ from leads.emitted rfl⟩
  cases fetches with
  | payloadReg place => exact kept (by rw [place]; rfl)
  | payloadSlot slot middle place takes => exact kept (by rw [place]; rfl)
  | valueReg place proven =>
      rw [Asm.Proven, shows.known] at proven
      subst listed
      obtain ⟨seen, leads⟩ := unboxes shows reached place proven
      exact ⟨_, seen.pin register, leads⟩
  | valueSlot slot middle place proven takes =>
      rw [Asm.Proven, shows.known] at proven
      obtain ⟨n, seen, leads⟩ := shows.reload reached takes (.valueReg reg)
        (by rw [place]; rfl) rfl (by rw [place]; rfl) fun _ => by rw [place]; rfl
      have bound := Allocation.lt_of_place (show a.allocation.place id.toNat ≠ .nowhere by
        rw [place]; exact Location.noConfusion)
      have inside : (((middle.allocation.vacate slot).setLocation id.toNat
          (.valueReg reg)).pin reg).place id.toNat = .valueReg reg :=
        Allocation.place_setLocation_self (takes.length ▸ bound)
      obtain ⟨seen, leads⟩ := unboxes seen leads inside proven
      have same := Allocation.setLocation_setLocation (middle.allocation.vacate slot) id.toNat
        (.valueReg reg) (.payloadReg reg type)
      subst listed
      exact ⟨_, seen.stay (congrArg (·.pin reg) same).symm (fun _ member => member) (Nat.le_refl _),
        leads⟩

end Shows

end InlineCache
