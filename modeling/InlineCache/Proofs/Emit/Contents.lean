import InlineCache.Proofs.Code.Flow
import InlineCache.Proofs.Emit.Accounts

/-!
What operands hold while code is generated.  The code so far leads to a machine, and the machine has a
word at the place of each operand.  Taking registers moves operands about, but each goes on holding its
word, in its form.
-/

namespace InlineCache

/-- What an operand holds: a word, and how to read it. -/
structure Content where
  form : Form
  word : UInt64
  deriving DecidableEq, Repr

/-- The word at a place. -/
def Machine.wordAt (machine : Machine) : Location → UInt64
  | .nowhere => 0
  | .payloadReg reg _ | .valueReg reg => machine.regs reg
  | .payloadSlot slot _ | .valueSlot slot | .floatSlot slot => machine.slots slot
  | .floatReg reg => (machine.floats reg).bits

namespace Location

def content? (location : Location) (machine : Machine) : Option Content :=
  location.form?.map fun form => ⟨form, machine.wordAt location⟩

theorem content?_setReg {location : Location} {reg : Register}
    (elsewhere : location.resource? ≠ some (.register reg)) (machine : Machine) (w : UInt64) :
    location.content? (machine.setReg reg w) = location.content? machine := by
  cases location with
  | payloadReg other type | valueReg other =>
      have different : other ≠ reg := by
        rintro rfl
        exact elsewhere rfl
      simp only [content?, Machine.wordAt, Machine.regs_setReg, if_neg different]
  | _ => rfl

theorem content?_setFloat {location : Location} {reg : FloatRegister}
    (elsewhere : location.resource? ≠ some (.float reg)) (machine : Machine) (d : Double) :
    location.content? (machine.setFloat reg d) = location.content? machine := by
  cases location with
  | floatReg other =>
      have different : other ≠ reg := by
        rintro rfl
        exact elsewhere rfl
      simp only [content?, Machine.wordAt, Machine.floats_setFloat, if_neg different]
  | _ => rfl

theorem content?_setSlot {location : Location} {slot : Nat}
    (elsewhere : location.resource? ≠ some (.slot slot)) (machine : Machine) (w : UInt64) :
    location.content? (machine.setSlot slot w) = location.content? machine := by
  cases location with
  | payloadSlot other type | valueSlot other | floatSlot other =>
      have different : other ≠ slot := by
        rintro rfl
        exact elsewhere rfl
      simp only [content?, Machine.wordAt, Machine.setSlot, if_neg different]
  | _ => rfl

@[simp] theorem content?_setSave (location : Location) (machine : Machine) (slot : Nat)
    (d : Double) : location.content? (machine.setSave slot d) = location.content? machine := by
  cases location <;> rfl

/-- An operand that is moved from its register to a slot holds what it held. -/
theorem content?_spilled {location : Location} {reg : Register}
    (held : location.register? = some reg) (machine : Machine) (slot : Nat) :
    (location.spilled slot).content? (machine.setSlot slot (machine.regs reg)) =
      location.content? machine := by
  cases location with
  | payloadReg other type | valueReg other =>
      cases held
      simp only [content?, spilled, form?, Machine.wordAt, Machine.setSlot, if_true]
  | _ => cases held

theorem content?_floatSlot {location : Location} {reg : FloatRegister}
    (held : location.floatRegister? = some reg) (machine : Machine) (slot : Nat) :
    (floatSlot slot).content? (machine.setSlot slot (machine.floats reg).bits) =
      location.content? machine := by
  cases location with
  | floatReg other =>
      cases held
      simp only [content?, form?, Machine.wordAt, Machine.setSlot, if_true]
  | _ => cases held

end Location

namespace Allocation

theorem place_spill {allocation : Allocation} {index : Nat} {reg : Register}
    (held : (allocation.place index).register? = some reg) (slot : Nat) :
    (allocation.spill index slot).place index = (allocation.place index).spilled slot := by
  refine place_setLocation_self (lt_of_place ?_)
  show allocation.place index ≠ _
  intro empty
  rw [empty] at held
  cases held

theorem place_spillFloat {allocation : Allocation} {index : Nat} {reg : FloatRegister}
    (held : (allocation.place index).floatRegister? = some reg) (slot : Nat) :
    (allocation.spillFloat index slot).place index = .floatSlot slot := by
  refine place_setLocation_self (lt_of_place ?_)
  show allocation.place index ≠ _
  intro empty
  rw [empty] at held
  cases held

/-- What an operand holds, if it has a place. -/
def content (allocation : Allocation) (machine : Machine) (index : Nat) : Option Content :=
  (allocation.place index).content? machine

/-- Float registers in the pool have the numbers that the caller left in them, and so have the save
slots of those that were taken. -/
def Callers (origin : Machine) (allocation : Allocation) (machine : Machine) : Prop :=
  allocation.savesFloats = true →
    (∀ reg : FloatRegister, allocation.availableFloats.contains reg.index = true →
      machine.floats reg = origin.floats reg) ∧
    ∀ reg slot, (reg, slot) ∈ allocation.saved → machine.saves slot = origin.floats reg

end Allocation

/-- The code so far leads to a machine. -/
def Assembler.Reaches (entry : Entry) (origin : Machine) (state : Assembler) (machine : Machine) :
    Prop :=
  state.buffer.flow entry origin = .running none machine

/-- A stretch of code that leaves to operands what they hold, and the pinned registers alone. -/
structure Keeps (entry : Entry) (origin : Machine) (before : Assembler) (m : Machine)
    (after : Assembler) (n : Machine) : Prop where
  reached : after.Reaches entry origin n
  contents : ∀ i, after.allocation.content n i = before.allocation.content m i
  fixed : ∀ i (reg : Register), (before.allocation.place i).register? = some reg →
    before.allocation.pinned.contains reg.index = true →
    after.allocation.place i = before.allocation.place i
  pinned : ∀ r, before.allocation.pinned.contains r = true →
    after.allocation.pinned.contains r = true
  scratch : ∀ r, before.allocation.scratch.contains r = true →
    after.allocation.scratch.contains r = true
  regs : ∀ reg : Register, before.allocation.pinned.contains reg.index = true →
    n.regs reg = m.regs reg
  known : ∀ i, after.allocation.known i = before.allocation.known i
  defined : ∀ i, after.allocation.defined i = before.allocation.defined i
  alike : m.Alike n
  callers : before.allocation.Callers origin m → after.allocation.Callers origin n

namespace Keeps

variable {entry : Entry} {origin : Machine}

theorem refl {state : Assembler} {m : Machine} (reached : state.Reaches entry origin m) :
    Keeps entry origin state m state m where
  reached := reached
  contents _ := rfl
  fixed _ _ _ _ := rfl
  pinned _ member := member
  scratch _ member := member
  regs _ _ := rfl
  known _ := rfl
  defined _ := rfl
  alike := .refl m
  callers callers := callers

theorem trans {a b c : Assembler} {m n o : Machine} (first : Keeps entry origin a m b n)
    (second : Keeps entry origin b n c o) : Keeps entry origin a m c o where
  reached := second.reached
  contents i := (second.contents i).trans (first.contents i)
  fixed i reg held pinned := by
    have same := first.fixed i reg held pinned
    rw [second.fixed i reg (same ▸ held) (first.pinned _ pinned), same]
  pinned r member := second.pinned r (first.pinned r member)
  scratch r member := second.scratch r (first.scratch r member)
  known i := (second.known i).trans (first.known i)
  defined i := (second.defined i).trans (first.defined i)
  regs reg pinned := (second.regs reg (first.pinned _ pinned)).trans (first.regs reg pinned)
  alike := first.alike.trans second.alike
  callers callers := second.callers (first.callers callers)

end Keeps

theorem Assembler.Reaches.emitted {entry : Entry} {origin m n : Machine} {state : Assembler}
    {inst : Inst} (reached : state.Reaches entry origin m)
    (next : inst.exec entry m = .next n) : (state.emitted inst).Reaches entry origin n := by
  show (state.buffer.emit inst).flow entry origin = _
  rw [CodeBuffer.flow_emit, reached, Flow.step_running, next]
  rfl

namespace Asm

variable {entry : Entry} {origin m : Machine} {config : CodeConfig} {flight : List Resource}

theorem TakesRegister.keeps (takes : TakesRegister state reg after)
    (balanced : state.allocation.Balanced config flight) (reached : state.Reaches entry origin m) :
    ∃ n, Keeps entry origin state m after n ∧ n.regs = m.regs ∧ n.floats = m.floats := by
  cases takes with
  | pool available =>
      refine ⟨m, ?_, rfl, rfl⟩
      exact
        { reached
          contents := fun _ => rfl
          fixed := fun _ _ _ _ => rfl
          pinned := fun _ member => RegisterSet.contains_insert_of_contains _ member
          scratch := fun _ member => member
          regs := fun _ _ => rfl
          known := fun _ => rfl
          defined := fun _ => rfl
          alike := .refl m
          callers := fun callers => callers }
  | spill victim slot _ held unpinned unused bound =>
      refine ⟨m.setSlot slot (m.regs reg), ?_, rfl, rfl⟩
      exact
        { reached := show (state.emitted _).Reaches entry origin _ from reached.emitted rfl
          contents := by
            intro i
            show ((state.allocation.spill victim slot).place i).content? _ = _
            by_cases same : victim = i
            · subst same
              rw [Allocation.place_spill held]
              exact Location.content?_spilled held m slot
            · rw [Allocation.spill, Allocation.place_setLocation_ne same]
              exact Location.content?_setSlot
                (fun listed => unused (balanced.used_of_place i listed)) _ _
          fixed := by
            intro i other located pinned
            refine Allocation.place_setLocation_ne ?_
            rintro rfl
            cases located.symm.trans held
            rw [unpinned] at pinned
            cases pinned
          pinned := fun _ member => RegisterSet.contains_insert_of_contains _ member
          scratch := fun _ member => member
          regs := fun _ _ => rfl
          known := fun i => Allocation.known_setLocation _ _ _ _
          defined := fun i => Allocation.defined_setLocation _ _ _ _
          alike := ⟨rfl, rfl, rfl⟩
          callers := fun callers => callers }

/-- A register that is taken is not one that was pinned. -/
theorem TakesRegister.unpinned (takes : TakesRegister state reg after)
    (balanced : state.allocation.Balanced config flight) :
    state.allocation.pinned.contains reg.index = false := by
  cases takes with
  | pool available =>
      rw [Bool.eq_false_iff]
      intro pinned
      rw [balanced.pinned _ pinned] at available
      cases available
  | spill victim slot _ _ unpinned => exact unpinned

theorem TakesRegister.pinned (takes : TakesRegister state reg after)
    (balanced : state.allocation.Balanced config flight) :
    after.allocation.pinned.contains reg.index = true := by
  have bound := (takes.balanced balanced).bound_of_flight (.head _)
  cases takes with
  | pool | spill => exact RegisterSet.contains_insert_self _ bound

theorem TakesFloat.keeps (takes : TakesFloat state reg after)
    (balanced : state.allocation.Balanced config flight) (reached : state.Reaches entry origin m) :
    ∃ n, Keeps entry origin state m after n ∧ n.regs = m.regs ∧ n.floats = m.floats := by
  cases takes with
  | pool available unsaved =>
      refine ⟨m, ?_, rfl, rfl⟩
      exact
        { reached
          contents := fun _ => rfl
          fixed := fun _ _ _ _ => rfl
          pinned := fun _ member => member
          scratch := fun _ member => member
          regs := fun _ _ => rfl
          known := fun _ => rfl
          defined := fun _ => rfl
          alike := .refl m
          callers := by
            intro _ saves
            rw [show state.allocation.savesFloats = true from saves] at unsaved
            cases unsaved }
  | save slot available saves unused =>
      refine ⟨m.setSave slot (m.floats reg), ?_, rfl, rfl⟩
      exact
        { reached := show (state.emitted _).Reaches entry origin _ from reached.emitted rfl
          contents := fun i => Location.content?_setSave _ _ _ _
          fixed := fun _ _ _ _ => rfl
          pinned := fun _ member => member
          scratch := fun _ member => member
          regs := fun _ _ => rfl
          known := fun _ => rfl
          defined := fun _ => rfl
          alike := ⟨rfl, rfl, rfl⟩
          callers := by
            intro callers _
            obtain ⟨free, saved⟩ := callers saves
            refine ⟨fun other rest => free other ?_, fun other number listed => ?_⟩
            · exact (Bool.and_eq_true_iff.mp
                ((RegisterSet.contains_remove _ _ _).symm.trans rest)).1
            · rcases List.mem_append.mp listed with before | last
              · have different : number ≠ slot := by
                  rintro rfl
                  exact unused (List.mem_map.mpr ⟨_, before, rfl⟩)
                simp only [Machine.setSave, if_neg different]
                exact saved other number before
              · cases List.mem_singleton.mp last
                simp only [Machine.setSave, if_true]
                exact free reg available }
  | spill victim slot _ held unused bound =>
      refine ⟨m.setSlot slot (m.floats reg).bits, ?_, rfl, rfl⟩
      exact
        { reached := show (state.emitted _).Reaches entry origin _ from reached.emitted rfl
          contents := by
            intro i
            show ((state.allocation.spillFloat victim slot).place i).content? _ = _
            by_cases same : victim = i
            · subst same
              rw [Allocation.place_spillFloat held]
              exact Location.content?_floatSlot held m slot
            · rw [Allocation.spillFloat, Allocation.place_setLocation_ne same]
              exact Location.content?_setSlot
                (fun listed => unused (balanced.used_of_place i listed)) _ _
          fixed := by
            intro i other located pinned
            refine Allocation.place_setLocation_ne ?_
            rintro rfl
            cases (Location.resource?_eq_register.mpr located).symm.trans
              (Location.resource?_eq_float.mpr held)
          pinned := fun _ member => member
          scratch := fun _ member => member
          regs := fun _ _ => rfl
          known := fun i => Allocation.known_setLocation _ _ _ _
          defined := fun i => Allocation.defined_setLocation _ _ _ _
          alike := ⟨rfl, rfl, rfl⟩
          callers := fun callers => callers }

theorem ReturnsFloat.keeps (returns : ReturnsFloat state reg after)
    (balanced : state.allocation.Balanced config (.float reg :: flight))
    (reached : state.Reaches entry origin m) :
    ∃ n, Keeps entry origin state m after n ∧ n.regs = m.regs := by
  cases returns with
  | restore slot listed =>
      refine ⟨m.setFloat reg (m.saves slot), ?_, rfl⟩
      exact
        { reached := show (state.emitted _).Reaches entry origin _ from reached.emitted rfl
          contents := fun i =>
            Location.content?_setFloat (balanced.not_place_of_flight (.head _) i) _ _
          fixed := fun _ _ _ _ => rfl
          pinned := fun _ member => member
          scratch := fun _ member => member
          regs := fun _ _ => rfl
          known := fun _ => rfl
          defined := fun _ => rfl
          alike := ⟨rfl, rfl, rfl⟩
          callers := by
            intro callers saves
            obtain ⟨free, saved⟩ := callers saves
            refine ⟨fun other rest => ?_, fun other number rest => ?_⟩
            · rw [Machine.floats_setFloat]
              split
              · rename_i same
                exact same ▸ saved reg slot listed
              · rename_i different
                refine free other ?_
                rw [← RegisterSet.contains_insert_of_ne (q := reg.index)]
                · exact rest
                · intro same
                  exact different (congrArg FloatRegister.mk same).symm
            · exact saved other number (List.mem_of_mem_eraseP rest) }
  | unsaved unlisted =>
      refine ⟨m, ?_, rfl⟩
      exact
        { reached
          contents := fun _ => rfl
          fixed := fun _ _ _ _ => rfl
          pinned := fun _ member => member
          scratch := fun _ member => member
          regs := fun _ _ => rfl
          known := fun _ => rfl
          defined := fun _ => rfl
          alike := .refl m
          callers := by
            intro _ saves
            have disabled := balanced.savesFloats_of_unsaved unlisted
            rw [show state.allocation.savesFloats = true from saves] at disabled
            cases disabled }

/-- Giving a float register back does not look at operands. -/
theorem ReturnsFloat.relocated (returns : ReturnsFloat state reg after) (index : Nat)
    (location : Location) :
    ReturnsFloat (state.withAllocation (state.allocation.setLocation index location)) reg
      (after.withAllocation (after.allocation.setLocation index location)) := by
  cases returns with
  | restore slot listed => exact .restore slot listed
  | unsaved unlisted => exact .unsaved unlisted

end Asm

/-- A stretch of code after which an operand holds what it held before, or nothing. -/
structure Sheds (entry : Entry) (origin : Machine) (before : Assembler) (m : Machine)
    (after : Assembler) (n : Machine) : Prop where
  reached : after.Reaches entry origin n
  contents : ∀ i content, after.allocation.content n i = some content →
    before.allocation.content m i = some content
  known : ∀ i, after.allocation.known i = before.allocation.known i
  defined : ∀ i, after.allocation.defined i = before.allocation.defined i
  alike : m.Alike n
  callers : before.allocation.Callers origin m → after.allocation.Callers origin n

theorem Sheds.trans {entry : Entry} {origin : Machine} {a b c : Assembler} {m n o : Machine}
    (first : Sheds entry origin a m b n) (second : Sheds entry origin b n c o) :
    Sheds entry origin a m c o where
  reached := second.reached
  contents i content held := first.contents i content (second.contents i content held)
  known i := (second.known i).trans (first.known i)
  defined i := (second.defined i).trans (first.defined i)
  alike := first.alike.trans second.alike
  callers callers := second.callers (first.callers callers)

namespace Asm

variable {entry : Entry} {origin m : Machine} {config : CodeConfig} {flight : List Resource}

theorem content_clear (allocation : Allocation) {index i : Nat} {content : Content}
    {machine : Machine}
    (held : (allocation.setLocation index .nowhere).content machine i = some content) :
    allocation.content machine i = some content := by
  rw [Allocation.content] at held
  by_cases same : index = i
  · subst same
    rw [Allocation.place_clear] at held
    cases held
  · rw [Allocation.place_setLocation_ne same] at held
    exact held

/-- An operand loses its place, and the others hold what they held. -/
theorem Frees.sheds (freed : Frees state location middle) (place : state.allocation.place index = location)
    (somewhere : location ≠ .nowhere)
    (balanced : state.allocation.Balanced config flight) (reached : state.Reaches entry origin m) :
    ∃ n, Sheds entry origin state m
      (middle.withAllocation (middle.allocation.setLocation index .nowhere)) n := by
  cases freed with
  | nowhere => exact absurd rfl somewhere
  | register reg held =>
      exact ⟨m, reached, fun _ _ => content_clear (state.allocation.free reg),
        fun i => Allocation.known_setLocation _ _ _ _,
        fun i => Allocation.defined_setLocation _ _ _ _, .refl m, fun callers => callers⟩
  | slot slot held =>
      exact ⟨m, reached, fun _ _ => content_clear (state.allocation.vacate slot),
        fun i => Allocation.known_setLocation _ _ _ _,
        fun i => Allocation.defined_setLocation _ _ _ _, .refl m, fun callers => callers⟩
  | float reg _ returns =>
      have left := balanced.exchange index .nowhere (balanced.placed index (by rw [place]; exact somewhere))
      rw [place] at left
      obtain ⟨n, keeps, -⟩ := (returns.relocated index .nowhere).keeps left
        (show Assembler.Reaches entry origin _ m from reached)
      exact ⟨n, keeps.reached, fun i _ held => content_clear _ ((keeps.contents i).symm.trans held),
        fun i => (keeps.known i).trans (Allocation.known_setLocation _ _ _ _),
        fun i => (keeps.defined i).trans (Allocation.defined_setLocation _ _ _ _), keeps.alike,
        keeps.callers⟩

theorem beginOp_sheds (runs : (beginOp index).Runs state answer after)
    (balanced : state.allocation.Balanced config flight) (reached : state.Reaches entry origin m) :
    ∃ n, Sheds entry origin state m after n := by
  refine (beginOp_induct
    (P := fun current => current.allocation.Balanced config flight ∧
      current.allocation.pinned = .empty ∧ ∃ n, Sheds entry origin state m current n)
    ?_ runs ⟨balanced.turn index, rfl, m, ?_⟩).2.2
  · rintro current middle id ⟨balanced, unpinned, n, sheds⟩ - somewhere freed
    refine ⟨freed.balanced somewhere unpinned balanced, freed.pinned.trans unpinned, ?_⟩
    obtain ⟨o, later⟩ := freed.sheds rfl somewhere balanced sheds.reached
    exact ⟨o, sheds.trans later⟩
  · exact ⟨reached, fun _ _ held => held, fun _ => rfl, fun _ => rfl, .refl m, fun callers => callers⟩

end Asm

end InlineCache
