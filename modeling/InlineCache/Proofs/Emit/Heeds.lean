import InlineCache.Proofs.Emit.Ensures
import InlineCache.Proofs.Emit.Outline
import InlineCache.Proofs.Op.Kinds

/-!
Operands that code generation reads and defines.  Whatever the kinds of operands are, it finds an
operand that it reads to be defined and one that it defines to be undefined; and as long as operands are
read as the kinds they have, each is kept in the form of its kind, and no invariant is violated.
-/

namespace InlineCache

/-- The form in which operands of a kind are kept.  None are of the kinds that only say how to read. -/
def OperandKind.form? : OperandKind → Option Form
  | .value => some .boxed
  | kind => (PayloadType.ofKind? kind).map .payload

/-- Each form is that of one kind. -/
theorem OperandKind.form?_inj {first second : OperandKind} {form : Form}
    (kept : first.form? = some form) (same : second.form? = some form) : first = second := by
  cases form with
  | boxed => cases first <;> cases kept <;> cases second <;> cases same <;> rfl
  | double => cases first <;> cases kept
  | payload type =>
      cases type <;> cases first <;> cases kept <;> cases second <;> cases same <;> rfl

/-- What is neither nowhere nor held as a payload is a value. -/
theorem OperandKind.value_of_form? {kind : OperandKind} {form : Form} {location : Location}
    (bare : location.payload? = none) (found : location.form? = some form)
    (kept : kind.form? = some form) : kind = .value := by
  cases form with
  | boxed => exact form?_inj kept rfl
  | double => cases kind <;> cases kept
  | payload type => cases bare.symm.trans (Location.payload?_of_form found)

theorem OperandKind.payload_of_form? {kind : OperandKind} {form : Form}
    (kept : kind.form? = some form) (unboxed : kind.form? ≠ some .boxed) :
    ∃ type, form = .payload type := by
  cases kind with
  | value => exact absurd rfl unboxed
  | number | typed => cases kept
  | object | string | symbol | bigint | boolean | int32 | intptr | valueTag =>
      cases kept
      exact ⟨_, rfl⟩

/-- An operand is kept in the form of its kind, if it has one, and it is somewhere while it is needed. -/
structure Outline.Suits (kind : Option OperandKind) (needed : Prop) (outline : Outline) : Prop
    extends outline.Grounded where
  defined : outline.defined = kind.isSome
  form : ∀ form, outline.form = some form → kind.bind OperandKind.form? = some form
  present : needed → outline.defined = true → outline.form ≠ none

namespace Outline.Suits

variable {kind : Option OperandKind} {needed : Prop} {before after : Outline}

theorem boxes (suits : before.Suits (some .value) needed) (boxes : Boxes before after) :
    after.Suits (some .value) needed where
  toGrounded := suits.toGrounded.boxes boxes
  defined := boxes.defined.trans suits.defined
  form _ same := boxes.form.symm.trans same
  present _ _ := boxes.form ▸ nofun

theorem unboxes {type : PayloadType} (suits : before.Suits kind needed)
    (kept : kind.bind OperandKind.form? = some (.payload type)) (unboxes : Unboxes before after) :
    after.Suits kind needed := by
  obtain ⟨held, now, earlier⟩ := unboxes.form
  have same : before.form = some (.payload held) := by
    rcases earlier with same | same
    · exact same
    · cases kept.symm.trans (suits.form _ same)
  exact
    { toGrounded := suits.toGrounded.unboxes unboxes
      defined := unboxes.defined.trans suits.defined
      form := fun form found => suits.form form (same.trans (now.symm.trans found))
      present := fun _ _ => now ▸ nofun }

theorem defines {kind : OperandKind} {type : PayloadType} {needed : Prop}
    (suits : before.Suits none needed) (kept : kind.form? = some (.payload type))
    (defines : Defines type before after) : after.Suits (some kind) needed where
  toGrounded := suits.toGrounded.defines defines
  defined := defines.defined
  form _ same := kept.trans (defines.form.symm.trans same)
  present _ _ := defines.form ▸ nofun

theorem weaken {less : Prop} (suits : before.Suits kind needed) (fewer : less → needed) :
    before.Suits kind less :=
  { suits with present := fun still => suits.present (fewer still) }

end Outline.Suits

namespace Allocation

def Grounded (allocation : Allocation) : Prop :=
  ∀ i, (allocation.outline i).Grounded

/-- All operands are kept in the forms of their kinds. -/
def Suits (kinds : Kinds) (needed : Nat → Prop) (allocation : Allocation) : Prop :=
  ∀ i, (allocation.outline i).Suits (kinds i) (needed i)

variable {before after : Allocation} {kinds : Kinds} {needed : Nat → Prop} {index : Nat}
  {id : OperandId} {change : Outline → Outline → Prop}

theorem Suits.grounded (suits : before.Suits kinds needed) : before.Grounded :=
  fun i => (suits i).toGrounded

theorem Grounded.alike (grounded : before.Grounded) (alike : before.Alike after) : after.Grounded :=
  fun i => alike.outline i ▸ grounded i

theorem Suits.alike (suits : before.Suits kinds needed) (alike : before.Alike after) :
    after.Suits kinds needed :=
  fun i => alike.outline i ▸ suits i

theorem Grounded.revises (grounded : before.Grounded) (revises : before.Revises index change after)
    (keeps : change (before.outline index) (after.outline index) →
      (after.outline index).Grounded) : after.Grounded := by
  intro i
  by_cases own : i = index
  · exact own ▸ keeps revises.revised
  · exact revises.other i own ▸ grounded i

theorem Suits.revises (suits : before.Suits kinds needed) (revises : before.Revises index change after)
    (keeps : change (before.outline index) (after.outline index) →
      (after.outline index).Suits (kinds index) (needed index)) :
    after.Suits kinds needed := by
  intro i
  by_cases own : i = index
  · exact own ▸ keeps revises.revised
  · exact revises.other i own ▸ suits i

/-- An operand that is defined gets a kind. -/
theorem Suits.defines {type : PayloadType} {kind : OperandKind} (suits : before.Suits kinds needed)
    (revises : before.Revises id.toNat (Outline.Defines type) after) (fresh : kinds id.toNat = none)
    (kept : kind.form? = some (.payload type)) : after.Suits (kinds.define id kind) needed := by
  intro i
  by_cases own : i = id.toNat
  · have before := suits i
    rw [own, fresh] at before
    rw [own, Kinds.define, if_pos rfl]
    exact before.defines kept revises.revised
  · rw [Kinds.define, if_neg own, revises.other i own]
    exact suits i

/-- An operand that is read, and is needed, is there in the form of its kind. -/
theorem Suits.form_eq (suits : before.Suits kinds needed) {read : Reading}
    (admits : kinds.Admits read) (live : needed read.1.toNat) :
    ∃ kind, kinds read.1.toNat = some kind ∧ read.2 kind = true ∧
      ∃ form, (before.place read.1.toNat).form? = some form ∧ kind.form? = some form := by
  obtain ⟨kind, same, admitted⟩ := admits
  have suited := suits read.1.toNat
  have defined : (before.outline read.1.toNat).defined = true := by
    rw [suited.defined, same]
    rfl
  obtain ⟨form, found⟩ := Option.ne_none_iff_exists'.mp (suited.present live defined)
  have kept := suited.form form found
  rw [same] at kept
  rw [form_outline] at found
  exact ⟨kind, same, admitted, form, found, kept⟩

end Allocation

namespace Asm

open Allocation

/-- No violation of an invariant. -/
def Lawful (error : CodeError) : Prop :=
  ∀ violation, error ≠ .invariant violation

/-- The stretch leaves the outlines of operands alone, and fails only lawfully. -/
def Quiet (stretch : Asm α) : Prop :=
  ∀ state, Ensures Lawful stretch state fun _ after => state.allocation.Alike after.allocation

namespace Quiet

variable {α β : Type} {stretch : Asm α}

theorem pure (answer : α) : Quiet (pure answer : Asm α) :=
  fun _ => .pure (.refl _)

theorem bind {next : α → Asm β} (first : Quiet stretch) (second : ∀ answer, Quiet (next answer)) :
    Quiet (stretch >>= next) :=
  fun state => (first state).bind fun answer after alike =>
    (second answer after).mono fun _ _ later => alike.trans later

theorem reject (defect : Defect) : Quiet (reject defect : Asm α) :=
  fun _ => .reject fun _ => nofun

theorem still (still : Still stretch) : Quiet stretch :=
  fun state => still.ensures (fun allocation => state.allocation.Alike allocation) (.refl _)

theorem alike {state after : Assembler} {answer : α} (quiet : Quiet stretch)
    (runs : stretch.Runs state answer after) : state.allocation.Alike after.allocation :=
  (quiet state).runs answer after runs

end Quiet

/-- What code generation has found out of operands when it has succeeded. -/
structure Found (reads : List Reading) (results : List (OperandId × OperandKind))
    (before after : Allocation) : Prop where
  lastUse : ∀ i, after.lastUse i = before.lastUse i
  grounded : after.Grounded
  read : ∀ read ∈ reads, before.defined read.1.toNat = true
  fresh : ∀ result ∈ results, before.defined result.1.toNat = false
  defined : ∀ i, after.defined i = true ↔
    before.defined i = true ∨ ∃ result ∈ results, i = result.1.toNat

/-- The stretch reads operands and defines some. -/
structure Heeds (reads : List Reading) (results : List (OperandId × OperandKind)) (stretch : Asm α)
    (state : Assembler) : Prop where
  finds : state.allocation.Grounded → ∀ answer after, stretch.Runs state answer after →
    Found reads results state.allocation after.allocation
  serves : ∀ kinds needed, state.allocation.Suits kinds needed →
    (∀ read ∈ reads, kinds.Admits read ∧ needed read.1.toNat) →
    (∀ result ∈ results, kinds result.1.toNat = none) →
    Ensures Lawful stretch state fun _ after => after.allocation.Suits
      (results.foldl (fun kinds result => kinds.define result.1 result.2) kinds) needed

theorem Found.defined_of_nil {before after : Allocation} {reads : List Reading}
    (found : Found reads [] before after) (i : Nat) : after.defined i = before.defined i := by
  have same := found.defined i
  simp only [List.not_mem_nil, false_and, exists_false, or_false] at same
  exact Bool.eq_iff_iff.mpr same

/-- Nothing is defined where only one outline changes that keeps this part. -/
theorem Found.of_revises {before after : Allocation} {index : Nat} {reads : List Reading}
    {change : Outline → Outline → Prop} (revises : before.Revises index change after)
    (grounded : after.Grounded) (lastUse : (after.outline index).lastUse =
      (before.outline index).lastUse)
    (defined : (after.outline index).defined = (before.outline index).defined)
    (read : ∀ read ∈ reads, before.defined read.1.toNat = true) : Found reads [] before after where
  lastUse := revises.lastUse lastUse
  grounded := grounded
  read := read
  fresh _ impossible := absurd impossible List.not_mem_nil
  defined i := by
    simp only [List.not_mem_nil, false_and, exists_false, or_false]
    rw [← defined_outline, ← defined_outline]
    by_cases own : i = index
    · rw [own, defined]
    · rw [revises.other i own]

namespace Heeds

variable {α β : Type} {reads more : List Reading} {results : List (OperandId × OperandKind)}
  {stretch : Asm α} {state : Assembler} {id : OperandId}

theorem quiet (quiet : Quiet stretch) : Heeds [] [] stretch state where
  finds grounded answer after runs := by
    have alike := quiet.alike runs
    exact
      { lastUse := alike.lastUse
        grounded := grounded.alike alike
        read := fun _ impossible => absurd impossible List.not_mem_nil
        fresh := fun _ impossible => absurd impossible List.not_mem_nil
        defined := fun i => by
          rw [← defined_outline, alike.outline, defined_outline]
          simp only [List.not_mem_nil, false_and, exists_false, or_false] }
  serves _ _ suits _ _ := (quiet state).mono fun _ _ alike => suits.alike alike

/-- It can be relied on that the operands are grounded. -/
theorem relying (heeds : state.allocation.Grounded → Heeds reads results stretch state) :
    Heeds reads results stretch state where
  finds grounded := (heeds grounded).finds grounded
  serves kinds needed suits := (heeds suits.grounded).serves kinds needed suits

theorem bind {next : α → Asm β} (first : Heeds reads [] stretch state)
    (second : ∀ answer after, state.allocation.Grounded → stretch.Runs state answer after →
      Heeds more results (next answer) after) :
    Heeds (reads ++ more) results (stretch >>= next) state where
  finds grounded answer after runs := by
    obtain ⟨a, middle, runsFirst, runsSecond⟩ := runs_bind.mp runs
    have found := first.finds grounded a middle runsFirst
    have later := (second a middle grounded runsFirst).finds found.grounded answer after runsSecond
    have same := found.defined_of_nil
    exact
      { lastUse := fun i => (later.lastUse i).trans (found.lastUse i)
        grounded := later.grounded
        read := fun read member => (List.mem_append.mp member).elim (found.read read)
          fun member => same _ ▸ later.read read member
        fresh := fun result member => same _ ▸ later.fresh result member
        defined := fun i => by rw [later.defined, same] }
  serves kinds needed suits admits fresh := by
    have served := first.serves kinds needed suits
      (fun read member => admits read (List.mem_append_left _ member))
      fun _ impossible => absurd impossible List.not_mem_nil
    refine ⟨fun answer after runs => ?_, fun error fails => ?_⟩
    · obtain ⟨a, middle, runsFirst, runsSecond⟩ := runs_bind.mp runs
      exact ((second a middle suits.grounded runsFirst).serves kinds needed
        (served.runs a middle runsFirst)
        (fun read member => admits read (List.mem_append_right _ member)) fresh).runs answer after
          runsSecond
    · rcases fails_bind.mp fails with failsFirst | ⟨a, middle, runsFirst, failsSecond⟩
      · exact served.fails error failsFirst
      · exact ((second a middle suits.grounded runsFirst).serves kinds needed
          (served.runs a middle runsFirst)
          (fun read member => admits read (List.mem_append_right _ member)) fresh).fails error
            failsSecond

/-- What follows leaves operands alone. -/
theorem bind_quiet {next : α → Asm β} (first : Heeds reads results stretch state)
    (second : ∀ answer, Quiet (next answer)) : Heeds reads results (stretch >>= next) state where
  finds grounded answer after runs := by
    obtain ⟨a, middle, runsFirst, runsSecond⟩ := runs_bind.mp runs
    have found := first.finds grounded a middle runsFirst
    have alike := (second a).alike runsSecond
    exact
      { found with
        lastUse := fun i => (alike.lastUse i).trans (found.lastUse i)
        grounded := found.grounded.alike alike
        defined := fun i => by
          rw [← defined_outline, alike.outline, defined_outline, found.defined] }
  serves kinds needed suits admits fresh :=
    (first.serves kinds needed suits admits fresh).bind fun answer _ later =>
      (second answer _).mono fun _ _ alike => later.alike alike

/-- The table of operands is looked at. -/
theorem allocation_bind {next : Allocation → Asm β}
    (rest : Heeds reads results (next state.allocation) state) :
    Heeds reads results (allocation >>= next) state where
  finds grounded answer after runs := by
    obtain ⟨_, _, found, runs⟩ := runs_bind.mp runs
    obtain ⟨rfl, rfl⟩ := runs_allocation.mp found
    exact rest.finds grounded answer after runs
  serves kinds needed suits admits fresh :=
    .allocation_bind (rest.serves kinds needed suits admits fresh)

theorem useValueReg {admits : OperandKind → Bool} (boxed : ∀ kind, admits kind = true → kind = .value) :
    Heeds [(id, admits)] [] (useValueReg id) state where
  finds grounded reg after runs := by
    have revises := useValueReg_revises runs
    have boxes := revises.revised
    have defined := (grounded id.toNat).placed boxes.live
    rw [defined_outline] at defined
    exact .of_revises revises (grounded.revises revises (grounded id.toNat).boxes) boxes.lastUse
      boxes.defined fun read member => List.mem_singleton.mp member ▸ defined
  serves kinds needed suits admitted _ := by
    obtain ⟨admitted, live⟩ := admitted _ (.head _)
    obtain ⟨kind, same, admitted, form, found, kept⟩ := suits.form_eq admitted live
    cases boxed kind admitted
    cases kept
    refine ⟨fun reg after runs => ?_, fun error fails => ?_⟩
    · have suited := suits id.toNat
      rw [same] at suited
      exact suits.revises (useValueReg_revises runs) fun boxes => same ▸ suited.boxes boxes
    · cases fails_useValueReg fails with
      | nowhere place =>
          rw [place] at found
          cases found
      | untagged type form => cases found.symm.trans form
      | outside | register | float | reloaded => exact fun _ => nofun

/-- An operand with a proven tag is defined, whether it is read or not. -/
theorem proven {admits : OperandKind → Bool} {type : ValueType}
    (known : state.allocation.knownType id = some type)
    (heeds : Heeds reads results stretch state) :
    Heeds ((id, admits) :: reads) results stretch state where
  finds grounded answer after runs := by
    have found := heeds.finds grounded answer after runs
    refine { found with read := fun read member => ?_ }
    rcases List.mem_cons.mp member with rfl | member
    · have tagged := (known_outline ..).trans known
      rw [← defined_outline]
      exact (grounded id.toNat).tagged (tagged ▸ nofun)
    · exact found.read read member
  serves kinds needed suits admitted :=
    heeds.serves kinds needed suits fun read member => admitted read (.tail _ member)

/-- No operand is proven to be a double. -/
theorem of_double (known : state.allocation.knownType id = some .double) :
    Heeds reads results stretch state :=
  relying fun grounded => absurd ((known_outline ..).trans known) (grounded id.toNat).single

/-- The tag of an operand that is defined is proven. -/
theorem setKnownType {type : ValueType} (single : type ≠ .double)
    (defined : state.allocation.Grounded → state.allocation.defined id.toNat = true) :
    Heeds [] [] (setKnownType id type) state := by
  refine relying fun grounded => ?_
  have defined := defined grounded
  have revises : state.allocation.Revises id.toNat _ (state.allocation.setKnownType id type) :=
    .setKnownType type (lt_of_defined defined)
  have known := revises.revised
  have defined : (state.allocation.outline id.toNat).defined = true := by rwa [defined_outline]
  have grounds : ((state.allocation.setKnownType id type).outline id.toNat).Grounded :=
    known ▸ ⟨fun _ => defined, fun _ => defined, fun same => single (Option.some.inj same)⟩
  constructor
  · intro grounded _ after runs
    cases runs_setKnownType.mp runs
    exact .of_revises revises (grounded.revises revises fun _ => grounds) (known ▸ rfl) (known ▸ rfl)
      fun _ impossible => absurd impossible List.not_mem_nil
  · intro kinds needed suits _ _
    refine .modify (suits.revises revises fun _ => ?_)
    have suited := suits id.toNat
    exact
      { toGrounded := grounds
        defined := known ▸ suited.defined
        form := known ▸ suited.form
        present := known ▸ suited.present }

theorem useRegister {admits : OperandKind → Bool}
    (payload : ∀ kind, admits kind = true → kind.form? ≠ some .boxed) :
    Heeds [(id, admits)] [] (useRegister id) state where
  finds grounded reg after runs := by
    have revises := useRegister_revises runs
    have unboxes := revises.revised
    have defined := (grounded id.toNat).placed unboxes.live
    rw [defined_outline] at defined
    exact .of_revises revises (grounded.revises revises (grounded id.toNat).unboxes) unboxes.lastUse
      unboxes.defined fun read member => List.mem_singleton.mp member ▸ defined
  serves kinds needed suits admitted _ := by
    obtain ⟨admitted, live⟩ := admitted _ (.head _)
    obtain ⟨kind, same, admitted, form, found, kept⟩ := suits.form_eq admitted live
    have unboxed := payload kind admitted
    obtain ⟨type, rfl⟩ := OperandKind.payload_of_form? kept unboxed
    refine ⟨fun reg after runs => ?_, fun error fails => ?_⟩
    · refine suits.revises (useRegister_revises runs) fun unboxes => ?_
      exact (suits id.toNat).unboxes (by rw [same]; exact kept) unboxes
    · cases fails_useRegister fails with
      | nowhere place =>
          rw [place] at found
          cases found
      | unproven form | double form => cases found.symm.trans form
      | outside | register => exact fun _ => nofun

section

variable {admits : OperandKind → Bool} {next : Register → Asm β}

theorem useValueReg_bind (boxed : ∀ kind, admits kind = true → kind = .value)
    (rest : ∀ reg after, state.allocation.Grounded → (Asm.useValueReg id).Runs state reg after →
      Heeds reads results (next reg) after) :
    Heeds ((id, admits) :: reads) results (Asm.useValueReg id >>= next) state :=
  bind (useValueReg boxed) rest

theorem useRegister_bind (payload : ∀ kind, admits kind = true → kind.form? ≠ some .boxed)
    (rest : ∀ reg after, Heeds reads results (next reg) after) :
    Heeds ((id, admits) :: reads) results (Asm.useRegister id >>= next) state :=
  bind (useRegister payload) fun reg after _ _ => rest reg after

end

theorem reject (defect : Defect) : Heeds reads results (reject defect : Asm α) state where
  finds _ _ _ runs := absurd runs not_runs_reject
  serves _ _ _ _ _ := .reject fun _ => nofun

/-- What reads the operand that it defines does not succeed. -/
theorem itself {admits : OperandKind → Bool} {kind : OperandKind}
    (never : state.allocation.Grounded → ∀ answer after, ¬stretch.Runs state answer after) :
    Heeds ((id, admits) :: reads) ((id, kind) :: results) stretch state where
  finds grounded answer after runs := absurd runs (never grounded answer after)
  serves _ _ _ admitted fresh := by
    obtain ⟨⟨_, same, -⟩, -⟩ := admitted _ (.head _)
    cases same.symm.trans (fresh _ (.head _))

theorem quiet_bind {next : α → Asm β} (first : Quiet stretch)
    (rest : ∀ answer after, state.allocation.Alike after.allocation →
      Heeds reads results (next answer) after) :
    Heeds reads results (stretch >>= next) state :=
  bind (quiet first) fun answer after _ runs => rest answer after ((first state).runs answer after runs)

/-- Where the operand is may leave fewer kinds that it can be of. -/
theorem narrow {admits : OperandKind → Bool} (less : OperandKind → Bool)
    (heeds : Heeds [(id, less)] results stretch state)
    (narrows : ∀ kind form, admits kind = true →
      (state.allocation.place id.toNat).form? = some form → kind.form? = some form →
      less kind = true) : Heeds [(id, admits)] results stretch state where
  finds grounded answer after runs := by
    have found := heeds.finds grounded answer after runs
    refine { found with read := fun read member => ?_ }
    cases List.mem_singleton.mp member
    exact found.read (id, less) (.head _)
  serves kinds needed suits admitted fresh := by
    obtain ⟨admits, live⟩ := admitted _ (.head _)
    obtain ⟨kind, same, admitted, form, found, kept⟩ := suits.form_eq admits live
    refine heeds.serves kinds needed suits (fun read member => ?_) fresh
    cases List.mem_singleton.mp member
    exact ⟨⟨kind, same, narrows kind form admitted found kept⟩, live⟩

/-- An operand is defined, and is not among those that are read afterwards. -/
theorem define_bind {type : PayloadType} {kind : OperandKind} {next : Register → Asm β}
    (kept : kind.form? = some (.payload type)) (apart : ∀ read ∈ reads, read.1 ≠ id)
    (rest : ∀ reg after, state.allocation.Grounded → (definePayloadReg id type).Runs state reg after →
      Heeds reads [] (next reg) after) :
    Heeds reads [(id, kind)] (definePayloadReg id type >>= next) state where
  finds grounded answer after runs := by
    obtain ⟨reg, middle, defines, runs⟩ := runs_bind.mp runs
    have revises := definePayloadReg_revises defines
    have defining := revises.revised
    have grounds := grounded.revises revises (grounded id.toNat).defines
    have found := (rest reg middle grounded defines).finds grounds answer after runs
    exact
      { lastUse := fun i => (found.lastUse i).trans (revises.lastUse defining.lastUse i)
        grounded := found.grounded
        read := fun read member => by
          have other : read.1.toNat ≠ id.toNat :=
            fun same => apart read member (UInt8.toNat_inj.mp same)
          rw [← defined_outline, ← revises.other _ other, defined_outline]
          exact found.read read member
        fresh := fun result member => by
          cases List.mem_singleton.mp member
          exact (defined_outline ..).symm.trans defining.fresh
        defined := fun i => by
          rw [found.defined_of_nil, ← defined_outline, ← defined_outline]
          by_cases own : i = id.toNat
          · rw [own, defining.defined]
            simp
          · rw [revises.other i own]
            simp [own] }
  serves kinds needed suits admits fresh := by
    have fresh : kinds id.toNat = none := fresh _ (.head _)
    have later (read : Reading) (member : read ∈ reads) :
        (kinds.define id kind).Admits read ∧ needed read.1.toNat := by
      obtain ⟨⟨found, same, admitted⟩, live⟩ := admits read member
      exact ⟨⟨found, Kinds.define_of_defined kind fresh same, admitted⟩, live⟩
    have serve (reg : Register) (middle : Assembler)
        (defines : (definePayloadReg id type).Runs state reg middle) :=
      (rest reg middle suits.grounded defines).serves (kinds.define id kind) needed
        (suits.defines (definePayloadReg_revises defines) fresh kept) later
        fun _ impossible => absurd impossible List.not_mem_nil
    refine ⟨fun answer after runs => ?_, fun error fails => ?_⟩
    · obtain ⟨reg, middle, defines, runs⟩ := runs_bind.mp runs
      exact (serve reg middle defines).runs answer after runs
    · rcases fails_bind.mp fails with defines | ⟨reg, middle, defines, fails⟩
      · cases fails_definePayloadReg defines with
        | twice defined =>
            have undefined := (suits id.toNat).defined
            rw [fresh, defined_outline, defined] at undefined
            cases undefined
        | outside | register => exact fun _ => nofun
      · exact (serve reg middle defines).fails error fails

end Heeds

end Asm

end InlineCache
