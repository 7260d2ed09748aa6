import InlineCache.Proofs.Emit.Frugal
import InlineCache.Proofs.Emit.Joined
import InlineCache.Proofs.Emit.WellKinded
import InlineCache.Proofs.Stub.Building
import InlineCache.Proofs.ValueGuards

/-!
Places are for live operands.  An operand has a place from its definition to the last operation that
mentions it, wherever it is moved in between; and where an operation begins, registers and slots are in use
for such operands alone.
-/

namespace InlineCache

namespace Allocation

/-- Operands are given places, and none loses its place. -/
structure Seats (defs : List OperandId) (before after : Allocation) : Prop where
  lastUse : ∀ i, after.lastUse i = before.lastUse i
  placed : ∀ i, after.place i ≠ .nowhere ↔
    before.place i ≠ .nowhere ∨ ∃ id ∈ defs, id.toNat = i

theorem place_ne_nowhere_iff {allocation : Allocation} {i : Nat} :
    allocation.place i ≠ .nowhere ↔ (allocation.outline i).form ≠ none := by
  rw [form_outline]
  cases allocation.place i <;> simp [Location.form?]

namespace Seats

variable {before middle after : Allocation} {defs more : List OperandId} {index : Nat} {id : OperandId}
  {change : Outline → Outline → Prop}

theorem of_alike (alike : before.Alike after) : before.Seats [] after where
  lastUse := alike.lastUse
  placed i := by
    rw [place_ne_nowhere_iff, place_ne_nowhere_iff, alike.outline]
    simp only [List.not_mem_nil, false_and, exists_false, or_false]

theorem trans (first : before.Seats defs middle) (second : middle.Seats more after) :
    before.Seats (defs ++ more) after where
  lastUse i := (second.lastUse i).trans (first.lastUse i)
  placed i := by
    rw [second.placed, first.placed, or_assoc]
    simp only [List.mem_append, or_and_right, exists_or]

/-- An operand that has a place may change its form. -/
theorem of_revises (revises : before.Revises index change after)
    (lastUse : ∀ {o p}, change o p → p.lastUse = o.lastUse)
    (live : ∀ {o p}, change o p → o.form ≠ none ∧ p.form ≠ none) : before.Seats [] after where
  lastUse := revises.lastUse (lastUse revises.revised)
  placed i := by
    simp only [List.not_mem_nil, false_and, exists_false, or_false, place_ne_nowhere_iff]
    by_cases own : i = index
    · obtain ⟨before, after⟩ := live revises.revised
      exact own ▸ iff_of_true after before
    · rw [revises.other i own]

theorem of_defines {type : PayloadType} (revises : before.Revises id.toNat (Outline.Defines type) after) :
    before.Seats [id] after where
  lastUse := revises.lastUse revises.revised.lastUse
  placed i := by
    simp only [List.mem_singleton, exists_eq_left, place_ne_nowhere_iff]
    by_cases own : i = id.toNat
    · refine iff_of_true ?_ (.inr own.symm)
      rw [own, revises.revised.form]
      exact Option.some_ne_none _
    · rw [revises.other i own]
      exact ⟨.inl, fun either => either.resolve_right (Ne.symm own)⟩

end Seats

end Allocation

namespace Asm

open Allocation

variable {state after : Assembler}

theorem Quiet.seats {α : Type} {stretch : Asm α} {answer : α} (quiet : Quiet stretch)
    (runs : stretch.Runs state answer after) : state.allocation.Seats [] after.allocation :=
  .of_alike (quiet.alike runs)

/-- What a stretch asks for gives places to the operands that it defines. -/
theorem Asks.seats {α : Type} {stretch : Asm α} {answer : α} {lent later : Option FloatRegister}
    {defs : List OperandId} (asks : Asks lent later defs stretch)
    (runs : stretch.Runs state answer after) (single : state.allocation.Single) :
    state.allocation.Seats defs after.allocation := by
  induction asks generalizing state after with
  | pure => exact (Quiet.pure _).seats runs
  | throw => exact absurd runs not_runs_throw
  | bind asks _ first second =>
      obtain ⟨_, _, runs, later⟩ := runs_bind.mp runs
      exact (first runs single).trans (second _ later (asks.edits.single runs single))
  | look _ rest =>
      obtain ⟨_, _, looks, runs⟩ := runs_bind.mp runs
      obtain ⟨rfl, rfl⟩ := runs_allocation.mp looks
      exact rest _ single runs single
  | write => exact (Quiet.emit _).seats runs
  | newLabel => exact Quiet.newLabel.seats runs
  | callsHelpers => exact Quiet.callsHelpers.seats runs
  | leave | bail => exact (Quiet.exitPath _).seats runs
  | allocateRegister => exact Quiet.allocateRegister.seats runs
  | releaseRegister => exact Quiet.releaseRegister.seats runs
  | useValueReg =>
      exact .of_revises (useValueReg_revises runs) (fun boxes => boxes.lastUse) fun boxes =>
        ⟨boxes.live, boxes.form ▸ Option.some_ne_none _⟩
  | useRegister =>
      refine .of_revises (useRegister_revises runs) Outline.Unboxes.lastUse fun unboxes =>
        ⟨unboxes.live, ?_⟩
      obtain ⟨_, form, -⟩ := unboxes.form
      exact form ▸ Option.some_ne_none _
  | prove =>
      rw [runs_setKnownType.mp runs]
      refine ⟨fun i => lastUse_setKnownType _ _ _ _, fun i => ?_⟩
      rw [Assembler.allocation_withAllocation, place_setKnownType]
      exact ⟨.inl, fun either => either.resolve_right nofun⟩
  | define _ rest =>
      obtain ⟨_, _, defines, runs⟩ := runs_bind.mp runs
      exact (Seats.of_defines (definePayloadReg_revises defines)).trans
        (rest _ runs (Edits.definePayloadReg.single defines single))
  | borrow _ rest =>
      obtain ⟨_, _, borrows, runs⟩ := runs_bind.mp runs
      exact (Quiet.allocateFloat.seats borrows).trans
        (rest _ runs (Edits.allocateFloat.single borrows single))
  | giveBack => exact Quiet.releaseFloat.seats runs

end Asm

/-- The operand is an input, or the result of an operation. -/
def DefinedIn (inputs : Nat) (front : List Op) (i : Nat) : Prop :=
  i < inputs ∨ ∃ op ∈ front, ∃ id ∈ op.results.map Prod.fst, id.toNat = i

theorem definedIn_snoc {inputs : Nat} {front : List Op} {op : Op} {i : Nat} :
    DefinedIn inputs (front ++ [op]) i ↔
      DefinedIn inputs front i ∨ ∃ id ∈ op.results.map Prod.fst, id.toNat = i := by
  simp only [DefinedIn, List.mem_append, List.mem_singleton, or_and_right, exists_or, exists_eq_left,
    or_assoc]

namespace Allocation

/-- Where an operation begins, the operands have a place that are defined before and used from there on. -/
structure Live (inputs : Nat) (front : List Op) (table : List (Option Nat)) (allocation : Allocation) :
    Prop where
  lastUse : ∀ i, allocation.lastUse i = table[i]?.join
  placed : ∀ i, allocation.place i ≠ .nowhere ↔
    DefinedIn inputs front i ∧ UsedFrom front.length table i

/-- Behind operations a place is kept by none but operands that are defined, and by each of these that is
used from there on. -/
structure Seated (inputs : Nat) (front : List Op) (table : List (Option Nat)) (allocation : Allocation) :
    Prop where
  lastUse : ∀ i, allocation.lastUse i = table[i]?.join
  defined : ∀ i, allocation.place i ≠ .nowhere → DefinedIn inputs front i
  present : ∀ i, DefinedIn inputs front i → UsedFrom front.length table i →
    allocation.place i ≠ .nowhere

namespace Seated

variable {inputs index : Nat} {front : List Op} {table : List (Option Nat)} {before after : Allocation}

theorem alike (seated : before.Seated inputs front table) (alike : before.Alike after) :
    after.Seated inputs front table where
  lastUse i := (alike.lastUse i).trans (seated.lastUse i)
  defined i := by
    rw [place_ne_nowhere_iff, alike.outline, ← place_ne_nowhere_iff]
    exact seated.defined i
  present i := by
    rw [place_ne_nowhere_iff, alike.outline, ← place_ne_nowhere_iff]
    exact seated.present i

theorem start (config : CodeConfig) (table : List (Option Nat)) :
    (blank config table).Seated 0 [] table where
  lastUse i := by rw [← lastUse_outline, outline_blank]
  defined i somewhere := absurd (place_blank config table i) somewhere
  present i defined := by
    rcases defined with below | ⟨_, impossible, -⟩
    · exact absurd below (Nat.not_lt_zero i)
    · exact absurd impossible List.not_mem_nil

/-- An input that nothing uses is defined without a place. -/
theorem defineInput (seated : before.Seated index [] table)
    (revises : before.Revises index Outline.Enters after) : after.Seated (index + 1) [] table := by
  have enters := revises.revised
  have widen {i : Nat} (defined : DefinedIn index [] i) : DefinedIn (index + 1) [] i :=
    defined.imp_left Nat.lt_succ_of_lt
  refine ⟨fun i => ?_, fun i somewhere => ?_, fun i defined used => ?_⟩
  · exact (revises.lastUse enters.lastUse i).trans (seated.lastUse i)
  · by_cases own : i = index
    · exact .inl (own ▸ Nat.lt_succ_self index)
    · rw [place_ne_nowhere_iff, revises.other i own, ← place_ne_nowhere_iff] at somewhere
      exact widen (seated.defined i somewhere)
  · rw [place_ne_nowhere_iff]
    by_cases own : i = index
    · rcases enters.form with boxed | ⟨-, unused⟩
      · rw [own, boxed]
        exact Option.some_ne_none _
      · obtain ⟨last, found, -⟩ := used
        rw [lastUse_outline, seated.lastUse, ← own, found] at unused
        cases unused
    · rw [revises.other i own, ← place_ne_nowhere_iff]
      refine seated.present i (defined.imp_left fun below => ?_) used
      exact Nat.lt_of_le_of_ne (Nat.le_of_lt_succ below) own

end Seated

/-- An operation gives places to its results. -/
theorem Live.emit {inputs : Nat} {front : List Op} {table : List (Option Nat)} {op : Op}
    {before after : Allocation} (live : before.Live inputs front table)
    (seats : before.Seats (op.results.map Prod.fst) after) :
    after.Seated inputs (front ++ [op]) table where
  lastUse i := (seats.lastUse i).trans (live.lastUse i)
  defined i := by
    rw [seats.placed, live.placed, definedIn_snoc]
    exact Or.imp_left And.left
  present i := by
    rw [seats.placed, live.placed, definedIn_snoc]
    rintro (defined | result) ⟨last, found, later⟩
    · rw [List.length_append, List.length_singleton] at later
      exact .inl ⟨defined, last, found, Nat.le_of_succ_le later⟩
    · exact .inr result

end Allocation

namespace Asm

open Allocation

variable {inputs : Nat} {front : List Op} {table : List (Option Nat)} {state after : Assembler}

theorem Frees.scratch {location : Location} (freed : Frees state location after) :
    after.allocation.scratch = state.allocation.scratch := by
  cases freed with
  | nowhere | register | slot => rfl
  | float _ _ returns => cases returns <;> rfl

/-- Whatever is not used from there on loses its place, and the scratch registers become free. -/
theorem beginOp_live (seated : state.allocation.Seated inputs front table)
    (runs : (beginOp front.length).Runs state answer after) :
    after.allocation.Live inputs front table ∧ after.allocation.scratch = .empty := by
  obtain ⟨scratch, kept⟩ := beginOp_induct
    (P := fun middle => middle.allocation.scratch = .empty ∧ ∀ i,
      middle.allocation.lastUse i = table[i]?.join ∧
        (UsedFrom front.length table i → middle.allocation.place i = state.allocation.place i))
    (by
      rintro before middle id ⟨scratch, kept⟩ stale - freed
      rw [seated.lastUse, not_usedFrom_iff] at stale
      have alike : before.allocation.Alike middle.allocation := .of_operands freed.operands
      refine ⟨freed.scratch.trans scratch, fun i => ⟨?_, fun used => ?_⟩⟩
      · exact (lastUse_setLocation ..).trans ((alike.lastUse i).trans (kept i).1)
      · have other : id ≠ i := fun same => stale (same ▸ used)
        rw [Assembler.allocation_withAllocation, place_setLocation_ne other, place, freed.operands]
        exact (kept i).2 used)
    runs ⟨rfl, fun i => ⟨seated.lastUse i, fun _ => rfl⟩⟩
  refine ⟨⟨fun i => (kept i).1, fun i => ?_⟩, scratch⟩
  by_cases used : UsedFrom front.length table i
  · rw [(kept i).2 used]
    exact ⟨fun somewhere => ⟨seated.defined i somewhere, used⟩,
      fun both => seated.present i both.1 used⟩
  · rw [beginOp_evicts runs (seated.lastUse i ▸ not_usedFrom_iff.mpr used)]
    exact iff_of_false (absurd rfl) fun both => used both.2

theorem prologue_seated {count : Nat} (seated : state.allocation.Seated 0 [] table)
    (runs : (prologue count).Runs state answer after) :
    after.allocation.Seated count [] table := by
  simp only [prologue, runs_bind] at runs
  obtain ⟨_, _, takes, _, _, clears, _, _, stores, _, _, gives, runs⟩ := runs
  have writes := ((Quiet.emit _).alike clears).trans ((Quiet.emit _).alike stores)
  have alike := ((Quiet.allocateRegister.alike takes).trans writes).trans (Quiet.releaseRegister.alike gives)
  exact defineInputs_induct (P := fun index state => state.allocation.Seated index [] table)
    (fun seated small bound _ defines => seated.defineInput (defines.revises small bound)) runs
    (seated.alike alike)

theorem emitOp_seated {env : EmitEnv} {op : Op} (seated : state.allocation.Seated inputs front table)
    (single : state.allocation.Single) (runs : (emitOp env (op, front.length)).Runs state () after) :
    after.allocation.Seated inputs (front ++ [op]) table := by
  obtain ⟨begun, begins, emits⟩ := runs_emitOp runs
  exact (beginOp_live seated begins).1.emit <|
    (op.emit_asks env).seats emits (Edits.beginOp.single begins single)

theorem body_seated {env : EmitEnv} (seated : state.allocation.Seated 0 [] table)
    (single : state.allocation.Single) (runs : (body env inputs front).Runs state () after) :
    after.allocation.Seated inputs front table := by
  induction front using List.reverseRecOn generalizing after with
  | nil =>
      obtain ⟨_, begins, done⟩ := runs_body.mp runs
      exact runs_forM_nil.mp done ▸ prologue_seated seated begins
  | append_singleton front op ih =>
      rw [body_append] at runs
      obtain ⟨_, _, before, runs⟩ := runs_bind.mp runs
      obtain ⟨_, last, done⟩ := runs_forM_cons.mp runs
      exact runs_forM_nil.mp done ▸
        emitOp_seated (ih before) ((Edits.body front).single before single) last

end Asm

/-! ### How many places there are -/

/-- The registers below a count that are not free. -/
def RegisterSet.taken (free : RegisterSet) (count : Nat) : List UInt8 :=
  (first count).toList.filter fun r => !free.contains r

namespace RegisterSet

variable {free : RegisterSet} {count : Nat} {r : UInt8}

theorem mem_taken : r ∈ free.taken count ↔ r.toNat < min count 32 ∧ free.contains r = false := by
  rw [taken, List.mem_filter, mem_toList, contains_first, decide_eq_true_eq, Bool.not_eq_true']

theorem nodup_taken : (free.taken count).Nodup :=
  ((toList_ascends (first count)).imp UInt8.ne_of_lt).filter _

end RegisterSet

namespace Allocation

/-- The registers that are not in the pool, and the slots that are taken. -/
def inUse (config : CodeConfig) (allocation : Allocation) : List Resource :=
  (allocation.available.taken config.generalRegisters.toNat).map (fun r => .register ⟨r⟩) ++
    (allocation.availableFloats.taken config.floatRegisters.toNat).map (fun r => .float ⟨r⟩) ++
    allocation.usedSlots.dedup.map .slot

variable {config : CodeConfig} {allocation : Allocation}

theorem nodup_inUse (config : CodeConfig) (allocation : Allocation) : (allocation.inUse config).Nodup := by
  rw [inUse, List.nodup_append', List.nodup_append']
  refine ⟨⟨?_, ?_, ?_⟩, ?_, ?_⟩
  · exact RegisterSet.nodup_taken.map fun _ _ same => by cases same; rfl
  · exact RegisterSet.nodup_taken.map fun _ _ same => by cases same; rfl
  · rw [List.disjoint_left]
    simp
  · exact (List.nodup_dedup _).map fun _ _ same => by cases same; rfl
  · rw [List.disjoint_right]
    simp

/-- With nothing scratch, what is in use is at an operand. -/
theorem Balanced.mem_inUse (balanced : allocation.Balanced config []) (scratch : allocation.scratch = .empty)
    (scratchFloats : allocation.scratchFloats = .empty) (resource : Resource) :
    resource ∈ allocation.inUse config ↔ ∃ index, allocation.Occupies resource index := by
  have sum := balanced.ledger resource
  have bound := quota_le_one config resource
  rw [List.count_nil, Nat.add_zero] at sum
  have held : (∃ index, allocation.Occupies resource index) ↔
      config.quota resource = 1 ∧ allocation.pool resource = 0 := by
    constructor
    · rintro ⟨index, occupies⟩
      have occupied := Balanced.occupants_pos occupies
      omega
    · rintro ⟨full, empty⟩
      exact Balanced.exists_occupies allocation resource (by omega)
  rw [held, inUse, List.mem_append, List.mem_append]
  cases resource with
  | register reg =>
      obtain ⟨r⟩ := reg
      simp [RegisterSet.mem_taken, CodeConfig.quota, pool, scratch]
  | float reg =>
      obtain ⟨r⟩ := reg
      simp [RegisterSet.mem_taken, CodeConfig.quota, pool, scratchFloats]
  | slot slot => simp [CodeConfig.quota, pool]

/-- With nothing scratch, as many registers and slots are in use as there are operands with a place. -/
theorem Balanced.length_inUse (balanced : allocation.Balanced config [])
    (scratch : allocation.scratch = .empty) (scratchFloats : allocation.scratchFloats = .empty)
    {placed : Finset Nat} (all : ∀ i, i ∈ placed ↔ allocation.place i ≠ .nowhere) :
    (allocation.inUse config).length = placed.card := by
  have places : (allocation.inUse config).toFinset.image some =
      placed.image fun i => (allocation.place i).resource? := by
    ext held
    simp only [Finset.mem_image, List.mem_toFinset, balanced.mem_inUse scratch scratchFloats, all]
    constructor
    · rintro ⟨resource, ⟨i, occupies⟩, rfl⟩
      exact ⟨i, Location.ne_nowhere_of_resource? occupies, occupies⟩
    · rintro ⟨i, somewhere, rfl⟩
      obtain ⟨resource, occupies⟩ := Location.resource?_of_ne_nowhere somewhere
      exact ⟨resource, ⟨i, occupies⟩, occupies.symm⟩
  have apart : Set.InjOn (fun i => (allocation.place i).resource?) placed := by
    intro i listed j _ same
    obtain ⟨resource, occupies⟩ := Location.resource?_of_ne_nowhere ((all i).mp listed)
    exact balanced.place_unique occupies (same.symm.trans occupies)
  calc (allocation.inUse config).length
      = (allocation.inUse config).toFinset.card := (List.toFinset_card_of_nodup (nodup_inUse ..)).symm
    _ = ((allocation.inUse config).toFinset.image some).card :=
        (Finset.card_image_of_injective _ (Option.some_injective _)).symm
    _ = (placed.image fun i => (allocation.place i).resource?).card := congrArg Finset.card places
    _ = placed.card := Finset.card_image_of_injOn apart

end Allocation

/-- The operands that are defined as inputs or in front of an operation, and that are mentioned by it or
behind it. -/
def liveOperands (inputs : Nat) (front back : List Op) : Finset Nat :=
  (Finset.range inputs ∪ (front.flatMap fun op => op.results.map (·.1.toNat)).toFinset) ∩
    (back.flatMap fun op => op.operands.map (·.toNat)).toFinset

theorem mem_liveOperands {inputs : Nat} {front back : List Op} {i : Nat} :
    i ∈ liveOperands inputs front back ↔
      DefinedIn inputs front i ∧ ∃ op ∈ back, ∃ id ∈ op.operands, id.toNat = i := by
  simp [liveOperands, DefinedIn]

theorem Asm.body_balanced {env : EmitEnv} {listed front : List Op} {count inputs : Nat}
    {allocation : Allocation} {state : Assembler}
    (runs : (body env inputs front).Runs (.start allocation) () state)
    (started : Allocation.start listed count env.config = .ok allocation) :
    state.allocation.Balanced env.config [] := by
  have steady : (Assembler.start allocation).Steady ⟨env.config, front, none⟩ (.quiet []) := by
    have balanced : allocation.Balanced env.config [] := .start started
    obtain ⟨table, -, rfl⟩ := Allocation.start_ok started
    exact ⟨balanced, .start env.config table, trivial, .start env.config front rfl⟩
  obtain ⟨_, behind⟩ := body_steady runs steady
  exact behind.balanced

/-- When code generation begins an operation, it has a place for each operand that is defined by then and
mentioned from there on, and for no other.  There are as many registers and slots in use as there are such
operands, and no register is held over from before. -/
theorem places_are_for_live_operands (program : StubProgram) (data : StubData) (config : CodeConfig)
    {front back : List Op} {op : Op} {state : Assembler}
    (read : program.terminatedOps = .ok (front ++ op :: back))
    (reached : program.EmitsTo data config front state) :
    let live := liveOperands program.inputCount.toNat front (op :: back)
    ∃ begun, (Asm.beginOp front.length).Runs state () begun ∧
      (∀ id, begun.allocation.location id ≠ .nowhere ↔ id.toNat ∈ live) ∧
      (begun.allocation.inUse config).length = live.card ∧
      begun.allocation.scratch = .empty ∧ begun.allocation.scratchFloats = .empty := by
  intro live
  obtain ⟨_, allocation, readAgain, started, runs⟩ := reached
  cases read.symm.trans readAgain
  have frugal := (Assembler.Frugal.start started).body runs
  have balanced := Asm.body_balanced runs started
  obtain ⟨table, uses, rfl⟩ := Allocation.start_ok started
  have seated := Asm.body_seated (.start config table) (.start config table) runs
  rcases begins : Asm.beginOp front.length state with ⟨error | ⟨⟩, begun⟩
  · exact absurd (congrArg Prod.fst begins) Asm.not_fails_beginOp
  obtain ⟨alive, scratch⟩ := Asm.beginOp_live seated begins
  have idle := (frugal.edited (Asm.Edits.beginOp.runs frugal.single begins)).idle
  have placed (i : Nat) : i ∈ live ↔ begun.allocation.place i ≠ .nowhere := by
    rw [mem_liveOperands, alive.placed, Allocation.usedFrom_iff uses]
  exact ⟨begun, begins, fun id => (placed id.toNat).symm,
    (Asm.beginOp_balanced begins balanced).length_inUse scratch idle.scratch placed, scratch, idle.scratch⟩

/-! Four operands are live where a helper is called, and there are three registers. -/

namespace FullHouse

def front : List Op :=
  [⟨.guardToObject, (0, 3, ())⟩, ⟨.guardToString, (1, 4, ())⟩, ⟨.guardToInt32, (2, 5, ())⟩]

def call : Op := ⟨.callRegExpMatcherResult, (3, 4, 5, ())⟩

def back : List Op := [⟨.guardIsNullOrUndefined, (0, ())⟩, ⟨.returnFromIc, ()⟩]

def program : StubProgram := ⟨(front ++ call :: back).flatMap Op.encode, 6, 3⟩

def config : CodeConfig := ⟨3, 1, 6, true, .address, true⟩

def table : List (Option Nat) := [some 4, some 1, some 2, some 3, some 3, some 3]

def reached : Assembler :=
  (Asm.body ⟨.empty, config⟩ 3 front (.start (.blank config table))).2

theorem decoded : program.terminatedOps = .ok (front ++ call :: back) :=
  program.terminatedOps_eq
    (Cursor.decodes_encode (front ++ [call, ⟨.guardIsNullOrUndefined, (0, ())⟩]) ⟨.returnFromIc, ()⟩
      (by decide) rfl 0)

theorem emitsTo : program.EmitsTo .empty config front reached :=
  ⟨_, .blank config table, decoded, rfl, Asm.runs_of_isOk (by decide +kernel)⟩

end FullHouse

open FullHouse in
/-- Two of them are in slots.  The first input is one of the four, as the last guard mentions it. -/
theorem four_live_operands_before_call :
    program.terminatedOps = .ok (front ++ call :: back) ∧ program.EmitsTo .empty config front reached ∧
      ∃ begun, (Asm.beginOp 3).Runs reached () begun ∧
        (∀ id, begun.allocation.location id ≠ .nowhere ↔ id.toNat ∈ ({0, 3, 4, 5} : Finset Nat)) ∧
        (begun.allocation.inUse config).length = 4 ∧ begun.allocation.usedSlots = [0, 1] ∧
        begun.allocation.scratch = .empty ∧ begun.allocation.scratchFloats = .empty := by
  have live : liveOperands 3 front (call :: back) = {0, 3, 4, 5} := by decide
  obtain ⟨begun, begins, placed, many, idle⟩ :=
    places_are_for_live_operands program .empty config decoded emitsTo
  rw [show liveOperands program.inputCount.toNat front (call :: back) = _ from live] at placed many
  have slots : begun.allocation.usedSlots = [0, 1] := by
    rw [show begun = (Asm.beginOp 3 reached).2 from (congrArg Prod.snd begins).symm]
    decide +kernel
  exact ⟨decoded, emitsTo, begun, begins, placed, many, slots, idle⟩

end InlineCache
