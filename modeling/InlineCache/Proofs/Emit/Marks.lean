import InlineCache.Proofs.Emit.Scope
import InlineCache.Proofs.Emit.Stubs
import Mathlib.Data.List.Nodup

/-!
Where branches meet.  At a label the allocator has to have everything where it had it at the branches to
that label, and nothing may be moved between: the code that is skipped moves no operand.  Each instruction
keeps that of all labels that are bound, and keeps the others waiting under the placements that they were
asked for under.
-/

namespace InlineCache

/-- The allocator's view of a place in the code: where operands are and what is free, and for which
operation the code is. -/
structure Placement where
  operands : List OperandState
  available : RegisterSet
  availableFloats : RegisterSet
  scratch : RegisterSet
  scratchFloats : RegisterSet
  usedSlots : List Nat
  saved : SavedFloats
  currentOp : Option Nat
  deriving DecidableEq

def Allocation.placement (allocation : Allocation) : Placement where
  operands := allocation.operands
  available := allocation.available
  availableFloats := allocation.availableFloats
  scratch := allocation.scratch
  scratchFloats := allocation.scratchFloats
  usedSlots := allocation.usedSlots
  saved := allocation.saved
  currentOp := allocation.currentOp

namespace Inst

attribute [simp] isBind

/-- The instruction takes an operand to another place, or gives it another form in its place. -/
@[simp] def moves : Inst → Bool
  | .spill _ _ | .restore _ _ | .spillFloat _ _ | .reloadFloat _ _ | .boxDouble _ _ => true
  | .boxPayload src dst _ | .unboxPayload src dst _ => src = dst
  | _ => false

theorem usesLabel_of_target {inst : Inst} {label : Label} (target : inst.target? = some label) :
    inst.usesLabel = true := by
  cases inst <;> cases target <;> rfl

theorem usesLabel_of_unbound {inst : Inst} (unbound : inst.isBind = false)
    (nowhere : inst.target? = none) : inst.usesLabel = false := by
  cases inst with
  | bind => cases unbound
  | _ => first | rfl | cases nowhere

theorem moves_of_usesLabel {inst : Inst} (uses : inst.usesLabel = true) : inst.moves = false := by
  cases inst <;> cases uses <;> rfl

end Inst

/-- An operation that clamps the operand that it defines takes its payload before it is there. -/
def Excused (ops : List Op) (current : Option Nat) (inst : Inst) : Prop :=
  (∃ reg, inst = .unboxPayload reg reg .int32) ∧
    ∃ index id, current = some index ∧ ops[index]? = some ⟨.guardToUint8Clamped, id, id, ()⟩

/-- What holds of a branch at one place of the code to a label at another one. -/
structure Meets (ops : List Op) (code : List Inst) (i j : Nat) (a b : Allocation) : Prop where
  forward : i < j
  placement : a.placement = b.placement
  still : ∀ k inst, i < k → k < j → code[k]? = some inst → inst.moves = true →
    Excused ops b.currentOp inst

/-- The label is not bound yet, and every branch to it was written under one placement, without a move
since. -/
structure Awaits (ops : List Op) (current : Option Nat) (code : List Inst)
    (marks : List (Nat × Allocation)) (label : Label) (placement : Placement) : Prop where
  unbound : .bind label ∉ code
  placed : ∀ i a inst, (i, a) ∈ marks → code[i]? = some inst → inst.target? = some label →
    a.placement = placement
  still : ∀ i a inst, (i, a) ∈ marks → code[i]? = some inst → inst.target? = some label →
    ∀ k other, i < k → code[k]? = some other → other.moves = true →
      Excused ops current other

/-- Every branch and every bound label is marked, and branches meet their labels. -/
structure Marked (ops : List Op) (code : List Inst) (marks : List (Nat × Allocation)) : Prop where
  bounded : ∀ mark ∈ marks, mark.1 < code.length
  covers : ∀ i inst, code[i]? = some inst → inst.usesLabel = true → ∃ a, (i, a) ∈ marks
  meets : ∀ i j a b inst label, (i, a) ∈ marks → (j, b) ∈ marks → code[i]? = some inst →
    inst.target? = some label → code[j]? = some (.bind label) → Meets ops code i j a b

theorem getElem?_concat_iff {code : List Inst} {inst other : Inst} {k : Nat} :
    (code ++ [inst])[k]? = some other ↔
      code[k]? = some other ∨ k = code.length ∧ inst = other := by
  rcases Nat.lt_trichotomy k code.length with before | here | behind
  · rw [List.getElem?_append_left before]
    exact ⟨.inl, fun found => found.resolve_right fun last => Nat.ne_of_lt before last.1⟩
  · subst here
    rw [List.getElem?_concat_length, List.getElem?_eq_none (Nat.le_refl _)]
    simp
  · have outside : (code ++ [inst]).length ≤ k := by
      rw [List.length_append]
      exact behind
    rw [List.getElem?_eq_none outside, List.getElem?_eq_none (Nat.le_of_lt behind)]
    simpa using fun last => absurd last (Nat.ne_of_gt behind)

variable {ops : List Op} {current : Option Nat} {code : List Inst} {marks : List (Nat × Allocation)} {inst : Inst}
  {label : Label} {allocation : Allocation} {placement : Placement}

theorem Meets.append {i j : Nat} {a b : Allocation} (meets : Meets ops code i j a b)
    (bound : j < code.length) (more : List Inst) : Meets ops (code ++ more) i j a b := by
  refine ⟨meets.forward, meets.placement, fun k found after before here => ?_⟩
  rw [List.getElem?_append_left (Nat.lt_trans before bound)] at here
  exact meets.still k found after before here

namespace Marked

theorem old (marked : Marked ops code marks) {i : Nat} {a : Allocation} {found : Inst}
    (mark : (i, a) ∈ marks) (here : (code ++ [inst])[i]? = some found) : code[i]? = some found :=
  (getElem?_concat_iff.mp here).resolve_right fun last =>
    Nat.ne_of_lt (marked.bounded _ mark) last.1

theorem meets_old (marked : Marked ops code marks) {i j : Nat} {a b : Allocation} {branch : Inst}
    (mark : (i, a) ∈ marks) (other : (j, b) ∈ marks) (here : (code ++ [inst])[i]? = some branch)
    (target : branch.target? = some label) (bound : (code ++ [inst])[j]? = some (.bind label)) :
    Meets ops (code ++ [inst]) i j a b := by
  have meets := marked.meets i j a b branch label mark other (marked.old mark here) target
    (marked.old other bound)
  refine ⟨meets.forward, meets.placement, fun k moved after before found => ?_⟩
  refine meets.still k moved after before ((getElem?_concat_iff.mp found).resolve_right ?_)
  exact fun last => Nat.ne_of_lt (Nat.lt_trans before (marked.bounded _ other)) last.1

theorem plain (marked : Marked ops code marks) (plain : inst.usesLabel = false) :
    Marked ops (code ++ [inst]) marks where
  bounded mark member := by
    rw [List.length_append]
    exact Nat.lt_of_lt_of_le (marked.bounded mark member) (Nat.le_add_right ..)
  covers i found here uses := by
    rcases getElem?_concat_iff.mp here with before | ⟨-, rfl⟩
    · exact marked.covers i found before uses
    · cases plain.symm.trans uses
  meets _ _ _ _ _ _ mark other here target bound := marked.meets_old mark other here target bound

theorem concat (marked : Marked ops code marks)
    (branches : ∀ label j b, inst.target? = some label → (j, b) ∈ marks →
      code[j]? ≠ some (.bind label))
    (binds : ∀ label i a branch, inst = .bind label → (i, a) ∈ marks → code[i]? = some branch →
      branch.target? = some label → Meets ops (code ++ [inst]) i code.length a allocation) :
    Marked ops (code ++ [inst]) (marks ++ [(code.length, allocation)]) where
  bounded mark member := by
    rw [List.length_append]
    rcases List.mem_append.mp member with before | last
    · exact Nat.lt_of_lt_of_le (marked.bounded mark before) (Nat.le_add_right ..)
    · rw [List.mem_singleton.mp last]
      exact Nat.lt_succ_self _
  covers i found here uses := by
    rcases getElem?_concat_iff.mp here with before | ⟨rfl, -⟩
    · obtain ⟨a, mark⟩ := marked.covers i found before uses
      exact ⟨a, List.mem_append_left _ mark⟩
    · exact ⟨allocation, List.mem_append_right _ (.head _)⟩
  meets i j a b branch label mark other here target bound := by
    -- the branch and the label are both old, or one of them is the new instruction
    rcases List.mem_append.mp mark with before | last
    · rcases List.mem_append.mp other with beforeToo | last
      · exact marked.meets_old before beforeToo here target bound
      · cases List.mem_singleton.mp last
        rw [List.getElem?_concat_length, Option.some_inj] at bound
        exact binds label i a branch bound before (marked.old before here) target
    · cases List.mem_singleton.mp last
      rw [List.getElem?_concat_length, Option.some_inj] at here
      subst here
      rcases List.mem_append.mp other with before | last
      · exact absurd (marked.old before bound) (branches label j b target before)
      · cases List.mem_singleton.mp last
        rw [List.getElem?_concat_length, Option.some_inj] at bound
        subst bound
        cases target

end Marked

namespace Awaits

theorem plain (awaits : Awaits ops current code marks label placement) (marked : Marked ops code marks)
    (plain : inst.usesLabel = false)
    (still : inst.moves = true → Excused ops current inst) :
    Awaits ops current (code ++ [inst]) marks label placement where
  unbound bound := by
    rcases List.mem_append.mp bound with before | last
    · exact awaits.unbound before
    · rw [← List.mem_singleton.mp last] at plain
      cases plain
  placed i a branch mark here := awaits.placed i a branch mark (marked.old mark here)
  still i a branch mark here target k other after found moves := by
    rcases getElem?_concat_iff.mp found with before | ⟨-, rfl⟩
    · exact awaits.still i a branch mark (marked.old mark here) target k other after before moves
    · exact still moves

theorem concat (awaits : Awaits ops current code marks label placement) (marked : Marked ops code marks)
    (uses : inst.usesLabel = true) (other : inst ≠ .bind label)
    (placed : inst.target? = some label → allocation.placement = placement) :
    Awaits ops current (code ++ [inst]) (marks ++ [(code.length, allocation)]) label placement where
  unbound bound := by
    rcases List.mem_append.mp bound with before | last
    · exact awaits.unbound before
    · exact other (List.mem_singleton.mp last).symm
  placed i a branch mark here target := by
    rcases List.mem_append.mp mark with before | last
    · exact awaits.placed i a branch before (marked.old before here) target
    · cases List.mem_singleton.mp last
      rw [List.getElem?_concat_length, Option.some_inj] at here
      exact placed (here ▸ target)
  still i a branch mark here target k moved after found moves := by
    rcases getElem?_concat_iff.mp found with before | ⟨-, rfl⟩
    · rcases List.mem_append.mp mark with earlier | last
      · exact awaits.still i a branch earlier (marked.old earlier here) target k moved after before
          moves
      · cases List.mem_singleton.mp last
        exact absurd (List.getElem?_eq_some_iff.mp before).1 (Nat.lt_asymm after)
    · cases (Inst.moves_of_usesLabel uses).symm.trans moves

end Awaits

/-- Where code is generated: under a configuration, for one of the operations of a program. -/
structure Spot where
  config : CodeConfig
  ops : List Op
  current : Option Nat

namespace Assembler

/-- Branches so far have met their labels, or await them. -/
structure Joined (spot : Spot) (paths : List Label) (opened : List (Label × Placement))
    (state : Assembler) : Prop where
  sound : state.Sound
  current : state.allocation.currentOp = spot.current
  paths : ∀ label ∈ paths, ∃ path ∈ state.exits, path.label = label
  targets : ∀ inst ∈ state.buffer.insts.toList, ∀ label, inst.target? = some label →
    label < state.buffer.labels
  marked : Marked spot.ops state.buffer.insts.toList state.marks.toList
  reserves : ∀ entry ∈ opened, state.Reserves entry.1
  awaits : ∀ entry ∈ opened,
    Awaits spot.ops spot.current state.buffer.insts.toList state.marks.toList entry.1 entry.2
  distinct : (opened.map Prod.fst).Nodup

section

variable (state : Assembler) (inst : Inst)

theorem code_emitted : (state.emitted inst).buffer.insts.toList = state.buffer.insts.toList ++ [inst] :=
  Array.toList_push

variable {inst}

theorem marks_emitted_plain (plain : inst.usesLabel = false) :
    (state.emitted inst).marks = state.marks := by
  rw [emitted, plain]

theorem marks_emitted (uses : inst.usesLabel = true) :
    (state.emitted inst).marks.toList =
      state.marks.toList ++ [(state.buffer.insts.toList.length, state.allocation)] := by
  rw [emitted, uses]
  exact Array.toList_push

end

namespace Joined

variable {spot : Spot} {paths : List Label} {opened rest : List (Label × Placement)}
  {state after : Assembler} {inst : Inst} {label : Label} {placement : Placement}

theorem start (config : CodeConfig) (ops : List Op) {allocation : Allocation}
    (idle : allocation.currentOp = none) :
    (start allocation).Joined ⟨config, ops, none⟩ [] [] where
  sound := .start allocation
  current := idle
  paths := nofun
  targets _ member := nomatch member
  marked := ⟨fun _ member => (nomatch member), fun _ _ here => (nomatch here),
    fun _ _ _ _ _ _ member => nomatch member⟩
  reserves := nofun
  awaits := nofun
  distinct := List.nodup_nil

theorem of_same (joined : state.Joined spot paths opened) (code : after.buffer = state.buffer)
    (exits : after.exits = state.exits) (marks : after.marks = state.marks)
    (current : after.allocation.currentOp = state.allocation.currentOp) :
    after.Joined spot paths opened where
  sound := joined.sound.of_buffer code exits
  current := current.trans joined.current
  paths := exits ▸ joined.paths
  targets := code ▸ joined.targets
  marked := by
    rw [code, marks]
    exact joined.marked
  reserves entry member := (joined.reserves entry member).grows (.of_buffer code exits)
  awaits := by
    rw [code, marks]
    exact joined.awaits
  distinct := joined.distinct

/-- With no label open, the code may be for another operation. -/
theorem turn (joined : state.Joined spot paths []) {current : Option Nat}
    (code : after.buffer = state.buffer) (exits : after.exits = state.exits)
    (marks : after.marks = state.marks) (turned : after.allocation.currentOp = current) :
    after.Joined { spot with current } paths [] where
  sound := joined.sound.of_buffer code exits
  current := turned
  paths := exits ▸ joined.paths
  targets := code ▸ joined.targets
  marked := by
    rw [code, marks]
    exact joined.marked
  reserves := nofun
  awaits := nofun
  distinct := List.nodup_nil

theorem drop (joined : state.Joined spot paths opened) : state.Joined spot [] opened :=
  { joined with paths := nofun }

theorem perm (joined : state.Joined spot paths opened) (perm : opened.Perm rest) :
    state.Joined spot paths rest :=
  { joined with
    reserves := fun entry member => joined.reserves entry (perm.mem_iff.mpr member)
    awaits := fun entry member => joined.awaits entry (perm.mem_iff.mpr member)
    distinct := (perm.map Prod.fst).nodup_iff.mp joined.distinct }

theorem plain (joined : state.Joined spot paths opened) (plain : inst.usesLabel = false)
    (still : inst.moves = true → opened = [] ∨ Excused spot.ops spot.current inst) :
    (state.emitted inst).Joined spot paths opened where
  sound := by
    refine joined.sound.emitted ?_
    rintro label rfl
    cases plain
  current := joined.current
  paths := joined.paths
  targets other member label target := by
    rcases mem_emitted.mp member with before | rfl
    · exact joined.targets other before label target
    · cases plain.symm.trans (Inst.usesLabel_of_target target)
  marked := by
    rw [code_emitted, marks_emitted_plain state plain]
    exact joined.marked.plain plain
  reserves entry member := (joined.reserves entry member).grows (.emitted state inst)
  awaits entry member := by
    rw [code_emitted, marks_emitted_plain state plain]
    refine (joined.awaits entry member).plain joined.marked plain fun moves => ?_
    refine (still moves).resolve_left ?_
    rintro rfl
    cases member
  distinct := joined.distinct

/-- A branch to the label of an exit path, or to an open label under the placement that it awaits. -/
theorem branch (joined : state.Joined spot paths opened) (target : inst.target? = some label)
    (meant : label ∈ paths ∨ (label, state.allocation.placement) ∈ opened) :
    (state.emitted inst).Joined spot paths opened where
  sound := by
    refine joined.sound.emitted ?_
    rintro label rfl
    cases target
  current := joined.current
  paths := joined.paths
  targets other member named found := by
    rcases mem_emitted.mp member with before | rfl
    · exact joined.targets other before named found
    · cases target.symm.trans found
      rcases meant with leaves | awaited
      · obtain ⟨path, listed, rfl⟩ := joined.paths label leaves
        exact joined.sound.given path listed
      · exact (joined.reserves _ awaited).given
  marked := by
    have uses := Inst.usesLabel_of_target target
    rw [code_emitted, marks_emitted state uses]
    refine joined.marked.concat (fun named j b found _ bound => ?_) fun named i a other bind _ _ _ => ?_
    · cases target.symm.trans found
      have bound := List.mem_of_getElem? bound
      rcases meant with leaves | awaited
      · obtain ⟨path, listed, rfl⟩ := joined.paths label leaves
        exact joined.sound.unbound path listed bound
      · exact (joined.awaits _ awaited).unbound bound
    · subst bind
      cases target
  reserves entry member := (joined.reserves entry member).grows (.emitted state inst)
  awaits entry member := by
    have uses := Inst.usesLabel_of_target target
    rw [code_emitted, marks_emitted state uses]
    refine (joined.awaits entry member).concat joined.marked uses ?_ fun found => ?_
    · rintro rfl
      cases target
    · cases target.symm.trans found
      -- an open label is no label of an exit path, and is open under one placement only
      rcases meant with leaves | awaited
      · obtain ⟨path, listed, same⟩ := joined.paths entry.1 leaves
        exact absurd same ((joined.reserves entry member).free path listed)
      · exact congrArg Prod.snd (List.inj_on_of_nodup_map joined.distinct awaited member rfl)
  distinct := joined.distinct

/-- A label is bound under the placement that it awaits. -/
theorem bind (joined : state.Joined spot paths ((label, state.allocation.placement) :: opened)) :
    (state.emitted (.bind label)).Joined spot paths opened where
  sound := by
    refine joined.sound.emitted ?_
    rintro _ ⟨⟩
    exact joined.reserves _ (.head _)
  current := joined.current
  paths := joined.paths
  targets other member named target := by
    rcases mem_emitted.mp member with before | rfl
    · exact joined.targets other before named target
    · cases target
  marked := by
    have awaits := joined.awaits _ (.head _)
    rw [code_emitted, marks_emitted state rfl]
    refine joined.marked.concat (fun _ _ _ target => nomatch target) ?_
    rintro _ i a branch ⟨⟩ mark here target
    refine ⟨joined.marked.bounded _ mark, awaits.placed i a branch mark here target,
      fun k inst after before found moves => ?_⟩
    rw [joined.current]
    refine awaits.still i a branch mark here target k inst after ?_ moves
    exact (getElem?_concat_iff.mp found).resolve_right fun last => Nat.ne_of_lt before last.1
  reserves entry member := (joined.reserves entry (.tail _ member)).grows (.emitted state _)
  awaits entry member := by
    rw [code_emitted, marks_emitted state rfl]
    refine (joined.awaits entry (.tail _ member)).concat joined.marked rfl ?_ fun target => nomatch target
    intro same
    have fresh := (List.nodup_cons.mp joined.distinct).1
    rw [Inst.bind.inj same] at fresh
    exact fresh (List.mem_map.mpr ⟨entry, member, rfl⟩)
  distinct := (List.nodup_cons.mp joined.distinct).2

/-- Nothing goes to a new label yet, which may be asked for under any placement. -/
theorem newLabel (joined : state.Joined spot paths opened) (placement : Placement) :
    ({ state with buffer := state.buffer.newLabel.2 } : Assembler).Joined spot paths
      ((state.buffer.labels, placement) :: opened) := by
  obtain ⟨sound, current, known, targets, marked, reserves, awaits, distinct⟩ := joined
  have grows : state.Grows { state with buffer := state.buffer.newLabel.2 } :=
    ⟨List.prefix_rfl, Nat.le_succ _, [], (List.append_nil _).symm, nofun⟩
  have unused {inst : Inst} (member : inst ∈ state.buffer.insts.toList) :
      inst.target? ≠ some state.buffer.labels :=
    fun target => Nat.lt_irrefl _ (targets inst member _ target)
  refine ⟨⟨fun path member => Nat.lt_succ_of_lt (sound.given path member), sound.distinct, sound.unbound,
    fun label bound => Nat.lt_succ_of_lt (sound.bound label bound)⟩, current, known,
    fun inst member label target => Nat.lt_succ_of_lt (targets inst member label target), marked, ?_, ?_, ?_⟩
  · intro entry member
    rcases List.mem_cons.mp member with rfl | before
    · exact ⟨Nat.lt_succ_self _, fun path member => Nat.ne_of_lt (sound.given path member)⟩
    · exact (reserves entry before).grows grows
  · intro entry member
    rcases List.mem_cons.mp member with rfl | before
    · exact ⟨fun bound => Nat.lt_irrefl _ (sound.bound _ bound),
        fun _ _ _ _ here target => absurd target (unused (List.mem_of_getElem? here)),
        fun _ _ _ _ here target => absurd target (unused (List.mem_of_getElem? here))⟩
    · exact awaits entry before
  · refine List.nodup_cons.mpr ⟨fun member => ?_, distinct⟩
    obtain ⟨entry, listed, same⟩ := List.mem_map.mp member
    exact Nat.ne_of_lt (reserves entry listed).given same

theorem exitPath {status : ExitStatus} (joined : state.Joined spot paths opened)
    (asks : (Asm.exitPath status).Runs state label after) : after.Joined spot (label :: paths) opened := by
  have marks : after.marks = state.marks := (congrArg (fun result => result.2.marks) asks).symm
  obtain ⟨grows, tidy⟩ := Asm.Tidy.exitPath (R := []) status _ _ _ asks
  obtain ⟨same, code, ⟨path, listed, named, -⟩, -⟩ := Asm.runs_exitPath asks
  refine ⟨tidy joined.sound nofun, same ▸ joined.current, fun other member => ?_,
    fun inst member other target => ?_, ?_, fun entry member => (joined.reserves entry member).grows grows, ?_,
    joined.distinct⟩
  · rcases List.mem_cons.mp member with rfl | before
    · exact ⟨path, listed, named⟩
    · obtain ⟨path, listed, named⟩ := joined.paths other before
      exact ⟨path, grows.mem_exits listed, named⟩
  · rw [code] at member
    exact Nat.lt_of_lt_of_le (joined.targets inst member other target) grows.labels
  · rw [code, marks]
    exact joined.marked
  · rw [code, marks]
    exact joined.awaits

section Quiet

variable {id : OperandId} {reg : Register}

theorem takesRegister (joined : state.Joined spot paths []) (takes : Asm.TakesRegister state reg after) :
    after.Joined spot paths [] := by
  cases takes with
  | pool => exact joined.of_same rfl rfl rfl rfl
  | spill index slot => exact (joined.plain rfl fun _ => .inl rfl).of_same rfl rfl rfl rfl

theorem fetchesValue (joined : state.Joined spot paths []) (single : state.allocation.Single)
    (fetches : Asm.FetchesValue state id reg after) : after.Joined spot paths [] := by
  cases fetches with
  | valueReg => exact joined
  | payloadReg => exact (joined.plain rfl fun _ => .inl rfl).of_same rfl rfl rfl rfl
  | valueSlot slot middle _ takes =>
      exact ((joined.takesRegister takes).plain rfl fun _ => .inl rfl).of_same rfl rfl rfl rfl
  | payloadSlot slot type tag middle _ takes =>
      have restored : (middle.emitted (.restore reg slot)).Joined spot paths [] :=
        (joined.takesRegister takes).plain rfl fun _ => .inl rfl
      exact (restored.plain rfl fun _ => .inl rfl).of_same rfl rfl rfl rfl
  | floatReg float middle _ place => exact absurd (place ▸ rfl) (single.place id.toNat)
  | floatSlot slot float first middle _ place => exact absurd (place ▸ rfl) (single.place id.toNat)

theorem fetchesPayload {type : PayloadType} (joined : state.Joined spot paths [])
    (fetches : Asm.FetchesPayload state id reg type after) : after.Joined spot paths [] := by
  cases fetches with
  | payloadReg => exact joined
  | valueReg => exact joined.plain rfl fun _ => .inl rfl
  | payloadSlot slot middle _ takes =>
      exact ((joined.takesRegister takes).plain rfl fun _ => .inl rfl).of_same rfl rfl rfl rfl
  | valueSlot slot middle _ _ takes =>
      have restored : ((middle.emitted (.restore reg slot)).withAllocation
          (middle.allocation.vacate slot)).Joined spot paths [] :=
        ((joined.takesRegister takes).plain rfl fun _ => .inl rfl).of_same rfl rfl rfl rfl
      exact restored.plain rfl fun _ => .inl rfl

end Quiet

end Joined

end Assembler

end InlineCache
