import InlineCache.Proofs.Code.Saves
import InlineCache.Proofs.Emit.Aliasing
import InlineCache.Proofs.Emit.Tidy
import InlineCache.Proofs.Emit.WellKinded

/-!
Code generation keeps the account of saved float registers.  Wherever a stretch of it ends, what the
allocator has on record as saved is what is saved when the code that was written gets there.
-/

namespace InlineCache

/-- The operand is kept neither as a double nor with the tag of one. -/
def Outline.Single (outline : Outline) : Prop :=
  outline.form ≠ some .double ∧ outline.known ≠ some .double

namespace Outline.Single

variable {before after : Outline}

theorem nowhere (lastUse : Option Nat) : Single ⟨none, none, false, lastUse⟩ :=
  ⟨nofun, nofun⟩

theorem boxes (single : before.Single) (boxes : Boxes before after) : after.Single := by
  refine ⟨boxes.form ▸ nofun, ?_⟩
  rcases boxes.known with same | ⟨type, -, -, same⟩
  · exact same ▸ single.2
  · exact same ▸ type.valueType?_ne_double

theorem unboxes (single : before.Single) (unboxes : Unboxes before after) : after.Single := by
  obtain ⟨type, form, -⟩ := unboxes.form
  exact ⟨form ▸ nofun, unboxes.known ▸ single.2⟩

theorem defines {type : PayloadType} (single : before.Single) (defines : Defines type before after) :
    after.Single := by
  refine ⟨defines.form ▸ nofun, ?_⟩
  rw [defines.known]
  cases tagged : type.valueType? with
  | none => exact single.2
  | some tag =>
      rw [Option.some_or, ← tagged]
      exact type.valueType?_ne_double

theorem enters (single : before.Single) (enters : Enters before after) : after.Single := by
  refine ⟨?_, enters.known ▸ single.2⟩
  rcases enters.form with boxed | ⟨same, -⟩
  · exact boxed ▸ nofun
  · exact same ▸ single.1

end Outline.Single

namespace Allocation

/-- No operand is a double. -/
def Single (allocation : Allocation) : Prop :=
  ∀ i, (allocation.outline i).Single

namespace Single

variable {before after allocation : Allocation}

theorem alike (single : before.Single) (alike : before.Alike after) : after.Single :=
  fun i => alike.outline i ▸ single i

theorem revises {index : Nat} {change : Outline → Outline → Prop} (single : before.Single)
    (revises : before.Revises index change after)
    (kept : ∀ {o p : Outline}, o.Single → change o p → p.Single) : after.Single := by
  intro i
  by_cases own : i = index
  · subst own
    exact kept (single i) revises.revised
  · rw [revises.other i own]
    exact single i

theorem modifyOperand (single : allocation.Single) (index : Nat) {change : OperandState → OperandState}
    (kept : ∀ operand : OperandState, operand.outline.Single → (change operand).outline.Single) :
    (allocation.modifyOperand index change).Single := by
  intro i
  have before := single i
  rw [outline] at before ⊢
  rw [operand?_modifyOperand]
  split
  · cases found : allocation.operands[i]? with
    | none => exact .nowhere _
    | some operand =>
        rw [found] at before
        exact kept operand before
  · exact before

theorem setKnownType (single : allocation.Single) (id : OperandId) {type : ValueType}
    (other : type ≠ .double) : (allocation.setKnownType id type).Single :=
  single.modifyOperand id.toNat fun _ kept => ⟨kept.1, fun same => other (Option.some.inj same)⟩

theorem start (config : CodeConfig) (table : List (Option Nat)) : (blank config table).Single := by
  intro i
  rw [outline_blank]
  exact .nowhere _

/-- No operand is in a float register or in the slot of one. -/
theorem place (single : allocation.Single) (i : Nat) :
    (allocation.place i).form? ≠ some .double := by
  rw [← form_outline]
  exact (single i).1

theorem known (single : allocation.Single) (id : OperandId) :
    allocation.knownType id ≠ some .double := by
  rw [knownType_eq_known, ← known_outline]
  exact (single id.toNat).2

/-- A float register that is saved is scratch. -/
theorem scratch {config : CodeConfig} (single : allocation.Single)
    (balanced : allocation.Balanced config []) (saves : config.savesFloats = true)
    {reg : FloatRegister} (listed : reg ∈ allocation.saved.map Prod.fst) :
    allocation.scratchFloats.contains reg.index = true := by
  obtain ⟨below, taken⟩ := (balanced.mem_saved saves reg).mp listed
  cases balanced.partitioned.floats reg below with
  | free free => cases free.symm.trans taken
  | scratch _ scratch => exact scratch
  | operand index _ _ located =>
      refine absurd ?_ (single.place index)
      rw [Occupies] at located
      cases place : allocation.place index <;> rw [place] at located <;> cases located
      rfl

end Single

end Allocation

namespace Inst

/-- The instruction goes on to the next one, and touches neither float registers nor save slots. -/
def isStraight : Inst → Bool
  | .loadInput _ _ | .storeOutput _ | .movImm _ _ | .mov _ _ | .loadStubWord _ _ | .load64 _ _ _
  | .load32 _ _ _ | .loadIndexed64 _ _ _ | .spill _ _ | .restore _ _ | .cmpSet _ _ _ _
  | .andImm _ _ | .unboxPayload _ _ _ | .boxPayload _ _ _ | .loadValueTag _ _ | .boxDouble _ _
  | .clampDoubleToUint8 _ _ | .clampInt32ToUint8 _ | .int32ToIntPtr _ _
  | .spectreMaskIndex _ _ _ => true
  | _ => false

/-- The instruction may go to a label, and touches neither float registers nor save slots. -/
def isBranch : Inst → Bool
  | .branchTestType _ _ _ _ | .branchTestNumber _ _ _ | .branch32 _ _ _ _ | .branchPtr _ _ _ _
  | .branchTestShape _ _ _ _ _ _ | .branchTestClass _ _ _ _ _ _ | .doubleToInt32Exact _ _ _
  | .doubleToIntPtrExact _ _ _ | .truncateDoubleModUint32 _ _ _ | .callHelper _ _ _ _ _ _ => true
  | inst => inst.isStraight

theorem branch_of_straight {inst : Inst} (straight : inst.isStraight = true) : inst.isBranch = true := by
  cases inst <;> cases straight <;> rfl

theorem targets_of_straight {inst : Inst} (straight : inst.isStraight = true) : inst.targets = [] := by
  cases inst with
  | load64 => exact targets_load64
  | cmpSet => exact targets_cmpSet
  | _ => cases straight <;> rfl

end Inst

namespace CodeBuffer

/-- The code so far goes by a record of what is saved where each label is gone to, and ends at a place
with something saved, or where it does not fall through. -/
structure Walked (owed : List SavedFloats) (here : Option SavedFloats) (buffer : CodeBuffer) : Prop where
  labels : owed.length = buffer.labels
  walks : Walks owed (some []) buffer.insts.toList here

namespace Walked

variable {owed : List SavedFloats} {here there : Option SavedFloats} {buffer : CodeBuffer}

theorem emit {inst : Inst} (walked : buffer.Walked owed here) (stands : Stands owed here inst there) :
    (buffer.emit inst).Walked owed there := by
  refine ⟨walked.labels, ?_⟩
  rw [CodeBuffer.emit, Array.toList_push]
  exact walked.walks.append (.cons stands .nil)

/-- A new label is for whatever is to be saved where it is gone to. -/
theorem newLabel (walked : buffer.Walked owed here) (saved : SavedFloats) :
    buffer.newLabel.2.Walked (owed ++ [saved]) here ∧
      (owed ++ [saved])[buffer.labels]? = some saved := by
  refine ⟨⟨?_, walked.walks.mono [saved]⟩, ?_⟩
  · rw [List.length_append, walked.labels]
    rfl
  · rw [← walked.labels, List.getElem?_concat_length]

end Walked

end CodeBuffer

/-- Labels with what is saved where they are gone to. -/
abbrev Records := List (Label × SavedFloats)

namespace Assembler

/-- The code so far gets to its end with something saved, if it gets there.  Where the label of an exit
path is gone to, that is saved which the path restores. -/
def Accounts (labels : Records) (saved : SavedFloats) (state : Assembler) : Prop :=
  ∃ owed here, state.buffer.Walked owed here ∧ (here = none ∨ here = some saved) ∧
    (∀ path ∈ state.exits, owed[path.label]? = some path.saved) ∧
    ∀ record ∈ labels, owed[record.1]? = some record.2

namespace Accounts

variable {labels : Records} {saved later : SavedFloats} {state after : Assembler} {label : Label}

theorem start (allocation : Allocation) : (start allocation).Accounts [] [] :=
  ⟨[], some [], ⟨rfl, .nil⟩, .inr rfl, fun _ impossible => (nomatch impossible),
    fun _ impossible => nomatch impossible⟩

theorem of_same (accounts : state.Accounts labels saved) (buffer : after.buffer = state.buffer)
    (exits : after.exits = state.exits) : after.Accounts labels saved := by
  rw [Accounts, buffer, exits]
  exact accounts

/-- An instruction that is no label, and no jump or return. -/
theorem emitted {inst : Inst} (accounts : state.Accounts labels saved) (unbound : inst.bound? = none)
    (stays : ∀ status, inst ≠ .ret status) (records : ∀ label ∈ inst.targets, (label, later) ∈ labels)
    (writes : ∀ f, inst.float? = some f → f ∈ saved.map Prod.fst)
    (behind : saved.behind? inst = some later) : (state.emitted inst).Accounts labels later := by
  obtain ⟨owed, here, walked, rfl | rfl, exits, known⟩ := accounts
  · exact ⟨owed, none, walked.emit (.dead unbound), .inl rfl, exits, known⟩
  · have stands : Stands owed (some saved) inst (some later) :=
      .plain unbound stays (fun label member => known _ (records label member)) writes behind
    exact ⟨owed, some later, walked.emit stands, .inr rfl, exits, known⟩

theorem branch {inst : Inst} (accounts : state.Accounts labels saved) (branch : inst.isBranch = true)
    (records : ∀ label ∈ inst.targets, (label, saved) ∈ labels) :
    (state.emitted inst).Accounts labels saved := by
  cases inst <;> cases branch <;>
    exact accounts.emitted rfl (fun _ => Inst.noConfusion) records
      (fun _ impossible => nomatch impossible) rfl

theorem straight {inst : Inst} (accounts : state.Accounts labels saved)
    (straight : inst.isStraight = true) : (state.emitted inst).Accounts labels saved :=
  accounts.branch (Inst.branch_of_straight straight)
    fun _ member => nomatch (Inst.targets_of_straight straight ▸ member)

theorem jump (accounts : state.Accounts labels saved) (record : (label, saved) ∈ labels) :
    (state.emitted (.jump label)).Accounts labels later := by
  obtain ⟨owed, here, walked, rfl | rfl, exits, known⟩ := accounts
  · exact ⟨owed, none, walked.emit (.dead rfl), .inl rfl, exits, known⟩
  · exact ⟨owed, none, walked.emit (.jump (known _ record)), .inl rfl, exits, known⟩

theorem bind (accounts : state.Accounts labels saved) (record : (label, saved) ∈ labels) :
    (state.emitted (.bind label)).Accounts labels saved := by
  obtain ⟨owed, here, walked, falls, exits, known⟩ := accounts
  refine ⟨owed, some saved, walked.emit (.bind (known _ record) fun found same => ?_), .inr rfl, exits,
    known⟩
  rcases falls with rfl | rfl
  · cases same
  · exact (Option.some.inj same).symm

theorem ret {status : ExitStatus} (accounts : state.Accounts labels []) :
    (state.emitted (.ret status)).Accounts labels [] := by
  obtain ⟨owed, here, walked, rfl | rfl, exits, known⟩ := accounts
  · exact ⟨owed, none, walked.emit (.dead rfl), .inl rfl, exits, known⟩
  · exact ⟨owed, none, walked.emit .ret, .inl rfl, exits, known⟩

/-- A label that is new is gone to with what is saved where it was asked for. -/
theorem newLabel (accounts : state.Accounts labels saved) (buffer : after.buffer = state.buffer.newLabel.2)
    {more : ExitPaths} (exits : after.exits = state.exits ++ more)
    (added : ∀ path ∈ more, path.label = state.buffer.labels ∧ path.saved = saved) :
    after.Accounts ((state.buffer.labels, saved) :: labels) saved := by
  obtain ⟨owed, here, walked, falls, given, known⟩ := accounts
  obtain ⟨asked, new⟩ := walked.newLabel saved
  have kept {label : Label} {found : SavedFloats} (record : owed[label]? = some found) :
      (owed ++ [saved])[label]? = some found :=
    (List.getElem?_append_left (List.getElem?_eq_some_iff.mp record).1).trans record
  refine ⟨owed ++ [saved], here, buffer ▸ asked, falls, fun path member => ?_, fun record member => ?_⟩
  · rw [exits] at member
    rcases List.mem_append.mp member with before | now
    · exact kept (given path before)
    · rw [(added path now).1, (added path now).2]
      exact new
  · rcases List.mem_cons.mp member with rfl | before
    · exact new
    · exact kept (known record before)

theorem weaken {others : Records} (accounts : state.Accounts labels saved)
    (fewer : ∀ record ∈ others, record ∈ labels) : state.Accounts others saved := by
  obtain ⟨owed, here, walked, falls, exits, known⟩ := accounts
  exact ⟨owed, here, walked, falls, exits, fun record member => known record (fewer record member)⟩

theorem exitPath {status : ExitStatus} (accounts : state.Accounts labels state.allocation.saved)
    (runs : (Asm.exitPath status).Runs state label after) :
    after.Accounts ((label, state.allocation.saved) :: labels) state.allocation.saved := by
  obtain ⟨-, -, ⟨path, member, rfl, -, same⟩, rfl | ⟨named, buffer, exits⟩⟩ := Asm.exitPath_gives runs
  · obtain ⟨owed, here, walked, falls, given, known⟩ := accounts
    refine ⟨owed, here, walked, falls, given, fun record listed => ?_⟩
    rcases List.mem_cons.mp listed with rfl | before
    · exact (given path member).trans (congrArg some same)
    · exact known record before
  · rw [named] at exits ⊢
    refine accounts.newLabel buffer exits fun path added => ?_
    cases List.mem_singleton.mp added
    exact ⟨rfl, rfl⟩

theorem takesRegister {reg : Register} (accounts : state.Accounts labels saved)
    (takes : Asm.TakesRegister state reg after) :
    after.Accounts labels saved ∧ after.allocation.saved = state.allocation.saved := by
  cases takes with
  | pool => exact ⟨accounts.of_same rfl rfl, rfl⟩
  | spill index slot => exact ⟨(accounts.straight rfl).of_same rfl rfl, rfl⟩

theorem fetchesValue {id : OperandId} {reg : Register} (accounts : state.Accounts labels saved)
    (single : state.allocation.Single) (fetches : Asm.FetchesValue state id reg after) :
    after.Accounts labels saved ∧ after.allocation.saved = state.allocation.saved := by
  cases fetches with
  | valueReg => exact ⟨accounts, rfl⟩
  | payloadReg => exact ⟨(accounts.straight rfl).of_same rfl rfl, rfl⟩
  | valueSlot slot middle _ takes =>
      obtain ⟨taken, same⟩ := accounts.takesRegister takes
      exact ⟨(taken.straight rfl).of_same rfl rfl, same⟩
  | payloadSlot slot type tag middle _ takes =>
      obtain ⟨taken, same⟩ := accounts.takesRegister takes
      exact ⟨((taken.straight rfl).straight rfl).of_same rfl rfl, same⟩
  | floatReg float middle _ place => exact absurd (place ▸ rfl) (single.place id.toNat)
  | floatSlot slot float first middle _ place => exact absurd (place ▸ rfl) (single.place id.toNat)

theorem fetchesPayload {id : OperandId} {reg : Register} {type : PayloadType}
    (accounts : state.Accounts labels saved) (fetches : Asm.FetchesPayload state id reg type after) :
    after.Accounts labels saved ∧ after.allocation.saved = state.allocation.saved := by
  cases fetches with
  | payloadReg => exact ⟨accounts, rfl⟩
  | valueReg => exact ⟨accounts.straight rfl, rfl⟩
  | payloadSlot slot middle _ takes =>
      obtain ⟨taken, same⟩ := accounts.takesRegister takes
      exact ⟨(taken.straight rfl).of_same rfl rfl, same⟩
  | valueSlot slot middle _ _ takes =>
      obtain ⟨taken, same⟩ := accounts.takesRegister takes
      exact ⟨((taken.straight rfl).of_same rfl rfl).straight rfl, same⟩

end Accounts

/-- No operand is a double, and the record of saved registers is what the code bears out. -/
structure Settled (config : CodeConfig) (labels : Records) (saved : SavedFloats) (state : Assembler) :
    Prop where
  balanced : state.allocation.Balanced config []
  single : state.allocation.Single
  recorded : state.allocation.saved = saved
  accounts : state.Accounts labels saved

end Assembler

namespace Asm

/-- The stretch goes on from one settled state to another. -/
def Settles (config : CodeConfig) (labels : Records) (saved later : SavedFloats) (stretch : Asm α) :
    Prop :=
  ∀ state answer after, stretch.Runs state answer after → state.Settled config labels saved →
    after.Settled config labels later

namespace Settles

variable {config : CodeConfig} {labels : Records} {saved middle later : SavedFloats} {α β : Type}
  {inst : Inst} {label : Label}

theorem pure {answer : α} : Settles config labels saved saved (pure answer : Asm α) := by
  intro state _ after runs settled
  obtain ⟨-, rfl⟩ := runs_pure.mp runs
  exact settled

theorem bind {stretch : Asm α} {next : α → Asm β} (first : Settles config labels saved middle stretch)
    (second : ∀ answer, Settles config labels middle later (next answer)) :
    Settles config labels saved later (stretch >>= next) := by
  intro state answer after runs settled
  obtain ⟨a, between, runsFirst, runsSecond⟩ := runs_bind.mp runs
  exact second a _ _ _ runsSecond (first _ _ _ runsFirst settled)

theorem throw {error : CodeError} : Settles config labels saved later (throw error : Asm α) :=
  fun _ _ _ runs => absurd runs not_runs_throw

theorem reject {defect : Defect} : Settles config labels saved later (reject defect : Asm α) :=
  throw

/-- No operand is known to be a double in the state that is looked at. -/
theorem allocation_bind {next : Allocation → Asm β}
    (rest : ∀ found : Allocation, found.Single → Settles config labels saved later (next found)) :
    Settles config labels saved later (allocation >>= next) := by
  intro state answer after runs settled
  obtain ⟨_, _, looks, runs⟩ := runs_bind.mp runs
  obtain ⟨rfl, rfl⟩ := runs_allocation.mp looks
  exact rest _ settled.single _ _ _ runs settled

theorem modifyAllocation {change : Allocation → Allocation}
    (balanced : ∀ {allocation : Allocation}, allocation.Balanced config [] →
      (change allocation).Balanced config [])
    (single : ∀ {allocation : Allocation}, allocation.Single → (change allocation).Single)
    (same : ∀ allocation, (change allocation).saved = allocation.saved) :
    Settles config labels saved saved (modifyAllocation change) := by
  intro state _ after runs settled
  rw [runs_modifyAllocation.mp runs]
  exact ⟨balanced settled.balanced, single settled.single, (same _).trans settled.recorded,
    settled.accounts.of_same rfl rfl⟩

theorem emit_branch (branch : inst.isBranch = true)
    (records : ∀ label ∈ inst.targets, (label, saved) ∈ labels) :
    Settles config labels saved saved (emit inst) := by
  intro state _ after runs settled
  rw [runs_emit.mp runs]
  exact ⟨settled.balanced, settled.single, settled.recorded, settled.accounts.branch branch records⟩

theorem emit_straight (straight : inst.isStraight = true) :
    Settles config labels saved saved (emit inst) := by
  intro state _ after runs settled
  rw [runs_emit.mp runs]
  exact ⟨settled.balanced, settled.single, settled.recorded, settled.accounts.straight straight⟩

/-- A number is written to a register that is saved. -/
theorem emit_float {reg : FloatRegister} (unbound : inst.bound? = none) (targets : inst.targets = [])
    (writes : inst.float? = some reg) (listed : reg ∈ saved.map Prod.fst) :
    Settles config labels saved saved (emit inst) := by
  intro state _ after runs settled
  rw [runs_emit.mp runs]
  refine ⟨settled.balanced, settled.single, settled.recorded, settled.accounts.emitted unbound ?_ ?_ ?_ ?_⟩
  · rintro status rfl
    cases writes
  · exact fun _ member => nomatch (targets ▸ member)
  · intro f same
    cases same.symm.trans writes
    exact listed
  · cases inst <;> cases writes <;> rfl

theorem emit_jump (record : (label, saved) ∈ labels) :
    Settles config labels saved saved (emit (.jump label)) := by
  intro state _ after runs settled
  rw [runs_emit.mp runs]
  exact ⟨settled.balanced, settled.single, settled.recorded, settled.accounts.jump record⟩

theorem emit_bind (record : (label, saved) ∈ labels) :
    Settles config labels saved saved (emit (.bind label)) := by
  intro state _ after runs settled
  rw [runs_emit.mp runs]
  exact ⟨settled.balanced, settled.single, settled.recorded, settled.accounts.bind record⟩

theorem emit_ret {status : ExitStatus} : Settles config labels [] [] (emit (.ret status)) := by
  intro state _ after runs settled
  rw [runs_emit.mp runs]
  exact ⟨settled.balanced, settled.single, settled.recorded, settled.accounts.ret⟩

theorem newLabel_bind {next : Label → Asm β}
    (rest : ∀ label, Settles config ((label, saved) :: labels) saved later (next label)) :
    Settles config labels saved later (newLabel >>= next) := by
  intro state answer after runs settled
  obtain ⟨label, _, asks, runs⟩ := runs_bind.mp runs
  cases asks
  have asked : Assembler.Accounts ((state.buffer.labels, saved) :: labels) saved
      { state with buffer := state.buffer.newLabel.2 } :=
    settled.accounts.newLabel rfl (List.append_nil _).symm fun _ impossible => nomatch impossible
  have last := rest _ _ _ _ runs ⟨settled.balanced, settled.single, settled.recorded, asked⟩
  exact ⟨last.balanced, last.single, last.recorded, last.accounts.weaken fun _ => .tail _⟩

theorem exitPath_bind {status : ExitStatus} {next : Label → Asm β}
    (rest : ∀ label, Settles config ((label, saved) :: labels) saved later (next label)) :
    Settles config labels saved later (exitPath status >>= next) := by
  intro state answer after runs settled
  obtain ⟨label, between, asks, runs⟩ := runs_bind.mp runs
  obtain ⟨same, -⟩ := exitPath_gives asks
  obtain ⟨balanced, single, rfl, accounts⟩ := settled
  have last := rest label _ _ _ runs
    ⟨same ▸ balanced, same ▸ single, congrArg _ same, accounts.exitPath asks⟩
  exact ⟨last.balanced, last.single, last.recorded, last.accounts.weaken fun _ => .tail _⟩

theorem setKnownType {id : OperandId} {type : ValueType} (other : type ≠ .double) :
    Settles config labels saved saved (setKnownType id type) :=
  modifyAllocation (fun balanced => balanced.setKnownType id type)
    (fun single => single.setKnownType id other) fun _ => rfl

theorem callsHelpers : Settles config labels saved saved
    (modify fun state => { state with callsHelpers := true } : Asm Unit) := by
  intro state _ after runs settled
  rw [runs_modify.mp runs]
  exact ⟨settled.balanced, settled.single, settled.recorded, settled.accounts.of_same rfl rfl⟩

theorem allocateRegister : Settles config labels saved saved allocateRegister := by
  intro state reg after runs settled
  obtain ⟨middle, takes, rfl⟩ := runs_allocateRegister runs
  obtain ⟨accounts, same⟩ := settled.accounts.takesRegister takes
  exact ⟨(takes.balanced settled.balanced).hold,
    (settled.single.alike takes.alike).alike (.of_operands rfl), same.trans settled.recorded,
    accounts.of_same rfl rfl⟩

theorem releaseRegister {reg : Register} :
    Settles config labels saved saved (releaseRegister reg) := by
  intro state _ after runs settled
  rw [runs_releaseRegister.mp runs]
  split
  · rename_i held
    exact ⟨settled.balanced.release held, settled.single.alike (.of_operands rfl), settled.recorded,
      settled.accounts.of_same rfl rfl⟩
  · exact settled

theorem useValueReg {id : OperandId} : Settles config labels saved saved (useValueReg id) := by
  intro state reg after runs settled
  have balanced := (useValueReg_balanced runs settled.balanced).1
  have single := settled.single.revises (useValueReg_revises runs) Outline.Single.boxes
  obtain ⟨-, fetched, fetches, rfl⟩ := runs_useValueReg runs
  obtain ⟨accounts, same⟩ := settled.accounts.fetchesValue settled.single fetches
  exact ⟨balanced, single, same.trans settled.recorded, accounts.of_same rfl rfl⟩

theorem useRegister {id : OperandId} : Settles config labels saved saved (useRegister id) := by
  intro state reg after runs settled
  have balanced := (useRegister_balanced runs settled.balanced).1
  have single := settled.single.revises (useRegister_revises runs) Outline.Single.unboxes
  obtain ⟨-, type, fetched, fetches, rfl⟩ := runs_useRegister runs
  obtain ⟨accounts, same⟩ := settled.accounts.fetchesPayload fetches
  exact ⟨balanced, single, same.trans settled.recorded, accounts.of_same rfl rfl⟩

theorem definePayloadReg {id : OperandId} {type : PayloadType} :
    Settles config labels saved saved (definePayloadReg id type) := by
  intro state reg after runs settled
  have balanced := definePayloadReg_balanced runs settled.balanced
  have single := settled.single.revises (definePayloadReg_revises runs) Outline.Single.defines
  obtain ⟨-, -, middle, takes, rfl⟩ := runs_definePayloadReg runs
  have marked : (state.withAllocation (state.allocation.markDefined id)).Accounts labels saved :=
    settled.accounts.of_same rfl rfl
  obtain ⟨accounts, same⟩ := marked.takesRegister takes
  refine ⟨balanced, single, Eq.trans ?_ (same.trans settled.recorded), accounts.of_same rfl rfl⟩
  rw [Assembler.allocation_withAllocation, Allocation.learn]
  cases type.valueType? <;> rfl

/-- A float register that is taken has been saved, to a slot of its own. -/
theorem allocateFloat_bind {next : FloatRegister → Asm β} (saves : config.savesFloats = true)
    (rest : ∀ float slot, Settles config labels (saved ++ [(float, slot)]) later (next float)) :
    Settles config labels saved later (allocateFloat >>= next) := by
  rintro state answer after runs ⟨balanced, single, rfl, accounts⟩
  obtain ⟨float, _, allocates, runs⟩ := runs_bind.mp runs
  obtain ⟨middle, takes, rfl⟩ := runs_allocateFloat allocates
  have level := (takes.balanced balanced).holdFloat
  have alike : (middle.allocation.holdFloat float).Single :=
    (single.alike takes.alike).alike (.of_operands rfl)
  cases takes with
  | pool _ unsaved =>
      rw [balanced.savesFloats, saves] at unsaved
      cases unsaved
  | save slot available _ unused =>
      have fresh : float ∉ state.allocation.saved.map Prod.fst := fun listed => by
        have taken := ((balanced.mem_saved saves float).mp listed).2
        cases taken.symm.trans available
      have saves : (state.emitted (.saveFloat float slot)).Accounts labels
          (state.allocation.saved ++ [(float, slot)]) :=
        accounts.emitted rfl (fun _ => Inst.noConfusion) (fun _ impossible => nomatch impossible)
          (fun _ impossible => nomatch impossible) (if_neg (not_or.mpr ⟨fresh, unused⟩))
      exact rest float slot _ _ _ runs ⟨level, alike, rfl, saves.of_same rfl rfl⟩
  | spill index slot _ held =>
      refine absurd ?_ (single.place index)
      cases place : state.allocation.place index <;> rw [place] at held <;> cases held
      rfl

/-- What was saved last is restored when its register is released. -/
theorem releaseFloat {float : FloatRegister} {slot : Nat} (saves : config.savesFloats = true) :
    Settles config labels (saved ++ [(float, slot)]) saved (releaseFloat float) := by
  intro state answer after runs settled
  have releases := runs_releaseFloat runs
  obtain ⟨balanced, single, recorded, accounts⟩ := settled
  have listed : (float, slot) ∈ state.allocation.saved :=
    recorded ▸ List.mem_append_right _ (.head _)
  have held := single.scratch balanced saves (List.mem_map_of_mem listed)
  have level := releases.balanced balanced
  have alike := single.alike releases.alike
  have fresh : float ∉ saved.map Prod.fst := by
    have once := balanced.saved_nodup
    rw [recorded, List.map_append, List.nodup_append] at once
    exact fun member => once.2.2 _ member _ (.head _) rfl
  cases releases with
  | other free => cases free.symm.trans held
  | scratch _ _ returns =>
      cases returns with
      | unsaved unsaved => exact absurd listed (unsaved slot)
      | restore other stored =>
          have stored : (float, other) ∈ saved ++ [(float, slot)] := recorded ▸ stored
          obtain rfl : other = slot := by
            rcases List.mem_append.mp stored with before | last
            · exact absurd (List.mem_map_of_mem before) fresh
            · cases List.mem_singleton.mp last
              rfl
          refine ⟨level, alike, ?_, ?_⟩
          · show state.allocation.saved.eraseP (·.1 = float) = saved
            rw [recorded, List.eraseP_append_right, List.eraseP_cons_of_pos (by simp),
              List.append_nil]
            exact fun entry member same =>
              fresh (of_decide_eq_true same ▸ List.mem_map_of_mem member)
          · have behind : SavedFloats.behind? (saved ++ [(float, other)]) (.restoreFloat float other) =
                some saved := by
              rw [SavedFloats.behind?, if_pos stored, List.erase_append_right _
                fun member => fresh (List.mem_map_of_mem member), List.erase_cons_head, List.append_nil]
            have restores : (state.emitted (.restoreFloat float other)).Accounts labels saved :=
              accounts.emitted rfl (fun _ => Inst.noConfusion)
                (fun _ member => absurd member List.not_mem_nil)
                (fun _ same => absurd same.symm (Option.some_ne_none _)) behind
            exact restores.of_same rfl rfl

end Settles

end Asm

end InlineCache
