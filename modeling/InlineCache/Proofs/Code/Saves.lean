import InlineCache.Emit.ExitPath
import InlineCache.Proofs.Code.Draft

/-!
Float registers of the caller.  Code saves a register before it writes to it and restores it later.
Which registers are saved is known at every place of the code, whatever way leads there: each label
has a record of what is saved where it is gone to.
-/

namespace InlineCache

/-- The instructions that a run over code executes, in order. -/
def trail (entry : Entry) : List Inst → Option Label → Machine → List Inst
  | [], _, _ => []
  | inst :: rest, some label, machine =>
      trail entry rest (if inst = .bind label then none else some label) machine
  | inst :: rest, none, machine =>
      inst ::
        match inst.exec entry machine with
        | .next machine => trail entry rest none machine
        | .jump label machine => trail entry rest (some label) machine
        | .exit _ _ | .fault => []

namespace SavedFloats

/-- What is saved behind an instruction, if it saves a register that is not saved, to a slot that is
free, or restores a register that is saved, from its slot. -/
def behind? (saved : SavedFloats) : Inst → Option SavedFloats
  | .saveFloat reg slot =>
      if reg ∈ saved.map Prod.fst ∨ slot ∈ saved.map Prod.snd then none
      else some (saved ++ [(reg, slot)])
  | .restoreFloat reg slot =>
      if (reg, slot) ∈ saved then some (saved.erase (reg, slot)) else none
  | _ => some saved

/-- What is saved when some instructions have been executed. -/
def along? (saved : SavedFloats) (insts : List Inst) : Option SavedFloats :=
  insts.foldlM behind? saved

/-- The machine has what the caller had: in the slots of the registers that are saved, and in place
in all others. -/
structure Guards (saved : SavedFloats) (origin m : Machine) : Prop where
  registers : (saved.map Prod.fst).Nodup
  slots : (saved.map Prod.snd).Nodup
  stored : ∀ entry ∈ saved, m.saves entry.2 = origin.floats entry.1
  kept : ∀ reg, reg ∉ saved.map Prod.fst → m.floats reg = origin.floats reg

end SavedFloats

namespace Effect

/-- The machine that an instruction leaves. -/
def machine? : Effect → Option Machine
  | .next machine | .jump _ machine | .exit _ machine => some machine
  | .fault => none

@[simp] theorem machine?_ofOption (machine : Option Machine) :
    (ofOption machine).machine? = machine := by
  cases machine <;> rfl

@[simp] theorem machine?_branch (taken : Bool) (label : Label) (machine : Machine) :
    (branch taken label machine).machine? = some machine := by
  cases taken <;> rfl

end Effect

namespace Inst

/-- The float register that an instruction writes a number to which is not the caller's. -/
def float? : Inst → Option FloatRegister
  | .reloadFloat dst _ | .unboxDouble _ dst | .unboxNumber _ dst | .int32ToDouble _ dst
  | .boxIntPtr _ _ dst => some dst
  | _ => none

/-- Nothing but a return leaves the code. -/
theorem eq_ret {entry : Entry} {inst : Inst} {status : ExitStatus} {m n : Machine}
    (leaves : inst.exec entry m = .exit status n) : inst = .ret status := by
  have ofOption {next : Option Machine} : Effect.ofOption next ≠ .exit status n := by
    cases next <;> exact Effect.noConfusion
  have branch {taken : Bool} {target : Label} {next : Machine} :
      Effect.branch taken target next ≠ .exit status n := by
    cases taken <;> exact Effect.noConfusion
  cases inst with
  | ret => cases leaves; rfl
  | loadInput | loadStubWord | load64 | load32 | loadIndexed64 => exact absurd leaves ofOption
  | branchTestType | branchTestNumber | branch32 | branchPtr | callHelper =>
      exact absurd leaves branch
  | branchTestShape =>
      rw [exec] at leaves
      split at leaves
      · exact absurd leaves branch
      · cases leaves
  | branchTestClass =>
      rw [exec] at leaves
      split at leaves
      · split at leaves
        · exact absurd leaves branch
        · cases leaves
      · cases leaves
  | doubleToInt32Exact | doubleToIntPtrExact =>
      simp only [exec] at leaves
      split at leaves
      · exact absurd leaves branch
      · cases leaves
  | truncateDoubleModUint32 =>
      simp only [exec] at leaves
      split at leaves <;> cases leaves
  | _ => cases leaves

/-- Floats and save slots stay as they are but for the few instructions that write to them. -/
theorem exec_quiet {entry : Entry} {inst : Inst} {m n : Machine} (plain : inst.float? = none)
    (unsaved : ∀ reg slot, inst ≠ .saveFloat reg slot)
    (unrestored : ∀ reg slot, inst ≠ .restoreFloat reg slot)
    (leaves : (inst.exec entry m).machine? = some n) : n.floats = m.floats ∧ n.saves = m.saves := by
  cases inst with
  | saveFloat src slot => exact absurd rfl (unsaved src slot)
  | restoreFloat dst slot => exact absurd rfl (unrestored dst slot)
  | reloadFloat | unboxDouble | unboxNumber | int32ToDouble | boxIntPtr => cases plain
  | loadInput | loadStubWord =>
      rw [exec, Effect.machine?_ofOption] at leaves
      obtain ⟨_, -, rfl⟩ := Option.map_eq_some_iff.mp leaves
      exact ⟨rfl, rfl⟩
  | load64 | load32 | loadIndexed64 =>
      rw [exec, Effect.machine?_ofOption] at leaves
      obtain ⟨_, read, rfl⟩ := Option.map_eq_some_iff.mp leaves
      obtain ⟨_, -, rfl⟩ := Option.map_eq_some_iff.mp read
      exact ⟨rfl, rfl⟩
  | branchTestType | branchTestNumber | branch32 | branchPtr | callHelper =>
      rw [exec, Effect.machine?_branch] at leaves
      cases leaves
      exact ⟨rfl, rfl⟩
  | branchTestShape =>
      rw [exec] at leaves
      split at leaves
      · rename_i read
        obtain ⟨_, -, found⟩ := Option.map_eq_some_iff.mp read
        cases found
        rw [compareWord, Effect.machine?_branch] at leaves
        cases leaves
        exact ⟨rfl, rfl⟩
      · cases leaves
  | branchTestClass =>
      rw [exec] at leaves
      split at leaves
      · rename_i read
        obtain ⟨_, -, found⟩ := Option.map_eq_some_iff.mp read
        cases found
        split at leaves
        · rename_i read
          obtain ⟨_, -, found⟩ := Option.map_eq_some_iff.mp read
          cases found
          rw [compareWord, Effect.machine?_branch] at leaves
          cases leaves
          exact ⟨rfl, rfl⟩
        · cases leaves
      · cases leaves
  | doubleToInt32Exact | doubleToIntPtrExact =>
      simp only [exec] at leaves
      split at leaves
      · rw [Effect.machine?_branch] at leaves
        cases leaves
        exact ⟨rfl, rfl⟩
      · cases leaves
        exact ⟨rfl, rfl⟩
  | truncateDoubleModUint32 =>
      simp only [exec] at leaves
      split at leaves <;> cases leaves <;> exact ⟨rfl, rfl⟩
  | _ =>
      cases leaves
      exact ⟨rfl, rfl⟩

end Inst

namespace SavedFloats.Guards

variable {saved later : SavedFloats} {origin m n : Machine} {entry : Entry} {inst : Inst}

theorem start (origin : Machine) : Guards [] origin origin :=
  ⟨List.nodup_nil, List.nodup_nil, fun _ impossible => (nomatch impossible), fun _ _ => rfl⟩

/-- When nothing is saved, the floats are the caller's. -/
theorem floats (guards : Guards [] origin m) : m.floats = origin.floats :=
  funext fun reg => guards.kept reg List.not_mem_nil

theorem save {reg : FloatRegister} {slot : Nat} (guards : Guards saved origin m)
    (free : reg ∉ saved.map Prod.fst) (unused : slot ∉ saved.map Prod.snd) :
    Guards (saved ++ [(reg, slot)]) origin (m.setSave slot (m.floats reg)) where
  registers := ((List.perm_append_singleton ..).map _).nodup_iff.mpr
    (List.nodup_cons.mpr ⟨free, guards.registers⟩)
  slots := ((List.perm_append_singleton ..).map _).nodup_iff.mpr
    (List.nodup_cons.mpr ⟨unused, guards.slots⟩)
  stored entry member := by
    rcases List.mem_append.mp member with before | now
    · have other : entry.2 ≠ slot := fun same => unused (same ▸ List.mem_map_of_mem before)
      exact (if_neg other).trans (guards.stored entry before)
    · cases List.mem_singleton.mp now
      exact (if_pos rfl).trans (guards.kept reg free)
  kept f absent := guards.kept f fun member =>
    absent (by rw [List.map_append]; exact List.mem_append_left _ member)

theorem restore {reg : FloatRegister} {slot : Nat} (guards : Guards saved origin m)
    (listed : (reg, slot) ∈ saved) :
    Guards (saved.erase (reg, slot)) origin (m.setFloat reg (m.saves slot)) where
  registers := guards.registers.sublist ((List.erase_sublist ..).map _)
  slots := guards.slots.sublist ((List.erase_sublist ..).map _)
  stored entry member := guards.stored entry (List.mem_of_mem_erase member)
  kept f absent := by
    by_cases same : f = reg
    · subst same
      exact (if_pos rfl).trans (guards.stored _ listed)
    · refine (if_neg same).trans (guards.kept f fun member => absent ?_)
      obtain ⟨⟨g, other⟩, found, rfl⟩ := List.mem_map.mp member
      exact List.mem_map_of_mem
        ((List.mem_erase_of_ne fun equal => same (congrArg Prod.fst equal)).mpr found)

theorem write {reg : FloatRegister} {d : Double} (guards : Guards saved origin m)
    (listed : reg ∈ saved.map Prod.fst) : Guards saved origin (m.setFloat reg d) where
  registers := guards.registers
  slots := guards.slots
  stored := guards.stored
  kept f absent := by
    refine (if_neg ?_).trans (guards.kept f absent)
    rintro rfl
    exact absent listed

theorem quiet (guards : Guards saved origin m) (floats : n.floats = m.floats)
    (saves : n.saves = m.saves) : Guards saved origin n :=
  ⟨guards.registers, guards.slots, fun entry member => saves ▸ guards.stored entry member,
    fun f absent => floats ▸ guards.kept f absent⟩

/-- An instruction that writes to no register but saved ones leaves the caller's floats guarded. -/
theorem exec (guards : Guards saved origin m) (records : saved.behind? inst = some later)
    (writes : ∀ f, inst.float? = some f → f ∈ saved.map Prod.fst)
    (leaves : (inst.exec entry m).machine? = some n) : Guards later origin n := by
  cases inst with
  | saveFloat reg slot =>
      cases leaves
      rw [behind?] at records
      split at records
      · cases records
      · rename_i fresh
        cases records
        exact guards.save (not_or.mp fresh).1 (not_or.mp fresh).2
  | restoreFloat reg slot =>
      cases leaves
      rw [behind?] at records
      split at records
      · rename_i listed
        cases records
        exact guards.restore listed
      · cases records
  | reloadFloat dst | unboxDouble _ dst | unboxNumber _ dst | int32ToDouble _ dst =>
      cases leaves
      cases records
      exact guards.write (writes dst rfl)
  | boxIntPtr _ _ dst =>
      cases leaves
      cases records
      exact (guards.write (writes dst rfl)).quiet rfl rfl
  | _ =>
      cases records
      obtain ⟨floats, saves⟩ := Inst.exec_quiet rfl (fun _ _ => Inst.noConfusion)
        (fun _ _ => Inst.noConfusion) leaves
      exact guards.quiet floats saves

end SavedFloats.Guards

/-- From one place of the code to the next, by what is saved there.  A label has a record of what is
saved where it is gone to; a place that no instruction falls into has none. -/
inductive Stands (owed : List SavedFloats) : Option SavedFloats → Inst → Option SavedFloats → Prop
  | bind {here : Option SavedFloats} {label : Label} {saved : SavedFloats}
      (record : owed[label]? = some saved) (falls : ∀ found, here = some found → found = saved) :
      Stands owed here (.bind label) (some saved)
  | jump {label : Label} {saved : SavedFloats} (record : owed[label]? = some saved) :
      Stands owed (some saved) (.jump label) none
  | ret {status : ExitStatus} : Stands owed (some []) (.ret status) none
  | plain {inst : Inst} {saved later : SavedFloats} (unbound : inst.bound? = none)
      (stays : ∀ status, inst ≠ .ret status)
      (records : ∀ label ∈ inst.targets, owed[label]? = some later)
      (writes : ∀ f, inst.float? = some f → f ∈ saved.map Prod.fst)
      (behind : saved.behind? inst = some later) : Stands owed (some saved) inst (some later)
  | dead {inst : Inst} (unbound : inst.bound? = none) : Stands owed none inst none

/-- From the place before some instructions to the place behind them. -/
inductive Walks (owed : List SavedFloats) : Option SavedFloats → List Inst → Option SavedFloats → Prop
  | nil {here : Option SavedFloats} : Walks owed here [] here
  | cons {here middle there : Option SavedFloats} {inst : Inst} {rest : List Inst}
      (stands : Stands owed here inst middle) (walks : Walks owed middle rest there) :
      Walks owed here (inst :: rest) there

namespace Stands

variable {owed : List SavedFloats} {here there : Option SavedFloats} {inst : Inst}

/-- More labels may be handed out. -/
theorem mono (stands : Stands owed here inst there) (more : List SavedFloats) :
    Stands (owed ++ more) here inst there := by
  have later {label : Label} {saved : SavedFloats} (record : owed[label]? = some saved) :
      (owed ++ more)[label]? = some saved :=
    (List.getElem?_append_left (List.getElem?_eq_some_iff.mp record).1).trans record
  cases stands with
  | bind record falls => exact .bind (later record) falls
  | jump record => exact .jump (later record)
  | ret => exact .ret
  | plain unbound stays records writes behind =>
      exact .plain unbound stays (fun label member => later (records label member)) writes behind
  | dead unbound => exact .dead unbound

end Stands

namespace Walks

variable {owed : List SavedFloats} {here middle there : Option SavedFloats}
  {insts others : List Inst}

theorem mono (walks : Walks owed here insts there) (more : List SavedFloats) :
    Walks (owed ++ more) here insts there := by
  induction walks with
  | nil => exact .nil
  | cons stands _ ih => exact .cons (stands.mono more) ih

theorem append (first : Walks owed here insts middle) (second : Walks owed middle others there) :
    Walks owed here (insts ++ others) there := by
  induction first with
  | nil => exact second
  | cons stands _ ih => exact .cons stands (ih second)

/-- A run over such code restores what it saves, and leaves with the caller's floats. -/
theorem returns {entry : Entry} {origin m n : Machine} {status : ExitStatus}
    {pending : Option Label} {saved : SavedFloats} (walks : Walks owed here insts there)
    (arrives : (pending = none ∧ here = some saved) ∨
      ∃ label, pending = some label ∧ owed[label]? = some saved)
    (guards : saved.Guards origin m)
    (runs : runCode entry insts pending m = some (status, n)) :
    n.floats = origin.floats ∧ saved.along? (trail entry insts pending m) = some [] := by
  induction walks generalizing pending saved m with
  | nil => cases runs
  | @cons here middle there inst rest stands _ ih =>
      rcases arrives with ⟨rfl, rfl⟩ | ⟨label, rfl, record⟩
      · cases stands with
        | ret =>
            cases runs
            exact ⟨guards.floats, rfl⟩
        | bind record falls =>
            cases falls _ rfl
            exact ih (.inl ⟨rfl, rfl⟩) guards runs
        | jump record => exact ih (.inr ⟨_, rfl, record⟩) guards runs
        | @plain _ _ later unbound stays records writes behind =>
            rw [runCode] at runs
            rw [trail, SavedFloats.along?, List.foldlM_cons, behind]
            cases effect : inst.exec entry m with
            | fault =>
                rw [effect] at runs
                cases runs
            | exit status left => exact absurd (Inst.eq_ret effect) (stays status)
            | next left =>
                rw [effect] at runs
                exact ih (.inl ⟨rfl, rfl⟩) (guards.exec behind writes (by rw [effect]; rfl)) runs
            | jump label left =>
                rw [effect] at runs
                exact ih (.inr ⟨label, rfl, records label (Inst.mem_targets effect)⟩)
                  (guards.exec behind writes (by rw [effect]; rfl)) runs
      · -- the instruction is skipped, or it binds the label that is looked for
        rw [runCode] at runs
        rw [trail]
        by_cases bound : inst = .bind label
        · rw [if_pos bound] at runs ⊢
          subst bound
          cases stands with
          | bind found =>
              cases found.symm.trans record
              exact ih (.inl ⟨rfl, rfl⟩) guards runs
          | plain unbound | dead unbound => cases unbound
        · rw [if_neg bound] at runs ⊢
          exact ih (.inr ⟨label, rfl, record⟩) guards runs

end Walks

end InlineCache
