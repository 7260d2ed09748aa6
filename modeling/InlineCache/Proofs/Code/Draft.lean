import InlineCache.Code.Check
import InlineCache.Proofs.Code.Flow

/-!
Code while it is written.  It names nothing outside its limits, and it only goes forward: a label that
an instruction goes to is bound behind it, or it is pending, which means that it was handed out and will
be bound later.  When no label is pending and the last instruction returns, every run over the code comes
to an end within it.
-/

namespace InlineCache

namespace Inst

/-- The labels that an instruction may go to. -/
def targets : Inst → List Label
  | .bind _ => []
  | inst => inst.labels

def bound? : Inst → Option Label
  | .bind label => some label
  | _ => none

section

variable {cond : Cond} {a b scratch : Register} {f : FloatRegister} {source : Source}
  {type : ValueType} {zeroed : Option Register} {target : Label}

@[simp] theorem targets_jump : (jump target).targets = [target] := rfl

@[simp] theorem targets_branchTestType :
    (branchTestType cond a type target).targets = [target] := rfl

@[simp] theorem targets_branchTestNumber : (branchTestNumber cond a target).targets = [target] := rfl

@[simp] theorem targets_branch32 : (branch32 cond a source target).targets = [target] := by
  cases source <;> rfl

@[simp] theorem targets_branchPtr : (branchPtr cond a source target).targets = [target] := by
  cases source <;> rfl

@[simp] theorem targets_branchTestShape :
    (branchTestShape cond a source scratch zeroed target).targets = [target] := by
  cases source <;> cases zeroed <;> rfl

@[simp] theorem targets_branchTestClass :
    (branchTestClass cond a source scratch zeroed target).targets = [target] := by
  cases source <;> cases zeroed <;> rfl

@[simp] theorem targets_doubleToIntPtrExact :
    (doubleToIntPtrExact f a target).targets = [target] := rfl

@[simp] theorem targets_callHelper {helper : Helper} {c dst : Register} :
    (callHelper helper a b c dst target).targets = [target] := rfl

@[simp] theorem targets_load64 : (load64 a b source).targets = [] := by
  cases source <;> rfl

@[simp] theorem targets_cmpSet : (cmpSet cond a source b).targets = [] := by
  cases source <;> rfl

end

/-- The label that an instruction may go to. -/
def target? : Inst → Option Label
  | .jump target | .branchTestType _ _ _ target | .branchTestNumber _ _ target | .branch32 _ _ _ target
  | .branchPtr _ _ _ target | .branchTestShape _ _ _ _ _ target | .branchTestClass _ _ _ _ _ target
  | .doubleToInt32Exact _ _ target | .doubleToIntPtrExact _ _ target
  | .truncateDoubleModUint32 _ _ target | .callHelper _ _ _ _ _ target => some target
  | _ => none

theorem targets_eq (inst : Inst) : inst.targets = inst.target?.toList := by
  cases inst with
  | load64 | cmpSet | branch32 | branchPtr | branchTestShape | branchTestClass => simp [target?]
  | _ => rfl

/-- An instruction goes to none but its targets. -/
theorem mem_targets {entry : Entry} {inst : Inst} {label : Label} {machine after : Machine}
    (jumps : inst.exec entry machine = .jump label after) : label ∈ inst.targets := by
  have ofOption {next : Option Machine} : Effect.ofOption next ≠ .jump label after := by
    cases next <;> exact Effect.noConfusion
  have branch {taken : Bool} {target : Label} {next : Machine}
      (goes : Effect.branch taken target next = .jump label after) : label = target := by
    cases taken <;> cases goes
    rfl
  cases inst with
  | bind | ret | storeOutput | movImm | mov | spill | restore | spillFloat | reloadFloat
  | saveFloat | restoreFloat | cmpSet | andImm | unboxPayload | boxPayload | loadValueTag
  | unboxDouble | boxDouble | unboxNumber | int32ToDouble | clampDoubleToUint8 | clampInt32ToUint8
  | int32ToIntPtr | boxIntPtr | spectreMaskIndex => cases jumps
  | loadInput | loadStubWord | load64 | load32 | loadIndexed64 => exact absurd jumps ofOption
  | jump target =>
      cases jumps
      exact .head _
  | branchTestType | branchTestNumber =>
      cases branch jumps
      exact .head _
  | branch32 cond lhs rhs target | branchPtr cond lhs rhs target =>
      cases branch jumps
      simp
  | branchTestShape cond object shape scratch zeroed target =>
      rw [exec] at jumps
      split at jumps
      · cases branch jumps
        simp
      · cases jumps
  | branchTestClass cond object classWord scratch zeroed target =>
      rw [exec] at jumps
      split at jumps
      · split at jumps
        · cases branch jumps
          simp
        · cases jumps
      · cases jumps
  | doubleToInt32Exact | doubleToIntPtrExact =>
      simp only [exec] at jumps
      split at jumps
      · cases branch jumps
        exact .head _
      · cases jumps
        exact .head _
  | truncateDoubleModUint32 =>
      simp only [exec] at jumps
      split at jumps
      · cases jumps
      · cases jumps
        exact .head _
  | callHelper =>
      cases branch jumps
      exact .head _

end Inst

/-- The labels that code binds, in order. -/
def boundLabels (insts : List Inst) : List Label :=
  insts.filterMap Inst.bound?

theorem mem_boundLabels {insts : List Inst} {label : Label} :
    label ∈ boundLabels insts ↔ .bind label ∈ insts := by
  rw [boundLabels, List.mem_filterMap]
  constructor
  · rintro ⟨inst, member, bound⟩
    cases inst <;> cases bound
    exact member
  · exact fun member => ⟨_, member, rfl⟩

theorem count_bind (insts : List Inst) (label : Label) :
    insts.count (.bind label) = (boundLabels insts).count label := by
  induction insts with
  | nil => rfl
  | cons inst rest ih =>
      rw [List.count_cons, ih]
      cases inst with
      | bind other =>
          show _ = (other :: boundLabels rest).count label
          rw [List.count_cons]
          simp
      | _ =>
          show _ = (boundLabels rest).count label
          simp

/-- A label that an instruction goes to is bound behind it, or one of some that are still open. -/
def Forward (opened : Label → Prop) (insts : List Inst) : Prop :=
  ∀ front inst back, insts = front ++ inst :: back →
    ∀ label ∈ inst.targets, .bind label ∈ back ∨ opened label

namespace Forward

theorem nil (opened : Label → Prop) : Forward opened [] :=
  fun _ _ _ split => absurd split (List.append_ne_nil_of_right_ne_nil _ (List.cons_ne_nil _ _)).symm

theorem mono {opened later : Label → Prop} {insts : List Inst} (forward : Forward opened insts)
    (still : ∀ label, opened label → later label) : Forward later insts :=
  fun front inst back split label member => (forward front inst back split label member).imp_right
    (still label)

/-- A label that was open is closed by binding it only. -/
theorem append {opened later : Label → Prop} {insts : List Inst} (forward : Forward opened insts)
    {inst : Inst} (targets : ∀ label ∈ inst.targets, later label)
    (still : ∀ label, opened label → inst = .bind label ∨ later label) :
    Forward later (insts ++ [inst]) := by
  intro front other back split label member
  rcases List.eq_nil_or_concat back with rfl | ⟨inner, last, rfl⟩
  · cases (List.append_inj' split rfl).2
    exact .inr (targets label member)
  · rw [List.concat_eq_append] at split ⊢
    have same : insts ++ [inst] = (front ++ other :: inner) ++ [last] := by
      rw [split, List.append_assoc, List.cons_append]
    obtain ⟨before, same⟩ := List.append_inj' same rfl
    cases same
    rcases forward front other inner before label member with bound | opened
    · exact .inl (List.mem_append_left _ bound)
    · rcases still label opened with rfl | later
      · exact .inl (List.mem_append_right _ (.head _))
      · exact .inr later

/-- Forward code binds whatever label it names. -/
theorem bound {insts : List Inst} (forward : Forward (fun _ => False) insts) {inst : Inst}
    {label : Label} (member : inst ∈ insts) (names : label ∈ inst.labels) :
    .bind label ∈ insts := by
  cases inst with
  | bind other =>
      cases List.mem_singleton.mp names
      exact member
  | _ =>
      obtain ⟨front, back, rfl⟩ := List.append_of_mem member
      have behind := (forward front _ back rfl label names).resolve_right id
      exact List.mem_append_right _ (.tail _ behind)

/-- Forward code whose last instruction returns is not left in any other way: a run goes along the code,
or skips to a label that is still to come. -/
theorem ends {entry : Entry} {insts : List Inst} {pending : Option Label} {machine : Machine}
    (forward : Forward (fun _ => False) insts)
    (ahead : ∀ label, pending = some label → .bind label ∈ insts)
    (returns : ∃ status, insts.getLast? = some (.ret status)) :
    (∃ status after,
      insts.foldl (Flow.step entry) (.running pending machine) = .exited status after) ∨
      insts.foldl (Flow.step entry) (.running pending machine) = .faulted := by
  induction insts generalizing pending machine with
  | nil =>
      obtain ⟨_, impossible⟩ := returns
      cases impossible
  | cons inst rest ih =>
      have forwardRest : Forward (fun _ => False) rest :=
        fun front other back split => forward (inst :: front) other back (congrArg _ split)
      have returnsRest (more : rest ≠ []) : ∃ status, rest.getLast? = some (.ret status) := by
        obtain ⟨status, last⟩ := returns
        exact ⟨status, (List.getLast?_cons_of_ne_nil more).symm.trans last⟩
      -- only an instruction that returns can be the last one
      have more {label : Label} (later : .bind label ∈ inst :: rest) : rest ≠ [] := by
        rintro rfl
        obtain ⟨status, last⟩ := returns
        cases last
        cases List.mem_singleton.mp later
      rw [List.foldl_cons]
      cases pending with
      | some label =>
          have bound := ahead label rfl
          refine ih forwardRest (fun other same => ?_) (returnsRest (more bound))
          split at same
          · cases same
          · rename_i elsewhere
            cases same
            exact (List.mem_cons.mp bound).resolve_left fun same => elsewhere same.symm
      | none =>
          rw [Flow.step_running]
          cases effect : inst.exec entry machine with
          | next after =>
              refine ih forwardRest (fun _ impossible => nomatch impossible) (returnsRest ?_)
              rintro rfl
              obtain ⟨status, last⟩ := returns
              cases last
              cases effect
          | jump label after =>
              have later := (forward [] inst rest rfl label (Inst.mem_targets effect)).resolve_right id
              refine ih forwardRest ?_ (returnsRest (List.ne_nil_of_mem later))
              rintro _ ⟨⟩
              exact later
          | exit status after => exact .inl ⟨status, after, Flow.foldl_exited ..⟩
          | fault => exact .inr (Flow.foldl_faulted ..)

end Forward

/-- How much there is for code to name. -/
structure Limits where
  registers : Nat
  floatRegisters : Nat
  slots : Nat
  saves : Nat
  inputs : Nat
  words : Nat

/-- What an instruction relies on lies within the limits. -/
def Need.Within (limits : Limits) : Need → Prop
  | .register r => r.index.toNat < limits.registers
  | .floatRegister f => f.index.toNat < limits.floatRegisters
  | .slot index => index < limits.slots
  | .save index => index < limits.saves
  | .fieldOffset offset => offset + 8 ≤ 8 * limits.words ∧ offset < 0x80000000
  | .loadOffset offset => -0x80000000 ≤ offset.toInt ∧ offset.toInt < 0x80000000
  | .tagCondition cond => cond = .equal ∨ cond = .notEqual
  | .label _ | .helper _ => True

structure Inst.Within (limits : Limits) (inst : Inst) : Prop where
  needs : ∀ need ∈ inst.needs, need.Within limits
  input : ∀ dst index, inst = .loadInput dst index → index.toNat < limits.inputs

/-- There is at least as much. -/
structure Limits.Le (low high : Limits) : Prop where
  registers : low.registers ≤ high.registers
  floatRegisters : low.floatRegisters ≤ high.floatRegisters
  slots : low.slots ≤ high.slots
  saves : low.saves ≤ high.saves
  inputs : low.inputs ≤ high.inputs
  words : low.words ≤ high.words

theorem Inst.Within.mono {low high : Limits} {inst : Inst} (within : inst.Within low)
    (le : low.Le high) : inst.Within high where
  needs need member := by
    have below := within.needs need member
    cases need with
    | register => exact Nat.lt_of_lt_of_le below le.registers
    | floatRegister => exact Nat.lt_of_lt_of_le below le.floatRegisters
    | slot => exact Nat.lt_of_lt_of_le below le.slots
    | save => exact Nat.lt_of_lt_of_le below le.saves
    | fieldOffset offset =>
        exact ⟨Nat.le_trans below.1 (Nat.mul_le_mul_left 8 le.words), below.2⟩
    | loadOffset | tagCondition => exact below
    | label | helper => trivial
  input dst index same := Nat.lt_of_lt_of_le (within.input dst index same) le.inputs

namespace CodeBuffer

/-- The code so far, with labels that are still to be bound. -/
structure Draft (limits : Limits) (pending : List Label) (buffer : CodeBuffer) : Prop where
  within : ∀ inst ∈ buffer.insts.toList, inst.Within limits
  forward : Forward (· ∈ pending) buffer.insts.toList
  fresh : (pending ++ boundLabels buffer.insts.toList).Nodup
  given : ∀ label ∈ pending ++ boundLabels buffer.insts.toList, label < buffer.labels

namespace Draft

variable {limits : Limits} {pending : List Label} {buffer : CodeBuffer}

theorem empty (limits : Limits) : CodeBuffer.empty.Draft limits [] where
  within _ impossible := nomatch impossible
  forward := .nil _
  fresh := List.nodup_nil
  given _ impossible := nomatch impossible

theorem mono {high : Limits} (draft : buffer.Draft limits pending) (le : limits.Le high) :
    buffer.Draft high pending :=
  ⟨fun inst member => (draft.within inst member).mono le, draft.forward, draft.fresh, draft.given⟩

theorem perm {other : List Label} (draft : buffer.Draft limits pending) (perm : pending.Perm other) :
    buffer.Draft limits other where
  within := draft.within
  forward := draft.forward.mono fun _ => perm.mem_iff.mp
  fresh := (perm.append_right _).nodup_iff.mp draft.fresh
  given label member := draft.given label ((perm.append_right _).mem_iff.mpr member)

theorem emit (draft : buffer.Draft limits pending) {inst : Inst} (plain : inst.bound? = none)
    (within : inst.Within limits) (targets : ∀ label ∈ inst.targets, label ∈ pending) :
    (buffer.emit inst).Draft limits pending := by
  have code : (buffer.emit inst).insts.toList = buffer.insts.toList ++ [inst] := Array.toList_push
  have same : boundLabels (buffer.emit inst).insts.toList = boundLabels buffer.insts.toList := by
    rw [code, boundLabels, List.filterMap_append, List.filterMap_cons_none plain, List.filterMap_nil,
      List.append_nil, boundLabels]
  refine ⟨fun other member => ?_, ?_, same ▸ draft.fresh, same ▸ draft.given⟩
  · rw [code] at member
    rcases List.mem_append.mp member with before | now
    · exact draft.within other before
    · exact List.mem_singleton.mp now ▸ within
  · rw [code]
    exact draft.forward.append targets fun label => .inr

/-- Binding a label takes it from the pending ones. -/
theorem bind {label : Label} (draft : buffer.Draft limits (label :: pending)) :
    (buffer.emit (.bind label)).Draft limits pending := by
  have code : (buffer.emit (.bind label)).insts.toList = buffer.insts.toList ++ [.bind label] :=
    Array.toList_push
  have more : boundLabels (buffer.emit (.bind label)).insts.toList =
      boundLabels buffer.insts.toList ++ [label] := by
    rw [code, boundLabels, List.filterMap_append]
    rfl
  have perm : (label :: pending ++ boundLabels buffer.insts.toList).Perm
      (pending ++ boundLabels (buffer.emit (.bind label)).insts.toList) := by
    rw [more, List.cons_append, ← List.append_assoc]
    exact (List.perm_append_singleton ..).symm
  refine ⟨fun other member => ?_, ?_, perm.nodup_iff.mp draft.fresh, fun other member =>
    draft.given other (perm.mem_iff.mpr member)⟩
  · rw [code] at member
    rcases List.mem_append.mp member with before | now
    · exact draft.within other before
    · rw [List.mem_singleton.mp now]
      refine ⟨fun need member => ?_, fun _ _ => nofun⟩
      cases List.mem_singleton.mp member
      trivial
  · rw [code]
    refine draft.forward.append (fun _ impossible => nomatch impossible) fun other opened => ?_
    rcases List.mem_cons.mp opened with rfl | later
    · exact .inl rfl
    · exact .inr later

theorem newLabel (draft : buffer.Draft limits pending) :
    buffer.newLabel.2.Draft limits (buffer.labels :: pending) where
  within := draft.within
  forward := draft.forward.mono fun _ => .tail _
  fresh := List.nodup_cons.mpr
    ⟨fun member => Nat.lt_irrefl _ (draft.given _ member), draft.fresh⟩
  given label member := by
    rcases List.mem_cons.mp member with rfl | before
    · exact Nat.lt_succ_self _
    · exact Nat.lt_succ_of_lt (draft.given label before)

/-- A label that some instruction goes to was handed out, and it is bound once, behind the
instruction. -/
theorem target (draft : buffer.Draft limits []) {front back : List Inst} {inst : Inst}
    {label : Label} (split : buffer.insts.toList = front ++ inst :: back)
    (member : label ∈ inst.targets) :
    label < buffer.labels ∧ buffer.insts.toList.count (.bind label) = 1 ∧ .bind label ∈ back := by
  have behind := (draft.forward front inst back split label member).resolve_right
    List.not_mem_nil
  have bound : label ∈ boundLabels buffer.insts.toList := by
    rw [mem_boundLabels, split]
    exact List.mem_append_right _ (.tail _ behind)
  refine ⟨draft.given label bound, ?_, behind⟩
  rw [count_bind]
  exact draft.fresh.count.trans (if_pos bound)

end Draft

end CodeBuffer

namespace Frame

variable {frame : Frame}

/-- What can be wrong with an instruction, given the labels that are bound before. -/
theorem checkInsts_error {bound : List Label} {insts : List Inst} {defect : Defect}
    (fails : frame.checkInsts bound insts = .error defect)
    (fresh : (boundLabels insts ++ bound).Nodup) :
    ∃ inst ∈ insts, ∃ need ∈ inst.needs, need.unmet? frame = some defect := by
  induction insts generalizing bound with
  | nil => cases fails
  | cons inst rest ih =>
      unfold checkInsts at fails
      split at fails
      · rename_i inst _ _ _ found
        cases fails
        obtain ⟨need, member, unmet⟩ := List.exists_of_findSome?_eq_some found
        exact ⟨inst, .head _, need, member, unmet⟩
      · rename_i label _
        have perm : (boundLabels (.bind label :: rest) ++ bound).Perm
            (boundLabels rest ++ label :: bound) := List.perm_middle.symm
        have fresh := perm.nodup_iff.mp fresh
        split at fails
        · rename_i twice
          have apart := (List.nodup_append.mp fresh).2.1
          exact absurd twice (List.nodup_cons.mp apart).1
        · obtain ⟨other, member, unmet⟩ := ih fails fresh
          exact ⟨other, .tail _ member, unmet⟩
      · rename_i inst _ _ plain _
        have same : boundLabels (inst :: rest) = boundLabels rest := by
          refine List.filterMap_cons_none ?_
          cases inst with
          | bind label => exact absurd rfl (plain label)
          | _ => exact rfl
        obtain ⟨other, member, unmet⟩ := ih fails (same ▸ fresh)
        exact ⟨other, .tail _ member, unmet⟩

/-- Forward code that ends in a return passes the check of its end. -/
theorem checkEnd_ok {insts : List Inst} (forward : Forward (fun _ => False) insts)
    (returns : ∃ status, insts.getLast? = some (.ret status)) : checkEnd insts = .ok () := by
  obtain ⟨status, last⟩ := returns
  simp only [checkEnd, last, Option.elim_some, Inst.isFinal, if_true]
  split
  · rename_i label least
    obtain ⟨named, unbound⟩ := List.mem_filter.mp (List.min?_mem least)
    obtain ⟨inst, member, names⟩ := List.mem_flatMap.mp named
    exact absurd (forward.bound member names) (of_decide_eq_true unbound)
  · rfl

/-- Code within the frame is refused for a helper that is not there, and for nothing else. -/
theorem check_error {limits : Limits} {buffer : CodeBuffer} {defect : Defect}
    (fails : frame.check buffer.insts.toList = .error defect) (draft : buffer.Draft limits [])
    (returns : ∃ status, buffer.insts.toList.getLast? = some (.ret status))
    (registers : limits.registers ≤ frame.registers)
    (floatRegisters : limits.floatRegisters ≤ frame.floatRegisters)
    (slots : limits.slots ≤ frame.slots) (saves : limits.saves ≤ frame.saves)
    (labels : buffer.labels = frame.labels) :
    ∃ inst ∈ buffer.insts.toList, ∃ helper, .helper helper ∈ inst.needs ∧
      helper ∉ frame.helpers ∧ defect = .helperMissing helper := by
  have forward : Forward (fun _ => False) buffer.insts.toList :=
    draft.forward.mono fun _ => List.not_mem_nil
  have failed : frame.checkInsts [] buffer.insts.toList = .error defect := by
    rw [check, checkEnd_ok forward returns] at fails
    cases checked : frame.checkInsts [] buffer.insts.toList with
    | error cause =>
        rw [checked] at fails
        exact fails
    | ok done =>
        rw [checked] at fails
        cases fails
  obtain ⟨inst, member, need, needed, unmet⟩ :=
    checkInsts_error failed ((List.append_nil _).symm ▸ draft.fresh)
  have within := (draft.within inst member).needs need needed
  refine ⟨inst, member, ?_⟩
  cases need with
  | helper helper =>
      rw [Need.unmet?] at unmet
      split at unmet
      · cases unmet
      · rename_i missing
        exact ⟨helper, needed, missing, (Option.some.inj unmet).symm⟩
  | label target =>
      have bound := forward.bound member (List.mem_filterMap.mpr ⟨_, needed, rfl⟩)
      have named := draft.given target (mem_boundLabels.mpr bound)
      rw [Need.unmet?, if_pos (labels ▸ named)] at unmet
      cases unmet
  | register reg =>
      rw [Need.unmet?, if_pos (Nat.lt_of_lt_of_le within registers)] at unmet
      cases unmet
  | floatRegister reg =>
      rw [Need.unmet?, if_pos (Nat.lt_of_lt_of_le within floatRegisters)] at unmet
      cases unmet
  | slot index =>
      rw [Need.unmet?, if_pos (Nat.lt_of_lt_of_le within slots)] at unmet
      cases unmet
  | save index =>
      rw [Need.unmet?, if_pos (Nat.lt_of_lt_of_le within saves)] at unmet
      cases unmet
  | fieldOffset offset =>
      rw [Need.unmet?, if_pos within.2] at unmet
      cases unmet
  | loadOffset offset =>
      rw [Need.unmet?, if_pos ⟨within.1, within.2⟩] at unmet
      cases unmet
  | tagCondition cond =>
      rw [Need.unmet?, if_pos (show cond = .equal ∨ cond = .notEqual from within)] at unmet
      cases unmet

end Frame

end InlineCache
