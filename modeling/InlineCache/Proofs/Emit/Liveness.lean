import InlineCache.Proofs.Emit.Place

/-!
The table of last uses.  It has an entry for each operand, and an operation that mentions an operand
comes no later than the last use of it.
-/

namespace InlineCache

section

variable {ε α β : Type} {visit : β → α → Except ε β}

theorem foldlM_cons_ok {item : α} {rest : List α} {first last : β}
    (folds : (item :: rest).foldlM visit first = .ok last) :
    ∃ next, visit first item = .ok next ∧ rest.foldlM visit next = .ok last := by
  rw [List.foldlM_cons] at folds
  cases visited : visit first item with
  | error error =>
      rw [visited] at folds
      cases folds
  | ok next =>
      rw [visited] at folds
      exact ⟨next, rfl, folds⟩

/-- What a visit keeps, visits keep. -/
theorem foldlM_ok {P : β → Prop} {items : List α}
    (step : ∀ b a c, a ∈ items → P b → visit b a = .ok c → P c) {first last : β}
    (folds : items.foldlM visit first = .ok last) (start : P first) : P last := by
  induction items generalizing first with
  | nil =>
      cases folds
      exact start
  | cons item rest ih =>
      obtain ⟨next, visited, folds⟩ := foldlM_cons_ok folds
      exact ih (fun b a c member => step b a c (.tail _ member)) folds
        (step first item next (.head _) start visited)

theorem foldlM_error {P : ε → Prop} (step : ∀ b a e, visit b a = .error e → P e) {items : List α}
    {first : β} {error : ε} (folds : items.foldlM visit first = .error error) : P error := by
  induction items generalizing first with
  | nil => cases folds
  | cons item rest ih =>
      rw [List.foldlM_cons] at folds
      cases visited : visit first item with
      | error cause =>
          rw [visited] at folds
          cases folds
          exact step first item error visited
      | ok next =>
          rw [visited] at folds
          exact ih folds

end

namespace Allocation

/-- Notes that an operation mentions an operand. -/
def noteUse (count index : Nat) (table : List (Option Nat)) (id : OperandId) :
    Except CodeError (List (Option Nat)) :=
  if id.toNat < count then .ok (table.set id.toNat (some index))
  else .error (.malformed (.operandUndeclared index id count))

theorem lastUses_eq (ops : List Op) (count : Nat) :
    lastUses ops count = ops.zipIdx.foldlM
      (fun table (op, index) => op.operands.foldlM (noteUse count index) table)
      (List.replicate count none) := rfl

theorem noteUse_ok {count index : Nat} {table noted : List (Option Nat)} {id : OperandId}
    (notes : noteUse count index table id = .ok noted) :
    id.toNat < count ∧ noted = table.set id.toNat (some index) := by
  unfold noteUse at notes
  split at notes
  · cases notes
    exact ⟨by assumption, rfl⟩
  · cases notes

theorem lastUses_error {ops : List Op} {count : Nat} {error : CodeError}
    (fails : lastUses ops count = .error error) :
    ∃ index id, error = .malformed (.operandUndeclared index id count) := by
  let undeclared (error : CodeError) : Prop :=
    ∃ index id, error = .malformed (.operandUndeclared index id count)
  rw [lastUses_eq] at fails
  refine foldlM_error (P := undeclared) (fun table op error fails => ?_) fails
  refine foldlM_error (P := undeclared) (fun table id error fails => ?_) fails
  unfold noteUse at fails
  split at fails
  · cases fails
  · cases fails
    exact ⟨_, _, rfl⟩

/-- The table has the operand used by an operation, or by one behind it. -/
def UsedFrom (index : Nat) (table : List (Option Nat)) (i : Nat) : Prop :=
  ∃ last, table[i]? = some (some last) ∧ index ≤ last

theorem not_usedFrom_iff {index : Nat} {table : List (Option Nat)} {i : Nat} :
    (table[i]?.join).all (· < index) = true ↔ ¬UsedFrom index table i := by
  simp only [UsedFrom, ← Option.join_eq_some_iff, not_exists, not_and, Nat.not_le]
  cases table[i]?.join <;> simp

section

variable {count index : Nat} {table noted : List (Option Nat)} {id : OperandId}

theorem usedFrom_noteUse_self (notes : noteUse count index table id = .ok noted)
    (bound : id.toNat < table.length) : UsedFrom index noted id.toNat := by
  obtain ⟨-, rfl⟩ := noteUse_ok notes
  exact ⟨index, List.getElem?_set_self bound, Nat.le_refl _⟩

theorem usedFrom_noteUse (notes : noteUse count index table id = .ok noted) {earlier i : Nat}
    (ordered : earlier ≤ index) (used : UsedFrom earlier table i) : UsedFrom earlier noted i := by
  obtain ⟨last, found, later⟩ := used
  obtain ⟨-, rfl⟩ := noteUse_ok notes
  by_cases own : id.toNat = i
  · obtain ⟨bound, -⟩ := List.getElem?_eq_some_iff.mp found
    exact ⟨index, own ▸ List.getElem?_set_self (own ▸ bound), ordered⟩
  · exact ⟨last, (List.getElem?_set_ne own).trans found, later⟩

variable {ids : List OperandId}

theorem usedFrom_noteUses (notes : ids.foldlM (noteUse count index) table = .ok noted)
    {earlier i : Nat} (ordered : earlier ≤ index) (used : UsedFrom earlier table i) :
    UsedFrom earlier noted i :=
  foldlM_ok (P := (UsedFrom earlier · i)) (fun _ _ _ _ used notes => usedFrom_noteUse notes ordered used)
    notes used

theorem length_noteUses (notes : ids.foldlM (noteUse count index) table = .ok noted) :
    noted.length = table.length := by
  refine foldlM_ok (P := fun other => other.length = table.length) (fun _ _ _ _ length notes => ?_)
    notes rfl
  obtain ⟨-, rfl⟩ := noteUse_ok notes
  rw [List.length_set, length]

theorem usedFrom_of_mem (notes : ids.foldlM (noteUse count index) table = .ok noted)
    (length : table.length = count) (member : id ∈ ids) : UsedFrom index noted id.toNat := by
  induction ids generalizing table with
  | nil => exact absurd member List.not_mem_nil
  | cons first rest ih =>
      obtain ⟨next, now, more⟩ := foldlM_cons_ok notes
      obtain ⟨bound, same⟩ := noteUse_ok now
      rcases List.mem_cons.mp member with rfl | member
      · have used : UsedFrom index next id.toNat := usedFrom_noteUse_self now (by omega)
        exact usedFrom_noteUses more (Nat.le_refl _) used
      · exact ih more (by rw [same, List.length_set, length]) member

end

theorem length_lastUses {ops : List Op} {count : Nat} {table : List (Option Nat)}
    (uses : lastUses ops count = .ok table) : table.length = count := by
  rw [lastUses_eq] at uses
  exact foldlM_ok (P := fun table => table.length = count)
    (fun _ _ _ _ length notes => (length_noteUses notes).trans length) uses List.length_replicate

/-- An operation that mentions an operand comes no later than the last use of it. -/
theorem usedFrom_lastUses {ops : List Op} {count : Nat} {table : List (Option Nat)}
    (uses : lastUses ops count = .ok table) {op : Op} {index : Nat} (listed : (op, index) ∈ ops.zipIdx)
    {id : OperandId} (mentioned : id ∈ op.operands) : UsedFrom index table id.toNat := by
  rw [lastUses_eq] at uses
  -- from any table of that length, and whatever index the operations are counted from
  suffices general : ∀ (ops : List Op) (origin : Nat) (first : List (Option Nat)), first.length = count →
      (ops.zipIdx origin).foldlM
        (fun table (op, index) => op.operands.foldlM (noteUse count index) table) first = .ok table →
      (op, index) ∈ ops.zipIdx origin → UsedFrom index table id.toNat from
    general ops 0 _ List.length_replicate uses listed
  intro ops
  induction ops with
  | nil => exact fun _ _ _ _ impossible => absurd impossible List.not_mem_nil
  | cons head rest ih =>
      intro origin first length folds listed
      rw [List.zipIdx_cons] at folds listed
      obtain ⟨next, now, more⟩ := foldlM_cons_ok folds
      rcases List.mem_cons.mp listed with same | listed
      · cases same
        have used : UsedFrom index next id.toNat := usedFrom_of_mem now length mentioned
        refine foldlM_ok (P := (UsedFrom index · id.toNat)) (fun _ later _ member used notes => ?_)
          more used
        exact usedFrom_noteUses notes
          (Nat.le_of_lt (List.le_snd_of_mem_zipIdx member)) used
      · exact ih (origin + 1) next ((length_noteUses now).trans length) more listed

/-- Whatever the table has as the last use of an operand is an operation that mentions it. -/
theorem mentioned_of_lastUses {ops : List Op} {count : Nat} {table : List (Option Nat)}
    (uses : lastUses ops count = .ok table) {i last : Nat} (found : table[i]? = some (some last)) :
    ∃ op, (op, last) ∈ ops.zipIdx ∧ ∃ id ∈ op.operands, id.toNat = i := by
  let Mentioned (table : List (Option Nat)) : Prop := ∀ i last, table[i]? = some (some last) →
    ∃ op, (op, last) ∈ ops.zipIdx ∧ ∃ id ∈ op.operands, id.toNat = i
  have step {index : Nat} {op : Op} (listed : (op, index) ∈ ops.zipIdx) {table noted} {id : OperandId}
      (member : id ∈ op.operands) (mentioned : Mentioned table)
      (notes : noteUse count index table id = .ok noted) : Mentioned noted := by
    obtain ⟨-, rfl⟩ := noteUse_ok notes
    intro i last found
    by_cases own : id.toNat = i
    · rw [List.getElem?_set, if_pos own] at found
      split at found
      · cases found
        exact ⟨op, listed, id, member, own⟩
      · cases found
    · rw [List.getElem?_set_ne own] at found
      exact mentioned i last found
  rw [lastUses_eq] at uses
  refine foldlM_ok (P := Mentioned) (fun _ op _ listed mentioned notes => ?_) uses ?_ i last found
  · exact foldlM_ok (P := Mentioned) (fun _ _ _ member => step listed member) notes mentioned
  · intro i last found
    rw [List.getElem?_replicate] at found
    split at found <;> cases found

/-- An operand is used from an operation on if that one or one behind it mentions it. -/
theorem usedFrom_iff {front back : List Op} {count : Nat} {table : List (Option Nat)}
    (uses : lastUses (front ++ back) count = .ok table) (i : Nat) :
    UsedFrom front.length table i ↔ ∃ op ∈ back, ∃ id ∈ op.operands, id.toNat = i := by
  rw [UsedFrom]
  constructor
  · rintro ⟨last, found, later⟩
    obtain ⟨op, listed, mentioned⟩ := mentioned_of_lastUses uses found
    rw [List.mk_mem_zipIdx_iff_getElem?, List.getElem?_append_right later] at listed
    exact ⟨op, List.mem_of_getElem? listed, mentioned⟩
  · rintro ⟨op, member, id, mentioned, rfl⟩
    obtain ⟨j, found⟩ := List.getElem?_of_mem member
    have listed : (op, front.length + j) ∈ (front ++ back).zipIdx := by
      rw [List.mk_mem_zipIdx_iff_getElem?, List.getElem?_append_right (Nat.le_add_right ..),
        Nat.add_sub_cancel_left]
      exact found
    obtain ⟨last, noted, later⟩ := usedFrom_lastUses uses listed mentioned
    exact ⟨last, noted, Nat.le_trans (Nat.le_add_right ..) later⟩

/-- No operand has a place, a tag or a definition, and all registers are free. -/
def blank (config : CodeConfig) (table : List (Option Nat)) : Allocation where
  operands := table.map fun lastUse => ⟨.nowhere, none, false, lastUse⟩
  available := .first config.generalRegisters.toNat
  availableFloats := .first config.floatRegisters.toNat
  currentOp := none
  pinned := .empty
  pinnedFloats := .empty
  scratch := .empty
  scratchFloats := .empty
  spillLimit := config.spillSlots.toNat
  usedSlots := []
  slotCount := 0
  savesFloats := config.savesFloats
  saved := []
  saveCount := 0

theorem start_ok {ops : List Op} {count : Nat} {config : CodeConfig} {allocation : Allocation}
    (started : start ops count config = .ok allocation) :
    ∃ table, lastUses ops count = .ok table ∧ allocation = blank config table := by
  unfold start at started
  cases uses : lastUses ops count with
  | error error =>
      rw [uses] at started
      cases started
  | ok table =>
      rw [uses] at started
      cases started
      exact ⟨table, rfl, rfl⟩

theorem place_blank (config : CodeConfig) (table : List (Option Nat)) (index : Nat) :
    (blank config table).place index = .nowhere := by
  simp only [place, blank, List.getElem?_map]
  cases table[index]? <;> rfl

theorem known_blank (config : CodeConfig) (table : List (Option Nat)) (index : Nat) :
    (blank config table).known index = none := by
  simp only [known, blank, List.getElem?_map]
  cases table[index]? <;> rfl

theorem start_error {ops : List Op} {count : Nat} {config : CodeConfig} {error : CodeError}
    (fails : start ops count config = .error error) :
    ∃ index id, error = .malformed (.operandUndeclared index id count) := by
  unfold start at fails
  cases uses : lastUses ops count with
  | error cause =>
      rw [uses] at fails
      cases fails
      exact lastUses_error uses
  | ok table =>
      rw [uses] at fails
      cases fails

end Allocation

end InlineCache
