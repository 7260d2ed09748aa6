import InlineCache.Proofs.Code.Speculation
import InlineCache.Proofs.Emit.Moves

/-!
An operand with nothing behind it.  Code takes an operand along when it spills it, reloads it, or changes its
form; where it is at any instruction can be read off the code.  What the allocator writes for this or that
operand leaves a blank one blank, wherever it puts it.
-/

namespace InlineCache

/-- The payload of what is held is zero.  A boxed word has the tag that is known of it. -/
inductive Content.Blank : Option ValueType → Content → Prop
  | payload (known : Option ValueType) (type : PayloadType) : Blank known ⟨.payload type, 0⟩
  | boxed (type : PayloadType) (tag : ValueType) (tagged : type.valueType? = some tag) :
      Blank (some tag) ⟨.boxed, Word.box 0 type⟩

namespace Content

variable {known : Option ValueType} {type : PayloadType} {w : UInt64}

@[simp] theorem blank_payload : Blank known ⟨.payload type, w⟩ ↔ w = 0 := by
  constructor
  · rintro ⟨⟩
    rfl
  · rintro rfl
    exact .payload known type

@[simp] theorem blank_boxed : Blank known ⟨.boxed, w⟩ ↔
    ∃ type : PayloadType, type.valueType?.isSome = true ∧ known = type.valueType? ∧
      w = Word.box 0 type := by
  constructor
  · rintro ⟨⟩
    rename_i type tag tagged
    exact ⟨type, by rw [tagged]; rfl, tagged.symm, rfl⟩
  · rintro ⟨type, tagged, rfl, rfl⟩
    obtain ⟨tag, same⟩ := Option.isSome_iff_exists.mp tagged
    rw [same]
    exact .boxed type tag same

@[simp] theorem not_blank_double : ¬Blank known ⟨.double, w⟩ := by
  rintro ⟨⟩

end Content

namespace Location

/-- Where an operand is after it has been loaded into a register. -/
def reloaded (reg : Register) : Location → Location
  | .payloadSlot _ type => .payloadReg reg type
  | _ => .valueReg reg

/-- Where an operand is behind an instruction. -/
def through (inst : Inst) (location : Location) : Location :=
  match inst with
  | .spill slot src => if location.register? = some src then location.spilled slot else location
  | .restore dst slot => if location.slot? = some slot then location.reloaded dst else location
  | .boxPayload src dst _ =>
      if src = dst ∧ location.register? = some dst then .valueReg dst else location
  | .unboxPayload src dst type =>
      if src = dst ∧ location.register? = some dst then .payloadReg dst type else location
  | _ => location

def along (location : Location) (insts : List Inst) : Location :=
  insts.foldl (fun location inst => location.through inst) location

/-- If something is at the place, it is blank. -/
def BlankIn (location : Location) (known : Option ValueType) (machine : Machine) : Prop :=
  ∀ content, location.content? machine = some content → content.Blank known

theorem along_concat (location : Location) (insts : List Inst) (inst : Inst) :
    location.along (insts ++ [inst]) = (location.along insts).through inst :=
  List.foldl_append ..

section

variable {known : Option ValueType} {m : Machine} {reg : Register} {slot : Nat} {type : PayloadType}

theorem blankIn_of_form {location : Location} {form : Form} (held : location.form? = some form) :
    location.BlankIn known m ↔ Content.Blank known ⟨form, m.wordAt location⟩ := by
  rw [BlankIn, content?, held]
  exact ⟨fun blank => blank _ rfl, fun blank _ found => Option.some.inj found ▸ blank⟩

@[simp] theorem blankIn_nowhere : nowhere.BlankIn known m := by
  rintro _ ⟨⟩

@[simp] theorem blankIn_payloadReg : (payloadReg reg type).BlankIn known m ↔ m.regs reg = 0 :=
  (blankIn_of_form rfl).trans Content.blank_payload

@[simp] theorem blankIn_payloadSlot : (payloadSlot slot type).BlankIn known m ↔ m.slots slot = 0 :=
  (blankIn_of_form rfl).trans Content.blank_payload

@[simp] theorem blankIn_valueReg : (valueReg reg).BlankIn known m ↔
    ∃ type : PayloadType, type.valueType?.isSome = true ∧ known = type.valueType? ∧
      m.regs reg = Word.box 0 type :=
  (blankIn_of_form rfl).trans Content.blank_boxed

@[simp] theorem blankIn_valueSlot : (valueSlot slot).BlankIn known m ↔
    ∃ type : PayloadType, type.valueType?.isSome = true ∧ known = type.valueType? ∧
      m.slots slot = Word.box 0 type :=
  (blankIn_of_form rfl).trans Content.blank_boxed

@[simp] theorem not_blankIn_floatReg {float : FloatRegister} : ¬(floatReg float).BlankIn known m :=
  fun blank => Content.not_blank_double ((blankIn_of_form rfl).mp blank)

@[simp] theorem not_blankIn_floatSlot : ¬(floatSlot slot).BlankIn known m :=
  fun blank => Content.not_blank_double ((blankIn_of_form rfl).mp blank)

end

end Location

/-- What an instruction writes, and what it moves away from. -/
def Inst.touches (inst : Inst) : List Resource :=
  (inst.written?.map Resource.register).toList ++ (inst.filled?.map Resource.slot).toList ++
    match inst with
    | .spill _ src => [.register src]
    | .restore _ slot => [.slot slot]
    | _ => []

/-- The instruction has nothing to do with a place. -/
def Inst.Apart (inst : Inst) (location : Location) : Prop :=
  ∀ resource ∈ inst.touches, location.resource? ≠ some resource

namespace Location

variable {location : Location} {inst : Inst} {known : Option ValueType} {m n : Machine}
  {reg : Register} {slot : Nat}

theorem through_eq (apart : inst.Apart location) : location.through inst = location := by
  have elsewhere {reg : Register} (touched : .register reg ∈ inst.touches) :
      location.register? ≠ some reg :=
    fun held => apart _ touched (resource?_eq_register.mpr held)
  cases inst with
  | spill slot src => exact if_neg (elsewhere (by simp [Inst.touches]))
  | restore dst slot =>
      refine if_neg fun held => apart (.slot slot) (by simp [Inst.touches]) ?_
      cases location <;> cases held <;> rfl
  | boxPayload src dst | unboxPayload src dst =>
      exact if_neg fun both => elsewhere (.head _) both.2
  | _ => rfl

namespace BlankIn

/-- A payload that is zero stays so, even in a register that is set to zero. -/
theorem leaves (blank : location.BlankIn known m) (leaves : inst.Leaves m n)
    (apart : inst.Apart location)
    (zeroed : ∀ reg, inst.zeroed? = some reg → location.register? = some reg →
      location.payload?.isSome = true) : location.BlankIn known n := by
  have regs {reg : Register} (held : location.resource? = some (.register reg)) :=
    leaves.regs reg fun written => apart (.register reg) (by simp [Inst.touches, written]) held
  have slots {slot : Nat} (held : location.resource? = some (.slot slot)) :=
    leaves.slots slot fun filled => apart (.slot slot) (by simp [Inst.touches, filled]) held
  cases location with
  | nowhere => simp
  | payloadReg reg type =>
      rw [blankIn_payloadReg] at blank ⊢
      rcases regs rfl with same | ⟨-, zero⟩
      · exact same.trans blank
      · exact zero
  | valueReg reg =>
      rw [blankIn_valueReg] at blank ⊢
      rcases regs rfl with same | ⟨named, -⟩
      · rwa [same]
      · cases zeroed reg named rfl
  | payloadSlot slot type =>
      rw [blankIn_payloadSlot] at blank ⊢
      exact (slots rfl).trans blank
  | valueSlot slot =>
      rw [blankIn_valueSlot] at blank ⊢
      rwa [slots rfl]
  | floatReg | floatSlot => simp at blank

theorem spilled (blank : location.BlankIn known m) (held : location.register? = some reg)
    (slot : Nat) : (location.spilled slot).BlankIn known (m.setSlot slot (m.regs reg)) := by
  rw [BlankIn, content?_spilled held]
  exact blank

theorem reloaded (blank : location.BlankIn known m) (held : location.slot? = some slot)
    (reg : Register) : (location.reloaded reg).BlankIn known (m.setReg reg (m.slots slot)) := by
  cases location with
  | payloadSlot other type =>
      cases held
      simpa [Location.reloaded] using blank
  | valueSlot other =>
      cases held
      simpa [Location.reloaded] using blank
  | floatSlot => simp at blank
  | _ => cases held

theorem boxed {type : PayloadType} {tag : ValueType} (blank : (payloadReg reg type).BlankIn known m)
    (tagged : type.valueType? = some tag) :
    (valueReg reg).BlankIn (some tag) (m.setReg reg (Word.box (m.regs reg) type)) := by
  rw [blankIn_payloadReg] at blank
  rw [blankIn_valueReg, Machine.regs_setReg, if_pos rfl, blank]
  exact ⟨type, by rw [tagged]; rfl, tagged.symm, rfl⟩

theorem unboxed {type : PayloadType} (blank : (valueReg reg).BlankIn known m)
    (proven : known.bind PayloadType.ofValueType? = some type) :
    (payloadReg reg type).BlankIn known (m.setReg reg (Word.unbox (m.regs reg) type)) := by
  rw [blankIn_valueReg] at blank
  rw [blankIn_payloadReg, Machine.regs_setReg, if_pos rfl]
  obtain ⟨other, tagged, rfl, word⟩ := blank
  rw [word]
  cases other <;> cases tagged <;> cases proven <;> decide

end BlankIn

end Location

/-- Along instructions behind others, an operand that begins at a place is blank wherever it is, and what is
accessed through its register is at the address zero. -/
structure Speculation.BlankAlong (run : Speculation) (passed : List Inst) (start : Location)
    (insts : List Inst) : Prop where
  holds : ∀ front, front <+: insts → ∀ m, run.flow (passed ++ front) = .running none m →
    ∃ known, (start.along front).BlankIn known m
  reads : ∀ front inst, front ++ [inst] <+: insts →
    ∀ m, run.flow (passed ++ front) = .running none m → ∀ base, inst.base? = some base →
      (start.along front).register? = some base → m.regs base = 0

namespace Speculation.BlankAlong

variable {run : Speculation} {passed insts : List Inst} {start : Location} {inst : Inst}

theorem nil (blank : ∀ m, run.flow passed = .running none m → ∃ known, start.BlankIn known m) :
    run.BlankAlong passed start [] := by
  refine ⟨fun front fronts m flow => ?_, fun front inst fronts => ?_⟩
  · cases List.prefix_nil.mp fronts
    rw [List.append_nil] at flow
    exact blank m flow
  · cases List.append_eq_nil_iff.mp (List.prefix_nil.mp fronts) |>.2

theorem concat (along : run.BlankAlong passed start insts)
    (reads : ∀ m, run.flow (passed ++ insts) = .running none m → ∀ base, inst.base? = some base →
      (start.along insts).register? = some base → m.regs base = 0)
    (holds : ∀ m, run.flow (passed ++ (insts ++ [inst])) = .running none m →
      ∃ known, (start.along (insts ++ [inst])).BlankIn known m) :
    run.BlankAlong passed start (insts ++ [inst]) := by
  refine ⟨fun front fronts => ?_, fun front last fronts => ?_⟩
  · rcases List.prefix_concat_iff.mp fronts with rfl | before
    · exact holds
    · exact along.holds front before
  · rcases List.prefix_concat_iff.mp fronts with same | before
    · obtain ⟨rfl, last⟩ := List.append_inj' same rfl
      cases last
      exact reads
    · exact along.reads front last before

end Speculation.BlankAlong

end InlineCache
