import InlineCache.Proofs.Emit.BuildsOps
import InlineCache.Proofs.Emit.Room

/-!
No operation runs out of registers: each holds four at once at most, beside one float register.
-/

namespace InlineCache

namespace Asm

theorem TakesRegister.grip (takes : TakesRegister state reg after) :
    after.allocation.grip = state.allocation.grip.take reg := by
  cases takes <;> rfl

theorem TakesFloat.grip (takes : TakesFloat state reg after) :
    after.allocation.grip = state.allocation.grip.takeFloat reg := by
  cases takes <;> rfl

theorem ReturnsFloat.grip (returns : ReturnsFloat state reg after) :
    after.allocation.grip = state.allocation.grip.returnFloat reg := by
  cases returns <;> rfl

/-- What has been taken is pinned already. -/
theorem TakesRegister.grip_pin (takes : TakesRegister state reg after) :
    (after.allocation.pin reg).grip = state.allocation.grip.take reg :=
  (congrArg (Grip.take · reg) takes.grip).trans (Grip.take_take _ _)

theorem FetchesPayload.grip {id : OperandId} (fetches : FetchesPayload state id reg type fetched) :
    (fetched.allocation.pin reg).grip = state.allocation.grip.take reg := by
  cases fetches with
  | payloadReg | valueReg => rfl
  | payloadSlot slot middle place takes => exact takes.grip_pin
  | valueSlot slot middle place proven takes => exact takes.grip_pin

/-- A double that is boxed leaves no float register behind. -/
theorem FetchesValue.grip {id : OperandId} (fetches : FetchesValue state id reg fetched)
    (clear : state.allocation.pinnedFloats = .empty) :
    (fetched.allocation.pin reg).grip = state.allocation.grip.take reg := by
  have pin (allocation : Allocation) : (allocation.pin reg).grip = allocation.grip.take reg := rfl
  cases fetches with
  | valueReg | payloadReg => rfl
  | valueSlot slot middle place takes => exact takes.grip_pin
  | payloadSlot slot type tag middle place takes => exact takes.grip_pin
  | floatReg float middle after place takes returns =>
      rw [pin, returns.grip, Assembler.allocation_emitted, takes.grip, Grip.take_returnFloat,
        Grip.take_take, Grip.returnFloat_clear clear]
  | floatSlot slot float first middle after place takesFloat takes returns =>
      have same : (first.allocation.vacate slot).grip = first.allocation.grip := rfl
      rw [pin, returns.grip, Assembler.allocation_emitted, takes.grip,
        Assembler.allocation_withAllocation, same, takesFloat.grip, Grip.take_returnFloat,
        Grip.take_take, Grip.take_takeFloat, Grip.returnFloat_takeFloat clear]

/-- The errors of code generation but for one. -/
def Spared (error : CodeError) : Prop :=
  ∀ op, error ≠ .exhausted op

/-- A stretch that takes so many registers at most, and lets go of float registers. -/
def Fits (config : CodeConfig) (need : Nat) (stretch : Asm α) : Prop :=
  ∀ count state, count + need ≤ 4 → state.allocation.Roomy config count →
    Ensures Spared stretch state fun _ after => after.allocation.Roomy config (count + need)

/-- A stretch at the end of an operation. -/
def Finishes (config : CodeConfig) (need : Nat) (stretch : Asm Unit) : Prop :=
  ∀ count state, count + need ≤ 4 → state.allocation.Roomy config count →
    Ensures Spared stretch state fun _ after => after.allocation.Settled config

variable {config : CodeConfig} {α β : Type}

theorem Fits.finishes {need : Nat} {stretch : Asm Unit} (fits : Fits config need stretch) :
    Finishes config need stretch :=
  fun count state enough roomy => (fits count state enough roomy).mono fun _ _ later =>
    later.settled

namespace Finishes

variable {need : Nat}

theorem allocation_bind {next : Allocation → Asm Unit}
    (rest : ∀ found, Finishes config need (next found)) :
    Finishes config need (allocation >>= next) :=
  fun count state enough roomy => .allocation_bind (rest _ count state enough roomy)

/-- What ends an operation may be followed by code. -/
theorem emit {stretch : Asm Unit} (finishes : Finishes config need stretch) (inst : Inst) :
    Finishes config need (stretch >>= fun _ => Asm.emit inst) :=
  fun count state enough roomy => (finishes count state enough roomy).bind
    fun _ _ settled => .emit settled

theorem mono {more : Nat} {stretch : Asm Unit} (finishes : Finishes config need stretch)
    (le : need ≤ more) : Finishes config more stretch :=
  fun count state enough roomy => finishes count state (by omega) roomy

end Finishes

namespace Fits

variable {need : Nat} {stretch : Asm α}

theorem pure (answer : α) : Fits config 0 (pure answer : Asm α) :=
  fun _ _ _ roomy => .pure roomy

theorem bind {next : α → Asm β} (fits : Fits config 0 stretch)
    (rest : ∀ answer, Fits config need (next answer)) : Fits config need (stretch >>= next) :=
  fun count state enough roomy =>
    (fits count state (by omega) roomy).bind fun answer after later =>
      rest answer count after enough later

/-- What comes behind a stretch that takes a register has one less to take. -/
theorem bind_taken {next : α → Asm β} (fits : Fits config 1 stretch)
    (rest : ∀ answer, Fits config need (next answer)) :
    Fits config (need + 1) (stretch >>= next) :=
  fun count state enough roomy =>
    (fits count state (by omega) roomy).bind fun answer after later =>
      (rest answer (count + 1) after (by omega) later).mono fun _ _ last => last.mono (by omega)

theorem bind_finishes {next : α → Asm Unit} (fits : Fits config 0 stretch)
    (rest : ∀ answer, Finishes config need (next answer)) :
    Finishes config need (stretch >>= next) :=
  fun count state enough roomy =>
    (fits count state (by omega) roomy).bind fun answer after later =>
      rest answer count after enough later

theorem taken_finishes {next : α → Asm Unit} (fits : Fits config 1 stretch)
    (rest : ∀ answer, Finishes config need (next answer)) :
    Finishes config (need + 1) (stretch >>= next) :=
  fun count state enough roomy =>
    (fits count state (by omega) roomy).bind fun answer after later =>
      rest answer (count + 1) after (by omega) later

theorem allocation_bind {next : Allocation → Asm β}
    (rest : ∀ found, Fits config need (next found)) : Fits config need (allocation >>= next) :=
  fun count state enough roomy => .allocation_bind (rest _ count state enough roomy)

theorem throw {error : CodeError} (spared : Spared error) :
    Fits config need (throw error : Asm α) :=
  fun _ _ _ _ => .throw spared

theorem reject (defect : Defect) : Fits config need (reject defect : Asm α) :=
  throw fun _ => nofun

theorem still (still : Still stretch) : Fits config 0 stretch :=
  fun count _ _ roomy =>
    still.ensures (·.Roomy config count) roomy

theorem emit (inst : Inst) : Fits config 0 (emit inst) :=
  still (.emit inst)

theorem failurePath : Fits config 0 failurePath :=
  still (.exitPath _)

theorem setKnownType (id : OperandId) (type : ValueType) :
    Fits config 0 (setKnownType id type) :=
  fun _ _ _ roomy => .modify (roomy.modifyOperand (fun _ => rfl) fun _ defined => defined)

theorem releaseRegister (reg : Register) : Fits config 0 (releaseRegister reg) := by
  intro count state _ roomy
  refine ⟨fun _ after runs => ?_, fun _ fails => absurd fails not_fails_modify⟩
  rw [runs_releaseRegister.mp runs]
  split
  · rename_i held
    exact ⟨roomy.balanced.release held, roomy.slots, roomy.grip.release reg⟩
  · exact roomy

section

variable (registers : 4 ≤ config.generalRegisters.toNat)
include registers

/-- A register can be taken for what comes next. -/
theorem takeRegister_bind {count : Nat} {state : Assembler} {next : Register → Asm α}
    {holds : α → Assembler → Prop} (enough : count + 1 ≤ 4)
    (roomy : state.allocation.Roomy config count)
    (rest : ∀ reg after, TakesRegister state reg after → Ensures Spared (next reg) after holds) :
    Ensures Spared (takeRegister >>= next) state holds := by
  have takes : Ensures Spared takeRegister state fun reg after => TakesRegister state reg after :=
    ⟨fun _ _ runs => takesRegister runs, fun _ fails => absurd (fails_takeRegister fails).1
      (roomy.not_registersExhausted registers (by omega))⟩
  exact takes.bind rest

theorem allocateRegister : Fits config 1 allocateRegister := by
  intro count state enough roomy
  refine takeRegister_bind registers enough roomy fun reg middle takes => ?_
  have taken := takes.balanced roomy.balanced
  have grip : (middle.allocation.hold reg).grip = (state.allocation.grip.take reg).hold reg :=
    congrArg (Grip.hold · reg) takes.grip
  have held : (middle.allocation.hold reg).Roomy config (count + 1) :=
    ⟨taken.hold, takes.length ▸ roomy.slots, grip ▸ (roomy.grip.take reg).hold
      (RegisterSet.contains_insert_self _ (taken.bound_of_flight (.head _)))⟩
  exact .modify_bind (.pure held)

theorem definePayloadReg (id : OperandId) (type : PayloadType) :
    Fits config 1 (definePayloadReg id type) := by
  intro count state enough roomy
  refine ⟨fun reg after runs => ?_, fun error fails => ?_⟩
  · have balanced := definePayloadReg_balanced runs roomy.balanced
    obtain ⟨-, -, middle, takes, rfl⟩ := runs_definePayloadReg runs
    have learned (allocation : Allocation) :
        (allocation.learn id type).grip = allocation.grip ∧
          (allocation.learn id type).operands.length = allocation.operands.length := by
      unfold Allocation.learn
      cases type.valueType? with
      | none => exact ⟨rfl, rfl⟩
      | some tag => exact ⟨rfl, Allocation.length_modifyOperand ..⟩
    refine ⟨balanced, ?_, ?_⟩
    · rw [Assembler.allocation_withAllocation, (learned _).2, Allocation.length_setLocation,
        takes.length]
      exact (Allocation.length_modifyOperand ..).symm ▸ roomy.slots
    · rw [Assembler.allocation_withAllocation, (learned _).1]
      exact takes.grip ▸ roomy.grip.take reg
  · cases fails_definePayloadReg fails with
    | register op exhausted =>
        exact absurd exhausted ((roomy.markDefined id).not_registersExhausted registers (by omega))
    | _ => exact fun _ => nofun

theorem useRegister (id : OperandId) : Fits config 1 (useRegister id) := by
  intro count state enough roomy
  refine ⟨fun reg after runs => ?_, fun error fails => ?_⟩
  · have balanced := (useRegister_balanced runs roomy.balanced).1
    obtain ⟨-, type, fetched, fetches, rfl⟩ := runs_useRegister runs
    exact ⟨balanced, (Allocation.length_setLocation ..).trans fetches.length ▸ roomy.slots,
      fetches.grip ▸ roomy.grip.take reg⟩
  · cases fails_useRegister fails with
    | register op exhausted =>
        exact absurd exhausted (roomy.not_registersExhausted registers (by omega))
    | _ => exact fun _ => nofun

variable (floats : 1 ≤ config.floatRegisters.toNat)
include floats

theorem useValueReg (id : OperandId) : Fits config 1 (useValueReg id) := by
  intro count state enough roomy
  refine ⟨fun reg after runs => ?_, fun error fails => ?_⟩
  · have balanced := (useValueReg_balanced runs roomy.balanced).1
    obtain ⟨-, fetched, fetches, rfl⟩ := runs_useValueReg runs
    exact ⟨balanced, (Allocation.length_setLocation ..).trans fetches.length ▸ roomy.slots,
      fetches.grip roomy.grip.clear ▸ roomy.grip.take reg⟩
  · cases fails_useValueReg fails with
    | register op exhausted =>
        exact absurd exhausted (roomy.not_registersExhausted registers (by omega))
    | float op exhausted => exact absurd exhausted (roomy.not_floatsExhausted floats)
    | reloaded op slot float loaded place takes exhausted =>
        have same := (takes.place id.toNat (by rw [place]; rfl)).trans place
        have stale := balanced_vacate (takes.balanced roomy.balanced) same
        have grip : ((loaded.allocation.vacate slot).setLocation id.toNat .nowhere).grip =
            state.allocation.grip.takeFloat float := takes.grip
        have cleared := exhausted.clear id.toNat (by
          show (loaded.allocation.place id.toNat).register? = none
          rw [same]
          rfl)
        obtain ⟨held, short, complete⟩ := roomy.grip.few
        refine absurd cleared (stale.not_registersExhausted held ?_ ?_ ?_ ?_ (by omega))
        · exact (Allocation.length_setLocation ..).trans takes.length ▸ roomy.slots
        · intro resource member
          exact ⟨float, List.mem_singleton.mp member⟩
        · rw [show Allocation.scratch _ = _ from congrArg Grip.scratch grip,
            show Allocation.pinned _ = _ from congrArg Grip.pinned grip]
          exact roomy.grip.scratch
        · rw [show Allocation.pinned _ = _ from congrArg Grip.pinned grip]
          exact complete
    | _ => exact fun _ => nofun

end

end Fits

/-- A float register that is taken beside the registers of an operation is its only scratch one. -/
theorem TakesFloat.lends {count : Nat} {float : FloatRegister} {state after : Assembler}
    (takes : TakesFloat state float after) (roomy : state.allocation.Roomy config count) :
    (after.allocation.holdFloat float).Lends config float where
  balanced := (takes.balanced roomy.balanced).holdFloat
  slots := takes.length ▸ roomy.slots
  lent := by
    intro f held
    have idle : after.allocation.scratchFloats = .empty :=
      (congrArg Grip.scratchFloats takes.grip).trans roomy.grip.idle
    rw [Allocation.holdFloat, idle, RegisterSet.contains_insert, RegisterSet.contains_empty,
      Bool.false_or, Bool.and_eq_true, decide_eq_true_eq, decide_eq_true_eq] at held
    exact held.2.symm

section

variable {count : Nat} {state : Assembler} (floats : 1 ≤ config.floatRegisters.toNat)
include floats

theorem allocateFloat_lends (roomy : state.allocation.Roomy config count) :
    Ensures Spared allocateFloat state fun float after => after.allocation.Lends config float := by
  refine ⟨fun float after runs => ?_, fun error fails => ?_⟩
  · obtain ⟨middle, takes, rfl⟩ := runs_allocateFloat runs
    exact takes.lends roomy
  · exact absurd (fails_allocateFloat fails).1 (roomy.not_floatsExhausted floats)

theorem useNumber_lends (registers : 4 ≤ config.generalRegisters.toNat) (enough : count + 1 ≤ 4)
    (roomy : state.allocation.Roomy config count) (id : OperandId) :
    Ensures Spared (useNumber id) state fun float after =>
      after.allocation.Lends config float := by
  have fetchesPayload := Fits.useRegister registers id count state enough roomy
  have fetchesValue := Fits.useValueReg registers floats id count state enough roomy
  refine ⟨fun float after runs => ?_, fun error fails => ?_⟩
  · have fetches := runs_useNumber runs
    have balanced := fetches.balanced roomy.balanced
    cases fetches with
    | floatReg place => exact Allocation.Settled.lends ⟨balanced, roomy.slots, roomy.grip.idle⟩ _
    | floatSlot slot middle place takes =>
        exact Allocation.Settled.lends ⟨balanced,
          (Allocation.length_setLocation ..).trans takes.length ▸ roomy.slots,
          (congrArg Grip.scratchFloats takes.grip).trans roomy.grip.idle⟩ _
    | int32 src middle last payload uses takes =>
        exact takes.lends (fetchesPayload.runs src middle uses)
    | boxed src middle last form uses takes =>
        exact takes.lends (fetchesValue.runs src middle uses)
    | double src middle last form proven uses takes =>
        have used := fetchesValue.runs src middle uses
        exact Allocation.Settled.lends ⟨balanced,
          (Allocation.length_setLocation ..).trans takes.length ▸ used.slots,
          (congrArg Grip.scratchFloats takes.grip).trans used.grip.idle⟩ _
  · cases fails_useNumber fails with
    | float op exhausted => exact absurd exhausted (roomy.not_floatsExhausted floats)
    | fetchPayload _ form fails => exact fetchesPayload.fails error fails
    | fetchValue _ form fails => exact fetchesValue.fails error fails
    | payloadFloat op src fetched uses exhausted =>
        exact absurd exhausted ((fetchesPayload.runs src fetched uses).not_floatsExhausted floats)
    | valueFloat op src fetched uses exhausted =>
        exact absurd exhausted ((fetchesValue.runs src fetched uses).not_floatsExhausted floats)
    | _ => exact fun _ => nofun

end

theorem not_fails_releaseFloat : ¬(releaseFloat reg).Fails state error := by
  intro fails
  simp only [releaseFloat, fails_bind, not_fails_allocation, runs_allocation, false_or] at fails
  obtain ⟨_, _, ⟨rfl, rfl⟩, fails⟩ := fails
  split at fails
  · simp only [fails_bind, not_fails_modifyAllocation, not_fails_returnFloat, and_false,
      exists_false, or_false] at fails
  · exact absurd fails not_fails_pure

/-- The float register that was lent comes back. -/
theorem releaseFloat_settled {float : FloatRegister} {state : Assembler}
    (lends : state.allocation.Lends config float) :
    Ensures Spared (releaseFloat float) state fun _ after => after.allocation.Settled config := by
  refine ⟨fun _ after runs => ?_, fun error fails => absurd fails not_fails_releaseFloat⟩
  have releases := runs_releaseFloat runs
  have balanced := releases.balanced lends.balanced
  cases releases with
  | scratch _ held returns =>
      have dropped : after.allocation.scratchFloats =
          state.allocation.scratchFloats.remove float.index :=
        congrArg Grip.scratchFloats returns.grip
      refine ⟨balanced, returns.operands ▸ lends.slots, lends.idle ?_ ?_⟩
      · intro f kept
        rw [dropped, RegisterSet.contains_remove, Bool.and_eq_true] at kept
        exact kept.1
      · rw [dropped, RegisterSet.contains_remove, decide_eq_false (not_not_intro rfl),
          Bool.and_false]
  | other free => exact ⟨balanced, lends.slots, lends.idle (fun _ held => held) free⟩

/-- A number is converted where it is lent. -/
theorem lent_finishes {float : FloatRegister} {state : Assembler} {convert : Asm Unit}
    (lends : state.allocation.Lends config float) (still : Still convert) :
    Ensures Spared (convert >>= fun _ => releaseFloat float) state fun _ after =>
      after.allocation.Settled config :=
  (still.ensures (·.Lends config float) lends).bind
    fun _ _ => releaseFloat_settled

section

variable (registers : 4 ≤ config.generalRegisters.toNat)
  (floats : 1 ≤ config.floatRegisters.toNat) {convert : FloatRegister → Asm Unit}
include floats

theorem doublePath_finishes (value : Register) (still : ∀ float, Still (convert float)) :
    Finishes config 0 (doublePath value convert) :=
  fun _ _ _ roomy => (allocateFloat_lends floats roomy).bind fun float _ lends =>
    ((Still.emit _).ensures (·.Lends config float) lends).bind fun _ _ lends => lent_finishes lends (still float)

include registers

theorem knownDouble_finishes (id : OperandId) (still : ∀ float, Still (convert float)) :
    Finishes config 1 (knownDouble id convert) :=
  fun _ _ enough roomy => (useNumber_lends floats registers enough roomy id).bind
    fun float _ lends => lent_finishes lends (still float)

theorem int32OrDouble_finishes (id : OperandId) (dst : Register) (nonNumber : ExitStatus)
    (still : ∀ float, Still (convert float)) :
    Finishes config 1 (int32OrDouble id dst nonNumber convert) := by
  refine .allocation_bind fun found => ?_
  split
  · exact knownDouble_finishes registers floats id still
  · refine (Fits.useValueReg registers floats id).taken_finishes fun value => ?_
    refine .allocation_bind fun found => ?_
    split
    · exact (Fits.emit _).finishes
    · refine (Fits.still .newLabel).bind_finishes fun notInt32 => ?_
      refine (Fits.still .newLabel).bind_finishes fun done => ?_
      refine (Fits.emit _).bind_finishes fun _ => ?_
      refine (Fits.emit _).bind_finishes fun _ => ?_
      refine (Fits.emit _).bind_finishes fun _ => ?_
      refine (Fits.emit _).bind_finishes fun _ => ?_
      refine (Fits.still (.exitPath nonNumber)).bind_finishes fun fail => ?_
      refine (Fits.emit _).bind_finishes fun _ => ?_
      exact (doublePath_finishes floats value still).emit _

end

/-- What asks the allocator for nothing leaves operands where they are. -/
theorem Codes.still {hand : Hand} {opened : List Label} {stretch : Asm Unit}
    (codes : Codes hand opened stretch) : Still stretch := by
  induction codes with
  | done => exact fun _ => .pure rfl
  | emit _ _ _ ih | bound _ _ ih => exact (Still.emit _).bind fun _ => ih
  | newLabel _ ih => exact Still.newLabel.bind ih
  | fail _ ih => exact (Still.exitPath _).bind ih

namespace Fits

variable {env : EmitEnv} {field : Field}

theorem typedWord (type : FieldType) : Fits config 0 (typedWord env field type) := by
  unfold Asm.typedWord
  split
  · exact pure _
  · exact throw fun _ => nofun

theorem int32Word : Fits config 0 (int32Word env field) := by
  unfold Asm.int32Word
  split
  · exact pure _
  · exact throw fun _ => nofun

theorem callsHelpers :
    Fits config 0 (modify fun state => { state with callsHelpers := true } : Asm Unit) :=
  fun _ _ _ roomy => .modify roomy

/-- What comes behind a register that is taken has one less to take. -/
theorem taken {count need : Nat} {stretch : Asm Register} {next : Register → Asm Unit}
    (fits : Fits config 1 stretch) (few : count < 4) (spent : count + need = 4)
    (rest : ∀ reg {less}, count + 1 + less = 4 → Finishes config less (next reg)) :
    Finishes config need (stretch >>= next) := by
  obtain ⟨less, rfl⟩ := Nat.exists_eq_add_one_of_ne_zero (show need ≠ 0 by omega)
  exact fits.taken_finishes fun reg => rest reg (Nat.add_right_comm .. ▸ spent)

theorem guardType (registers : 4 ≤ config.generalRegisters.toNat)
    (floats : 1 ≤ config.floatRegisters.toNat) (input : OperandId) (type : ValueType) :
    Fits config 1 (guardType input type) := by
  refine allocation_bind fun found => ?_
  refine (useValueReg registers floats input).bind_taken fun value => ?_
  split
  · exact failurePath.bind fun fail => (emit _).bind fun _ => (setKnownType _ _).bind fun _ =>
      pure value
  · exact pure value

end Fits

section

variable (registers : 4 ≤ config.generalRegisters.toNat) (floats : 1 ≤ config.floatRegisters.toNat)
include registers floats

theorem guardClampedByte_finishes (input result : OperandId) :
    Finishes config 2 (guardClampedByte input result) := by
  refine (Fits.definePayloadReg registers result .int32).taken_finishes fun dst => ?_
  refine .allocation_bind fun found => ?_
  split
  · exact knownDouble_finishes registers floats input fun _ => .emit _
  · refine (Fits.useValueReg registers floats input).taken_finishes fun value => ?_
    refine (Fits.still .newLabel).bind_finishes fun done => ?_
    refine (Fits.still .newLabel).bind_finishes fun isDouble => ?_
    refine (Fits.emit _).bind_finishes fun _ => ?_
    refine (Fits.emit _).bind_finishes fun _ => ?_
    refine (Fits.emit _).bind_finishes fun _ => ?_
    refine (Fits.emit _).bind_finishes fun _ => ?_
    refine (Fits.emit _).bind_finishes fun _ => ?_
    refine Fits.failurePath.bind_finishes fun fail => ?_
    refine (Fits.emit _).bind_finishes fun _ => ?_
    exact (doublePath_finishes floats value fun _ => .emit _).emit _

theorem Builds.finishes {env : EmitEnv} {op : Op} {hand : Hand} {defs : List OperandId}
    {stretch : Asm Unit} (builds : Builds env op hand defs stretch) {need : Nat}
    (spent : hand.taken + need = 4) : Finishes config need stretch := by
  induction builds generalizing need with
  | codes codes => exact (Fits.still codes.still).finishes.mono (Nat.zero_le _)
  | reject => exact (Fits.reject _).finishes
  | returns => exact (Fits.emit _).finishes.mono (Nat.zero_le _)
  | emit _ _ ih => exact (Fits.emit _).bind_finishes fun _ => ih spent
  | leave _ _ ih => exact (Fits.still (.exitPath _)).bind_finishes fun label => ih label spent
  | look _ ih => exact .allocation_bind fun found => ih found spent
  | callsHelpers _ ih => exact Fits.callsHelpers.bind_finishes fun _ => ih spent
  | typedWord _ ih => exact (Fits.typedWord _).bind_finishes fun word => ih word spent
  | int32Word _ ih => exact Fits.int32Word.bind_finishes fun n => ih n spent
  | grant _ _ ih => exact ih spent
  | spend few _ ih =>
      obtain ⟨less, rfl⟩ := Nat.exists_eq_add_one_of_ne_zero (show need ≠ 0 by omega)
      exact (ih (Nat.add_right_comm .. ▸ spent)).mono (Nat.le_succ _)
  | allocateRegister few _ ih => exact (Fits.allocateRegister registers).taken few spent ih
  | releaseRegister _ ih => exact (Fits.releaseRegister _).bind_finishes fun _ => ih spent
  | useRegister few _ ih => exact (Fits.useRegister registers _).taken few spent ih
  | useValueReg few _ ih => exact (Fits.useValueReg registers floats _).taken few spent ih
  | guardType _ few _ ih => exact (Fits.guardType registers floats _ _).taken few spent ih
  | define few _ ih => exact (Fits.definePayloadReg registers _ _).taken few spent ih
  | boxIntPtr _ _ _ rest =>
      intro count state enough roomy
      refine (allocateFloat_lends floats roomy).bind fun float _ lends => ?_
      refine ((Still.emit _).ensures (·.Lends config float) lends).bind fun _ _ lends => ?_
      exact (releaseFloat_settled lends).bind fun _ _ settled => rest.still.ensures (·.Settled config) settled
  | convert _ _ few converts =>
      have enough : 1 + 1 ≤ need := by omega
      refine ((Fits.definePayloadReg registers _ _).taken_finishes fun dst => ?_).mono enough
      exact int32OrDouble_finishes registers floats _ dst _ fun float => (converts dst float).still
  | clamp few => exact (guardClampedByte_finishes registers floats _ _).mono (by omega)

end

end Asm

/-- Four registers and a float register are enough for an operation. -/
theorem Op.emit_finishes {config : CodeConfig} (registers : 4 ≤ config.generalRegisters.toNat)
    (floats : 1 ≤ config.floatRegisters.toNat) (env : EmitEnv) (op : Op) :
    Asm.Finishes config 4 (op.emit env) :=
  (op.emit_builds env).finishes registers floats rfl

end InlineCache
