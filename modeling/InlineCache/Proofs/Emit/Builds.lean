import InlineCache.Proofs.Code.Speculation
import InlineCache.Proofs.Emit.Writes

/-!
What the code of an operation is built of.  An operation brings its operands into registers, takes
registers for its results and for itself, and writes instructions that name nothing but what it has at
hand.  It branches within itself only when it asks the allocator for nothing any more, the conversion of
a number apart.  A property of code generation that each of these steps has is one of all operations.
-/

namespace InlineCache

namespace Inst

/-- The instructions that operations write themselves, but for those that move a double. -/
def isWork : Inst → Bool
  | .jump _ | .storeOutput _ | .movImm _ _ | .loadStubWord _ _ | .load64 _ _ _ | .load32 _ _ _
  | .loadIndexed64 _ _ _ | .branchTestType _ _ _ _ | .branchTestNumber _ _ _ | .branch32 _ _ _ _
  | .branchPtr _ _ _ _ | .branchTestShape _ _ _ _ _ _ | .branchTestClass _ _ _ _ _ _
  | .cmpSet _ _ _ _ | .andImm _ _ | .unboxPayload _ _ _ | .boxPayload _ _ _ | .loadValueTag _ _
  | .doubleToInt32Exact _ _ _ | .doubleToIntPtrExact _ _ _ | .truncateDoubleModUint32 _ _ _
  | .int32ToIntPtr _ _ | .spectreMaskIndex _ _ _ | .callHelper _ _ _ _ _ _ => true
  | _ => false

/-- The instruction turns a boxed word into a payload, or the other way round. -/
def isBoxing : Inst → Bool
  | .unboxPayload _ _ _ | .boxPayload _ _ _ => true
  | _ => false

variable {inst : Inst}

theorem bound_of_work (work : inst.isWork = true) : inst.bound? = none := by
  cases inst <;> cases work <;> rfl

theorem isInput_of_work (work : inst.isWork = true) : inst.isInput = false := by
  cases inst <;> cases work <;> rfl

end Inst

/-- What is named may be relied on, and so may what can be relied on at every site. -/
def Need.Granted (named : List Need) (need : Need) : Prop :=
  need ∈ named ∨ ∀ site : Site, site.Grants need

namespace Need

variable {need other : Need} {named more : List Need}

@[simp] theorem granted_nil : need.Granted [] ↔ ∀ site : Site, site.Grants need := by
  simp [Granted]

@[simp] theorem granted_cons : need.Granted (other :: named) ↔ need = other ∨ need.Granted named := by
  simp [Granted, or_assoc]

@[simp] theorem granted_append : need.Granted (more ++ named) ↔ need ∈ more ∨ need.Granted named := by
  simp [Granted, or_assoc]

@[simp] theorem ofSource_reg (reg : Register) : ofSource (.reg reg) = [.register reg] := rfl

@[simp] theorem ofSource_imm (word : UInt64) : ofSource (.imm word) = [] := rfl

theorem Granted.anywhere (always : ∀ site : Site, site.Grants need) : need.Granted named :=
  .inr always

theorem Granted.granted {site : Site} (granted : need.Granted named)
    (grants : ∀ other ∈ named, site.Grants other) : site.Grants need :=
  granted.elim (grants need) fun always => always site

@[simp] theorem granted_label {label : Label} : (Need.label label).Granted named :=
  .anywhere fun _ => Site.grants_label

@[simp] theorem granted_helper {helper : Helper} : (Need.helper helper).Granted named :=
  .anywhere fun _ => Site.grants_helper

@[simp] theorem granted_equal : (Need.tagCondition .equal).Granted named :=
  .anywhere fun _ => Site.grants_tagCondition.mpr (.inl rfl)

@[simp] theorem granted_notEqual : (Need.tagCondition .notEqual).Granted named :=
  .anywhere fun _ => Site.grants_tagCondition.mpr (.inr rfl)

end Need

/-- What a stretch has at hand: what its instructions may rely on, registers that it took for itself,
registers with payloads that it asked for, labels of exit paths, and how many registers it has taken. -/
structure Hand where
  named : List Need
  own : List Register
  held : List Register
  paths : List Label
  taken : Nat

namespace Hand

def empty : Hand := ⟨[], [], [], [], 0⟩

def name (hand : Hand) (need : Need) : Hand :=
  { hand with named := need :: hand.named }

def spend (hand : Hand) : Hand :=
  { hand with taken := hand.taken + 1 }

/-- A register is taken to be written. -/
def take (hand : Hand) (reg : Register) : Hand :=
  { (hand.name (.register reg)).spend with own := reg :: hand.own }

/-- A payload is asked for. -/
def hold (hand : Hand) (reg : Register) : Hand :=
  { (hand.name (.register reg)).spend with held := reg :: hand.held }

/-- A boxed word is asked for; it may be that of an operand whose payload was held. -/
def see (hand : Hand) (reg : Register) : Hand :=
  { (hand.name (.register reg)).spend with held := [] }

/-- A word is given as a source, for which a register may have been taken. -/
def give (hand : Hand) (source : Source) (taken : List Register) : Hand :=
  { hand.spend with named := Need.ofSource source ++ hand.named, own := taken ++ hand.own }

def leave (hand : Hand) (label : Label) : Hand :=
  { hand with paths := label :: hand.paths }

/-- Registers are still named, but no longer told apart. -/
def drop (hand : Hand) : Hand :=
  { hand with own := [], held := [], paths := [] }

/-- The stretch may write the instruction while labels are open. -/
structure Allows (hand : Hand) (opened : List Label) (inst : Inst) : Prop where
  work : inst.isWork = true
  written : ∀ reg, inst.written? = some reg → reg ∈ hand.own
  base : ∀ reg, inst.base? = some reg → reg ∈ hand.own ∨ reg ∈ hand.held
  zeroed : ∀ reg, inst.zeroed? = some reg → reg ∈ hand.held
  target : ∀ label, inst.target? = some label → label ∈ opened ∨ label ∈ hand.paths
  needs : ∀ need ∈ inst.needs, need.Granted hand.named

theorem allows_iff {hand : Hand} {opened : List Label} {inst : Inst} :
    hand.Allows opened inst ↔ inst.isWork = true ∧
      (∀ reg, inst.written? = some reg → reg ∈ hand.own) ∧
      (∀ reg, inst.base? = some reg → reg ∈ hand.own ∨ reg ∈ hand.held) ∧
      (∀ reg, inst.zeroed? = some reg → reg ∈ hand.held) ∧
      (∀ label, inst.target? = some label → label ∈ opened ∨ label ∈ hand.paths) ∧
      ∀ need ∈ inst.needs, need.Granted hand.named :=
  ⟨fun ⟨work, written, base, zeroed, target, needs⟩ => ⟨work, written, base, zeroed, target, needs⟩,
    fun ⟨work, written, base, zeroed, target, needs⟩ => ⟨work, written, base, zeroed, target, needs⟩⟩

/-- What the conversion of a number has at hand. -/
def converting (dst : Register) (float : FloatRegister) : Hand :=
  ⟨[.register dst, .floatRegister float], [dst], [], [], 0⟩

end Hand

namespace Asm

/-- A stretch that asks the allocator for nothing.  It writes instructions, and binds the labels that are
open. -/
inductive Codes : Hand → List Label → Asm Unit → Prop
  | done {hand : Hand} : Codes hand [] (pure ())
  | emit {hand : Hand} {opened : List Label} {inst : Inst} {next : Unit → Asm Unit}
      (allows : hand.Allows opened inst) (still : inst.isBoxing = false)
      (rest : Codes hand opened (next ())) : Codes hand opened (emit inst >>= next)
  | newLabel {hand : Hand} {opened : List Label} {next : Label → Asm Unit}
      (rest : ∀ label, Codes hand (label :: opened) (next label)) :
      Codes hand opened (newLabel >>= next)
  | bound {hand : Hand} {opened others : List Label} {label : Label} {next : Unit → Asm Unit}
      (perm : opened.Perm (label :: others)) (rest : Codes hand others (next ())) :
      Codes hand opened (Asm.emit (.bind label) >>= next)
  | fail {hand : Hand} {opened : List Label} {next : Label → Asm Unit}
      (rest : ∀ label, Codes (hand.leave label) opened (next label)) :
      Codes hand opened (failurePath >>= next)

/-- A stretch of the code of an operation that defines operands. -/
inductive Builds (env : EmitEnv) (op : Op) : Hand → List OperandId → Asm Unit → Prop
  | codes {hand : Hand} {stretch : Asm Unit} (codes : Codes hand [] stretch) :
      Builds env op hand [] stretch
  | reject {hand : Hand} {defs : List OperandId} {defect : Defect} :
      Builds env op hand defs (reject defect)
  | returns {hand : Hand} : Builds env op hand [] (Asm.emit (.ret .returned))
  | emit {hand : Hand} {defs : List OperandId} {inst : Inst} {next : Unit → Asm Unit}
      (allows : hand.Allows [] inst) (rest : Builds env op hand defs (next ())) :
      Builds env op hand defs (Asm.emit inst >>= next)
  | leave {hand : Hand} {defs : List OperandId} {status : ExitStatus} {next : Label → Asm Unit}
      (early : status ≠ .returned) (rest : ∀ label, Builds env op (hand.leave label) defs (next label)) :
      Builds env op hand defs (exitPath status >>= next)
  | look {hand : Hand} {defs : List OperandId} {next : Allocation → Asm Unit}
      (rest : ∀ found, Builds env op hand defs (next found)) :
      Builds env op hand defs (allocation >>= next)
  | callsHelpers {hand : Hand} {defs : List OperandId} {next : Unit → Asm Unit}
      (rest : Builds env op hand defs (next ())) :
      Builds env op hand defs
        ((modify fun state => { state with callsHelpers := true } : Asm Unit) >>= next)
  | typedWord {hand : Hand} {defs : List OperandId} {field : Field} {type : FieldType}
      {next : UInt64 → Asm Unit}
      (rest : ∀ word, Builds env op (hand.name (.fieldOffset field.offset)) defs (next word)) :
      Builds env op hand defs (typedWord env field type >>= next)
  | int32Word {hand : Hand} {defs : List OperandId} {field : Field} {next : Int32 → Asm Unit}
      (rest : ∀ n, Builds env op (hand.name (.fieldOffset field.offset)) defs (next n)) :
      Builds env op hand defs (int32Word env field >>= next)
  | grant {hand : Hand} {defs : List OperandId} {need : Need} {stretch : Asm Unit}
      (granted : need.Granted hand.named) (rest : Builds env op (hand.name need) defs stretch) :
      Builds env op hand defs stretch
  | spend {hand : Hand} {defs : List OperandId} {stretch : Asm Unit} (few : hand.taken < 4)
      (rest : Builds env op hand.spend defs stretch) : Builds env op hand defs stretch
  | allocateRegister {hand : Hand} {defs : List OperandId} {next : Register → Asm Unit}
      (few : hand.taken < 4) (rest : ∀ reg, Builds env op (hand.take reg) defs (next reg)) :
      Builds env op hand defs (allocateRegister >>= next)
  | releaseRegister {hand : Hand} {defs : List OperandId} {reg : Register} {next : Unit → Asm Unit}
      (rest : Builds env op hand.drop defs (next ())) :
      Builds env op hand defs (releaseRegister reg >>= next)
  | useRegister {hand : Hand} {defs : List OperandId} {id : OperandId} {next : Register → Asm Unit}
      (few : hand.taken < 4) (rest : ∀ reg, Builds env op (hand.hold reg) defs (next reg)) :
      Builds env op hand defs (useRegister id >>= next)
  | useValueReg {hand : Hand} {defs : List OperandId} {id : OperandId} {next : Register → Asm Unit}
      (few : hand.taken < 4) (rest : ∀ reg, Builds env op (hand.see reg) defs (next reg)) :
      Builds env op hand defs (useValueReg id >>= next)
  | guardType {hand : Hand} {defs : List OperandId} {input : OperandId} {type : ValueType}
      {next : Register → Asm Unit} (other : type ≠ .double) (few : hand.taken < 4)
      (rest : ∀ reg, Builds env op (hand.drop.see reg) defs (next reg)) :
      Builds env op hand defs (guardType input type >>= next)
  | define {hand : Hand} {defs : List OperandId} {id : OperandId} {type : PayloadType}
      {next : Register → Asm Unit} (few : hand.taken < 4)
      (rest : ∀ reg, Builds env op (hand.take reg) defs (next reg)) :
      Builds env op hand (id :: defs) (definePayloadReg id type >>= next)
  | boxIntPtr {hand : Hand} {src dst : Register} {next : Unit → Asm Unit} (own : dst ∈ hand.own)
      (given : (Need.register src).Granted hand.named) (taken : (Need.register dst).Granted hand.named)
      (rest : Codes hand.drop [] (next ())) :
      Builds env op hand [] (allocateFloat >>= fun float =>
        Asm.emit (.boxIntPtr src dst float) >>= fun _ => releaseFloat float >>= next)
  | convert {hand : Hand} {input result : OperandId} {type : PayloadType} {status : ExitStatus}
      {convert : Register → FloatRegister → Asm Unit} (early : status ≠ .returned)
      (integral : type.valueType? = none ∨ type.valueType? = some .int32) (few : hand.taken + 1 < 4)
      (converts : ∀ dst float, Codes (.converting dst float) [] (convert dst float)) :
      Builds env op hand [result] (definePayloadReg result type >>= fun dst =>
        int32OrDouble input dst status (convert dst))
  | clamp {hand : Hand} {input result : OperandId} (few : hand.taken + 1 < 4)
      (same : op = ⟨.guardToUint8Clamped, input, result, ()⟩) :
      Builds env op hand [result] (guardClampedByte input result)

end Asm

end InlineCache
