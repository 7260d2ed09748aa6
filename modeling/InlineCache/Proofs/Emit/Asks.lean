import InlineCache.Proofs.Emit.Edits

/-!
What the code of an operation asks of the allocator.  It uses operands in general registers, defines its
results as payloads, and borrows at most one float register, which it gives back; the conversion of an
operand that is known to be a double is never reached.  Every property of code generation that goes by
these requests alone is proved once for each of them.
-/

namespace InlineCache.Asm

/-- A stretch makes requests of the allocator, with a float register lent to it before and behind it, and
defines operands.  It may go by what it looks up, where no operand is a double. -/
inductive Asks :
    {α : Type} → Option FloatRegister → Option FloatRegister → List OperandId → Asm α → Prop
  | pure {α : Type} {lent : Option FloatRegister} {answer : α} :
      Asks lent lent [] (pure answer : Asm α)
  | throw {α : Type} {lent later : Option FloatRegister} {defs : List OperandId} {error : CodeError} :
      Asks lent later defs (throw error : Asm α)
  | bind {α β : Type} {lent middle later : Option FloatRegister} {defs : List OperandId}
      {stretch : Asm α} {next : α → Asm β} (first : Asks lent middle [] stretch)
      (second : ∀ answer, Asks middle later defs (next answer)) :
      Asks lent later defs (stretch >>= next)
  | look {β : Type} {lent later : Option FloatRegister} {defs : List OperandId}
      {next : Allocation → Asm β}
      (rest : ∀ found : Allocation, found.Single → Asks lent later defs (next found)) :
      Asks lent later defs (allocation >>= next)
  | write {lent : Option FloatRegister} {inst : Inst} (spare : inst.keepsDouble = false) :
      Asks lent lent [] (emit inst)
  | newLabel {lent : Option FloatRegister} : Asks lent lent [] newLabel
  | callsHelpers {lent : Option FloatRegister} :
      Asks lent lent [] (modify fun state => { state with callsHelpers := true } : Asm Unit)
  | leave {status : ExitStatus} (early : status ≠ .returned) : Asks none none [] (exitPath status)
  | bail {float : FloatRegister} : Asks (some float) (some float) [] (exitPath .bailout)
  | allocateRegister {lent : Option FloatRegister} : Asks lent lent [] allocateRegister
  | releaseRegister {lent : Option FloatRegister} {reg : Register} :
      Asks lent lent [] (releaseRegister reg)
  | useValueReg {lent : Option FloatRegister} {id : OperandId} : Asks lent lent [] (useValueReg id)
  | useRegister {lent : Option FloatRegister} {id : OperandId} : Asks lent lent [] (useRegister id)
  | prove {lent : Option FloatRegister} {id : OperandId} {type : ValueType} (other : type ≠ .double) :
      Asks lent lent [] (setKnownType id type)
  | define {β : Type} {lent later : Option FloatRegister} {defs : List OperandId} {id : OperandId}
      {type : PayloadType} {next : Register → Asm β} (rest : ∀ reg, Asks lent later defs (next reg)) :
      Asks lent later (id :: defs) (definePayloadReg id type >>= next)
  | borrow {β : Type} {later : Option FloatRegister} {defs : List OperandId}
      {next : FloatRegister → Asm β} (rest : ∀ float, Asks (some float) later defs (next float)) :
      Asks none later defs (allocateFloat >>= next)
  | giveBack {float : FloatRegister} : Asks (some float) none [] (releaseFloat float)

namespace Asks

variable {lent later : Option FloatRegister} {defs : List OperandId} {α β : Type} {inst : Inst}

theorem edits {stretch : Asm α} (asks : Asks lent later defs stretch) : Edits true stretch := by
  induction asks with
  | pure => exact .pure
  | throw => exact .throw
  | bind _ _ first second => exact first.bind second
  | look _ rest => exact .allocation_bind rest
  | write spare => exact .emit spare
  | newLabel => exact .newLabel
  | callsHelpers => exact .callsHelpers
  | leave | bail => exact .exitPath
  | allocateRegister => exact .allocateRegister
  | releaseRegister => exact .releaseRegister
  | useValueReg => exact .useValueReg
  | useRegister => exact .useRegister
  | prove other => exact .setKnownType other
  | define _ rest => exact .bind .definePayloadReg rest
  | borrow _ rest => exact .bind .allocateFloat rest
  | giveBack => exact .releaseFloat

theorem reject {defect : Defect} : Asks lent later defs (reject defect : Asm α) :=
  throw

/-- An instruction, and what follows it. -/
theorem writes {next : Unit → Asm β} (spare : inst.keepsDouble = false)
    (rest : Asks lent later defs (next ())) : Asks lent later defs (emit inst >>= next) :=
  (write spare).bind fun _ => rest

end Asks

end InlineCache.Asm
