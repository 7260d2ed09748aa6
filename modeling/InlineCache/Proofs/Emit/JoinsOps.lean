import InlineCache.Proofs.Emit.Joins
import InlineCache.Proofs.Emit.SparesOps

/-!
The branches of each operation meet their labels.  An operation asks for labels when its operands are in
their registers, and binds them before it takes a register for anything but a number that is converted.
-/

namespace InlineCache

namespace Inst

variable {inst : Inst}

/-- Only boxing and unboxing a payload may leave it in its register. -/
theorem moves_of_work (work : inst.isWork = true) (still : inst.isBoxing = false) :
    inst.moves = false := by
  cases inst <;> cases work <;> cases still <;> rfl

end Inst

namespace Asm

namespace Joins

variable {spot : Spot} {later : Stage} {paths : List Label} {opened : List (Label × Placement)}
  {here : Allocation → Prop} {placement : Placement} {α β : Type}

theorem looks_bind {stage : Stage} {stretch : Asm α} {next : α → Asm β} (looks : Looks stretch)
    (rest : ∀ answer, Joins spot stage later (next answer)) :
    Joins spot stage later (stretch >>= next) := by
  intro state answer after runs
  obtain ⟨found, _, first, runs⟩ := runs_bind.mp runs
  cases looks _ _ _ first
  exact rest found _ _ _ runs

theorem doublePath {value : Register} {convert : FloatRegister → Asm Unit}
    (converts : ∀ float lent, Joins spot (.placed [] opened lent) (.placed [] opened lent)
      (convert float)) :
    Joins spot (.placed paths opened placement) (.placed [] opened placement)
      (doublePath value convert) := by
  refine allocateFloat_bind fun float lent lends => ?_
  have unboxed : Joins spot (.placed paths opened lent) (.placed [] opened lent)
      (Asm.emit (.unboxDouble value float)) := emit (by simp)
  exact unboxed.bind fun _ => (converts float lent).bind fun _ => releaseFloat lends

/-- Where the payload has the tag of an int32, the operand that an operation has defined itself is known
not to be a double. -/
theorem int32OrDouble {input result : OperandId} {dst : Register} {status : ExitStatus}
    {type : PayloadType} (integral : type.valueType? = none ∨ type.valueType? = some .int32)
    {convert : FloatRegister → Asm Unit}
    (converts : ∀ opened float lent, Joins spot (.placed [] opened lent) (.placed [] opened lent)
      (convert float)) :
    Joins spot ⟨paths, [], (·.Houses result type dst)⟩ (.quiet [])
      (int32OrDouble input dst status convert) := by
  refine allocation_bind fun found _ single => ?_
  rw [if_neg (single.known input)]
  refine useValueReg_bind_housed fun value _ => allocation_bind fun found known _ => ?_
  split
  · exact (emit (by simp)).forget
  rename_i other
  have apart : value ≠ dst := by
    intro same
    obtain ⟨tagged, known⟩ := known same
    refine other ((Allocation.knownType_eq_known ..).trans (known.trans ?_))
    exact integral.resolve_left tagged
  refine placed fun placement => newLabel_bind fun notInt32 => newLabel_bind fun done => ?_
  refine emit_bind (by simp +contextual) (emit_bind (by simp [apart]) (emit_bind (by simp +contextual) ?_))
  refine perm [(notInt32, placement), (done, placement)] ?_ (.swap ..)
  refine bound_bind (exitPath_bind fun fail => emit_bind (by simp) ?_)
  exact (doublePath fun float lent => converts _ float lent).bind fun _ => bound

/-- The payload is taken on one of two ways.  It is there before, where an operand is named as the
result of its own guard. -/
theorem guardClampedByte {input result : OperandId} {index : Nat}
    (current : spot.current = some index)
    (named : spot.ops[index]? = some ⟨.guardToUint8Clamped, input, result, ()⟩) :
    Joins spot ⟨paths, [], here⟩ (.quiet []) (guardClampedByte input result) := by
  refine definePayloadReg_bind fun dst => allocation_bind fun found _ single => ?_
  rw [if_neg (single.known input)]
  refine useValueReg_bind_housed fun value own => ?_
  have excused (same : value = dst) : Excused spot.ops spot.current (.unboxPayload value dst .int32) := by
    subst same
    cases own rfl
    exact ⟨⟨value, rfl⟩, index, input, current, named⟩
  refine placed fun placement => newLabel_bind fun done => newLabel_bind fun isDouble => ?_
  refine emit_bind (by simp +contextual) (emit_bind (by simpa using excused) ?_)
  refine emit_bind (by simp) (emit_bind (by simp +contextual) ?_)
  refine bound_bind (exitPath_bind fun fail => emit_bind (by simp) ?_)
  exact (doublePath fun _ _ => emit (by simp)).bind fun _ => bound

end Joins

variable {spot : Spot}

/-- What asks the allocator for nothing has the placement at each label that it had at the branches. -/
theorem Codes.joins {hand : Hand} {opened : List Label} {stretch : Asm Unit}
    (codes : Codes hand opened stretch) {paths : List Label} {others : List (Label × Placement)}
    {placement : Placement} (known : hand.paths ⊆ paths) :
    Joins spot (.placed paths (opened.map (·, placement) ++ others) placement)
      (.placed [] others placement) stretch := by
  induction codes generalizing paths others with
  | done => exact .pure
  | emit allows still _ ih =>
      refine .emit_bind ⟨Inst.isBind_of_work allows.work, fun label target => ?_, fun moves => ?_⟩ (ih known)
      · refine (allows.target label target).symm.imp (known ·) fun member found here => ?_
        exact List.mem_append_left _ (List.mem_map.mpr ⟨label, member, here ▸ rfl⟩)
      · cases (Inst.moves_of_work allows.work still).symm.trans moves
  | newLabel _ ih => exact .newLabel_bind fun label => ih label known
  | bound perm _ ih => exact .perm _ (.bound_bind (ih known)) ((perm.map _).append_right others)
  | fail _ ih => exact .exitPath_bind fun label => ih label (List.cons_subset_cons label known)

theorem Builds.joins {env : EmitEnv} {op : Op} {hand : Hand} {defs : List OperandId}
    {stretch : Asm Unit} (builds : Builds env op hand defs stretch) {index : Nat}
    (current : spot.current = some index) (named : spot.ops[index]? = some op)
    (here : Allocation → Prop) :
    Joins spot ⟨hand.paths, [], here⟩ (.quiet []) stretch := by
  induction builds generalizing here with
  | codes codes => exact .placed fun placement => codes.joins (List.Subset.refl _)
  | reject => exact .reject
  | returns => exact (Joins.emit (by simp)).forget
  | emit allows _ ih =>
      refine .emit_bind ⟨Inst.isBind_of_work allows.work, fun label target => ?_, fun _ => .inl rfl⟩ (ih here)
      exact .inl ((allows.target label target).resolve_left fun impossible => nomatch impossible)
  | leave _ _ ih => exact .exitPath_bind fun label => ih label here
  | look _ ih => exact .allocation_bind fun found _ _ => ih found here
  | callsHelpers _ ih => exact .callsHelpers_bind (ih here)
  | typedWord _ ih => exact .looks_bind .typedWord fun word => ih word here
  | int32Word _ ih => exact .looks_bind .int32Word fun n => ih n here
  | grant _ _ ih | spend _ _ ih => exact ih here
  | allocateRegister _ _ ih => exact .allocateRegister_bind fun reg => ih reg _
  | releaseRegister _ ih => exact Joins.releaseRegister.bind fun _ => ih _
  | useRegister _ _ ih => exact .useRegister_bind fun reg => ih reg _
  | useValueReg _ _ ih => exact .useValueReg_bind fun reg => ih reg _
  | guardType other _ _ ih => exact (Joins.guardType other).bind fun reg => ih reg _
  | define _ _ ih => exact .definePayloadReg_bind fun reg => ih reg _
  | boxIntPtr _ _ _ rest =>
      refine .placed fun placement => .allocateFloat_bind fun float lent lends => ?_
      exact .emit_bind (by simp) <| (Joins.releaseFloat lends).bind fun _ => rest.joins (List.Subset.refl _)
  | convert _ integral _ converts =>
      refine .definePayloadReg_bind fun dst => .int32OrDouble integral fun opened float lent => ?_
      exact (converts dst float).joins (List.nil_subset _)
  | clamp _ same => exact .guardClampedByte current (same ▸ named)

end Asm

theorem Op.emit_joins (env : EmitEnv) {spot : Spot} {op : Op} {index : Nat}
    (current : spot.current = some index) (named : spot.ops[index]? = some op) :
    Asm.Joins spot (.quiet []) (.quiet []) (op.emit env) :=
  (op.emit_builds env).joins current named _

end InlineCache
