import InlineCache.Proofs.Eval.Assignment

/-!
What a collector finds in the operands of a running program.  Whatever point an evaluation has come to, each
operand that refers to a cell is found with it, and the cell is that of an input or one that the stub data keeps.
-/

namespace InlineCache

/-- Operands of this kind refer to no cell. -/
def OperandKind.isBare : OperandKind → Bool
  | .value | .object | .string | .symbol | .bigint => false
  | .number | .boolean | .int32 | .intptr | .valueTag | .typed => true

/-- An operation that takes such an argument defines no reference by it. -/
def Param.isBare : Param → Bool
  | .result kind => kind.isBare
  | .use _ | .typed | .field | .flag | .int32 | .valueType | .classKind => true

theorem Args.bare_of_results {params : List Param} (bare : params.all Param.isBare = true)
    (args : Args params) : ∀ result ∈ Args.results params args, result.2.isBare = true := by
  induction params with
  | nil => exact fun _ member => absurd member List.not_mem_nil
  | cons param params ih =>
      obtain ⟨arg, args⟩ := args
      obtain ⟨here, there⟩ := Bool.and_eq_true_iff.mp bare
      intro result member
      rcases List.mem_append.mp member with first | rest
      · cases param with
        | result =>
            cases List.mem_singleton.mp first
            exact here
        | use | typed | field | flag | int32 | valueType | classKind =>
            exact absurd first List.not_mem_nil
      · exact ih there args result rest

/-- An operand refers to a cell as a boxed value that has the tag and the address, or as the bare reference. -/
inductive OperandValue.RefersTo : OperandValue → CellRef → Prop
  | boxed {value : Value} {kind : RefKind} {address : Address}
      (seen : value.ref? kind = some address) : RefersTo (.boxed value) (.ref kind address)
  | ref (kind : RefKind) (address : Address) : RefersTo (.ref kind address) (.ref kind address)

/-- The cells are those that the slots refer to, in the order of the slots, one for each slot that refers to a
cell. -/
inductive Operands.Names : List (Option OperandValue) → List CellRef → Prop
  | nil : Names [] []
  | empty {slots : List (Option OperandValue)} {cells : List CellRef} (rest : Names slots cells) :
      Names (none :: slots) cells
  | plain {value : OperandValue} {slots : List (Option OperandValue)} {cells : List CellRef}
      (bare : ∀ cell, ¬value.RefersTo cell) (rest : Names slots cells) :
      Names (some value :: slots) cells
  | cell {value : OperandValue} {cell : CellRef} {slots : List (Option OperandValue)}
      {cells : List CellRef} (refers : value.RefersTo cell) (rest : Names slots cells) :
      Names (some value :: slots) (cell :: cells)

namespace Value

theorem kind_of_ref? {v : Value} {kind other : RefKind} {address found : Address}
    (seen : v.ref? kind = some address) (again : v.ref? other = some found) : kind = other := by
  obtain ⟨⟨here, -⟩, -⟩ := Option.ite_none_right_eq_some.mp seen
  obtain ⟨⟨there, -⟩, -⟩ := Option.ite_none_right_eq_some.mp again
  have same : kind.tag = other.tag := (of_decide_eq_true here).symm.trans (of_decide_eq_true there)
  cases kind <;> cases other <;> first | rfl | exact absurd same (by decide)

theorem cell?_eq_some {v : Value} {cell : CellRef} :
    v.cell? = some cell ↔ ∃ kind address, v.ref? kind = some address ∧ cell = .ref kind address := by
  constructor
  · intro found
    rw [cell?] at found
    split at found
    · exact ⟨.object, _, by assumption, (Option.some.inj found).symm⟩
    · exact ⟨.string, _, by assumption, (Option.some.inj found).symm⟩
    · exact ⟨.symbol, _, by assumption, (Option.some.inj found).symm⟩
    · exact ⟨.bigint, _, by assumption, (Option.some.inj found).symm⟩
    · cases found
  · rintro ⟨kind, address, seen, rfl⟩
    have other (again : RefKind) (differs : kind ≠ again) : v.ref? again = none :=
      Option.eq_none_iff_forall_ne_some.mpr fun found looked => differs (kind_of_ref? seen looked)
    rw [cell?]
    cases kind with
    | object => rw [seen]
    | string => rw [other .object nofun, seen]
    | symbol => rw [other .object nofun, other .string nofun, seen]
    | bigint => rw [other .object nofun, other .string nofun, other .symbol nofun, seen]

end Value

namespace OperandValue

variable {value : OperandValue} {cell : CellRef}

theorem mem_trace : cell ∈ value.trace ↔ value.RefersTo cell := by
  constructor
  · intro found
    cases value with
    | boxed v =>
        obtain ⟨kind, address, seen, rfl⟩ := Value.cell?_eq_some.mp (Option.mem_toList.mp found)
        exact .boxed seen
    | ref kind address =>
        cases List.mem_singleton.mp found
        exact .ref kind address
    | boolean | int32 | intptr | valueTag => exact absurd found List.not_mem_nil
  · rintro (⟨seen⟩ | _)
    · exact Option.mem_toList.mpr (Value.cell?_eq_some.mpr ⟨_, _, seen, rfl⟩)
    · exact List.mem_singleton_self _

theorem not_refersTo_of_bare (bare : value.kind.isBare = true) : ¬value.RefersTo cell := by
  rintro (_ | ⟨kind, address⟩)
  · cases bare
  · cases kind <;> cases bare

end OperandValue

namespace Operands

/-- Tracing finds the cells that the operands refer to, and no others. -/
theorem names_trace (slots : List (Option OperandValue)) : Names slots (trace ⟨slots⟩) := by
  induction slots with
  | nil => exact .nil
  | cons slot slots ih =>
      cases slot with
      | none => exact .empty ih
      | some value =>
          have split : trace ⟨some value :: slots⟩ = value.trace ++ trace ⟨slots⟩ := List.flatMap_cons
          rw [split]
          cases found : value.trace with
          | nil =>
              refine .plain (fun cell refers => ?_) ih
              have member := OperandValue.mem_trace.mpr refers
              rw [found] at member
              exact absurd member List.not_mem_nil
          | cons cell more =>
              have refers : value.RefersTo cell :=
                OperandValue.mem_trace.mp (found ▸ List.mem_cons_self)
              have alone : more = [] := by
                cases refers with
                | boxed seen =>
                    have one := Value.cell?_eq_some.mpr ⟨_, _, seen, rfl⟩
                    rw [OperandValue.trace, Value.trace, one] at found
                    exact (List.cons.inj found).2.symm
                | ref => exact (List.cons.inj found).2.symm
              subst alone
              exact .cell refers ih

theorem mem_trace {operands : Operands} {cell : CellRef} :
    cell ∈ operands.trace ↔
      ∃ (i : Nat) (value : OperandValue), operands.slots[i]? = some (some value) ∧
        value.RefersTo cell := by
  rw [trace, List.mem_flatMap]
  constructor
  · rintro ⟨_ | value, member, found⟩
    · exact absurd found List.not_mem_nil
    · obtain ⟨i, stored⟩ := List.mem_iff_getElem?.mp member
      exact ⟨i, value, stored, OperandValue.mem_trace.mp found⟩
  · rintro ⟨i, value, stored, refers⟩
    exact ⟨some value, List.mem_of_getElem? stored, OperandValue.mem_trace.mpr refers⟩

variable {before after : Operands} {roots : CellRef → Prop}

theorem rooted_define {id : OperandId} {value : OperandValue}
    (defines : before.define id value = .ok after) (rooted : ∀ cell ∈ before.trace, roots cell)
    (new : ∀ cell, value.RefersTo cell → roots cell) : ∀ cell ∈ after.trace, roots cell := by
  intro cell found
  obtain ⟨i, stored, holds, refers⟩ := mem_trace.mp found
  by_cases own : i = id.toNat
  · subst own
    rw [slot_of_define defines] at holds
    cases holds
    exact new cell refers
  · rw [slot_of_define_ne defines own] at holds
    exact rooted cell (mem_trace.mpr ⟨i, stored, holds, refers⟩)

theorem Gains.rooted {results : List (OperandId × OperandKind)} (gains : before.Gains results after)
    (bare : ∀ result ∈ results, result.2.isBare = true)
    (rooted : ∀ cell ∈ before.trace, roots cell) : ∀ cell ∈ after.trace, roots cell := by
  induction results generalizing before with
  | nil =>
      cases gains
      exact rooted
  | cons result results ih =>
      obtain ⟨value, middle, kind, defines, rest⟩ := gains
      refine ih rest (fun other member => bare other (.tail _ member)) ?_
      exact rooted_define defines rooted fun cell refers =>
        absurd refers (OperandValue.not_refersTo_of_bare (kind ▸ bare _ (.head _)))

end Operands

theorem StubData.mem_trace_of_wordOf? {data : StubData} {offset : Nat} {word : UInt64}
    (found : data.wordOf? offset .object = .ok word) (some : word ≠ 0) :
    CellRef.ref .object word ∈ data.trace := by
  obtain ⟨words, types⟩ := wordOf?_eq_ok.mp found
  have pair : (data.types.zip data.words)[offset / 8]? = Option.some (.object, word) :=
    List.getElem?_zip_eq_some.mpr ⟨types, words⟩
  have traced : (⟨UInt8.ofNat (offset / 8)⟩, .object, word) ∈ data.traced := by
    refine List.mem_map.mpr ⟨((.object, word), offset / 8), List.mem_filter.mpr ⟨?_, rfl⟩, rfl⟩
    exact List.mk_mem_zipIdx_iff_getElem?.mpr pair
  refine List.mem_flatMap.mpr ⟨_, traced, ?_⟩
  simp [FieldType.trace, some]

namespace Eval

variable {s t : EvalState} {data : StubData} {roots : CellRef → Prop}

/-- A guard that narrows a reference takes its cell from a value that is there already. -/
theorem guardRef_rooted {kind : RefKind} {input result : OperandId}
    (runs : guardRef kind input result s = (.ok (), t))
    (rooted : ∀ cell ∈ s.operands.trace, roots cell) : ∀ cell ∈ t.operands.trace, roots cell := by
  have viewed : guardView (Value.ref? kind) (.ref kind) input result s = (.ok (), t) := runs
  obtain ⟨v, address, stores, seen, defines⟩ := guardView_ok viewed
  refine Operands.rooted_define defines rooted fun cell refers => ?_
  cases refers
  exact rooted _ (Operands.mem_trace.mpr ⟨_, _, stores, .boxed seen⟩)

theorem loadObject_ok {field : Field} {result : OperandId}
    (runs : Op.eval data ⟨.loadObject, field, result, ()⟩ s = (.ok (), t)) :
    ∃ word, data.wordOf? field.offset .object = .ok word ∧ word ≠ 0 ∧
      s.operands.define result (.ref .object word) = .ok t.operands := by
  rw [Op.eval, bind_apply] at runs
  cases reads : data.wordOf? field.offset .object with
  | error error =>
      rw [fieldWord, reads] at runs
      cases runs
  | ok word =>
      rw [fieldWord_of reads] at runs
      replace runs : (if word = 0 then fail (.malformed (.nullObjectField field.offset))
        else define result (.ref .object word)) s = (.ok (), t) := runs
      by_cases null : word = 0
      · rw [if_pos null] at runs
        cases runs
      · rw [if_neg null, define_apply] at runs
        cases defines : s.operands.define result (.ref .object word) with
        | error error =>
            rw [defines] at runs
            cases runs
        | ok operands =>
            rw [defines] at runs
            cases runs
            exact ⟨word, rfl, null, defines⟩

/-- An operation that goes through brings in cells that the data keeps, and no others. -/
theorem op_rooted {op : Op} (runs : op.eval data s = (.ok (), t))
    (kept : ∀ cell ∈ data.trace, roots cell) (rooted : ∀ cell ∈ s.operands.trace, roots cell) :
    ∀ cell ∈ t.operands.trace, roots cell := by
  have gains : s.operands.Gains op.results t.operands := by
    have assigns := op.eval_assigns data s
    rwa [runs] at assigns
  obtain ⟨opcode, args⟩ := op
  -- five operations define references; what the others define is no reference
  cases opcode with
  | guardToObject | guardToString | guardToSymbol | guardToBigInt => exact guardRef_rooted runs rooted
  | loadObject =>
      obtain ⟨field, result, ⟨⟩⟩ := args
      obtain ⟨word, reads, some, defines⟩ := loadObject_ok runs
      refine Operands.rooted_define defines rooted fun cell refers => ?_
      cases refers
      exact kept _ (data.mem_trace_of_wordOf? reads some)
  | _ => exact gains.rooted (Args.bare_of_results rfl args) rooted

end Eval

/-- The roots of an evaluation: the cells of its inputs, and those that tracing its stub data marks. -/
def Rooted (data : StubData) (inputs : List Value) (cell : CellRef) : Prop :=
  (∃ input ∈ inputs, (OperandValue.boxed input).RefersTo cell) ∨ cell ∈ data.trace

theorem Point.Step.rooted {data : StubData} {inputs : List Value} {point after : Point}
    (step : point.Step data inputs after)
    (rooted : ∀ cell ∈ point.state.operands.trace, Rooted data inputs cell) :
    ∀ cell ∈ after.state.operands.trace, Rooted data inputs cell := by
  cases step with
  | @store value s next stores =>
      rw [Eval.define_apply] at stores
      cases defines : point.state.operands.define (UInt8.ofNat point.stored) (.boxed value) with
      | error error =>
          rw [defines] at stores
          cases stores
      | ok operands =>
          rw [defines] at stores
          cases stores
          exact Operands.rooted_define defines rooted fun cell refers =>
            .inl ⟨value, List.mem_of_getElem? next, refers⟩
  | complete stored reads evaluates => exact Eval.op_rooted evaluates (fun _ => .inr) rooted

theorem Operands.trace_empty (count : Nat) : (empty count).trace = [] := by
  simp [trace, empty]

/-- At every point of an evaluation tracing the operands marks the cells that they refer to, in the order of their
ids and once for each, and every one of them is a root.  An evaluation that halts leaves the operands as they are
at its last point, and one with the wrong number of inputs has none. -/
theorem operands_are_rooted (program : StubProgram) (data : StubData) (inputs : List Value)
    (context : Context) :
    (inputs.length ≠ program.inputCount.toNat →
      (evaluate program data inputs context).state.operands.trace = []) ∧
    (inputs.length = program.inputCount.toNat →
      (∃ last halt, Course program data inputs context last halt
        (evaluate program data inputs context).state) ∧
      ∀ point, (Point.start program context).Leads data inputs point →
        Operands.Names point.state.operands.slots point.state.operands.trace ∧
        (∀ cell ∈ point.state.operands.trace, Rooted data inputs cell) ∧
        ∀ halt s, point.Halts data inputs halt s → s.operands = point.state.operands) := by
  refine ⟨fun differs => ?_, fun count => ⟨?_, fun point leads => ⟨?_, ?_, ?_⟩⟩⟩
  · rw [evaluate, if_pos differs]
    exact Operands.trace_empty _
  · obtain ⟨last, halt, s, course⟩ := exists_course program data inputs context
    refine ⟨last, halt, ?_⟩
    rwa [course.evaluate count]
  · exact Operands.names_trace _
  · refine leads.keeps (P := fun q => ∀ cell ∈ q.state.operands.trace, Rooted data inputs cell)
      Point.Step.rooted fun cell member => ?_
    rw [Point.start, Operands.trace_empty] at member
    exact absurd member List.not_mem_nil
  · exact fun _ _ => Point.Halts.operands

/-- The object of the input is found twice, boxed and narrowed, and the object of the stub data behind it, when the
third operation bails out. -/
theorem narrowed_and_loaded_objects_are_rooted :
    let program : StubProgram := ⟨[1, 0, 1, 32, 0, 2, 10, 0, 3, 0], 4, 1⟩
    let data : StubData := ⟨[0x800000000000], [.object]⟩
    let inputs : List Value := [.ofRef .object 0x800000000080]
    let result := evaluate program data inputs .empty
    inputs.length = program.inputCount.toNat ∧ result.ending = .ok .bailout ∧
      result.state.operands.trace = [.ref .object 0x800000000080, .ref .object 0x800000000080,
        .ref .object 0x800000000000] ∧
      Operands.Names result.state.operands.slots result.state.operands.trace ∧
      ∀ cell ∈ result.state.operands.trace, Rooted data inputs cell := by
  intro program data inputs result
  have count : inputs.length = program.inputCount.toNat := rfl
  obtain ⟨⟨last, halt, course⟩, points⟩ := (operands_are_rooted program data inputs .empty).2 count
  obtain ⟨names, rooted, halts⟩ := points last course.leads
  have same : result.state.operands = last.state.operands := halts halt _ course.halts
  rw [← same] at names rooted
  exact ⟨count, by decide +kernel, by decide +kernel, names, rooted⟩

end InlineCache
