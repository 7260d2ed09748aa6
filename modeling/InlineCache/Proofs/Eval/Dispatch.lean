import InlineCache.Proofs.Eval.Assigns
import InlineCache.Proofs.Op.RoundTrip

/-!
What an evaluation dispatches.  It reads a program while it runs it, and so comes upon what stands behind the
operations only when all of them have gone through.  Then it ends as decoding does.
-/

namespace InlineCache

namespace Cursor.Decodes

variable {cursor next : Cursor} {ops : List Op} {tail : Tail}

theorem of_read {op : Op} (decodes : cursor.Decodes ops tail) (reads : Op.read cursor = (.ok op, next)) :
    (op.isTerminal = true ∧ ops = [op]) ∨
      op.isTerminal = false ∧ ∃ rest, ops = op :: rest ∧ next.Decodes rest tail := by
  cases decodes with
  | endOfCode atEnd =>
      rw [Op.not_atEnd_of_read reads] at atEnd
      cases atEnd
  | undecodable _ fails => cases fails.symm.trans reads
  | terminal same terminal =>
      cases same.symm.trans reads
      exact .inl ⟨terminal, rfl⟩
  | cons same plain rest =>
      cases same.symm.trans reads
      exact .inr ⟨plain, _, rfl, rest⟩

theorem of_fails {error : StubError} (decodes : cursor.Decodes ops tail)
    (fails : Op.read cursor = (.error error, next)) :
    ops = [] ∧ (tail = .undecodable error ∨
      tail = .endOfCode ∧ cursor.atEnd = true ∧ error = .unexpectedEnd cursor.offset) := by
  cases decodes with
  | endOfCode atEnd =>
      obtain ⟨offset, rest⟩ := cursor
      obtain rfl : rest = [] := List.isEmpty_iff.mp atEnd
      rw [Op.read_nil] at fails
      cases fails
      exact ⟨rfl, .inr ⟨rfl, atEnd, rfl⟩⟩
  | undecodable _ same =>
      cases same.symm.trans fails
      exact ⟨rfl, .inl rfl⟩
  | terminal reads | cons reads => cases fails.symm.trans reads

end Cursor.Decodes

theorem Cursor.In.offset_of_atEnd {code : List UInt8} {cursor : Cursor} (inside : cursor.In code)
    (atEnd : cursor.atEnd = true) : cursor.offset = code.length := by
  have empty := congrArg List.length (inside.rest_eq.symm.trans (List.isEmpty_iff.mp atEnd))
  rw [List.length_drop, List.length_nil] at empty
  have bound := inside.offset_le
  omega

namespace Point

variable {data : StubData} {inputs : List Value} {point after : Point} {halt : Halt} {s : EvalState}

theorem Step.cursor_in {code : List UInt8} (step : point.Step data inputs after)
    (inside : point.cursor.In code) : after.cursor.In code := by
  cases step with
  | store => exact inside
  | complete stored reads evaluates =>
      have stays := (Op.read_forward.staysIn code _ inside).1
      rwa [reads] at stays

/-- What has been completed, and what can be decoded from here on, are the operations of the program. -/
def Consumes (decoded : List Op) (tail : Tail) (point : Point) : Prop :=
  ∃ rest, point.cursor.Decodes rest tail ∧ point.completed ++ rest = decoded

theorem Step.consumes {decoded : List Op} {tail : Tail} (step : point.Step data inputs after)
    (consumes : point.Consumes decoded tail) : after.Consumes decoded tail := by
  obtain ⟨rest, decodes, rfl⟩ := consumes
  cases step with
  | store => exact ⟨rest, decodes, rfl⟩
  | @complete op cursor s stored reads evaluates =>
      rcases decodes.of_read reads with ⟨terminal, rfl⟩ | ⟨-, others, rfl, onward⟩
      · cases (Eval.eval_terminal terminal data point.state).symm.trans evaluates
      · exact ⟨others, onward, by rw [List.append_assoc, List.singleton_append]⟩

theorem Halts.dispatched_prefix {decoded : List Op} {tail : Tail}
    (halts : point.Halts data inputs halt s) (consumes : point.Consumes decoded tail) :
    point.dispatched halt <+: decoded := by
  obtain ⟨rest, decodes, rfl⟩ := consumes
  cases halts with
  | storing | reading => exact List.prefix_append _ _
  | @doing op cursor stop after stored reads evaluates =>
      rcases decodes.of_read reads with ⟨-, rfl⟩ | ⟨-, others, rfl, -⟩
      · exact List.prefix_rfl
      · exact ⟨others, by rw [dispatched, List.append_assoc, List.singleton_append]⟩

/-- Where no operation can be read, all that can be decoded has been dispatched. -/
theorem Halts.of_reading {decoded : List Op} {tail : Tail} {error : StubError}
    (halts : point.Halts data inputs (.reading error) s) (consumes : point.Consumes decoded tail) :
    point.dispatched (.reading error) = decoded ∧ (tail = .undecodable error ∨
      tail = .endOfCode ∧ point.cursor.atEnd = true ∧
        error = .unexpectedEnd point.cursor.offset) := by
  obtain ⟨rest, decodes, rfl⟩ := consumes
  cases halts with
  | reading stored fails =>
      obtain ⟨rfl, behind⟩ := decodes.of_fails fails
      exact ⟨(List.append_nil _).symm, behind⟩

/-- Only a read that fails blames the code. -/
theorem Halts.reading_of_blamesCode (halts : point.Halts data inputs halt s)
    (blames : blamesCode halt.stop.ending = true) : ∃ error, halt = .reading error := by
  cases halts with
  | @storing value stop after next fails =>
      have assigns := Eval.Assigns.input (UInt8.ofNat point.stored) value point.state
      rw [fails] at assigns
      cases blames.symm.trans assigns.2
  | @doing op cursor stop after stored reads evaluates =>
      have assigns := op.eval_assigns data point.state
      rw [evaluates] at assigns
      cases blames.symm.trans assigns.2
  | reading => exact ⟨_, rfl⟩

end Point

/-- The operations of a program, as they are read to be listed, to be compiled and to be run. -/
theorem decoders_agree (program : StubProgram) :
    ∃ decoded tail, (Cursor.start program.code).Decodes decoded tail ∧
      (∀ ops, program.terminatedOps = .ok ops ↔
        program.ops = .ok ops ∧ ∃ op, ops.getLast? = some op ∧ op.isTerminal = true) ∧
      (program.terminatedOps = .error (.decode .missingTerminal) ↔
        ∃ ops, program.ops = .ok ops ∧ ∀ op ∈ ops, op.isTerminal = false) ∧
      (∀ index byte, program.terminatedOps = .error (.unsupportedOp index byte) ↔
        program.ops = .error (.unknownOpcode byte) ∧ decoded.length = index) ∧
      (∀ error, error ≠ .missingTerminal → (∀ byte, error ≠ .unknownOpcode byte) →
        (program.terminatedOps = .error (.decode error) ↔ program.ops = .error error)) ∧
      ∀ data inputs context, inputs.length = program.inputCount.toNat →
        (∃ last halt s, Course program data inputs context last halt s) ∧
        ∀ last halt s, Course program data inputs context last halt s →
          evaluate program data inputs context = ⟨halt.stop.ending, s⟩ ∧
          last.dispatched halt <+: decoded ∧
          (blamesCode halt.stop.ending = true → last.dispatched halt = decoded ∧
            ∃ error, halt = .reading error ∧ (program.ops = .error error ∨
              program.ops = .ok decoded ∧ (∀ op ∈ decoded, op.isTerminal = false) ∧
                error = .unexpectedEnd program.code.length)) := by
  obtain ⟨decoded, tail, decodes⟩ := Cursor.exists_decodes (.start program.code)
  refine ⟨decoded, tail, decodes, program.terminatedOps_eq_ok,
    program.terminatedOps_eq_missingTerminal, program.terminatedOps_eq_unsupportedOp decodes,
    fun error present known => program.terminatedOps_eq_decode present known, ?_⟩
  intro data inputs context count
  refine ⟨exists_course program data inputs context, fun last halt s course => ?_⟩
  have consumes : last.Consumes decoded tail :=
    course.leads.keeps Point.Step.consumes ⟨decoded, decodes, rfl⟩
  have inside : last.cursor.In program.code :=
    course.leads.keeps Point.Step.cursor_in ⟨Nat.zero_le _, rfl⟩
  refine ⟨course.evaluate count, course.halts.dispatched_prefix consumes, fun blames => ?_⟩
  obtain ⟨error, rfl⟩ := course.halts.reading_of_blamesCode blames
  obtain ⟨all, behind⟩ := course.halts.of_reading consumes
  refine ⟨all, error, rfl, ?_⟩
  rw [program.ops_eq decodes]
  rcases behind with rfl | ⟨rfl, atEnd, rfl⟩
  · exact .inl rfl
  · exact .inr ⟨rfl, decodes.plain nofun, congrArg _ (inside.offset_of_atEnd atEnd)⟩

/-- Behind the guard stands a byte that is no opcode.  An int32 comes to it, and nothing else does. -/
theorem decoders_agree_on_unknown_opcode :
    let program : StubProgram := ⟨[10, 0, 1, 0xEE], 2, 1⟩
    program.ops = .error (.unknownOpcode 0xEE) ∧
      program.terminatedOps = .error (.unsupportedOp 1 0xEE) ∧
      (∃ last, (last.dispatched (.reading (.unknownOpcode 0xEE))).length = 1 ∧
        ∃ s, Course program .empty [.ofInt32 7] .empty last (.reading (.unknownOpcode 0xEE)) s) ∧
      (evaluate program .empty [.ofInt32 7] .empty).ending = .ok .unsupportedOp ∧
      (evaluate program .empty [.undefined] .empty).ending = .ok .bailout := by
  intro program
  have decodes : (Cursor.start program.code).Decodes [⟨.guardToInt32, 0, 1, ()⟩]
      (.undecodable (.unknownOpcode 0xEE)) := .cons rfl rfl (.undecodable rfl rfl)
  have listed := program.ops_eq decodes
  have unsupported := program.terminatedOps_eq decodes
  have ends : (evaluate program .empty [.ofInt32 7] .empty).ending = .ok .unsupportedOp := by
    decide +kernel
  have bails : (evaluate program .empty [.undefined] .empty).ending = .ok .bailout := by
    decide +kernel
  obtain ⟨decoded, tail, -, -, -, stops, -, runs⟩ := decoders_agree program
  have one : decoded.length = 1 := ((stops 1 0xEE).mp unsupported).2
  obtain ⟨⟨last, halt, s, course⟩, agrees⟩ := runs .empty [.ofInt32 7] .empty rfl
  obtain ⟨evaluated, -, blames⟩ := agrees last halt s course
  have ending : halt.stop.ending = .ok .unsupportedOp :=
    (congrArg EvalResult.ending evaluated).symm.trans ends
  obtain ⟨all, error, rfl, same | ⟨same, -⟩⟩ := blames (by rw [ending]; rfl)
  · cases listed.symm.trans same
    exact ⟨listed, unsupported, ⟨last, by rw [all, one], s, course⟩, ends, bails⟩
  · cases listed.symm.trans same

end InlineCache
