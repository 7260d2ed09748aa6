import InlineCache.Proofs.Sim.Guards

/-!
Calls of helpers.  A helper is entered with words and the evaluation with operands, but both make the
same call; an answer is never the word that tells of an exception.
-/

namespace InlineCache

namespace Value

theorem ofInt32_ne_sentinel (n : Int32) : (ofInt32 n).bits ≠ Helper.exceptionSentinel := by
  have boxed : (ofInt32 n).bits = Word.boxInt32 (Word.ofInt32 n) := by
    rw [Word.boxInt32_eq, Word.toUInt32_ofInt32]
  intro same
  rw [boxed] at same
  have value := Word.toNat_boxInt32 (Word.ofInt32 n)
  rw [same] at value
  change 0x7FFB000000000000 = _ at value
  omega

theorem ofRef_ne_sentinel (kind : RefKind) (address : Address) :
    (ofRef kind address).bits ≠ Helper.exceptionSentinel := by
  intro same
  have boxed : (ofRef kind address).bits = (address &&& tagBits.payloadMask) ||| kind.tag <<< 48 :=
    UInt64.or_comm _ _
  have value := Word.toNat_boxRef address (kind.tag <<< 48) kind.tag.toNat (by cases kind <;> rfl)
  rw [← boxed, same] at value
  change 0x7FFB000000000000 = _ at value
  have tag : 0x7FFC ≤ kind.tag.toNat := by cases kind <;> decide
  omega

end Value

namespace Heap

variable {heap after : Heap} {regExp input : Address} {lastIndex : Int32} {v : Value}

theorem regExpMatcher_ne_sentinel
    (answers : heap.regExpMatcher regExp input lastIndex = .ok (v, after)) :
    v.bits ≠ Helper.exceptionSentinel := by
  rw [regExpMatcher] at answers
  cases found : heap.execRegExp regExp input lastIndex with
  | error error =>
      rw [found] at answers
      cases answers
  | ok result =>
      rw [found] at answers
      cases result <;> cases answers
      · decide
      · exact Value.ofRef_ne_sentinel _ _

theorem regExpSearcher_ne_sentinel
    (answers : heap.regExpSearcher regExp input lastIndex = .ok (v, after)) :
    v.bits ≠ Helper.exceptionSentinel := by
  rw [regExpSearcher] at answers
  cases found : heap.execRegExp regExp input lastIndex with
  | error error =>
      rw [found] at answers
      cases answers
  | ok result =>
      rw [found] at answers
      cases result with
      | none =>
          cases answers
          exact Value.ofInt32_ne_sentinel _
      | some ends =>
          dsimp only [bind, Except.bind] at answers
          split at answers <;> cases answers <;> exact Value.ofInt32_ne_sentinel _

theorem regExpTester_ne_sentinel
    (answers : heap.regExpTester regExp input lastIndex = .ok (v, after)) :
    v.bits ≠ Helper.exceptionSentinel := by
  rw [regExpTester] at answers
  cases found : heap.execRegExp regExp input lastIndex with
  | error error =>
      rw [found] at answers
      cases answers
  | ok result =>
      rw [found] at answers
      cases result <;> cases answers <;> exact Value.ofInt32_ne_sentinel _

theorem substringKernel_ne_sentinel {string : Address} {start length : Int32}
    (answers : heap.substringKernel string start length = .ok (v, after)) :
    v.bits ≠ Helper.exceptionSentinel := by
  rw [substringKernel] at answers
  split at answers
  · cases answers
    exact Value.ofRef_ne_sentinel _ _
  · cases answers

end Heap

/-- What a helper answers can be told from its failure. -/
theorem Helper.answer_ne_sentinel {helper : Helper} {a b c : UInt64} {heap after : Heap} {v : Value}
    (answers : helper.call a b c heap = .ok (v, after)) : v.bits ≠ exceptionSentinel := by
  cases helper with
  | regExpMatcher =>
      rw [call] at answers
      split at answers
      · cases answers
      · exact Heap.regExpMatcher_ne_sentinel answers
  | regExpSearcher =>
      rw [call] at answers
      split at answers
      · cases answers
      · exact Heap.regExpSearcher_ne_sentinel answers
  | regExpTester =>
      rw [call] at answers
      split at answers
      · cases answers
      · exact Heap.regExpTester_ne_sentinel answers
  | substringKernel =>
      rw [call] at answers
      split at answers
      · cases answers
      · exact Heap.substringKernel_ne_sentinel answers

namespace Follows

variable {setting : Setting} {s : EvalState} {held : List (Register × UInt64)}
  {own : List (Source × UInt64)} {paths : List (Label × ExitStatus)} {first second third : OperandId}

/-- The call itself, once its arguments are in registers. -/
theorem callHelper {helper : Helper} {a b c dst : Register} {x y z old : UInt64} {leave : Label}
    {call : Heap → Except RuntimeError (Value × Heap)} (same : helper.call x y z = call)
    (heldFirst : (a, x) ∈ held) (heldSecond : (b, y) ∈ held) (heldThird : (c, z) ∈ held)
    (listed : (leave, .exception) ∈ paths) :
    Follows setting s ⟨none, held, (.reg dst, old) :: own, paths⟩
      (Asm.emit (.callHelper helper a b c dst leave) >>= fun _ => Asm.emit (.storeOutput dst))
      (Eval.callOut call s) := by
  intro state m after carries runs sound
  simp only [Asm.runs_bind, Asm.runs_emit] at runs
  obtain ⟨_, _, rfl, rfl⟩ := runs
  have hold := carries.hold
  have enters : (Inst.callHelper helper a b c dst leave).exec setting.entry m =
      .branch ((helper.enter s.context x y z).1 = Helper.exceptionSentinel) leave
        ({ m with context := (helper.enter s.context x y z).2 }.setReg dst
          (helper.enter s.context x y z).1) := by
    rw [Inst.exec, hold.reg heldFirst, hold.reg heldSecond, hold.reg heldThird, carries.context]
  rw [Helper.enter, Context.catching, same] at enters
  cases answers : call s.context.heap with
  | error error =>
      rw [answers] at enters
      rw [Eval.callOut_error answers]
      exact leaves_of_branch carries listed enters rfl (.emitted _ _) sound rfl
  | ok answer =>
      obtain ⟨v, heap⟩ := answer
      have told : v.bits ≠ Helper.exceptionSentinel := Helper.answer_ne_sentinel (same ▸ answers)
      rw [answers] at enters
      dsimp only at enters
      rw [decide_eq_false told] at enters
      rw [Eval.callOut_ok answers]
      have called := carries.reached.emitted enters
      have stored : ((state.emitted (.callHelper helper a b c dst leave)).emitted
          (.storeOutput dst)).Reaches setting.entry setting.origin _ := called.emitted rfl
      have alone := carries.balanced.not_place_of_scratch (carries.scratch dst old (.head _)).1
      have clear := carries.clear
      refine ⟨_, { clear with
        led := stored
        shown := fun i content found => carries.shown i content ?_
        output := if_pos rfl
        context := rfl
        hold := ⟨fun _ member => absurd member List.not_mem_nil, fun _ member => absurd member List.not_mem_nil⟩
        opened := fun _ impossible => absurd impossible.symm (Option.some_ne_none _) }⟩
      have unseen : state.allocation.content (m.setReg dst v.bits) i =
          state.allocation.content m i := Location.content?_setReg (alone i) m v.bits
      refine (unseen.symm.trans ?_).trans found
      exact Allocation.content_congr _ i rfl rfl rfl

/-- A call with three payloads. -/
theorem callOut {helper : Helper} {x y z : OperandValue} {p q r : PayloadType}
    {call : Heap → Except RuntimeError (Value × Heap)}
    (storesFirst : s.Stores first.toNat x) (formFirst : x.form = .payload p)
    (storesSecond : s.Stores second.toNat y) (formSecond : y.form = .payload q)
    (storesThird : s.Stores third.toNat z) (formThird : z.form = .payload r)
    (same : helper.call x.word y.word z.word = call) :
    Follows setting s .none (Asm.callOut helper first second third) (Eval.callOut call s) := by
  apply useRegister storesFirst formFirst
  intro a
  apply useRegister storesSecond formSecond
  intro b
  apply useRegister storesThird formThird
  intro c
  apply allocateRegister
  intro dst junk
  apply exitPath
  intro leave state m after carries runs sound
  obtain ⟨_, middle, marks, runs⟩ := Asm.runs_bind.mp runs
  cases Asm.runs_modify.mp marks
  have marked : Carries setting s _ none { state with callsHelpers := true } m :=
    carries.still carries.led rfl fun _ member => member
  exact callHelper same (.tail _ (.tail _ (.head _))) (.tail _ (.head _)) (.head _) (.head _) _ _ _
    marked runs sound

theorem callRegExp {helper : Helper}
    {call : Address → Address → Int32 → Heap → Except RuntimeError (Value × Heap)}
    (same : ∀ regExp input lastIndex, regExp ≠ 0 → input ≠ 0 →
      helper.call regExp input (Word.ofInt32 lastIndex) = call regExp input lastIndex) :
    Follows setting s .none (Asm.callOut helper first second third)
      (Eval.callRegExp call first second third s) := by
  rw [Eval.callRegExp]
  apply cell
  intro regExp storesFirst
  apply cell
  intro input storesSecond
  apply int32
  intro lastIndex storesThird
  exact callOut storesFirst rfl storesSecond rfl storesThird rfl
    (same _ _ _ (Block.address_ne_zero _) (Block.address_ne_zero _))

theorem callRegExpMatcher :
    Follows setting s .none (Asm.callOut .regExpMatcher first second third)
      (Eval.callRegExp Heap.regExpMatcher first second third s) := by
  apply callRegExp
  intro regExp input lastIndex nonzero other
  funext heap
  rw [Helper.call, if_neg (not_or.mpr ⟨nonzero, other⟩), Helper.lowInt32, Word.toUInt32_ofInt32]

theorem callRegExpSearcher :
    Follows setting s .none (Asm.callOut .regExpSearcher first second third)
      (Eval.callRegExp Heap.regExpSearcher first second third s) := by
  apply callRegExp
  intro regExp input lastIndex nonzero other
  funext heap
  rw [Helper.call, if_neg (not_or.mpr ⟨nonzero, other⟩), Helper.lowInt32, Word.toUInt32_ofInt32]

theorem callRegExpTester :
    Follows setting s .none (Asm.callOut .regExpTester first second third)
      (Eval.callRegExp Heap.regExpTester first second third s) := by
  apply callRegExp
  intro regExp input lastIndex nonzero other
  funext heap
  rw [Helper.call, if_neg (not_or.mpr ⟨nonzero, other⟩), Helper.lowInt32, Word.toUInt32_ofInt32]

theorem callSubstringKernel :
    Follows setting s .none (Asm.callOut .substringKernel first second third)
      (Op.eval setting.env.data ⟨.callSubstringKernelResult, first, second, third, ()⟩ s) := by
  rw [Op.eval]
  apply cell
  intro string storesFirst
  apply int32
  intro start storesSecond
  apply int32
  intro length storesThird
  apply callOut storesFirst rfl storesSecond rfl storesThird rfl
  funext heap
  rw [Helper.call, OperandValue.word, if_neg (Block.address_ne_zero _), Helper.lowInt32,
    OperandValue.word, OperandValue.word, Word.toUInt32_ofInt32, Helper.lowInt32,
    Word.toUInt32_ofInt32]

end Follows

end InlineCache
