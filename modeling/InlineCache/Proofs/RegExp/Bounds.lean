import InlineCache.RegExp.Match

/-!
Matching stays within the input.  What follows a node is tried at positions that the direction of matching
leads to, and a group captures a stretch of the input; so a match that is found is a stretch of it too, not
before the position from which it was searched for.
-/

namespace InlineCache.RegExp

def Captures.Within (size : Nat) (captures : Captures) : Prop :=
  ∀ start stop, some (start, stop) ∈ captures → start ≤ stop ∧ stop ≤ size

structure MatchState.Within (size : Nat) (state : MatchState) : Prop where
  pos : state.pos ≤ size
  captures : state.captures.Within size

structure Match.Within (size : Nat) (found : Match) : Prop where
  ordered : found.start ≤ found.stop
  stop : found.stop ≤ size
  captures : found.captures.Within size

/-- The direction of matching leads from one position to another. -/
def Leads (forward : Bool) (here there : Nat) : Prop :=
  if forward then here ≤ there else there ≤ here

/-- What follows a step succeeds only where the step has led to. -/
def Advances (size : Nat) (forward : Bool)
    (step : MatchState → Continuation → Option MatchState) : Prop :=
  ∀ ⦃state next out⦄, state.Within size → step state next = some out →
    ∃ after, after.Within size ∧ Leads forward state.pos after.pos ∧ next after = some out

namespace Leads

variable {forward : Bool} {here between there : Nat}

theorem refl : Leads forward here here := by
  cases forward <;> exact Nat.le_refl here

theorem trans (first : Leads forward here between) (second : Leads forward between there) :
    Leads forward here there := by
  cases forward with
  | true => exact Nat.le_trans (m := between) first second
  | false => exact Nat.le_trans (m := between) second first

end Leads

namespace Captures.Within

variable {size : Nat} {captures : Captures}

theorem set (within : captures.Within size) (index : Nat) {capture : Option (Nat × Nat)}
    (fits : ∀ range ∈ capture, range.1 ≤ range.2 ∧ range.2 ≤ size) :
    Captures.Within size (captures.setIfInBounds index capture) := by
  intro start stop member
  rcases Array.mem_or_eq_of_mem_setIfInBounds member with before | now
  · exact within start stop before
  · exact fits (start, stop) now.symm

theorem replicate (size count : Nat) : Captures.Within size (Array.replicate count none) := by
  intro start stop member
  cases (Array.mem_replicate.mp member).2

end Captures.Within

theorem MatchState.Within.forget {size : Nat} {state : MatchState} (within : state.Within size)
    (first last : Nat) : (state.forget first last).Within size := by
  refine ⟨within.pos, ?_⟩
  have all (indices : List Nat) (captures : Captures) (stretches : captures.Within size) :
      Captures.Within size
        (indices.foldl (fun captures i => captures.setIfInBounds i none) captures) := by
    induction indices generalizing captures with
    | nil => exact stretches
    | cons index rest ih => exact ih _ (stretches.set index nofun)
  exact all _ _ within.captures

section

variable {input : Array UInt16} {pos other c : Nat}

theorem charAfter?_le (found : charAfter? input pos = some (c, other)) :
    pos ≤ other ∧ other ≤ input.size := by
  rw [charAfter?] at found
  cases unit : input[pos]? with
  | none =>
      rw [unit] at found
      cases found
  | some u =>
      obtain ⟨inside, -⟩ := Array.getElem?_eq_some_iff.mp unit
      rw [unit] at found
      cases partner : input[pos + 1]? with
      | none =>
          rw [partner] at found
          cases found
          exact ⟨Nat.le_succ pos, inside⟩
      | some v =>
          obtain ⟨behind, -⟩ := Array.getElem?_eq_some_iff.mp partner
          rw [partner] at found
          dsimp only at found
          split at found <;> obtain ⟨-, rfl⟩ := Prod.mk.inj (Option.some.inj found)
          · exact ⟨Nat.le_add_right pos 2, behind⟩
          · exact ⟨Nat.le_succ pos, inside⟩

theorem charBefore?_le (found : charBefore? input pos = some (c, other)) : other ≤ pos := by
  rw [charBefore?] at found
  cases unit : unitBefore? input pos with
  | none =>
      rw [unit] at found
      cases found
  | some v =>
      rw [unit] at found
      cases partner : unitBefore? input (pos - 1) with
      | none =>
          rw [partner] at found
          cases found
          exact Nat.sub_le pos 1
      | some u =>
          rw [partner] at found
          dsimp only at found
          split at found <;> obtain ⟨-, rfl⟩ := Prod.mk.inj (Option.some.inj found)
          · exact Nat.sub_le pos 2
          · exact Nat.sub_le pos 1

theorem le_of_sameUnits {mode : Mode} {start count : Nat} (here : pos ≤ input.size)
    (same : sameUnits mode input start pos count = true) : pos + count ≤ input.size := by
  induction count generalizing start pos with
  | zero => exact here
  | succ count ih =>
      rw [sameUnits] at same
      split at same
      case h_2 => cases same
      case h_1 u v captured unit =>
        obtain ⟨inside, -⟩ := Array.getElem?_eq_some_iff.mp unit
        have rest := ih inside (Bool.and_eq_true_iff.mp same).2
        rwa [Nat.succ_add_eq_add_succ] at rest

end

namespace Advances

variable {size : Nat} {forward : Bool}
  {step first second : MatchState → Continuation → Option MatchState}

theorem stay : Advances size forward fun state next => next state :=
  fun _ _ _ within follows => ⟨_, within, .refl, follows⟩

theorem seq (one : Advances size forward first) (two : Advances size forward second) :
    Advances size forward fun state next => first state fun after => second after next := by
  intro state next out within follows
  obtain ⟨between, inside, early, follows⟩ := one within follows
  obtain ⟨after, there, late, follows⟩ := two inside follows
  exact ⟨after, there, early.trans late, follows⟩

theorem alt (one : Advances size forward first) (two : Advances size forward second) :
    Advances size forward fun state next =>
      match first state next with
      | some found => some found
      | none => second state next := by
  intro state next out within follows
  dsimp only at follows
  cases tried : first state next with
  | some found =>
      rw [tried] at follows
      exact one within (tried.trans follows)
  | none =>
      rw [tried] at follows
      exact two within follows

theorem requiredRounds (round : Advances size forward step) (count : Nat) :
    Advances size forward (requiredRounds step count) := by
  induction count with
  | zero => exact stay
  | succ count ih => exact round.seq ih

theorem optionalRounds (round : Advances size forward step) (greedy : Bool) (count : Nat) :
    Advances size forward (optionalRounds step greedy count) := by
  induction count with
  | zero => exact stay
  | succ count ih =>
      have again : Advances size forward fun state next => step state fun after =>
          if after.pos = state.pos then none else RegExp.optionalRounds step greedy count after next := by
        intro state next out within follows
        obtain ⟨between, inside, early, follows⟩ := round within follows
        split at follows
        · cases follows
        · obtain ⟨after, there, late, follows⟩ := ih inside follows
          exact ⟨after, there, early.trans late, follows⟩
      cases greedy with
      | true => exact again.alt stay
      | false => exact stay.alt again

variable {input : Array UInt16}

theorem stepChar (test : Nat → Bool) :
    Advances input.size forward (stepChar input forward test) := by
  intro state next out within follows
  rw [RegExp.stepChar] at follows
  split at follows
  case h_2 => cases follows
  case h_1 c pos char =>
    split at follows
    case isFalse => cases follows
    case isTrue =>
      refine ⟨{ state with pos }, ⟨?_, within.captures⟩, ?_, follows⟩
      all_goals cases forward
      · exact Nat.le_trans (charBefore?_le char) within.pos
      · exact (charAfter?_le char).2
      · exact charBefore?_le char
      · exact (charAfter?_le char).1

theorem stepBackreference (mode : Mode) (index : Nat) :
    Advances input.size forward (stepBackreference mode input forward index) := by
  intro state next out within follows
  rw [RegExp.stepBackreference] at follows
  split at follows
  case h_1 => exact stay within follows
  case h_2 start stop _ =>
    cases forward with
    | true =>
        dsimp only at follows
        rw [if_pos rfl] at follows
        split at follows
        case isFalse => cases follows
        case isTrue same =>
          exact ⟨{ state with pos := state.pos + (stop - start) },
            ⟨le_of_sameUnits within.pos same, within.captures⟩, Nat.le_add_right .., follows⟩
    | false =>
        dsimp only at follows
        rw [if_neg Bool.false_ne_true] at follows
        split at follows
        case isFalse => cases follows
        case isTrue =>
          have back : state.pos - (stop - start) ≤ state.pos := Nat.sub_le ..
          exact ⟨{ state with pos := state.pos - (stop - start) },
            ⟨Nat.le_trans back within.pos, within.captures⟩, back, follows⟩

theorem capture (body : Advances size forward step) (index : Nat) :
    Advances size forward fun state next => step state fun after =>
      let range := if forward then (state.pos, after.pos) else (after.pos, state.pos)
      next { after with captures := after.captures.setIfInBounds index (some range) } := by
  intro state next out within follows
  obtain ⟨after, there, leads, follows⟩ := body within follows
  refine ⟨_, ?within, ?leads, follows⟩
  case leads => exact leads
  case within =>
    refine ⟨there.pos, there.captures.set index ?_⟩
    rintro _ ⟨⟩
    -- backward, the group ends where it was entered
    cases forward with
    | true => exact ⟨leads, there.pos⟩
    | false => exact ⟨leads, within.pos⟩

end Advances

variable {regExp : RegExp} {input : Array UInt16} {start : Nat} {found : Match}

end InlineCache.RegExp
