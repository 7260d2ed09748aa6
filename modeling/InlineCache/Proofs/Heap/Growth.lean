import InlineCache.CallOut

/-!
What calls add to a heap.  A call that succeeds leaves every cell as it is and adds the strings and the
match result that it answers with; a call that fails leaves no heap at all.
-/

namespace InlineCache

/-- The later heap is the earlier one with new cells behind its own: so many strings, so many match results,
and the shape of match results with the first of them. -/
structure Heap.Grown (before : Heap) (strings results : Nat) (after : Heap) : Prop where
  strings : ∃ new : Array (Array UInt16), new.size = strings ∧ after.strings = before.strings ++ new
  objects : ∃ new : Array Object, new.size = results ∧ after.objects = before.objects ++ new
  shapes : ∃ new : Array Shape,
    new.size = (if 0 < results ∧ before.matchShape = none then 1 else 0) ∧
      after.shapes = before.shapes ++ new
  symbols : after.symbols = before.symbols
  bigints : after.bigints = before.bigints
  arrayShape : after.arrayShape = before.arrayShape
  regExpShape : after.regExpShape = before.regExpShape
  matchShape : after.matchShape = before.matchShape ∨
    0 < results ∧ before.matchShape = none ∧ after.matchShape ≠ none
  shaped : 0 < results → after.matchShape ≠ none

namespace Heap.Grown

variable {before middle after : Heap} {strings results otherStrings otherResults : Nat}

theorem refl (heap : Heap) : heap.Grown 0 0 heap where
  strings := ⟨#[], rfl, by simp⟩
  objects := ⟨#[], rfl, by simp⟩
  shapes := ⟨#[], rfl, by simp⟩
  symbols := rfl
  bigints := rfl
  arrayShape := rfl
  regExpShape := rfl
  matchShape := .inl rfl
  shaped := nofun

/-- The shape is new with one of the two stretches at most: once it is there it stays. -/
theorem trans (first : before.Grown strings results middle)
    (second : middle.Grown otherStrings otherResults after) :
    before.Grown (strings + otherStrings) (results + otherResults) after where
  strings := by
    obtain ⟨new, size, eq⟩ := first.strings
    obtain ⟨newer, size', eq'⟩ := second.strings
    exact ⟨new ++ newer, by simp [size, size'], by rw [eq', eq, Array.append_assoc]⟩
  objects := by
    obtain ⟨new, size, eq⟩ := first.objects
    obtain ⟨newer, size', eq'⟩ := second.objects
    exact ⟨new ++ newer, by simp [size, size'], by rw [eq', eq, Array.append_assoc]⟩
  shapes := by
    obtain ⟨new, size, eq⟩ := first.shapes
    obtain ⟨newer, size', eq'⟩ := second.shapes
    refine ⟨new ++ newer, ?_, by rw [eq', eq, Array.append_assoc]⟩
    rw [Array.size_append, size, size']
    have matchShape := first.matchShape
    have shaped := first.shaped
    grind
  symbols := second.symbols.trans first.symbols
  bigints := second.bigints.trans first.bigints
  arrayShape := second.arrayShape.trans first.arrayShape
  regExpShape := second.regExpShape.trans first.regExpShape
  matchShape := by
    have here := first.matchShape
    have there := second.matchShape
    have shaped := second.shaped
    have shapedHere := first.shaped
    grind
  shaped := by
    have here := first.shaped
    have there := second.shaped
    have kept := second.matchShape
    grind

theorem newString (heap : Heap) (units : Array UInt16) : heap.Grown 1 0 (heap.newString units).2 where
  strings := ⟨#[units], rfl, Array.push_eq_append⟩
  objects := ⟨#[], rfl, by simp [Heap.newString]⟩
  shapes := ⟨#[], rfl, by simp [Heap.newString]⟩
  symbols := rfl
  bigints := rfl
  arrayShape := rfl
  regExpShape := rfl
  matchShape := .inl rfl
  shaped := nofun

/-- One string for each capture that took part in the match. -/
theorem newCaptures (units : Array UInt16) (captures : List (Option (Nat × Nat))) (heap : Heap) :
    heap.Grown (captures.countP Option.isSome) 0 (heap.newCaptures units captures).2 := by
  induction captures generalizing heap with
  | nil => exact refl heap
  | cons capture captures ih =>
      cases capture with
      | none => exact ih heap
      | some ends =>
          obtain ⟨start, stop⟩ := ends
          have first := newString heap (units.extract start stop)
          have both := first.trans (ih (heap.newSubstring units start stop).2)
          have count : (some (start, stop) :: captures).countP Option.isSome =
              1 + captures.countP Option.isSome :=
            (List.countP_cons_of_pos rfl).trans (Nat.add_comm _ _)
          rw [count]
          exact both

theorem newMatchResult (heap : Heap) (elements : Array Value) (index : Int32) (input : Address) :
    heap.Grown 0 1 (heap.newMatchResult elements index input).2 := by
  cases shape : heap.matchShape with
  | some id =>
      rw [Heap.newMatchResult, ensureMatchShape, shape]
      exact {
        strings := ⟨#[], rfl, by simp [pushObject]⟩
        objects := ⟨#[_], rfl, Array.push_eq_append⟩
        shapes := ⟨#[], by simp [shape], by simp [pushObject]⟩
        symbols := rfl
        bigints := rfl
        arrayShape := rfl
        regExpShape := rfl
        matchShape := .inl rfl
        shaped := fun _ => by simp [pushObject, shape] }
  | none =>
      rw [Heap.newMatchResult, ensureMatchShape, shape]
      exact {
        strings := ⟨#[], rfl, by simp [pushObject, newShape]⟩
        objects := ⟨#[_], rfl, Array.push_eq_append⟩
        shapes := ⟨#[_], by simp [shape], Array.push_eq_append⟩
        symbols := rfl
        bigints := rfl
        arrayShape := rfl
        regExpShape := rfl
        matchShape := .inr ⟨Nat.one_pos, shape, by simp [pushObject]⟩
        shaped := fun _ => by simp [pushObject] }

end Heap.Grown

/-- A call that a program leaves to the runtime. -/
inductive Request
  | matcher (regExp input : Address) (lastIndex : Int32)
  | searcher (regExp input : Address) (lastIndex : Int32)
  | tester (regExp input : Address) (lastIndex : Int32)
  | substring (string : Address) (start length : Int32)
  deriving DecidableEq, Repr

namespace Request

def call : Request → Heap → Except RuntimeError (Value × Heap)
  | .matcher regExp input lastIndex => Heap.regExpMatcher regExp input lastIndex
  | .searcher regExp input lastIndex => Heap.regExpSearcher regExp input lastIndex
  | .tester regExp input lastIndex => Heap.regExpTester regExp input lastIndex
  | .substring string start length => Heap.substringKernel string start length

/-- What a matcher finds on the heap. -/
def found? (heap : Heap) : Request → Option RegExp.Match
  | .matcher regExp input lastIndex =>
      match heap.execRegExp regExp input lastIndex with
      | .ok found => found
      | .error _ => none
  | .searcher _ _ _ | .tester _ _ _ | .substring _ _ _ => none

/-- A substring is one string; a match is one for the whole and one for each capture that took part. -/
def newStrings (heap : Heap) (request : Request) : Nat :=
  match request with
  | .substring _ _ _ => 1
  | .matcher _ _ _ | .searcher _ _ _ | .tester _ _ _ =>
      match request.found? heap with
      | some found => 1 + found.captures.toList.countP Option.isSome
      | none => 0

def newResults (heap : Heap) (request : Request) : Nat :=
  if (request.found? heap).isSome then 1 else 0

theorem execRegExp_of_bind {α : Type} {heap : Heap} {regExp input : Address} {lastIndex : Int32}
    {next : Option RegExp.Match → Except RuntimeError α} {a : α}
    (answers : (heap.execRegExp regExp input lastIndex >>= next) = .ok a) :
    ∃ found, heap.execRegExp regExp input lastIndex = .ok found ∧ next found = .ok a := by
  cases executes : heap.execRegExp regExp input lastIndex with
  | error error =>
      rw [executes] at answers
      cases answers
  | ok found =>
      rw [executes] at answers
      exact ⟨found, rfl, answers⟩

variable {heap after : Heap} {v : Value}

theorem grown_matcher {regExp input : Address} {lastIndex : Int32}
    (answers : heap.regExpMatcher regExp input lastIndex = .ok (v, after)) :
    heap.Grown ((matcher regExp input lastIndex).newStrings heap)
      ((matcher regExp input lastIndex).newResults heap) after := by
  obtain ⟨found, executes, answers⟩ := execRegExp_of_bind answers
  rw [newStrings, newResults, found?, executes]
  cases found with
  | none =>
      cases answers
      exact .refl heap
  | some found =>
      cases answers
      have whole := Heap.Grown.newString heap
        ((heap.stringAt input).extract found.start found.stop)
      exact (whole.trans (.newCaptures _ _ _)).trans (.newMatchResult _ _ _ _)

/-- A call that succeeds adds what it answers with, and nothing else is changed. -/
theorem grown (request : Request) (answers : request.call heap = .ok (v, after)) :
    heap.Grown (request.newStrings heap) (request.newResults heap) after := by
  cases request with
  | matcher regExp input lastIndex => exact grown_matcher answers
  | searcher regExp input lastIndex =>
      obtain ⟨found, -, answers⟩ := execRegExp_of_bind answers
      cases found with
      | none =>
          cases answers
          exact .refl heap
      | some found =>
          dsimp only at answers
          split at answers <;> cases answers <;> exact .refl heap
  | tester regExp input lastIndex =>
      obtain ⟨found, -, answers⟩ := execRegExp_of_bind answers
      cases found <;> cases answers <;> exact .refl heap
  | substring string start length =>
      rw [call, Heap.substringKernel] at answers
      dsimp only at answers
      split at answers
      · cases answers
        exact .newString heap _
      · cases answers

end Request

/-- Requests are served one after the other, with so many new strings and match results. -/
inductive Heap.Serves : Heap → List Request → Nat → Nat → Heap → Prop
  | nil (heap : Heap) : Serves heap [] 0 0 heap
  | cons {heap middle after : Heap} {request : Request} {requests : List Request} {v : Value}
      {strings results : Nat} (answers : request.call heap = .ok (v, middle))
      (rest : Serves middle requests strings results after) :
      Serves heap (request :: requests) (request.newStrings heap + strings)
        (request.newResults heap + results) after

namespace Heap.Serves

variable {heap middle after : Heap} {requests : List Request} {strings results : Nat}

theorem grown (serves : heap.Serves requests strings results after) :
    heap.Grown strings results after := by
  induction serves with
  | nil heap => exact .refl heap
  | cons answers _ ih => exact (Request.grown _ answers).trans ih

theorem snoc {request : Request} {v : Value} (serves : heap.Serves requests strings results middle)
    (answers : request.call middle = .ok (v, after)) :
    heap.Serves (requests ++ [request]) (strings + request.newStrings middle)
      (results + request.newResults middle) after := by
  induction serves with
  | nil heap =>
      rw [Nat.add_comm 0, Nat.add_comm 0]
      exact .cons answers (.nil after)
  | cons first _ ih =>
      rw [Nat.add_assoc, Nat.add_assoc]
      exact .cons first (ih answers)

end Heap.Serves

end InlineCache
