import InlineCache.RegExp.Parser
import InlineCache.Text.Quoted

/-!
Matching by backtracking over UTF-16 code units.  A surrogate pair is one character in either
direction, a surrogate without its partner is a character of its own.  A node is matched by passing
each way to match it to what follows, in order of preference, until one of them succeeds.
-/

namespace InlineCache.RegExp

/-- The options that matching depends on. -/
structure Mode where
  ignoreCase : Bool
  multiline : Bool
  dotAll : Bool
  deriving DecidableEq, Repr

def Flags.mode (flags : Flags) : Mode :=
  ⟨flags.containsAny Flags.ignoreCase, flags.containsAny Flags.multiline,
    flags.containsAny Flags.dotAll⟩

/-- The character that starts at a position, and the position after it. -/
def charAfter? (input : Array UInt16) (pos : Nat) : Option (Nat × Nat) :=
  match input[pos]? with
  | none => none
  | some u =>
      match input[pos + 1]? with
      | some v =>
          if Utf16.isHigh u.toNat && Utf16.isLow v.toNat then
            some (Utf16.pair u.toNat v.toNat, pos + 2)
          else some (u.toNat, pos + 1)
      | none => some (u.toNat, pos + 1)

def unitBefore? (input : Array UInt16) : Nat → Option UInt16
  | 0 => none
  | pos + 1 => input[pos]?

/-- The character that ends at a position, and the position before it. -/
def charBefore? (input : Array UInt16) (pos : Nat) : Option (Nat × Nat) :=
  match unitBefore? input pos with
  | none => none
  | some v =>
      match unitBefore? input (pos - 1) with
      | some u =>
          if Utf16.isHigh u.toNat && Utf16.isLow v.toNat then
            some (Utf16.pair u.toNat v.toNat, pos - 2)
          else some (v.toNat, pos - 1)
      | none => some (v.toNat, pos - 1)

abbrev Captures := Array (Option (Nat × Nat))

structure MatchState where
  pos : Nat
  captures : Captures

abbrev Continuation := MatchState → Option MatchState

namespace Mode

def sameChar (mode : Mode) (a b : Nat) : Bool :=
  a = b || (mode.ignoreCase && otherCase a = b)

def inSet (mode : Mode) (negated : Bool) (items : List ClassItem) (c : Nat) : Bool :=
  (items.any (·.contains c) || (mode.ignoreCase && items.any (·.contains (otherCase c)))) != negated

end Mode

def isWordAt (char : Option (Nat × Nat)) : Bool :=
  char.any fun c => isWord c.1

def Assertion.holds (mode : Mode) (input : Array UInt16) (pos : Nat) : Assertion → Bool
  | .lineStart =>
      match charBefore? input pos with
      | none => true
      | some (c, _) => mode.multiline && isLineTerminator c
  | .lineEnd =>
      match charAfter? input pos with
      | none => true
      | some (c, _) => mode.multiline && isLineTerminator c
  | .wordBoundary => isWordAt (charBefore? input pos) != isWordAt (charAfter? input pos)
  | .noWordBoundary => isWordAt (charBefore? input pos) == isWordAt (charAfter? input pos)

/-- Takes one character in the direction of matching, if it passes a test. -/
def stepChar (input : Array UInt16) (forward : Bool) (test : Nat → Bool) (state : MatchState)
    (next : Continuation) : Option MatchState :=
  match if forward then charAfter? input state.pos else charBefore? input state.pos with
  | some (c, pos) => if test c then next { state with pos } else none
  | none => none

/-- The units of two equally long stretches are the same. -/
def sameUnits (mode : Mode) (input : Array UInt16) (a b : Nat) : Nat → Bool
  | 0 => true
  | count + 1 =>
      match input[a]?, input[b]? with
      | some u, some v =>
          mode.sameChar u.toNat v.toNat && sameUnits mode input (a + 1) (b + 1) count
      | _, _ => false

/-- Matches again what a group captured; a group that captured nothing matches the empty string. -/
def stepBackreference (mode : Mode) (input : Array UInt16) (forward : Bool) (index : Nat)
    (state : MatchState) (next : Continuation) : Option MatchState :=
  match state.captures[index]?.join with
  | none => next state
  | some (start, stop) =>
      let length := stop - start
      if forward then
        if sameUnits mode input start state.pos length then
          next { state with pos := state.pos + length }
        else none
      else if length ≤ state.pos ∧ sameUnits mode input start (state.pos - length) length then
        next { state with pos := state.pos - length }
      else none

def MatchState.forget (state : MatchState) (first last : Nat) : MatchState :=
  { state with
    captures := (List.range' first (last - first)).foldl
      (fun captures i => captures.setIfInBounds i none) state.captures }

/-- At most so many more rounds; a round that takes no character does not count as one. -/
def optionalRounds (round : MatchState → Continuation → Option MatchState) (greedy : Bool) :
    Nat → MatchState → Continuation → Option MatchState
  | 0, state, next => next state
  | count + 1, state, next =>
      let again : Continuation → Option MatchState := fun next =>
        round state fun after =>
          if after.pos = state.pos then none else optionalRounds round greedy count after next
      if greedy then
        match again next with
        | some found => some found
        | none => next state
      else
        match next state with
        | some found => some found
        | none => again next

/-- Exactly so many rounds, then what follows. -/
def requiredRounds (round : MatchState → Continuation → Option MatchState) :
    Nat → MatchState → Continuation → Option MatchState
  | 0, state, next => next state
  | count + 1, state, next => round state fun after => requiredRounds round count after next

namespace Node

/-- All ways to match a node from a state, tried in order of preference against what follows. -/
def run (mode : Mode) (input : Array UInt16) :
    Node → Bool → MatchState → Continuation → Option MatchState
  | .empty, _, state, next => next state
  | .char c, forward, state, next => stepChar input forward (mode.sameChar c) state next
  | .any, forward, state, next =>
      stepChar input forward (fun c => mode.dotAll || !isLineTerminator c) state next
  | .set negated items, forward, state, next =>
      stepChar input forward (mode.inSet negated items) state next
  | .assertion a, _, state, next => if a.holds mode input state.pos then next state else none
  | .capture index body, forward, state, next =>
      body.run mode input forward state fun after =>
        let range :=
          if forward then (state.pos, after.pos) else (after.pos, state.pos)
        next { after with captures := after.captures.setIfInBounds index (some range) }
  | .backreference index, forward, state, next =>
      stepBackreference mode input forward index state next
  | .look ahead negated body, _, state, next =>
      match body.run mode input ahead state some with
      | some found => if negated then none else next { found with pos := state.pos }
      | none => if negated then next state else none
  | .seq first second, forward, state, next =>
      if forward then
        first.run mode input forward state fun after => second.run mode input forward after next
      else
        second.run mode input forward state fun after => first.run mode input forward after next
  | .alt first second, forward, state, next =>
      match first.run mode input forward state next with
      | some found => some found
      | none => second.run mode input forward state next
  | .loop body least most greedy first last, forward, state, next =>
      let round : MatchState → Continuation → Option MatchState := fun state next =>
        body.run mode input forward (state.forget first last) next
      let optional :=
        match most with
        | some most => min (most - least) input.size
        | none => input.size
      requiredRounds round least state fun after =>
        optionalRounds round greedy optional after next

end Node

structure Match where
  start : Nat
  stop : Nat
  captures : Captures
  deriving Repr

end InlineCache.RegExp

namespace InlineCache

structure RegExp where
  source : String
  flags : RegExp.Flags
  groupCount : Nat
  pattern : RegExp.Node
  deriving Repr

namespace RegExp

def compile (source : String) (flags : Flags) : Except SyntaxError RegExp :=
  match parsePattern source flags with
  | .ok (pattern, groupCount) => .ok { source, flags, groupCount, pattern }
  | .error error => .error error

/-- The match that starts at a position. -/
def matchAt? (regExp : RegExp) (input : Array UInt16) (start : Nat) : Option Match :=
  let state : MatchState := ⟨start, Array.replicate regExp.groupCount none⟩
  match regExp.pattern.run regExp.flags.mode input true state some with
  | some found => some ⟨start, found.pos, found.captures⟩
  | none => none

/-- The match that starts first, at one of the next `count` characters or before them. -/
def search? (regExp : RegExp) (input : Array UInt16) : Nat → Nat → Option Match
  | 0, start => regExp.matchAt? input start
  | count + 1, start =>
      match regExp.matchAt? input start with
      | some found => some found
      | none =>
          match charAfter? input start with
          | some (_, next) => search? regExp input count next
          | none => none

/-- The first match from a position on; a sticky expression has to match at the position itself. -/
def exec? (regExp : RegExp) (input : Array UInt16) (start : Nat) : Option Match :=
  if input.size < start then none
  else
    match regExp.search? input (input.size - start) start with
    | some found =>
        if regExp.flags.containsAny Flags.sticky ∧ found.start ≠ start then none else some found
    | none => none

/-- The text of an expression in listings: its source and its flags in hexadecimal. -/
def describe (regExp : RegExp) : String :=
  "/" ++ regExp.source ++ "/0x" ++ Text.hex regExp.flags.bits.toNat

end RegExp

end InlineCache
