import InlineCache.Heap.Context

/-!
The operations that stubs leave to the runtime: the three regular expression calls and substrings.
Compiled code enters them with machine words, interpreted code with operands of the right kind.
-/

namespace InlineCache

inductive Helper
  | regExpMatcher
  | regExpSearcher
  | regExpTester
  | substringKernel
  deriving DecidableEq, Repr

namespace Helper

def all : List Helper := [.regExpMatcher, .regExpSearcher, .regExpTester, .substringKernel]

def index (helper : Helper) : Nat := all.idxOf helper

def symbolName : Helper → String
  | .regExpMatcher => "otter_ic_regexp_matcher"
  | .regExpSearcher => "otter_ic_regexp_searcher"
  | .regExpTester => "otter_ic_regexp_tester"
  | .substringKernel => "otter_ic_substring_kernel"

def label : Helper → String
  | .regExpMatcher => "RegExpMatcher"
  | .regExpSearcher => "RegExpSearcher"
  | .regExpTester => "RegExpTester"
  | .substringKernel => "SubstringKernel"

/-- Every helper takes three words beside the context. -/
def paramCount (_ : Helper) : Nat := 3

end Helper

namespace Heap

/-- The first match of a regular expression object in a string, from an index on. -/
def execRegExp (heap : Heap) (regExp input : Address) (lastIndex : Int32) :
    Except RuntimeError (Option RegExp.Match) :=
  match (heap.objectAt regExp).regExp with
  | none => .error .notARegExp
  | some data =>
      if lastIndex < 0 then .error (.invalidLastIndex lastIndex)
      else .ok (data.exec? (heap.stringAt input) lastIndex.toInt.toNat)

/-- A new string for a stretch of units, as a value. -/
def newSubstring (heap : Heap) (units : Array UInt16) (start stop : Nat) : Value × Heap :=
  let (id, heap) := heap.newString (units.extract start stop)
  (.ofRef .string (Block.string id).address, heap)

/-- The strings of captured stretches, undefined for a group that captured nothing. -/
def newCaptures (heap : Heap) (units : Array UInt16) :
    List (Option (Nat × Nat)) → List Value × Heap
  | [] => ([], heap)
  | none :: captures =>
      let (values, heap) := heap.newCaptures units captures
      (.undefined :: values, heap)
  | some (start, stop) :: captures =>
      let (value, heap) := heap.newSubstring units start stop
      let (values, heap) := heap.newCaptures units captures
      (value :: values, heap)

/-- The match as an array of the matched string and the captures, null for no match. -/
def regExpMatcher (regExp input : Address) (lastIndex : Int32) (heap : Heap) :
    Except RuntimeError (Value × Heap) := do
  match ← heap.execRegExp regExp input lastIndex with
  | none => return (.null, heap)
  | some found =>
      let units := heap.stringAt input
      let (whole, heap) := heap.newSubstring units found.start found.stop
      let (captures, heap) := heap.newCaptures units found.captures.toList
      let (id, heap) :=
        heap.newMatchResult (whole :: captures).toArray (Int32.ofNat found.start) input
      return (.ofRef .object (Block.object id).address, heap)

/-- How many bits each end of a match has in the answer of the searcher. -/
def searcherBits : Nat := 15

/-- Both ends of the match in one int32: -1 for no match, -2 for ends that do not fit. -/
def regExpSearcher (regExp input : Address) (lastIndex : Int32) (heap : Heap) :
    Except RuntimeError (Value × Heap) := do
  match ← heap.execRegExp regExp input lastIndex with
  | none => return (.ofInt32 (-1), heap)
  | some found =>
      if 1 <<< searcherBits ≤ found.start ∨ 1 <<< searcherBits ≤ found.stop then
        return (.ofInt32 (-2), heap)
      else
        return (.ofInt32 (Int32.ofNat (found.start + found.stop <<< searcherBits)), heap)

/-- The end of the match, -1 for no match. -/
def regExpTester (regExp input : Address) (lastIndex : Int32) (heap : Heap) :
    Except RuntimeError (Value × Heap) := do
  match ← heap.execRegExp regExp input lastIndex with
  | none => return (.ofInt32 (-1), heap)
  | some found => return (.ofInt32 (Int32.ofNat found.stop), heap)

/-- The units of a string from a start on, of a given length. -/
def substringKernel (string : Address) (start length : Int32) (heap : Heap) :
    Except RuntimeError (Value × Heap) :=
  let units := heap.stringAt string
  if 0 ≤ start ∧ 0 ≤ length ∧ start.toInt + length.toInt ≤ units.size then
    let first := start.toInt.toNat
    .ok (heap.newSubstring units first (first + length.toInt.toNat))
  else .error (.substringOutOfRange start length units.size)

end Heap

namespace Helper

/-- The word that a helper returns when it has failed. -/
def exceptionSentinel : UInt64 := 0x7FFB000000000000

def lowInt32 (word : UInt64) : Int32 :=
  word.toUInt32.toInt32

/-- The call behind an entry point, on the words it was entered with. -/
def call (helper : Helper) (a b c : UInt64) (heap : Heap) : Except RuntimeError (Value × Heap) :=
  match helper with
  | .substringKernel =>
      if a = 0 then .error (.substringOutOfRange (lowInt32 b) (lowInt32 c) 0)
      else heap.substringKernel a (lowInt32 b) (lowInt32 c)
  | .regExpMatcher =>
      if a = 0 ∨ b = 0 then .error .notARegExp else heap.regExpMatcher a b (lowInt32 c)
  | .regExpSearcher =>
      if a = 0 ∨ b = 0 then .error .notARegExp else heap.regExpSearcher a b (lowInt32 c)
  | .regExpTester =>
      if a = 0 ∨ b = 0 then .error .notARegExp else heap.regExpTester a b (lowInt32 c)

/-- Enters a helper from compiled code: the word it returns, and the context after it. -/
def enter (helper : Helper) (context : Context) (a b c : UInt64) : UInt64 × Context :=
  match context.catching (helper.call a b c) with
  | (some value, context) => (value.bits, context)
  | (none, context) => (exceptionSentinel, context)

end Helper

end InlineCache
