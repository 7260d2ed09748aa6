import InlineCache.Heap.Basic

/-!
What running code may change: the heap, and the exception that waits to be handled.
-/

namespace InlineCache

inductive RuntimeError
  | regExpSyntax (error : RegExp.SyntaxError)
  | invalidLastIndex (n : Int32)
  | substringOutOfRange (start length : Int32) (size : Nat)
  | notARegExp
  deriving DecidableEq, Repr

/-- The name of the cause. -/
def RuntimeError.label : RuntimeError → String
  | .regExpSyntax _ => "RegExpSyntax"
  | .invalidLastIndex _ => "InvalidLastIndex"
  | .substringOutOfRange _ _ _ => "SubstringOutOfRange"
  | .notARegExp => "NotARegExp"

def RuntimeError.message : RuntimeError → String
  | .regExpSyntax error => "SyntaxError: invalid regular expression: " ++ error.message
  | .invalidLastIndex n => "RangeError: invalid lastIndex " ++ toString n.toInt
  | .substringOutOfRange start length size =>
      "RangeError: substring [" ++ toString start.toInt ++ ", " ++ toString start.toInt ++ " + " ++
        toString length.toInt ++ ") out of range for length " ++ toString size
  | .notARegExp => "TypeError: object is not a RegExp"

structure Context where
  heap : Heap
  pending : Option RuntimeError

namespace Context

def empty : Context := ⟨.empty, none⟩

/-- Runs a call that can fail.  A failure becomes the pending exception and leaves the heap alone. -/
def catching (context : Context) (call : Heap → Except RuntimeError (α × Heap)) :
    Option α × Context :=
  match call context.heap with
  | .ok (a, heap) => (some a, { context with heap })
  | .error error => (none, { context with pending := some error })

end Context

end InlineCache
