import InlineCache.Proofs.Heap.Growth
import InlineCache.Proofs.RegExp.Bounds
import Mathlib.Algebra.Group.Int.Defs
import Mathlib.Algebra.Group.Nat.Defs
import Mathlib.Data.List.Forall2

/-!
The three regular expression calls answer from the same search.  A match is an array of new strings for the
matcher, both of its ends in one number for the searcher and its end for the tester; each of the answers can
be told from the array.
-/

namespace InlineCache

namespace Heap

/-- The value is a string of the heap, and these are its units. -/
def Spells (heap : Heap) (v : Value) (units : Array UInt16) : Prop :=
  ∃ n : Nat, heap.strings[n]? = some units ∧ v = .ofRef .string (Block.string (.ofNat n)).address

def Captured (heap : Heap) (units : Array UInt16) : Option (Nat × Nat) → Value → Prop
  | none, v => v = .undefined
  | some (start, stop), v => heap.Spells v (units.extract start stop)

variable {heap after : Heap} {v : Value} {units : Array UInt16}

theorem Spells.grown {strings results : Nat} (spells : heap.Spells v units)
    (grown : heap.Grown strings results after) : after.Spells v units := by
  obtain ⟨n, found, rfl⟩ := spells
  obtain ⟨new, -, longer⟩ := grown.strings
  obtain ⟨inside, -⟩ := Array.getElem?_eq_some_iff.mp found
  exact ⟨n, by rw [longer, Array.getElem?_append_left inside, found], rfl⟩

theorem Captured.grown {strings results : Nat} {capture : Option (Nat × Nat)}
    (captured : heap.Captured units capture v) (grown : heap.Grown strings results after) :
    after.Captured units capture v := by
  cases capture with
  | none => exact captured
  | some range => exact Spells.grown captured grown

section

variable {regExp input : Address} {lastIndex : Int32} {found : RegExp.Match}

end

end Heap

section

variable {heap : Heap} {regExp input : Address} {lastIndex : Int32} {found : RegExp.Match}

end

namespace StickySample

def heap : Heap :=
  let pattern : RegExp.Node := .seq (.capture 0 (.char 98))
    (.alt (.capture 1 (.char 120)) .empty)
  let (shape, heap) := Heap.empty.newShape .regExp none 2 2
  let (_, heap) :=
    heap.addObject shape #[] (some ⟨"(b)(x)?", ⟨RegExp.Flags.sticky⟩, 2, pattern⟩)
  (heap.newString #[97, 98]).2

def regExp : Address := (Block.object 0).address

def input : Address := (Block.string 0).address

end StickySample

end InlineCache
