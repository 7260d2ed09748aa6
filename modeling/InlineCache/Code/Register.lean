/-!
Register names, and sets of them.  A set is a mask with a bit for each of the first 32 registers;
registers past those belong to no set.
-/

namespace InlineCache

structure Register where
  index : UInt8
  deriving DecidableEq, Repr

structure FloatRegister where
  index : UInt8
  deriving DecidableEq, Repr

def Register.name (r : Register) : String :=
  s!"r{r.index}"

def FloatRegister.name (f : FloatRegister) : String :=
  s!"f{f.index}"

/-- A set of register numbers. -/
structure RegisterSet where
  mask : BitVec 32
  deriving DecidableEq, Repr

namespace RegisterSet

/-- How many registers a set can tell apart. -/
def capacity : Nat := 32

def empty : RegisterSet := ⟨0⟩

/-- The registers below a count. -/
def first (count : Nat) : RegisterSet :=
  if capacity ≤ count then ⟨BitVec.allOnes 32⟩ else ⟨BitVec.twoPow 32 count - 1⟩

def contains (set : RegisterSet) (r : UInt8) : Bool :=
  set.mask.getLsbD r.toNat

def insert (set : RegisterSet) (r : UInt8) : RegisterSet :=
  ⟨set.mask ||| BitVec.twoPow 32 r.toNat⟩

def remove (set : RegisterSet) (r : UInt8) : RegisterSet :=
  ⟨set.mask &&& ~~~BitVec.twoPow 32 r.toNat⟩

def union (a b : RegisterSet) : RegisterSet :=
  ⟨a.mask ||| b.mask⟩

def isEmpty (set : RegisterSet) : Bool :=
  set.mask = 0

def size (set : RegisterSet) : Nat :=
  set.mask.cpop.toNat

/-- The members in ascending order. -/
def toList (set : RegisterSet) : List UInt8 :=
  ((List.range capacity).filter set.mask.getLsbD).map UInt8.ofNat

def lowest? (set : RegisterSet) : Option UInt8 :=
  ((List.range capacity).find? set.mask.getLsbD).map UInt8.ofNat

/-- The least member, and the set without it. -/
def takeLowest (set : RegisterSet) : Option (UInt8 × RegisterSet) :=
  set.lowest?.map fun r => (r, set.remove r)

@[simp] theorem contains_empty (r : UInt8) : empty.contains r = false := by
  simp [empty, contains]

theorem contains_insert (set : RegisterSet) (r q : UInt8) :
    (set.insert r).contains q = (set.contains q || (decide (r.toNat < 32) && decide (r = q))) := by
  simp only [insert, contains, BitVec.getLsbD_or, BitVec.getLsbD_twoPow, UInt8.toNat_inj]

theorem contains_remove (set : RegisterSet) (r q : UInt8) :
    (set.remove r).contains q = (set.contains q && decide (r ≠ q)) := by
  simp only [remove, contains, BitVec.getLsbD_and, BitVec.getLsbD_not, BitVec.getLsbD_twoPow,
    UInt8.toNat_inj]
  by_cases hq : q.toNat < 32
  · by_cases hrq : r = q
    · subst hrq
      simp [hq]
    · simp [hq, hrq]
  · simp [BitVec.getLsbD_of_ge _ _ (Nat.le_of_not_lt hq)]

end RegisterSet

end InlineCache
