/-!
The syntax trees of regular expressions.  Characters are code points; a capture group is known by
its index, counted from zero.
-/

namespace InlineCache.RegExp

inductive Shorthand
  | digit
  | space
  | word
  deriving DecidableEq, Repr

inductive ClassItem
  | range (lo hi : Nat)
  | shorthand (kind : Shorthand) (negated : Bool)
  deriving DecidableEq, Repr

inductive Assertion
  | lineStart
  | lineEnd
  | wordBoundary
  | noWordBoundary
  deriving DecidableEq, Repr

inductive Node
  | empty
  | char (c : Nat)
  | any
  | set (negated : Bool) (items : List ClassItem)
  | assertion (a : Assertion)
  | capture (index : Nat) (body : Node)
  | backreference (index : Nat)
  | look (ahead negated : Bool) (body : Node)
  | seq (first second : Node)
  | alt (first second : Node)
  /-- Between `least` and `most` rounds of the body; each round forgets the captures from `first` up
  to `last`, which are the groups of the body. -/
  | loop (body : Node) (least : Nat) (most : Option Nat) (greedy : Bool) (first last : Nat)
  deriving Repr

def isDigit (c : Nat) : Bool :=
  decide (48 ≤ c) && decide (c ≤ 57)

def isUpper (c : Nat) : Bool :=
  decide (65 ≤ c) && decide (c ≤ 90)

def isLower (c : Nat) : Bool :=
  decide (97 ≤ c) && decide (c ≤ 122)

def isWord (c : Nat) : Bool :=
  isDigit c || isUpper c || isLower c || c = 95

def isLineTerminator (c : Nat) : Bool :=
  c = 0x0A || c = 0x0D || c = 0x2028 || c = 0x2029

/-- Tabs, spaces of every width, the byte order mark and line terminators. -/
def isSpace (c : Nat) : Bool :=
  (decide (0x09 ≤ c) && decide (c ≤ 0x0D)) || c = 0x20 || c = 0xA0 || c = 0x1680 ||
    (decide (0x2000 ≤ c) && decide (c ≤ 0x200A)) || c = 0x2028 || c = 0x2029 || c = 0x202F ||
    c = 0x205F || c = 0x3000 || c = 0xFEFF

def Shorthand.contains : Shorthand → Nat → Bool
  | .digit => isDigit
  | .space => isSpace
  | .word => isWord

def ClassItem.contains (c : Nat) : ClassItem → Bool
  | .range lo hi => decide (lo ≤ c) && decide (c ≤ hi)
  | .shorthand kind negated => kind.contains c != negated

/-- The letter of the other case, for a letter of the basic alphabet. -/
def otherCase (c : Nat) : Nat :=
  if isUpper c then c + 32 else if isLower c then c - 32 else c

end InlineCache.RegExp
