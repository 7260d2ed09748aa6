/-!
Binary64 numbers as 64-bit patterns.  A number is read through its fields, and its value is kept
exact as an integer count of the smallest positive number, so that every conversion is integer
arithmetic.
-/

namespace InlineCache

structure Double where
  bits : UInt64
  deriving DecidableEq, Repr, Inhabited

namespace Double

def isNegative (d : Double) : Bool :=
  decide (0x8000000000000000 ≤ d.bits.toNat)

def exponentField (d : Double) : Nat :=
  d.bits.toNat / 0x10000000000000 % 0x800

def fraction (d : Double) : Nat :=
  d.bits.toNat % 0x10000000000000

def isNaN (d : Double) : Bool :=
  decide (d.exponentField = 2047) && decide (d.fraction ≠ 0)

def isFinite (d : Double) : Bool :=
  decide (d.exponentField ≠ 2047)

def nan : Double := ⟨0x7FF8000000000000⟩

def zero : Double := ⟨0⟩

def negativeZero : Double := ⟨0x8000000000000000⟩

/-- The value one, counted in smallest positive numbers. -/
def unit : Nat := 1 <<< 1074

def significand (d : Double) : Nat :=
  if d.exponentField = 0 then d.fraction else 0x10000000000000 + d.fraction

/-- The absolute value counted in smallest positive numbers.  An infinity counts as the power of two
after the largest finite number, which orders it rightly. -/
def magnitude (d : Double) : Nat :=
  d.significand <<< (d.exponentField - 1)

/-- The value counted in smallest positive numbers. -/
def scaled (d : Double) : Int :=
  if d.isNegative then -(d.magnitude : Int) else d.magnitude

/-- Numeric order: a NaN is below nothing and above nothing. -/
def le (a b : Double) : Bool :=
  !a.isNaN && !b.isNaN && decide (a.scaled ≤ b.scaled)

def lt (a b : Double) : Bool :=
  !a.isNaN && !b.isNaN && decide (a.scaled < b.scaled)

/-- Numeric equality: the two zeros are equal, a NaN equals nothing. -/
def numEq (a b : Double) : Bool :=
  !a.isNaN && !b.isNaN && decide (a.scaled = b.scaled)

/-- The integer part, rounded toward zero. -/
def truncate (d : Double) : Int :=
  if d.isNegative then -((d.magnitude / unit : Nat) : Int) else (d.magnitude / unit : Nat)

def isIntegral (d : Double) : Bool :=
  d.isFinite && decide (d.magnitude % unit = 0)

/-- The quotient rounded to the nearest integer, a tie to the even one. -/
def roundQuotient (n m : Nat) : Nat :=
  if m < 2 * (n % m) ∨ (2 * (n % m) = m ∧ n / m % 2 = 1) then n / m + 1 else n / m

/-- The pattern of the nearest number to a natural number, a tie to the even significand.  A
significand that rounds up to a power of two carries into the exponent field. -/
def patternOfNat (n : Nat) : Nat :=
  if n = 0 then 0
  else if n.log2 ≤ 52 then
    (n.log2 + 1023) * 0x10000000000000 + (n <<< (52 - n.log2) - 0x10000000000000)
  else
    (n.log2 + 1023) * 0x10000000000000 +
      (roundQuotient n (1 <<< (n.log2 - 52)) - 0x10000000000000)

def withSign (negative : Bool) (pattern : Nat) : Double :=
  ⟨UInt64.ofNat (if negative then 0x8000000000000000 + pattern else pattern)⟩

/-- The nearest number to an integer. -/
def ofInt (n : Int) : Double :=
  withSign (decide (n < 0)) (patternOfNat n.natAbs)

/-- The nearest integral number, a tie to the even one, with the sign kept. -/
def roundEven (d : Double) : Double :=
  if d.isFinite then
    withSign d.isNegative (patternOfNat (roundQuotient d.magnitude unit))
  else d

/-- The greater number; a NaN wins, and the positive zero is above the negative one. -/
def max (a b : Double) : Double :=
  if a.isNaN then a
  else if b.isNaN then b
  else if a.scaled < b.scaled then b
  else if b.scaled < a.scaled then a
  else if a.isNegative then b else a

/-- The smaller number; a NaN wins, and the negative zero is below the positive one. -/
def min (a b : Double) : Double :=
  if a.isNaN then a
  else if b.isNaN then b
  else if a.scaled < b.scaled then a
  else if b.scaled < a.scaled then b
  else if a.isNegative then a else b

/-- The integer part clamped to a range, zero for a NaN. -/
def saturate (d : Double) (lo hi : Int) : Int :=
  if d.isNaN then 0 else Max.max lo (Min.min hi d.truncate)

/-- The number lies between two integers, both included. -/
def within (d : Double) (lo hi : Int) : Bool :=
  (ofInt lo).le d && d.le (ofInt hi)

/-- The number lies between two integers, the second one excluded. -/
def withinBelow (d : Double) (lo hi : Int) : Bool :=
  (ofInt lo).le d && d.lt (ofInt hi)

/-- The integer that the number is, when it is an int32: the number is in the range, and made an integer
and a number again it is the same. -/
def int32? (d : Double) : Option Int32 :=
  if d.within (-0x80000000) 0x7FFFFFFF ∧
      (ofInt (d.saturate (-0x80000000) 0x7FFFFFFF)).numEq d then
    some (Int32.ofInt (d.saturate (-0x80000000) 0x7FFFFFFF))
  else none

/-- The integer that the number is, when it is an int64.  The upper end of the range is no int64, but it
is the number next above all of them. -/
def int64? (d : Double) : Option Int64 :=
  if d.withinBelow (-0x8000000000000000) 0x8000000000000000 ∧
      (ofInt (d.saturate (-0x8000000000000000) 0x7FFFFFFFFFFFFFFF)).numEq d then
    some (Int64.ofInt (d.saturate (-0x8000000000000000) 0x7FFFFFFFFFFFFFFF))
  else none

/-- The integer part, when the number lies in the int64 range. -/
def truncateInt64? (d : Double) : Option Int64 :=
  if d.withinBelow (-0x8000000000000000) 0x8000000000000000 then
    some (Int64.ofInt (d.saturate (-0x8000000000000000) 0x7FFFFFFFFFFFFFFF))
  else none

/-- Clamps to the byte range, then rounds, a tie to the even integer; zero for a NaN. -/
def clampByte (d : Double) : Int32 :=
  if d.isNaN ∨ d.le .zero then 0
  else if (ofInt 255).le d then 255
  else Int32.ofInt (d.roundEven.saturate (-0x80000000) 0x7FFFFFFF)

end Double

/-- The nearest integer of the byte range. -/
def clampInt32 (n : Int32) : Int32 :=
  if n < 0 then 0 else if 255 < n then 255 else n

end InlineCache
