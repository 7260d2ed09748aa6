/-!
Sixteen-bit code units: a character is one unit, or a pair of a high and a low surrogate.
-/

namespace InlineCache.Utf16

def isHigh (n : Nat) : Bool :=
  decide (0xD800 ≤ n) && decide (n < 0xDC00)

def isLow (n : Nat) : Bool :=
  decide (0xDC00 ≤ n) && decide (n < 0xE000)

/-- The code point of a surrogate pair. -/
def pair (high low : Nat) : Nat :=
  0x10000 + (high - 0xD800) * 0x400 + (low - 0xDC00)

/-- What stands for a surrogate without its partner in a text. -/
def replacement : Char := '\uFFFD'

/-- The text of units, with a replacement for each surrogate that has no partner. -/
def decode : List UInt16 → List Char
  | [] => []
  | [unit] =>
      [if isHigh unit.toNat || isLow unit.toNat then replacement else Char.ofNat unit.toNat]
  | unit :: next :: units =>
      if isHigh unit.toNat && isLow next.toNat then
        Char.ofNat (pair unit.toNat next.toNat) :: decode units
      else if isHigh unit.toNat || isLow unit.toNat then
        replacement :: decode (next :: units)
      else Char.ofNat unit.toNat :: decode (next :: units)

def encodeChar (c : Char) : List UInt16 :=
  if c.toNat < 0x10000 then [UInt16.ofNat c.toNat]
  else
    [UInt16.ofNat (0xD800 + (c.toNat - 0x10000) / 0x400),
      UInt16.ofNat (0xDC00 + (c.toNat - 0x10000) % 0x400)]

def encode (text : List Char) : List UInt16 :=
  text.flatMap encodeChar

/-- Every surrogate has its partner. -/
def isText (units : List UInt16) : Bool :=
  encode (decode units) = units

end InlineCache.Utf16
