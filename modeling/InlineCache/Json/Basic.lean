import InlineCache.Text.Utf16

/-!
JSON values and their shortest text.  A numeral is kept as it is written, so that no digit of a
64-bit integer is lost.  A string is its UTF-16 units, since an escape may name half of a pair.
-/

namespace InlineCache

structure Numeral where
  negative : Bool
  whole : Nat
  /-- The digits after the point; none means that there is no point. -/
  fraction : List (Fin 10)
  exponent : Option Int
  deriving DecidableEq, Repr

def Numeral.ofNat (n : Nat) : Numeral := ⟨false, n, [], none⟩

/-- The natural number that the numeral spells without sign, point or exponent. -/
def Numeral.toNat? (numeral : Numeral) : Option Nat :=
  if !numeral.negative && numeral.fraction.isEmpty && numeral.exponent.isNone then
    some numeral.whole
  else none

@[simp] theorem Numeral.toNat?_ofNat (n : Nat) : (ofNat n).toNat? = some n := rfl

inductive Json
  | null
  | bool (b : Bool)
  | number (n : Numeral)
  | string (units : List UInt16)
  | array (items : List Json)
  | object (members : List (List UInt16 × Json))
  deriving Repr

namespace Json

def digit (d : Nat) : Char :=
  Char.ofNat (48 + d)

def hexDigit (d : Nat) : Char :=
  if d < 10 then Char.ofNat (48 + d) else Char.ofNat (87 + d)

/-- A unit inside a quoted string: quotes, backslashes, control characters and surrogates are
escaped. -/
def quoteUnit (unit : UInt16) : List Char :=
  let n := unit.toNat
  if n = 34 then ['\\', '"']
  else if n = 92 then ['\\', '\\']
  else if n = 10 then ['\\', 'n']
  else if n = 13 then ['\\', 'r']
  else if n = 9 then ['\\', 't']
  else if n = 8 then ['\\', 'b']
  else if n = 12 then ['\\', 'f']
  else if n < 32 || Utf16.isHigh n || Utf16.isLow n then
    ['\\', 'u', hexDigit (n / 4096), hexDigit (n / 256 % 16), hexDigit (n / 16 % 16),
      hexDigit (n % 16)]
  else [Char.ofNat n]

/-- The units of a pair are written as their one character. -/
def quoteUnits : List UInt16 → List Char
  | [] => []
  | [unit] => quoteUnit unit
  | unit :: next :: units =>
      if Utf16.isHigh unit.toNat && Utf16.isLow next.toNat then
        Char.ofNat (Utf16.pair unit.toNat next.toNat) :: quoteUnits units
      else quoteUnit unit ++ quoteUnits (next :: units)

def quote (units : List UInt16) : List Char :=
  '"' :: quoteUnits units ++ ['"']

end Json

def Numeral.render (numeral : Numeral) : List Char :=
  (if numeral.negative then ['-'] else []) ++ Nat.toDigits 10 numeral.whole ++
    (if numeral.fraction.isEmpty then [] else '.' :: numeral.fraction.map fun d => Json.digit d.val) ++
    match numeral.exponent with
    | none => []
    | some n => 'e' :: (if n < 0 then ['-'] else []) ++ Nat.toDigits 10 n.natAbs

namespace Json

mutual

def render : Json → List Char
  | .null => ['n', 'u', 'l', 'l']
  | .bool true => ['t', 'r', 'u', 'e']
  | .bool false => ['f', 'a', 'l', 's', 'e']
  | .number n => n.render
  | .string units => quote units
  | .array items => '[' :: renderItems items ++ [']']
  | .object members => '\x7b' :: renderMembers members ++ ['\x7d']

def renderItems : List Json → List Char
  | [] => []
  | [item] => item.render
  | item :: items => item.render ++ ',' :: renderItems items

def renderMembers : List (List UInt16 × Json) → List Char
  | [] => []
  | [(key, value)] => quote key ++ ':' :: value.render
  | (key, value) :: members => quote key ++ ':' :: value.render ++ ',' :: renderMembers members

end

def text (json : Json) : String :=
  String.ofList json.render

end Json

end InlineCache
