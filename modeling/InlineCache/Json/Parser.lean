import InlineCache.Json.Basic

/-!
Reading JSON text.  Every reader takes the characters ahead and returns what it read with the
characters that are left; blanks may stand around every token.
-/

namespace InlineCache.Json

def isBlank (c : Char) : Bool :=
  c = ' ' || c = '\n' || c = '\t' || c = '\r'

def skipBlanks (cs : List Char) : List Char :=
  cs.dropWhile isBlank

def digit? (c : Char) : Option (Fin 10) :=
  if h : 48 ≤ c.toNat ∧ c.toNat < 58 then some ⟨c.toNat - 48, by omega⟩ else none

def digits : List Char → List (Fin 10) × List Char
  | [] => ([], [])
  | c :: cs =>
      match digit? c with
      | some d => let (ds, rest) := digits cs; (d :: ds, rest)
      | none => ([], c :: cs)

def natOfDigits (ds : List (Fin 10)) : Nat :=
  ds.foldl (fun n d => 10 * n + d.val) 0

/-- The whole part: a zero stands alone. -/
def whole? (cs : List Char) : Option (Nat × List Char) :=
  match digits cs with
  | ([], _) => none
  | (d :: ds, rest) => if d = 0 ∧ !ds.isEmpty then none else some (natOfDigits (d :: ds), rest)

def fraction? : List Char → Option (List (Fin 10) × List Char)
  | '.' :: cs =>
      match digits cs with
      | ([], _) => none
      | (ds, rest) => some (ds, rest)
  | cs => some ([], cs)

def exponentDigits? (negative : Bool) (cs : List Char) : Option (Option Int × List Char) :=
  match digits cs with
  | ([], _) => none
  | (ds, rest) =>
      let n : Int := natOfDigits ds
      some (some (if negative then -n else n), rest)

def exponent? : List Char → Option (Option Int × List Char)
  | c :: cs =>
      if c = 'e' ∨ c = 'E' then
        match cs with
        | '-' :: cs => exponentDigits? true cs
        | '+' :: cs => exponentDigits? false cs
        | cs => exponentDigits? false cs
      else some (none, c :: cs)
  | [] => some (none, [])

def numeral? (cs : List Char) : Option (Numeral × List Char) := do
  let (negative, cs) :=
    match cs with
    | '-' :: cs => (true, cs)
    | cs => (false, cs)
  let (whole, cs) ← whole? cs
  let (fraction, cs) ← fraction? cs
  let (exponent, cs) ← exponent? cs
  return (⟨negative, whole, fraction, exponent⟩, cs)

def hexDigit? (c : Char) : Option Nat :=
  let n := c.toNat
  if 48 ≤ n ∧ n < 58 then some (n - 48)
  else if 97 ≤ n ∧ n < 103 then some (n - 87)
  else if 65 ≤ n ∧ n < 71 then some (n - 55)
  else none

/-- The unit that four hexadecimal digits name. -/
def hexUnit? (a b c d : Char) : Option UInt16 := do
  let a ← hexDigit? a
  let b ← hexDigit? b
  let c ← hexDigit? c
  let d ← hexDigit? d
  return UInt16.ofNat (((a * 16 + b) * 16 + c) * 16 + d)

/-- The unit that a character after a backslash stands for. -/
def escaped? : Char → Option UInt16
  | '"' => some 34
  | '\\' => some 92
  | '/' => some 47
  | 'b' => some 8
  | 'f' => some 12
  | 'n' => some 10
  | 'r' => some 13
  | 't' => some 9
  | _ => none

/-- The units of a string up to its closing quote. -/
def string? : List Char → Option (List UInt16 × List Char)
  | [] => none
  | '"' :: cs => some ([], cs)
  | '\\' :: 'u' :: a :: b :: c :: d :: cs => do
      let unit ← hexUnit? a b c d
      let (units, rest) ← string? cs
      return (unit :: units, rest)
  | '\\' :: c :: cs => do
      let unit ← escaped? c
      let (units, rest) ← string? cs
      return (unit :: units, rest)
  | c :: cs =>
      if c = '\\' ∨ c.toNat < 32 then none
      else do
        let (units, rest) ← string? cs
        return (Utf16.encodeChar c ++ units, rest)

mutual

/-- A value with its blanks before.  The budget bounds the nesting of readers. -/
def value? : Nat → List Char → Option (Json × List Char)
  | 0, _ => none
  | budget + 1, cs =>
      match skipBlanks cs with
      | 'n' :: 'u' :: 'l' :: 'l' :: rest => some (.null, rest)
      | 't' :: 'r' :: 'u' :: 'e' :: rest => some (.bool true, rest)
      | 'f' :: 'a' :: 'l' :: 's' :: 'e' :: rest => some (.bool false, rest)
      | '"' :: rest => do
          let (units, rest) ← string? rest
          return (.string units, rest)
      | '[' :: rest =>
          match skipBlanks rest with
          | ']' :: rest => some (.array [], rest)
          | rest => do
              let (items, rest) ← items? budget rest
              return (.array items, rest)
      | '\x7b' :: rest =>
          match skipBlanks rest with
          | '\x7d' :: rest => some (.object [], rest)
          | rest => do
              let (members, rest) ← members? budget rest
              return (.object members, rest)
      | rest => do
          let (n, rest) ← numeral? rest
          return (.number n, rest)

/-- The items of an array, with its closing bracket. -/
def items? : Nat → List Char → Option (List Json × List Char)
  | 0, _ => none
  | budget + 1, cs => do
      let (item, rest) ← value? budget cs
      match skipBlanks rest with
      | ',' :: rest =>
          let (items, rest) ← items? budget rest
          return (item :: items, rest)
      | ']' :: rest => return ([item], rest)
      | _ => none

/-- The members of an object, with its closing brace. -/
def members? : Nat → List Char → Option (List (List UInt16 × Json) × List Char)
  | 0, _ => none
  | budget + 1, cs =>
      match skipBlanks cs with
      | '"' :: rest => do
          let (key, rest) ← string? rest
          match skipBlanks rest with
          | ':' :: rest =>
              let (value, rest) ← value? budget rest
              match skipBlanks rest with
              | ',' :: rest =>
                  let (members, rest) ← members? budget rest
                  return ((key, value) :: members, rest)
              | '\x7d' :: rest => return ([(key, value)], rest)
              | _ => none
          | _ => none
      | _ => none

end

/-- The one value that a text spells. -/
def parse? (text : List Char) : Option Json :=
  match value? (2 * text.length + 2) text with
  | some (json, rest) => if (skipBlanks rest).isEmpty then some json else none
  | none => none

end InlineCache.Json
