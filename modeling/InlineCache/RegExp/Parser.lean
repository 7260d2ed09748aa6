import InlineCache.RegExp.Flags
import InlineCache.RegExp.Syntax
import InlineCache.Text.Utf16

/-!
Reading a pattern.  In unicode mode every escape and bracket must be well formed; otherwise a
character that starts nothing stands for itself.  The groups are counted before the pattern is read,
because a number after a backslash is a reference only up to that count.
-/

namespace InlineCache.RegExp

/-- What is known of a pattern before it is read: its mode and the names of its groups in order. -/
structure Outline where
  unicode : Bool
  groups : List (Option (List Char))
  deriving Repr

namespace Outline

def hasNames (outline : Outline) : Bool :=
  outline.groups.any Option.isSome

def indexOf? (outline : Outline) (name : List Char) : Option Nat :=
  outline.groups.findIdx? (· = some name)

/-- The groups that open in a pattern, found without reading it otherwise. -/
def scan (inClass : Bool) : List Char → List (Option (List Char))
  | [] => []
  | '\\' :: _ :: cs => scan inClass cs
  | c :: cs =>
      if inClass then scan (c ≠ ']') cs
      else if c = '[' then scan true cs
      else if c = '(' then
        match cs with
        | '?' :: '<' :: d :: rest =>
            if d = '=' ∨ d = '!' then scan false ('<' :: d :: rest)
            else some ((d :: rest).takeWhile (· ≠ '>')) :: scan false ('<' :: d :: rest)
        | '?' :: rest => scan false rest
        | rest => none :: scan false rest
      else scan false cs
termination_by cs => cs.length
decreasing_by all_goals (simp_all <;> omega)

end Outline

/-- The characters ahead and the number of groups opened so far. -/
structure ParseState where
  rest : List Char
  opened : Nat

abbrev Parse := ExceptT String (StateM ParseState)

namespace Parse

def peek? : Parse (Option Char) := do
  return (← get).rest.head?

def rest : Parse (List Char) := do
  return (← get).rest

def setRest (rest : List Char) : Parse Unit :=
  modify fun state => { state with rest }

def skip (count : Nat) : Parse Unit :=
  modify fun state => { state with rest := state.rest.drop count }

/-- Consumes a text if it is ahead. -/
def accept (text : String) : Parse Bool := do
  let ahead ← rest
  if text.toList.isPrefixOf ahead then
    skip text.length
    return true
  else return false

def hexValue? (c : Char) : Option Nat :=
  let n := c.toNat
  if 48 ≤ n ∧ n < 58 then some (n - 48)
  else if 97 ≤ n ∧ n < 103 then some (n - 87)
  else if 65 ≤ n ∧ n < 71 then some (n - 55)
  else none

/-- Exactly `count` hexadecimal digits, or nothing. -/
def hexDigits? (count : Nat) : Parse (Option Nat) := do
  let ahead ← rest
  match (ahead.take count).mapM hexValue? with
  | some ds =>
      if ds.length = count then
        skip count
        return some (ds.foldl (fun n d => 16 * n + d) 0)
      else return none
  | none => return none

def decimal? : Parse (Option Nat) := do
  let ds := (← rest).takeWhile fun c => isDigit c.toNat
  if ds.isEmpty then return none
  else
    skip ds.length
    return some (ds.foldl (fun n c => 10 * n + (c.toNat - 48)) 0)

/-- An octal number of at most three digits that stays below 256. -/
def octal : Parse Nat := do
  let isOctal := fun c : Char => decide (48 ≤ c.toNat) && decide (c.toNat < 56)
  let ds := ((← rest).take 3).takeWhile isOctal
  let ds := if ds.length = 3 ∧ 51 < (ds.headD '0').toNat then ds.take 2 else ds
  skip ds.length
  return ds.foldl (fun n c => 8 * n + (c.toNat - 48)) 0

/-- A further escape of four digits. -/
def lowEscape? : Parse (Option Nat) := do
  if ← accept "\\u" then hexDigits? 4 else return none

/-- What follows a backslash and the letter u: four digits, where two escapes that make a pair are
one character, or in unicode mode digits between braces. -/
def unicodeEscape? (unicode : Bool) : Parse (Option Nat) := do
  let braced ← if unicode then accept "\x7b" else pure false
  if braced then
    let ds := (← rest).takeWhile fun c => (hexValue? c).isSome
    skip ds.length
    let n := ds.foldl (fun n c => 16 * n + (hexValue? c).getD 0) 0
    if ds.isEmpty ∨ 0x10FFFF < n then throw "invalid unicode escape"
    if ← accept "\x7d" then return some n
    else throw "invalid unicode escape"
  else
    match ← hexDigits? 4 with
    | none => return none
    | some high =>
        let ahead ← rest
        match ← lowEscape? with
        | some low =>
            if Utf16.isHigh high && Utf16.isLow low then return some (Utf16.pair high low)
            else
              setRest ahead
              return some high
        | none =>
            setRest ahead
            return some high

def isSyntaxChar (c : Char) : Bool :=
  c ∈ ['^', '$', '\\', '.', '*', '+', '?', '(', ')', '[', ']', '\x7b', '\x7d', '|', '/']

/-- A character escape after its backslash. -/
def characterEscape (unicode inClass named : Bool) : Parse Nat := do
  match ← peek? with
  | none => throw "pattern ends in a backslash"
  | some 't' => skip 1; return 0x09
  | some 'n' => skip 1; return 0x0A
  | some 'v' => skip 1; return 0x0B
  | some 'f' => skip 1; return 0x0C
  | some 'r' => skip 1; return 0x0D
  | some 'c' =>
      match (← rest).drop 1 with
      | letter :: _ =>
          let n := letter.toNat
          if isUpper n || isLower n || (inClass && !unicode && (isDigit n || n = 95)) then
            skip 2
            return n % 32
          else if unicode then throw "invalid control escape"
          else return 0x5C
      | [] => if unicode then throw "invalid control escape" else return 0x5C
  | some 'x' =>
      skip 1
      match ← hexDigits? 2 with
      | some n => return n
      | none => if unicode then throw "invalid hexadecimal escape" else return 0x78
  | some 'u' =>
      skip 1
      match ← unicodeEscape? unicode with
      | some n => return n
      | none => if unicode then throw "invalid unicode escape" else return 0x75
  | some c =>
      if isDigit c.toNat then
        if unicode then
          skip 1
          let next ← peek?
          if c = '0' ∧ !(next.any fun d => isDigit d.toNat) then return 0
          else throw "invalid decimal escape"
        else if c.toNat < 56 then octal
        else
          skip 1
          return c.toNat
      else if unicode then
        if isSyntaxChar c ∨ (inClass ∧ c = '-') then
          skip 1
          return c.toNat
        else throw "invalid escape"
      else if c = 'k' ∧ named then throw "invalid named reference"
      else
        skip 1
        return c.toNat

def shorthand? : Char → Option (Shorthand × Bool)
  | 'd' => some (.digit, false)
  | 'D' => some (.digit, true)
  | 's' => some (.space, false)
  | 'S' => some (.space, true)
  | 'w' => some (.word, false)
  | 'W' => some (.word, true)
  | _ => none

/-- One member of a class: a character, or a shorthand. -/
def classAtom (outline : Outline) : Parse ClassItem := do
  match ← rest with
  | [] => throw "class is not closed"
  | '\\' :: c :: _ =>
      skip 1
      match shorthand? c with
      | some (kind, negated) =>
          skip 1
          return .shorthand kind negated
      | none =>
          if c = 'b' then
            skip 1
            return .range 8 8
          else
            let n ← characterEscape outline.unicode true outline.hasNames
            return .range n n
  | '\\' :: [] => throw "pattern ends in a backslash"
  | c :: _ =>
      skip 1
      return .range c.toNat c.toNat

/-- The members of a class up to its closing bracket. -/
def classItems (outline : Outline) : Nat → Parse (List ClassItem)
  | 0 => throw "class is not closed"
  | budget + 1 => do
      if ← accept "]" then return []
      let first ← classAtom outline
      match ← rest with
      | '-' :: ']' :: _ =>
          return first :: (← classItems outline budget)
      | '-' :: _ =>
          skip 1
          let second ← classAtom outline
          match first, second with
          | .range lo _, .range hi _ =>
              if hi < lo then throw "class range is out of order"
              return .range lo hi :: (← classItems outline budget)
          | _, _ =>
              if outline.unicode then throw "class range ends in a shorthand"
              return first :: .range 45 45 :: second :: (← classItems outline budget)
      | _ => return first :: (← classItems outline budget)

/-- The bounds between braces, if what is ahead has that form. -/
def bracedBounds? : Parse (Option (Nat × Option Nat)) := do
  let start ← rest
  if !(← accept "\x7b") then return none
  let bounds ← do
    match ← decimal? with
    | none => pure none
    | some least =>
        if ← accept "," then
          let most ← decimal?
          pure (some (least, most))
        else pure (some (least, some least))
  if bounds.isSome && (← accept "\x7d") then return bounds
  else
    setRest start
    return none

/-- The bounds of the quantifier ahead, if there is one. -/
def bounds? (unicode : Bool) : Parse (Option (Nat × Option Nat)) := do
  if ← accept "*" then return some (0, none)
  else if ← accept "+" then return some (1, none)
  else if ← accept "?" then return some (0, some 1)
  else
    match ← bracedBounds? with
    | some bounds => return some bounds
    | none =>
        if unicode && (← peek?) = some '\x7b' then throw "invalid quantifier"
        else return none

/-- Wraps a node in the quantifier that follows it. -/
def quantified (outline : Outline) (first : Nat) (node : Node) : Parse Node := do
  match ← bounds? outline.unicode with
  | none => return node
  | some (least, most) =>
      if most.any (· < least) then throw "quantifier bounds are out of order"
      let lazy ← accept "?"
      return .loop node least most (!lazy) first (← get).opened

def groupName : Parse (List Char) := do
  let name := (← rest).takeWhile (· ≠ '>')
  skip name.length
  if name.isEmpty then throw "group name is empty"
  if !(← accept ">") then throw "group name is not closed"
  let isNameChar := fun c : Char => isWord c.toNat || c = '$' || 127 < c.toNat
  if name.all isNameChar && !(name.head?.any fun c => isDigit c.toNat) then return name
  else throw "invalid group name"

/-- An escape outside classes. -/
def atomEscape (outline : Outline) : Parse Node := do
  match ← peek? with
  | none => throw "pattern ends in a backslash"
  | some c =>
      match shorthand? c with
      | some (kind, negated) =>
          skip 1
          return .set false [.shorthand kind negated]
      | none =>
          if c = 'k' && (outline.unicode || outline.hasNames) then
            skip 1
            if !(← accept "<") then throw "invalid named reference"
            match outline.indexOf? (← groupName) with
            | some index => return .backreference index
            | none => throw "reference to an unknown group"
          else if isDigit c.toNat && c ≠ '0' then
            let start ← rest
            let n := (← decimal?).getD 0
            if n ≤ outline.groups.length then return .backreference (n - 1)
            else if outline.unicode then throw "reference to an unknown group"
            else
              setRest start
              return .char (← characterEscape outline.unicode false outline.hasNames)
          else return .char (← characterEscape outline.unicode false outline.hasNames)

mutual

/-- Alternatives up to a closing parenthesis or the end.  The budget bounds the nesting of readers. -/
def disjunction (outline : Outline) : Nat → Parse Node
  | 0 => throw "pattern is too deep"
  | budget + 1 => do
      let first ← alternative outline budget
      if ← accept "|" then return .alt first (← disjunction outline budget)
      else return first

def alternative (outline : Outline) : Nat → Parse Node
  | 0 => throw "pattern is too deep"
  | budget + 1 => do
      match ← peek? with
      | none | some ')' | some '|' => return .empty
      | some _ =>
          let first ← term outline budget
          return .seq first (← alternative outline budget)

def groupBody (outline : Outline) : Nat → Parse Node
  | 0 => throw "pattern is too deep"
  | budget + 1 => do
      let body ← disjunction outline budget
      if ← accept ")" then return body else throw "group is not closed"

def term (outline : Outline) : Nat → Parse Node
  | 0 => throw "pattern is too deep"
  | budget + 1 => do
      let first := (← get).opened
      if ← accept "^" then return .assertion .lineStart
      else if ← accept "$" then return .assertion .lineEnd
      else if ← accept "\\b" then return .assertion .wordBoundary
      else if ← accept "\\B" then return .assertion .noWordBoundary
      else if ← accept "(?=" then
        let node := .look true false (← groupBody outline budget)
        if outline.unicode then return node else quantified outline first node
      else if ← accept "(?!" then
        let node := .look true true (← groupBody outline budget)
        if outline.unicode then return node else quantified outline first node
      else if ← accept "(?<=" then return .look false false (← groupBody outline budget)
      else if ← accept "(?<!" then return .look false true (← groupBody outline budget)
      else if ← accept "(?:" then quantified outline first (← groupBody outline budget)
      else if ← accept "(?<" then
        let _ ← groupName
        modify fun state => { state with opened := state.opened + 1 }
        quantified outline first (.capture first (← groupBody outline budget))
      else if ← accept "(?" then throw "invalid group"
      else if ← accept "(" then
        modify fun state => { state with opened := state.opened + 1 }
        quantified outline first (.capture first (← groupBody outline budget))
      else if ← accept "." then quantified outline first .any
      else if ← accept "[" then
        let negated ← accept "^"
        let items ← classItems outline budget
        quantified outline first (.set negated items)
      else if ← accept "\\" then quantified outline first (← atomEscape outline)
      else
        match ← peek? with
        | none => throw "nothing to read"
        | some c =>
            if c = '*' ∨ c = '+' ∨ c = '?' then throw "nothing to repeat"
            if c = '\x7b' ∨ c = '\x7d' ∨ c = ']' then
              if outline.unicode then throw "bracket is not escaped"
              if (← bracedBounds?).isSome then throw "nothing to repeat"
            skip 1
            quantified outline first (.char c.toNat)

end

/-- A whole pattern; a closing parenthesis that nothing opened is left over. -/
def pattern (outline : Outline) (budget : Nat) : Parse Node := do
  let node ← disjunction outline budget
  match ← peek? with
  | none => return node
  | some _ => throw "unmatched closing parenthesis"

end Parse

/-- The syntax tree of a pattern and the number of its groups. -/
def parsePattern (source : String) (flags : Flags) : Except SyntaxError (Node × Nat) :=
  let cs := source.toList
  let outline : Outline := ⟨flags.containsAny Flags.unicode, Outline.scan false cs⟩
  let names := outline.groups.filterMap id
  if names.eraseDups.length ≠ names.length then .error (.pattern "duplicate group name")
  else
    match (Parse.pattern outline (4 * cs.length + 8)).run.run ⟨cs, 0⟩ with
    | (.ok node, _) => .ok (node, outline.groups.length)
    | (.error reason, _) => .error (.pattern reason)

end InlineCache.RegExp
