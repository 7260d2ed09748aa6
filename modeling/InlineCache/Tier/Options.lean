import InlineCache.Emit.Config

/-!
The settings of a runtime, and how environment variables change them.
-/

namespace InlineCache

structure RuntimeOptions where
  jitEnabled : Bool
  /-- A stub is compiled after this many runs in the interpreter. -/
  hotThreshold : UInt32
  /-- A stub is given up after this many bailouts in a row. -/
  bailoutLimit : UInt32
  stats : Bool
  code : CodeConfig
  deriving DecidableEq, Repr

namespace RuntimeOptions

def default : RuntimeOptions :=
  { jitEnabled := true
    hotThreshold := 4
    bailoutLimit := 32
    stats := false
    code := .default }

/-- The characters with the property White_Space. -/
def isBlank (c : Char) : Bool :=
  let n := c.toNat
  (9 ≤ n && n ≤ 13) || n = 0x20 || n = 0x85 || n = 0xA0 || n = 0x1680 ||
    (0x2000 ≤ n && n ≤ 0x200A) || n = 0x2028 || n = 0x2029 || n = 0x202F || n = 0x205F ||
    n = 0x3000

/-- A text without the blanks around it. -/
def trim (text : List Char) : List Char :=
  ((text.dropWhile isBlank).reverse.dropWhile isBlank).reverse

/-- A flag is off when its text is empty, zero or a word for no, in any case. -/
def isTruthy (text : String) : Bool :=
  (trim text.toList).map Char.toLower ∉ ["", "0", "false", "off", "no"].map String.toList

/-- The number that digits, with an optional plus sign before them, stand for. -/
def decimal? (text : List Char) : Option Nat :=
  let digits := if text.head? = some '+' then text.drop 1 else text
  if digits.isEmpty ∨ !digits.all Char.isDigit then none
  else some (digits.foldl (fun n c => 10 * n + (c.toNat - 48)) 0)

/-- A positive number of 32 bits. -/
def positive? (text : String) : Option UInt32 :=
  match decimal? (trim text.toList) with
  | some n => if 0 < n ∧ n < 0x100000000 then some (UInt32.ofNat n) else none
  | none => none

/-- The settings that environment variables ask for; a text that is no setting is passed over. -/
def ofEnvironment (setting? : String → Option String) : RuntimeOptions :=
  let flag := fun (name : String) (unset : Bool) => ((setting? name).map isTruthy).getD unset
  let number := fun (name : String) (unset : UInt32) =>
    ((setting? name).bind positive?).getD unset
  { jitEnabled := !flag "OTTER_IC_DISABLE_JIT" false
    hotThreshold := number "OTTER_IC_HOT_THRESHOLD" default.hotThreshold
    bailoutLimit := number "OTTER_IC_BAILOUT_LIMIT" default.bailoutLimit
    stats := flag "OTTER_IC_STATS" default.stats
    code := { default.code with spectre := flag "OTTER_IC_SPECTRE" true } }

end RuntimeOptions

end InlineCache
