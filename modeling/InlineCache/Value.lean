import InlineCache.Double
import InlineCache.Kind

/-!
Boxed values: 64-bit words in which every pattern that is no quiet NaN is a number, and the quiet
NaN patterns carry a tag and a payload of 48 bits.
-/

namespace InlineCache

/-- The 48-bit word that names a heap cell or a block of its storage; zero names nothing. -/
abbrev Address := UInt64

/-- The kinds of cells that a value can refer to. -/
inductive RefKind
  | object
  | string
  | symbol
  | bigint
  deriving DecidableEq, Repr

namespace RefKind

/-- The top sixteen bits of a reference. -/
def tag : RefKind → UInt64
  | .object => 0x7FFC
  | .string => 0x7FFD
  | .symbol => 0x7FFE
  | .bigint => 0x7FFF

def all : List RefKind := [.object, .string, .symbol, .bigint]

def valueType : RefKind → ValueType
  | .object => .object
  | .string => .string
  | .symbol => .symbol
  | .bigint => .bigint

end RefKind

structure Value where
  bits : UInt64
  deriving DecidableEq, Repr

namespace Value

def undefined : Value := ⟨0x7FF8000000000000⟩

def null : Value := ⟨0x7FF8000000000001⟩

def ofBool : Bool → Value
  | true => ⟨0x7FF8000000000002⟩
  | false => ⟨0x7FF8000000000003⟩

/-- The mark of a missing array element. -/
def hole : Value := ⟨0x7FF8000000000004⟩

/-- The one NaN that values hold. -/
def nan : Value := ⟨0x7FFA000000000000⟩

instance : Inhabited Value := ⟨undefined⟩

def payloadMask : UInt64 := 0x0000FFFFFFFFFFFF

def ofInt32 (n : Int32) : Value :=
  ⟨0x7FF8000100000000 ||| n.toUInt32.toUInt64⟩

def ofDouble (d : Double) : Value :=
  if d.isNaN then nan else ⟨d.bits⟩

/-- The shortest form of a number: an int32 when it is an integer of that range, but for the negative
zero. -/
def ofNumber (d : Double) : Value :=
  if d.isIntegral && d.within (-0x80000000) 0x7FFFFFFF && (!d.numEq .zero || !d.isNegative) then
    ofInt32 (Int32.ofInt (d.saturate (-0x80000000) 0x7FFFFFFF))
  else ofDouble d

def ofRef (kind : RefKind) (address : Address) : Value :=
  ⟨kind.tag <<< 48 ||| (address &&& payloadMask)⟩

def payload (v : Value) : UInt64 :=
  v.bits &&& payloadMask

def isInt32 (v : Value) : Bool :=
  v.bits >>> 32 = 0x7FF80001

def isDouble (v : Value) : Bool :=
  (v.bits >>> 51) % 0x1000 ≠ 0xFFF || v = nan

def isNumber (v : Value) : Bool :=
  v.isInt32 || v.isDouble

def isUndefined (v : Value) : Bool := v = undefined

def isNull (v : Value) : Bool := v = null

def isNullOrUndefined (v : Value) : Bool := v.isNull || v.isUndefined

def isBoolean (v : Value) : Bool := v = ofBool true || v = ofBool false

def isHole (v : Value) : Bool := v = hole

def isRef (kind : RefKind) (v : Value) : Bool :=
  v.bits >>> 48 = kind.tag

/-- The tests by name, in alphabetical order. -/
def tests : List (String × (Value → Bool)) :=
  [("bigint", isRef .bigint), ("boolean", isBoolean), ("double", isDouble), ("hole", isHole),
    ("int32", isInt32), ("null", isNull), ("null_or_undefined", isNullOrUndefined),
    ("number", isNumber), ("object", isRef .object), ("string", isRef .string),
    ("symbol", isRef .symbol), ("undefined", isUndefined)]

def valueType (v : Value) : ValueType :=
  if v.isDouble then .double
  else if v.isInt32 then .int32
  else if v.isRef .object then .object
  else if v.isRef .string then .string
  else if v.isRef .symbol then .symbol
  else if v.isRef .bigint then .bigint
  else if v.isUndefined then .undefined
  else if v.isNull then .null
  else if v.isBoolean then .boolean
  else .magic

def int32? (v : Value) : Option Int32 :=
  if v.isInt32 then some v.bits.toUInt32.toInt32 else none

def double? (v : Value) : Option Double :=
  if v = nan then some .nan
  else if v.isDouble then some ⟨v.bits⟩
  else none

/-- The numeric value of a number in either form. -/
def number? (v : Value) : Option Double :=
  match v.int32? with
  | some n => some (.ofInt n.toInt)
  | none => v.double?

def boolean? (v : Value) : Option Bool :=
  if v = ofBool true then some true
  else if v = ofBool false then some false
  else none

/-- The cell that a value of this kind refers to; a reference to address zero refers to none. -/
def ref? (kind : RefKind) (v : Value) : Option Address :=
  if v.isRef kind ∧ v.payload ≠ 0 then some v.payload else none

end Value

end InlineCache
