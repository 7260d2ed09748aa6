import InlineCache.Double
import InlineCache.Kind

/-!
Values in registers without their tags, and the way between the two forms: int32s are kept with their
sign extended, booleans as zero or one, references as addresses.
-/

namespace InlineCache

inductive PayloadType
  | int32
  | boolean
  | object
  | string
  | symbol
  | bigint
  | intptr
  | valueTag
  deriving DecidableEq, Repr

namespace PayloadType

def all : List PayloadType :=
  [.int32, .boolean, .object, .string, .symbol, .bigint, .intptr, .valueTag]

/-- The tag of the boxed form, for payloads that have one. -/
def valueType? : PayloadType → Option ValueType
  | .int32 => some .int32
  | .boolean => some .boolean
  | .object => some .object
  | .string => some .string
  | .symbol => some .symbol
  | .bigint => some .bigint
  | .intptr | .valueTag => none

def ofValueType? : ValueType → Option PayloadType
  | .int32 => some .int32
  | .boolean => some .boolean
  | .object => some .object
  | .string => some .string
  | .symbol => some .symbol
  | .bigint => some .bigint
  | .double | .undefined | .null | .magic => none

/-- The payload of operands of a kind; the other kinds are kept boxed. -/
def ofKind? : OperandKind → Option PayloadType
  | .int32 => some .int32
  | .boolean => some .boolean
  | .object => some .object
  | .string => some .string
  | .symbol => some .symbol
  | .bigint => some .bigint
  | .intptr => some .intptr
  | .valueTag => some .valueTag
  | .value | .number | .typed => none

def label : PayloadType → String
  | .int32 => "Int32"
  | .boolean => "Boolean"
  | .object => "Object"
  | .string => "String"
  | .symbol => "Symbol"
  | .bigint => "BigInt"
  | .intptr => "IntPtr"
  | .valueTag => "ValueTag"

end PayloadType

/-- The bit patterns that the tags of words are tested against. -/
structure TagBits where
  quietNaN : UInt64
  nan : UInt64
  int32Mask : UInt64
  int32 : UInt64
  refMask : UInt64
  payloadMask : UInt64
  object : UInt64
  string : UInt64
  symbol : UInt64
  bigint : UInt64
  undefined : UInt64
  null : UInt64
  true : UInt64
  false : UInt64
  hole : UInt64

def tagBits : TagBits :=
  { quietNaN := 0x7FF8000000000000
    nan := 0x7FFA000000000000
    int32Mask := 0xFFFFFFFF00000000
    int32 := 0x7FF8000100000000
    refMask := 0xFFFF000000000000
    payloadMask := 0x0000FFFFFFFFFFFF
    object := 0x7FFC000000000000
    string := 0x7FFD000000000000
    symbol := 0x7FFE000000000000
    bigint := 0x7FFF000000000000
    undefined := 0x7FF8000000000000
    null := 0x7FF8000000000001
    true := 0x7FF8000000000002
    false := 0x7FF8000000000003
    hole := 0x7FF8000000000004 }

namespace Word

/-- The low half of a word with its sign extended. -/
def signExtend (w : UInt64) : UInt64 :=
  w.toUInt32.toInt32.toInt64.toUInt64

def ofInt32 (n : Int32) : UInt64 :=
  n.toInt64.toUInt64

def ofBool (b : Bool) : UInt64 :=
  if b then 1 else 0

def isInt32 (w : UInt64) : Bool :=
  w &&& tagBits.int32Mask = tagBits.int32

def isDouble (w : UInt64) : Bool :=
  w &&& tagBits.quietNaN ≠ tagBits.quietNaN || w = tagBits.nan

def isNumber (w : UInt64) : Bool :=
  isInt32 w || isDouble w

def hasRefTag (w tag : UInt64) : Bool :=
  w &&& tagBits.refMask = tag

/-- The test for a tag that has one of its own. -/
def hasTag (w : UInt64) : ValueType → Bool
  | .double => isDouble w
  | .int32 => isInt32 w
  | .boolean => w = tagBits.true || w = tagBits.false
  | .undefined => w = tagBits.undefined
  | .null => w = tagBits.null
  | .object => hasRefTag w tagBits.object
  | .string => hasRefTag w tagBits.string
  | .symbol => hasRefTag w tagBits.symbol
  | .bigint => hasRefTag w tagBits.bigint
  | .magic => false

/-- The tags in the order in which they are tried. -/
def tagOrder : List ValueType :=
  [.double, .int32, .object, .string, .symbol, .bigint, .undefined, .null, .boolean]

/-- The byte of the first tag whose test a word passes; a word that passes none is magic. -/
def tagByte (w : UInt64) : UInt64 :=
  tagOrder.foldr (fun type rest => if hasTag w type then type.byte.toUInt64 else rest)
    ValueType.magic.byte.toUInt64

/-- The test that a branch on a tag makes. -/
def hasType (w : UInt64) (type : ValueType) : Bool :=
  if type = .magic then tagByte w = ValueType.magic.byte.toUInt64 else hasTag w type

def unbox (w : UInt64) : PayloadType → UInt64
  | .int32 => signExtend w
  | .boolean => ofBool (w = tagBits.true)
  | .object | .string | .symbol | .bigint => w &&& tagBits.payloadMask
  | .intptr | .valueTag => w

def boxInt32 (payload : UInt64) : UInt64 :=
  (payload &&& 0xFFFFFFFF) ||| tagBits.int32

/-- The word of a payload.  The pattern of true is one below that of false. -/
def box (payload : UInt64) : PayloadType → UInt64
  | .int32 => boxInt32 payload
  | .boolean => tagBits.false - payload
  | .object => (payload &&& tagBits.payloadMask) ||| tagBits.object
  | .string => (payload &&& tagBits.payloadMask) ||| tagBits.string
  | .symbol => (payload &&& tagBits.payloadMask) ||| tagBits.symbol
  | .bigint => (payload &&& tagBits.payloadMask) ||| tagBits.bigint
  | .intptr | .valueTag => payload

def unboxDouble (w : UInt64) : Double :=
  if w = tagBits.nan then .nan else ⟨w⟩

def unboxNumber (w : UInt64) : Double :=
  if isInt32 w then .ofInt w.toUInt32.toInt32.toInt else unboxDouble w

def boxDouble (d : Double) : UInt64 :=
  if d.isNaN then tagBits.nan else d.bits

/-- The word of an int64: an int32 when it fits, else the nearest double. -/
def boxIntPtr (payload : UInt64) : UInt64 :=
  if signExtend payload = payload then boxInt32 payload
  else boxDouble (.ofInt payload.toInt64.toInt)

end Word

end InlineCache
