/-!
The closed vocabularies that stub programs, stub data and values share: value types, object classes,
operand kinds and stub field types, with their byte codes and names.
-/

namespace InlineCache

/-- The tag of a boxed value. -/
inductive ValueType
  | double
  | int32
  | boolean
  | undefined
  | null
  | magic
  | string
  | symbol
  | bigint
  | object
  deriving DecidableEq, Repr

namespace ValueType

def all : List ValueType :=
  [.double, .int32, .boolean, .undefined, .null, .magic, .string, .symbol, .bigint, .object]

def byte : ValueType → UInt8
  | .double => 0
  | .int32 => 1
  | .boolean => 2
  | .undefined => 3
  | .null => 4
  | .magic => 5
  | .string => 6
  | .symbol => 7
  | .bigint => 8
  | .object => 9

def ofByte? (b : UInt8) : Option ValueType :=
  all[b.toNat]?

@[simp] theorem ofByte?_byte (t : ValueType) : ofByte? t.byte = some t := by
  cases t <;> rfl

theorem byte_of_ofByte? {b : UInt8} {t : ValueType} (h : ofByte? b = some t) : t.byte = b := by
  obtain ⟨hb, ht⟩ := List.getElem?_eq_some_iff.mp h
  have hlt : b.toNat < 10 := hb
  have hcases :
      b = 0 ∨ b = 1 ∨ b = 2 ∨ b = 3 ∨ b = 4 ∨ b = 5 ∨ b = 6 ∨ b = 7 ∨ b = 8 ∨ b = 9 := by
    simp only [← UInt8.toNat_inj]
    simp
    omega
  rcases hcases with rfl | rfl | rfl | rfl | rfl | rfl | rfl | rfl | rfl | rfl <;>
    (subst ht; rfl)

def isNumber : ValueType → Bool
  | .double | .int32 => true
  | _ => false

/-- Values of this type refer to a heap cell. -/
def isCell : ValueType → Bool
  | .string | .symbol | .bigint | .object => true
  | _ => false

/-- The name in error texts. -/
def name : ValueType → String
  | .double => "double"
  | .int32 => "int32"
  | .boolean => "boolean"
  | .undefined => "undefined"
  | .null => "null"
  | .magic => "magic"
  | .string => "string"
  | .symbol => "symbol"
  | .bigint => "bigint"
  | .object => "object"

/-- The name in code listings. -/
def label : ValueType → String
  | .double => "Double"
  | .int32 => "Int32"
  | .boolean => "Boolean"
  | .undefined => "Undefined"
  | .null => "Null"
  | .magic => "Magic"
  | .string => "String"
  | .symbol => "Symbol"
  | .bigint => "BigInt"
  | .object => "Object"

end ValueType

/-- The classes of objects that a guard can name. -/
inductive ClassKind
  | plainObject
  | array
  | regExp
  | arrayBuffer
  | function
  | boundFunction
  | set
  | map
  deriving DecidableEq, Repr

namespace ClassKind

def all : List ClassKind :=
  [.plainObject, .array, .regExp, .arrayBuffer, .function, .boundFunction, .set, .map]

def byte : ClassKind → UInt8
  | .plainObject => 0
  | .array => 1
  | .regExp => 2
  | .arrayBuffer => 3
  | .function => 4
  | .boundFunction => 5
  | .set => 6
  | .map => 7

def ofByte? (b : UInt8) : Option ClassKind :=
  all[b.toNat]?

@[simp] theorem ofByte?_byte (k : ClassKind) : ofByte? k.byte = some k := by
  cases k <;> rfl

theorem byte_of_ofByte? {b : UInt8} {k : ClassKind} (h : ofByte? b = some k) : k.byte = b := by
  obtain ⟨hb, hk⟩ := List.getElem?_eq_some_iff.mp h
  have hlt : b.toNat < 8 := hb
  have hcases : b = 0 ∨ b = 1 ∨ b = 2 ∨ b = 3 ∨ b = 4 ∨ b = 5 ∨ b = 6 ∨ b = 7 := by
    simp only [← UInt8.toNat_inj]
    simp
    omega
  rcases hcases with rfl | rfl | rfl | rfl | rfl | rfl | rfl | rfl <;> (subst hk; rfl)

/-- The name that objects of the class show. -/
def className : ClassKind → String
  | .plainObject => "Object"
  | .array => "Array"
  | .regExp => "RegExp"
  | .arrayBuffer => "ArrayBuffer"
  | .function => "Function"
  | .boundFunction => "BoundFunction"
  | .set => "Set"
  | .map => "Map"

/-- The name in code listings. -/
def label : ClassKind → String
  | .plainObject => "PlainObject"
  | kind => kind.className

end ClassKind

/-- What an operand is read as. -/
inductive OperandKind
  | value
  | object
  | string
  | symbol
  | bigint
  | boolean
  | int32
  | number
  | intptr
  | valueTag
  | typed
  deriving DecidableEq, Repr

namespace OperandKind

def all : List OperandKind :=
  [.value, .object, .string, .symbol, .bigint, .boolean, .int32, .number, .intptr, .valueTag, .typed]

def name : OperandKind → String
  | .value => "value"
  | .object => "object"
  | .string => "string"
  | .symbol => "symbol"
  | .bigint => "bigint"
  | .boolean => "boolean"
  | .int32 => "int32"
  | .number => "number"
  | .intptr => "intptr"
  | .valueTag => "value-tag"
  | .typed => "typed"

/-- The name in code listings. -/
def label : OperandKind → String
  | .value => "Value"
  | .object => "Object"
  | .string => "String"
  | .symbol => "Symbol"
  | .bigint => "BigInt"
  | .boolean => "Boolean"
  | .int32 => "Int32"
  | .number => "Number"
  | .intptr => "IntPtr"
  | .valueTag => "ValueTag"
  | .typed => "Typed"

/-- The order of the kind lattice: an operand of the first kind may stand where the second is asked
for.  Everything narrows a value, except the two machine words that have no boxed form. -/
def narrows : OperandKind → OperandKind → Bool
  | .intptr, wider => decide (wider = .intptr)
  | .valueTag, wider => decide (wider = .valueTag)
  | _, .value => true
  | .int32, .number => true
  | kind, wider => decide (kind = wider)

/-- The tag of values that an operand of this kind boxes to. -/
def valueType? : OperandKind → Option ValueType
  | .object => some .object
  | .string => some .string
  | .symbol => some .symbol
  | .bigint => some .bigint
  | .boolean => some .boolean
  | .int32 => some .int32
  | _ => none

end OperandKind

/-- What a word of stub data holds. -/
inductive FieldType
  | rawInt32
  | rawInt64
  | rawPointer
  | shape
  | descriptor
  | object
  | value
  deriving DecidableEq, Repr

namespace FieldType

def all : List FieldType :=
  [.rawInt32, .rawInt64, .rawPointer, .shape, .descriptor, .object, .value]

/-- The field refers to a heap cell. -/
def isTraced : FieldType → Bool
  | .shape | .object | .value => true
  | _ => false

def label : FieldType → String
  | .rawInt32 => "RawInt32"
  | .rawInt64 => "RawInt64"
  | .rawPointer => "RawPointer"
  | .shape => "Shape"
  | .descriptor => "Class"
  | .object => "Object"
  | .value => "Value"

def ofLabel? (label : String) : Option FieldType :=
  all.find? (·.label = label)

@[simp] theorem ofLabel?_label (t : FieldType) : ofLabel? t.label = some t := by
  cases t <;> decide

end FieldType

end InlineCache
