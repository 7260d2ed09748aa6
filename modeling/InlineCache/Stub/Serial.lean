import InlineCache.Json.Parser
import InlineCache.Stub.Data
import InlineCache.Stub.Program

/-!
The stored form of a stub: the JSON text of a pair of its program and its data.  Reading asks for
every field, takes fields in any order and skips fields it does not know.
-/

namespace InlineCache

namespace Json

def ofNat (n : Nat) : Json := .number (.ofNat n)

def ofString (s : String) : Json := .string (Utf16.encode s.toList)

/-- A natural number below a bound. -/
def below? (bound : Nat) : Json → Option Nat
  | .number n =>
      match n.toNat? with
      | some n => if n < bound then some n else none
      | none => none
  | _ => none

def listOf? (read : Json → Option α) : Json → Option (List α)
  | .array items => items.mapM read
  | _ => none

/-- The value under a name that stands once among members. -/
def field? (members : List (List UInt16 × Json)) (name : String) : Option Json :=
  match members.filter (·.1 = Utf16.encode name.toList) with
  | [(_, value)] => some value
  | _ => none

/-- The values of named fields.  An object has each of them once, and may have others under keys that
are text; an array has just their values in order. -/
def fields? (names : List String) : Json → Option (List Json)
  | .object members =>
      if members.all (Utf16.isText ·.1) then names.mapM (field? members) else none
  | .array items => if items.length = names.length then some items else none
  | _ => none

end Json

namespace FieldType

def toJson (type : FieldType) : Json :=
  .ofString type.label

/-- A type is spelt by its name, or by an object that maps its name to null. -/
def ofJson? : Json → Option FieldType
  | .string units => ofLabel? (String.ofList (Utf16.decode units))
  | .object [(units, .null)] => ofLabel? (String.ofList (Utf16.decode units))
  | _ => none

end FieldType

namespace StubProgram

def fieldNames : List String := ["code", "num_operands", "num_inputs"]

def toJson (program : StubProgram) : Json :=
  .object
    [(Utf16.encode "code".toList, .array (program.code.map fun b => .ofNat b.toNat)),
      (Utf16.encode "num_operands".toList, .ofNat program.operandCount.toNat),
      (Utf16.encode "num_inputs".toList, .ofNat program.inputCount.toNat)]

def ofJson? (json : Json) : Option StubProgram :=
  match json.fields? fieldNames with
  | some [code, operands, inputs] => do
      let code ← code.listOf? (·.below? 0x100)
      let operands ← operands.below? 0x10000
      let inputs ← inputs.below? 0x100
      return ⟨code.map UInt8.ofNat, UInt16.ofNat operands, UInt8.ofNat inputs⟩
  | _ => none

end StubProgram

namespace StubData

def fieldNames : List String := ["words", "types"]

def toJson (data : StubData) : Json :=
  .object
    [(Utf16.encode "words".toList, .array (data.words.map fun w => .ofNat w.toNat)),
      (Utf16.encode "types".toList, .array (data.types.map FieldType.toJson))]

def ofJson? (json : Json) : Option StubData :=
  match json.fields? fieldNames with
  | some [words, types] => do
      let words ← words.listOf? (·.below? 0x10000000000000000)
      let types ← types.listOf? FieldType.ofJson?
      return ⟨words.map UInt64.ofNat, types⟩
  | _ => none

end StubData

namespace Stub

def toJson (program : StubProgram) (data : StubData) : Json :=
  .array [program.toJson, data.toJson]

def ofJson? : Json → Option (StubProgram × StubData)
  | .array [program, data] => do
      return (← StubProgram.ofJson? program, ← StubData.ofJson? data)
  | _ => none

def serialize (program : StubProgram) (data : StubData) : List Char :=
  (toJson program data).render

def deserialize? (text : List Char) : Option (StubProgram × StubData) :=
  (Json.parse? text).bind ofJson?

end Stub

end InlineCache
