import InlineCache.Heap.Basic
import InlineCache.Text.Quoted
import InlineCache.Text.Utf16

/-!
Values and objects in listings.
-/

namespace InlineCache.Heap

/-- The text of a string; a surrogate without its partner is replaced. -/
def textAt (heap : Heap) (address : Address) : List Char :=
  Utf16.decode (heap.stringAt address).toList

/-- The listing of a value that is no double. -/
def describe? (heap : Heap) (v : Value) : Option String :=
  match v.valueType with
  | .double => none
  | .int32 => some ("Int32(" ++ toString v.bits.toUInt32.toInt32.toInt ++ ")")
  | .boolean => some (if v = .ofBool true then "Boolean(true)" else "Boolean(false)")
  | .undefined => some "Undefined"
  | .null => some "Null"
  | .string =>
      match v.ref? .string with
      | some address => some ("String(" ++ Text.quote (heap.textAt address) ++ ")")
      | none => some "String(?)"
  | type => some (type.name ++ "(0x" ++ Text.hex v.payload.toNat ++ ")")

def describeObject (heap : Heap) (object : Object) : String :=
  "JsObject \x7b class: \"" ++ (heap.shapeOf object).classKind.className ++ "\", shape: " ++
    toString object.shape.toNat ++ ", elements_len: " ++ toString object.elementCount.toNat ++ " \x7d"

end InlineCache.Heap
