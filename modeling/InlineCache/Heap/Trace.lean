import InlineCache.Heap.Basic
import InlineCache.Stub.Data

/-!
The cells that a cell, a value or stub data refers to, in the order in which a collector marks them.
-/

namespace InlineCache

/-- A reference to a cell, by kind and address. -/
inductive CellRef
  | shape (address : Address)
  | ref (kind : RefKind) (address : Address)
  deriving DecidableEq, Repr

namespace Value

def cell? (v : Value) : Option CellRef :=
  match v.ref? .object, v.ref? .string, v.ref? .symbol, v.ref? .bigint with
  | some address, _, _, _ => some (.ref .object address)
  | none, some address, _, _ => some (.ref .string address)
  | none, none, some address, _ => some (.ref .symbol address)
  | none, none, none, some address => some (.ref .bigint address)
  | none, none, none, none => none

def trace (v : Value) : List CellRef :=
  v.cell?.toList

end Value

def Shape.trace (shape : Shape) : List CellRef :=
  (shape.proto.map fun id => .ref .object (Block.object id).address).toList

/-- The shape, then the slots that the shape covers, then the elements. -/
def Heap.traceObject (heap : Heap) (object : Object) : List CellRef :=
  let shape := heap.shapeOf object
  CellRef.shape (Block.shape object.shape).address ::
    ((object.fixed.toList.take shape.fixedSlots).flatMap Value.trace ++
      (object.dynamic.toList.take shape.dynamicSlots).flatMap Value.trace ++
      object.elements.toList.flatMap Value.trace)

def FieldType.trace (word : UInt64) : FieldType → List CellRef
  | .shape => if word = 0 then [] else [.shape word]
  | .object => if word = 0 then [] else [.ref .object word]
  | .value => Value.trace ⟨word⟩
  | _ => []

def StubData.trace (data : StubData) : List CellRef :=
  data.traced.flatMap fun (_, type, word) => type.trace word

end InlineCache
