import InlineCache.Heap.Basic

/-!
The heap as memory.  An access names the first byte of a block and a displacement into it; it succeeds
when a field of the block starts there.
-/

namespace InlineCache

/-- The displacements of the fields of an object and of a shape. -/
structure Layout where
  shape : Nat
  slots : Nat
  elements : Nat
  elementCount : Nat
  fixedSlots : Nat
  shapeClass : Nat
  shapeProto : Nat

def layout : Layout :=
  { shape := 0
    slots := 8
    elements := 16
    elementCount := 24
    fixedSlots := 32
    shapeClass := 0
    shapeProto := 8 }

namespace Heap

def objectWord? (heap : Heap) (id : CellId) (displacement : Nat) : Option UInt64 :=
  let object := heap.object id
  if displacement = layout.shape then some (Block.shape object.shape).address
  else if displacement = layout.slots then some (Block.slots id).address
  else if displacement = layout.elements then some (Block.elements id).address
  else if layout.fixedSlots ≤ displacement ∧ displacement % 8 = 0 then
    (object.fixedSlot? ((displacement - layout.fixedSlots) / 8)).map Value.bits
  else none

def shapeWord? (heap : Heap) (id : CellId) (displacement : Nat) : Option UInt64 :=
  let shape := heap.shape id
  if displacement = layout.shapeClass then some (Block.descriptor shape.classKind).address
  else if displacement = layout.shapeProto then some shape.protoAddress
  else none

/-- The word at a displacement into the block at an address. -/
def load64? (heap : Heap) (base : Address) (displacement : UInt64) : Option UInt64 :=
  let d := displacement.toNat
  match Block.ofAddress? base with
  | some (.object id) => heap.objectWord? id d
  | some (.shape id) => heap.shapeWord? id d
  | some (.slots id) =>
      if d % 8 = 0 then ((heap.object id).dynamicSlot? (d / 8)).map Value.bits else none
  | some (.elements id) =>
      if d % 8 = 0 then ((heap.object id).element? (d / 8)).map Value.bits else none
  | _ => none

/-- The half word at a displacement into the block at an address. -/
def load32? (heap : Heap) (base : Address) (displacement : UInt64) : Option UInt32 :=
  match Block.ofAddress? base with
  | some (.object id) =>
      if displacement.toNat = layout.elementCount then some (heap.object id).elementCount else none
  | _ => none

end Heap

end InlineCache
