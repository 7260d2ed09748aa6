import InlineCache.Heap.Address
import InlineCache.RegExp.Match

/-!
The cells that have parts: shapes, which say how an object is laid out, and objects.  Reading a part
that is not there gives nothing, and writing it changes nothing.
-/

namespace InlineCache

structure Shape where
  classKind : ClassKind
  proto : Option CellId
  fixedSlots : Nat
  slotSpan : Nat
  deriving DecidableEq, Repr

namespace Shape

/-- Every object has room for this many fixed slots, used or not. -/
def maxFixedSlots : Nat := 8

def dynamicSlots (shape : Shape) : Nat :=
  shape.slotSpan - shape.fixedSlots

/-- A layout with at most eight fixed slots, and a span that covers them. -/
def make (classKind : ClassKind) (proto : Option CellId) (fixedSlots slotSpan : Nat) : Shape :=
  let fixedSlots := min fixedSlots maxFixedSlots
  { classKind, proto, fixedSlots, slotSpan := max slotSpan fixedSlots }

instance : Inhabited Shape := ⟨make .plainObject none 0 0⟩

/-- The address of the prototype object, zero for none. -/
def protoAddress (shape : Shape) : Address :=
  match shape.proto with
  | some id => (Block.object id).address
  | none => 0

end Shape

structure Object where
  shape : CellId
  fixed : Vector Value 8
  dynamic : Array Value
  elements : Array Value
  regExp : Option RegExp

namespace Object

def make (shapeId : CellId) (shape : Shape) (elements : Array Value) (regExp : Option RegExp) :
    Object :=
  { shape := shapeId
    fixed := Vector.replicate 8 .undefined
    dynamic := Array.replicate shape.dynamicSlots .undefined
    elements
    regExp }

instance : Inhabited Object := ⟨make 0 default #[] none⟩

def fixedSlot? (object : Object) (index : Nat) : Option Value :=
  object.fixed[index]?

def dynamicSlot? (object : Object) (index : Nat) : Option Value :=
  object.dynamic[index]?

def element? (object : Object) (index : Nat) : Option Value :=
  object.elements[index]?

/-- The number of elements, as the length field of the object holds it. -/
def elementCount (object : Object) : UInt32 :=
  UInt32.ofNat object.elements.size

def setFixedSlot (object : Object) (index : Nat) (value : Value) : Object :=
  { object with fixed := object.fixed.setIfInBounds index value }

def setDynamicSlot (object : Object) (index : Nat) (value : Value) : Object :=
  { object with dynamic := object.dynamic.setIfInBounds index value }

def setElement (object : Object) (index : Nat) (value : Value) : Object :=
  { object with elements := object.elements.setIfInBounds index value }

/-- Where the fixed slots start in an object. -/
def fixedSlotBase : Int := 32

/-- The slot index of a displacement from the first slot, rounded toward that slot.  A displacement
before it wraps to an index above every slot. -/
def slotIndex (displacement : Int) : Nat :=
  (Int64.ofInt (displacement.tdiv 8)).toUInt64.toNat

def fixedSlotOffset (index : Nat) : Int32 :=
  Int32.ofInt (fixedSlotBase + 8 * index)

def fixedSlotIndex (offset : Int32) : Nat :=
  slotIndex (offset.toInt - fixedSlotBase)

def dynamicSlotOffset (index : Nat) : Int32 :=
  Int32.ofInt (8 * index)

def dynamicSlotIndex (offset : Int32) : Nat :=
  slotIndex offset.toInt

end Object

end InlineCache
