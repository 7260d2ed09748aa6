import InlineCache.Heap.Cell

/-!
The heap: the cells of each kind in order of creation.  Three shapes that literals share are made when
they are first needed.  A cell id that names no cell reads as an empty cell.
-/

namespace InlineCache

structure Heap where
  shapes : Array Shape
  objects : Array Object
  strings : Array (Array UInt16)
  symbols : Array (Option String)
  bigints : Array Int
  arrayShape : Option CellId
  regExpShape : Option CellId
  matchShape : Option CellId

namespace Heap

def empty : Heap :=
  { shapes := #[]
    objects := #[]
    strings := #[]
    symbols := #[]
    bigints := #[]
    arrayShape := none
    regExpShape := none
    matchShape := none }

def shape (heap : Heap) (id : CellId) : Shape :=
  heap.shapes.getD id.toNat default

def object (heap : Heap) (id : CellId) : Object :=
  heap.objects.getD id.toNat default

def string (heap : Heap) (id : CellId) : Array UInt16 :=
  heap.strings.getD id.toNat #[]

def symbol (heap : Heap) (id : CellId) : Option String :=
  heap.symbols.getD id.toNat none

def bigint (heap : Heap) (id : CellId) : Int :=
  heap.bigints.getD id.toNat 0

def objectAt (heap : Heap) (address : Address) : Object :=
  match Block.ofAddress? address with
  | some (.object id) => heap.object id
  | _ => default

def stringAt (heap : Heap) (address : Address) : Array UInt16 :=
  match Block.ofAddress? address with
  | some (.string id) => heap.string id
  | _ => #[]

def shapeOf (heap : Heap) (object : Object) : Shape :=
  heap.shape object.shape

def newShape (heap : Heap) (classKind : ClassKind) (proto : Option CellId)
    (fixedSlots slotSpan : Nat) : CellId × Heap :=
  (UInt32.ofNat heap.shapes.size,
    { heap with shapes := heap.shapes.push (.make classKind proto fixedSlots slotSpan) })

def pushObject (heap : Heap) (object : Object) : CellId × Heap :=
  (UInt32.ofNat heap.objects.size, { heap with objects := heap.objects.push object })

def addObject (heap : Heap) (shape : CellId) (elements : Array Value) (regExp : Option RegExp) :
    CellId × Heap :=
  heap.pushObject (.make shape (heap.shape shape) elements regExp)

def newObject (heap : Heap) (shape : CellId) : CellId × Heap :=
  heap.addObject shape #[] none

def newString (heap : Heap) (units : Array UInt16) : CellId × Heap :=
  (UInt32.ofNat heap.strings.size, { heap with strings := heap.strings.push units })

def newSymbol (heap : Heap) (description : Option String) : CellId × Heap :=
  (UInt32.ofNat heap.symbols.size, { heap with symbols := heap.symbols.push description })

def newBigInt (heap : Heap) (n : Int) : CellId × Heap :=
  (UInt32.ofNat heap.bigints.size, { heap with bigints := heap.bigints.push n })

/-- The shape of array literals. -/
def ensureArrayShape (heap : Heap) : CellId × Heap :=
  match heap.arrayShape with
  | some id => (id, heap)
  | none =>
      let (id, heap) := heap.newShape .array none 0 0
      (id, { heap with arrayShape := some id })

/-- The shape of regular expressions: a slot for the flags and one for the last index. -/
def ensureRegExpShape (heap : Heap) : CellId × Heap :=
  match heap.regExpShape with
  | some id => (id, heap)
  | none =>
      let (id, heap) := heap.newShape .regExp none 2 2
      (id, { heap with regExpShape := some id })

/-- The shape of match results: a slot for the index and one for the input. -/
def ensureMatchShape (heap : Heap) : CellId × Heap :=
  match heap.matchShape with
  | some id => (id, heap)
  | none =>
      let (id, heap) := heap.newShape .array none 2 2
      (id, { heap with matchShape := some id })

def newArray (heap : Heap) (elements : Array Value) : CellId × Heap :=
  let (shape, heap) := heap.ensureArrayShape
  heap.addObject shape elements none

def modifyObject (heap : Heap) (id : CellId) (f : Object → Object) : Heap :=
  { heap with objects := heap.objects.modify id.toNat f }

def setShape (heap : Heap) (id shape : CellId) : Heap :=
  heap.modifyObject id fun object => { object with shape }

def setFixedSlot (heap : Heap) (id : CellId) (index : Nat) (value : Value) : Heap :=
  heap.modifyObject id (·.setFixedSlot index value)

def setDynamicSlot (heap : Heap) (id : CellId) (index : Nat) (value : Value) : Heap :=
  heap.modifyObject id (·.setDynamicSlot index value)

def setElement (heap : Heap) (id : CellId) (index : Nat) (value : Value) : Heap :=
  heap.modifyObject id (·.setElement index value)

/-- The fixed slot of a regular expression that holds its flags. -/
def flagsSlot : Nat := 0

/-- The fixed slots of a match result. -/
def matchIndexSlot : Nat := 0

def matchInputSlot : Nat := 1

def newRegExp (heap : Heap) (source : String) (flags : RegExp.Flags) :
    Except RegExp.SyntaxError (CellId × Heap) := do
  let regExp ← RegExp.compile source flags
  let (shape, heap) := heap.ensureRegExpShape
  let (id, heap) := heap.addObject shape #[] (some regExp)
  return (id, heap.setFixedSlot id flagsSlot (.ofInt32 flags.bits.toInt32))

/-- A regular expression from the texts of its source and its flags. -/
def parseRegExp (heap : Heap) (source flags : String) :
    Except RegExp.SyntaxError (CellId × Heap) := do
  heap.newRegExp source (← RegExp.Flags.parse flags)

def newMatchResult (heap : Heap) (elements : Array Value) (index : Int32) (input : Address) :
    CellId × Heap :=
  let (shape, heap) := heap.ensureMatchShape
  let object := Object.make shape (heap.shape shape) elements none
  heap.pushObject ((object.setFixedSlot matchIndexSlot (.ofInt32 index)).setFixedSlot matchInputSlot
    (.ofRef .string input))

end Heap

end InlineCache
