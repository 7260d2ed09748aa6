import InlineCache.Eval.Error
import InlineCache.Heap.Trace

/-!
The operands of a running program.  Each is defined at most once, and is read as the kind it was
defined with.
-/

namespace InlineCache

namespace RefKind

def operandKind : RefKind → OperandKind
  | .object => .object
  | .string => .string
  | .symbol => .symbol
  | .bigint => .bigint

end RefKind

/-- A value as it was passed in, or what a guard or a load has made of one. -/
inductive OperandValue
  | boxed (value : Value)
  | ref (kind : RefKind) (address : Address)
  | boolean (b : Bool)
  | int32 (n : Int32)
  | intptr (n : Int64)
  | valueTag (type : ValueType)
  deriving DecidableEq, Repr

namespace OperandValue

def kind : OperandValue → OperandKind
  | .boxed _ => .value
  | .ref kind _ => kind.operandKind
  | .boolean _ => .boolean
  | .int32 _ => .int32
  | .intptr _ => .intptr
  | .valueTag _ => .valueTag

def boxed? : OperandValue → Option Value
  | .boxed value => some value
  | .ref kind address => some (.ofRef kind address)
  | .boolean b => some (.ofBool b)
  | .int32 n => some (.ofInt32 n)
  | .intptr _ | .valueTag _ => none

/-- The tag of an operand that is held without its tag. -/
def payloadType? : OperandValue → Option ValueType
  | .ref kind _ => some kind.valueType
  | .boolean _ => some .boolean
  | .int32 _ => some .int32
  | .boxed _ | .intptr _ | .valueTag _ => none

def trace : OperandValue → List CellRef
  | .boxed value => value.trace
  | .ref kind address => [.ref kind address]
  | .boolean _ | .int32 _ | .intptr _ | .valueTag _ => []

end OperandValue

structure Operands where
  slots : List (Option OperandValue)
  deriving DecidableEq, Repr

namespace Operands

def empty (count : Nat) : Operands :=
  ⟨List.replicate count none⟩

def count (operands : Operands) : Nat :=
  operands.slots.length

def isEmpty (operands : Operands) : Bool :=
  operands.slots.isEmpty

/-- Puts something, or nothing, into a slot that is still empty. -/
def fill (operands : Operands) (id : OperandId) (content : Option OperandValue) :
    Except EvalError Operands :=
  match operands.slots[id.toNat]? with
  | none => .error (.operandOutOfRange id operands.count)
  | some (some _) => .error (.redefined id)
  | some none => .ok ⟨operands.slots.set id.toNat content⟩

def define (operands : Operands) (id : OperandId) (value : OperandValue) :
    Except EvalError Operands :=
  operands.fill id (some value)

def get (operands : Operands) (id : OperandId) : Except EvalError OperandValue :=
  match operands.slots[id.toNat]? with
  | none => .error (.operandOutOfRange id operands.count)
  | some none => .error (.uninitialized id)
  | some (some value) => .ok value

/-- Reads an operand through a view that only one kind of operand has. -/
def read (operands : Operands) (expected : OperandKind) (view : OperandValue → Option α)
    (id : OperandId) : Except EvalError α := do
  let found ← operands.get id
  match view found with
  | some a => return a
  | none => throw (.kindMismatch id expected found.kind)

def value (operands : Operands) : OperandId → Except EvalError Value :=
  operands.read .value fun
    | .boxed value => some value
    | _ => none

/-- The cell of an operand that refers to a cell of the given kind. -/
def cell (operands : Operands) (kind : RefKind) : OperandId → Except EvalError Address :=
  operands.read kind.operandKind fun
    | .ref found address => if found = kind then some address else none
    | _ => none

def boolean (operands : Operands) : OperandId → Except EvalError Bool :=
  operands.read .boolean fun
    | .boolean b => some b
    | _ => none

def int32 (operands : Operands) : OperandId → Except EvalError Int32 :=
  operands.read .int32 fun
    | .int32 n => some n
    | _ => none

def intptr (operands : Operands) : OperandId → Except EvalError Int64 :=
  operands.read .intptr fun
    | .intptr n => some n
    | _ => none

def valueTag (operands : Operands) : OperandId → Except EvalError ValueType :=
  operands.read .valueTag fun
    | .valueTag type => some type
    | _ => none

/-- Whether a number operand is an int32, boxed or not. -/
def isInt32 (operands : Operands) (id : OperandId) : Except EvalError Bool := do
  match ← operands.get id with
  | .int32 _ => return true
  | .boxed value => return value.isInt32
  | _ => return false

/-- The number that an operand holds, boxed or as an int32. -/
def number (operands : Operands) (id : OperandId) : Except EvalError Double := do
  match ← operands.get id with
  | .int32 n => return .ofInt n.toInt
  | .boxed value =>
      match value.number? with
      | some d => return d
      | none => throw (.malformed (.notANumber id value.valueType))
  | other => throw (.kindMismatch id .number other.kind)

/-- The cells that the operands refer to, in the order of their ids. -/
def trace (operands : Operands) : List CellRef :=
  operands.slots.flatMap fun
    | some value => value.trace
    | none => []

end Operands

end InlineCache
