import InlineCache.Op.Codec
import InlineCache.Stub.Data
import InlineCache.Stub.Program

/-!
Building a stub program: operand ids and data fields are handed out as the operations are written,
and the limits are checked when the program is finished.
-/

namespace InlineCache

structure StubBuilder where
  code : List UInt8
  data : StubData
  inputCount : UInt8
  nextOperand : UInt16
  terminated : Bool
  overflowed : Bool
  deriving DecidableEq, Repr

namespace StubBuilder

def start (inputCount : UInt8) : StubBuilder :=
  { code := []
    data := .empty
    inputCount
    nextOperand := inputCount.toUInt16
    terminated := false
    overflowed := false }

/-- The operand of an input. -/
def input (_ : StubBuilder) (index : UInt8) : OperandId :=
  index

/-- The next operand id.  Past 256 ids the last id is handed out again and the program is spoilt. -/
def newOperand (builder : StubBuilder) : OperandId × StubBuilder :=
  let counted := { builder with nextOperand := builder.nextOperand + 1 }
  if builder.nextOperand < 256 then
    (builder.nextOperand.toUInt8, counted)
  else
    (255, { counted with overflowed := true })

/-- The next data field.  Past 256 fields the last field is handed out again and the program is
spoilt. -/
def addField (builder : StubBuilder) (type : FieldType) (word : UInt64) : Field × StubBuilder :=
  match builder.data.push type word with
  | .ok (field, data) => (field, { builder with data })
  | .error _ => (⟨255⟩, { builder with overflowed := true })

def addInt32Field (builder : StubBuilder) (n : Int32) : Field × StubBuilder :=
  builder.addField .rawInt32 (StubData.wordOfInt32 n)

def emit (builder : StubBuilder) (op : Op) : StubBuilder :=
  { builder with
    code := builder.code ++ op.encode
    terminated := builder.terminated || op.isTerminal }

def operandCount (builder : StubBuilder) : Nat :=
  builder.nextOperand.toNat

def finish (builder : StubBuilder) : Except StubError (StubProgram × StubData) :=
  if builder.overflowed || 256 < builder.nextOperand then .error .tooManyOperands
  else if !builder.terminated then .error .missingTerminal
  else .ok (⟨builder.code, builder.nextOperand, builder.inputCount⟩, builder.data)

end StubBuilder

end InlineCache
