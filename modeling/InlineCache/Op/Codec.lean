import InlineCache.Op.Basic
import InlineCache.Stub.Error

/-!
The wire form of operations: the opcode byte, then each argument in order.  Reading goes through a
cursor that only moves forward, and a failed read leaves the cursor behind the bytes it consumed.
-/

namespace InlineCache

/-- A position in a byte string: how many bytes are behind it, and the bytes ahead. -/
structure Cursor where
  offset : Nat
  rest : List UInt8
  deriving DecidableEq, Repr

def Cursor.start (code : List UInt8) : Cursor :=
  ⟨0, code⟩

def Cursor.atEnd (cursor : Cursor) : Bool :=
  cursor.rest.isEmpty

abbrev Read := ExceptT StubError (StateM Cursor)

namespace Read

def byte : Read UInt8 := fun cursor =>
  match cursor.rest with
  | b :: rest => (.ok b, ⟨cursor.offset + 1, rest⟩)
  | [] => (.error (.unexpectedEnd cursor.offset), cursor)

/-- Four bytes, the lowest first; nothing is consumed when fewer are left. -/
def int32 : Read Int32 := fun cursor =>
  match cursor.rest with
  | b0 :: b1 :: b2 :: b3 :: rest =>
      (.ok (b0.toUInt32 ||| b1.toUInt32 <<< 8 ||| b2.toUInt32 <<< 16 |||
        b3.toUInt32 <<< 24).toInt32, ⟨cursor.offset + 4, rest⟩)
  | _ => (.error (.unexpectedEnd cursor.offset), cursor)

def operand : Read OperandId := byte

def field : Read Field := do
  return ⟨← byte⟩

def valueType : Read ValueType := do
  let b ← byte
  match ValueType.ofByte? b with
  | some type => return type
  | none => throw (.invalidValueType b)

def classKind : Read ClassKind := do
  let b ← byte
  match ClassKind.ofByte? b with
  | some kind => return kind
  | none => throw (.invalidClassKind b)

def opcode : Read Opcode := do
  let b ← byte
  match Opcode.ofByte? b with
  | some opcode => return opcode
  | none => throw (.unknownOpcode b)

end Read

/-- A flag is any byte, and only zero is false. -/
def Param.read : (param : Param) → Read param.Arg
  | .use _ | .result _ => Read.operand
  | .typed => do
      let id ← Read.operand
      let type ← Read.valueType
      return ⟨id, type⟩
  | .field => Read.field
  | .flag => do
      return (← Read.byte) ≠ 0
  | .int32 => Read.int32
  | .valueType => Read.valueType
  | .classKind => Read.classKind

def Args.read : (params : List Param) → Read (Args params)
  | [] => return ()
  | param :: params => do
      let arg ← param.read
      let args ← Args.read params
      return (arg, args)

def Op.read : Read Op := do
  let opcode ← Read.opcode
  let args ← Args.read opcode.signature
  return ⟨opcode, args⟩

def encodeInt32 (n : Int32) : List UInt8 :=
  let w := n.toUInt32
  [w.toUInt8, (w >>> 8).toUInt8, (w >>> 16).toUInt8, (w >>> 24).toUInt8]

def Param.encode : (param : Param) → param.Arg → List UInt8
  | .use _, id | .result _, id => [id]
  | .typed, operand => [operand.id, operand.type.byte]
  | .field, word => [word.index]
  | .flag, b => [if b then 1 else 0]
  | .int32, n => encodeInt32 n
  | .valueType, type => [type.byte]
  | .classKind, kind => [kind.byte]

def Args.encode : (params : List Param) → Args params → List UInt8
  | [], _ => []
  | param :: params, (arg, args) => param.encode arg ++ Args.encode params args

def Op.encode (op : Op) : List UInt8 :=
  op.opcode.byte :: Args.encode op.opcode.signature op.args

end InlineCache
