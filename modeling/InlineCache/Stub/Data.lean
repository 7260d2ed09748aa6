import InlineCache.Op.Basic
import InlineCache.Stub.Error

/-!
The words that a stub program refers to.  Each word has a type, and a word is found by its byte
offset, eight bytes a word.
-/

namespace InlineCache

structure StubData where
  words : List UInt64
  types : List FieldType
  deriving DecidableEq, Repr

namespace StubData

def empty : StubData := ⟨[], []⟩

def length (data : StubData) : Nat :=
  data.words.length

def isEmpty (data : StubData) : Bool :=
  data.words.isEmpty

/-- Adds a word at the end; an index is one byte, so there are at most 256 words. -/
def push (data : StubData) (type : FieldType) (word : UInt64) :
    Except StubError (Field × StubData) :=
  if data.words.length < 256 then
    .ok (⟨UInt8.ofNat data.words.length⟩, ⟨data.words ++ [word], data.types ++ [type]⟩)
  else
    .error .tooManyOperands

/-- The word at a byte offset, with its type. -/
def typed? (data : StubData) (offset : Nat) : Except StubError (UInt64 × FieldType) :=
  match data.words[offset / 8]?, data.types[offset / 8]? with
  | some word, some type => .ok (word, type)
  | _, _ => .error (.fieldOutOfBounds offset (8 * data.words.length))

def word? (data : StubData) (offset : Nat) : Except StubError UInt64 :=
  Prod.fst <$> data.typed? offset

/-- The word at a byte offset, when it has the expected type. -/
def wordOf? (data : StubData) (offset : Nat) (expected : FieldType) : Except StubError UInt64 := do
  let (word, found) ← data.typed? offset
  if found = expected then return word
  else throw (.fieldTypeMismatch offset expected found)

/-- An int32 is the low half of its word. -/
def int32? (data : StubData) (offset : Nat) : Except StubError Int32 :=
  (fun word => word.toUInt32.toInt32) <$> data.wordOf? offset .rawInt32

def int64? (data : StubData) (offset : Nat) : Except StubError Int64 :=
  UInt64.toInt64 <$> data.wordOf? offset .rawInt64

/-- The word that an int32 is stored as, with its sign extended. -/
def wordOfInt32 (n : Int32) : UInt64 :=
  n.toInt64.toUInt64

/-- The words that refer to heap cells, with their fields and types. -/
def traced (data : StubData) : List (Field × FieldType × UInt64) :=
  ((data.types.zip data.words).zipIdx.filter (·.1.1.isTraced)).map
    fun ((type, word), index) => (⟨UInt8.ofNat index⟩, type, word)

end StubData

end InlineCache
