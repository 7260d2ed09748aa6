import InlineCache.Proofs.Op.Decoding
import InlineCache.Proofs.Op.RoundTrip
import InlineCache.Stub.Builder
import Mathlib.Data.List.Induction
import Mathlib.Data.List.Nodup

/-!
Building a program by any calls in any order.  The limits are told from how often operands and fields
are asked for; within them every id and every field that is handed out is a new one, and the program that
is finished decodes to the operations that were written.
-/

namespace InlineCache

namespace StubBuilder

/-- What can be asked of a builder. -/
inductive Call
  | newOperand
  | addField (type : FieldType) (word : UInt64)
  | addInt32Field (n : Int32)
  | emit (op : Op)

namespace Call

def asksOperand : Call → Bool
  | .newOperand => true
  | .addField _ _ | .addInt32Field _ | .emit _ => false

/-- The type and the word of the field that is added. -/
def field? : Call → Option (FieldType × UInt64)
  | .addField type word => some (type, word)
  | .addInt32Field n => some (.rawInt32, StubData.wordOfInt32 n)
  | .newOperand | .emit _ => none

def op? : Call → Option Op
  | .emit op => some op
  | .newOperand | .addField _ _ | .addInt32Field _ => none

end Call

/-- A builder with what it has handed out so far. -/
structure Session where
  builder : StubBuilder
  operands : List OperandId
  fields : List Field

namespace Session

def start (inputCount : UInt8) : Session :=
  ⟨.start inputCount, [], []⟩

def call (session : Session) : Call → Session
  | .newOperand =>
      let (id, builder) := session.builder.newOperand
      { session with builder, operands := session.operands ++ [id] }
  | .addField type word =>
      let (field, builder) := session.builder.addField type word
      { session with builder, fields := session.fields ++ [field] }
  | .addInt32Field n =>
      let (field, builder) := session.builder.addInt32Field n
      { session with builder, fields := session.fields ++ [field] }
  | .emit op => { session with builder := session.builder.emit op }

/-- Calls on a new builder, one after the other. -/
def after (inputCount : UInt8) (calls : List Call) : Session :=
  calls.foldl call (start inputCount)

end Session

/-- The operand ids that the calls ask for, and those of the inputs. -/
def operandsOf (inputCount : UInt8) (calls : List Call) : Nat :=
  inputCount.toNat + calls.countP Call.asksOperand

def fieldsOf (calls : List Call) : List (FieldType × UInt64) :=
  calls.filterMap Call.field?

def opsOf (calls : List Call) : List Op :=
  calls.filterMap Call.op?

section Append

variable {inputCount : UInt8} {calls : List Call} {call : Call}

theorem Session.after_append :
    Session.after inputCount (calls ++ [call]) = (Session.after inputCount calls).call call := by
  simp [Session.after]

theorem operandsOf_append :
    operandsOf inputCount (calls ++ [call]) =
      operandsOf inputCount calls + if call.asksOperand then 1 else 0 := by
  simp [operandsOf, List.countP_append, List.countP_cons, Nat.add_assoc]

theorem fieldsOf_append : fieldsOf (calls ++ [call]) = fieldsOf calls ++ call.field?.toList := by
  cases h : call.field? <;> simp [fieldsOf, List.filterMap_append, h]

theorem opsOf_append : opsOf (calls ++ [call]) = opsOf calls ++ call.op?.toList := by
  cases h : call.op? <;> simp [opsOf, List.filterMap_append, h]

end Append

/-- How a session stands after calls.  The counter of operands wraps, but the mark that too much was asked
for stays. -/
structure Session.Records (inputCount : UInt8) (calls : List Call) (session : Session) : Prop where
  code : session.builder.code = (opsOf calls).flatMap Op.encode
  words : session.builder.data.words = ((fieldsOf calls).take 256).map Prod.snd
  types : session.builder.data.types = ((fieldsOf calls).take 256).map Prod.fst
  inputs : session.builder.inputCount = inputCount
  counter : session.builder.nextOperand = UInt16.ofNat (operandsOf inputCount calls)
  terminated : session.builder.terminated = (opsOf calls).any Op.isTerminal
  overflowed : session.builder.overflowed = true ↔
    256 < operandsOf inputCount calls ∨ 256 < (fieldsOf calls).length
  operands : operandsOf inputCount calls ≤ 256 →
    (List.range inputCount.toNat).map UInt8.ofNat ++ session.operands =
      (List.range (operandsOf inputCount calls)).map UInt8.ofNat
  fields : (fieldsOf calls).length ≤ 256 →
    session.fields = (List.range (fieldsOf calls).length).map fun k => ⟨UInt8.ofNat k⟩

theorem newOperand_fst (builder : StubBuilder) :
    builder.newOperand.1 =
      if builder.nextOperand < 256 then builder.nextOperand.toUInt8 else 255 := by
  rw [newOperand]
  split <;> rfl

theorem newOperand_snd (builder : StubBuilder) :
    builder.newOperand.2 =
      { builder with
        nextOperand := builder.nextOperand + 1
        overflowed := builder.overflowed || !decide (builder.nextOperand < 256) } := by
  rw [newOperand]
  split <;> simp_all

theorem addField_of_room {builder : StubBuilder} (room : builder.data.words.length < 256)
    (type : FieldType) (word : UInt64) :
    builder.addField type word =
      (⟨UInt8.ofNat builder.data.words.length⟩,
        { builder with data := ⟨builder.data.words ++ [word], builder.data.types ++ [type]⟩ }) := by
  rw [addField, StubData.push, if_pos room]

theorem addField_of_full {builder : StubBuilder} (full : ¬builder.data.words.length < 256)
    (type : FieldType) (word : UInt64) :
    builder.addField type word = (⟨255⟩, { builder with overflowed := true }) := by
  rw [addField, StubData.push, if_neg full]

namespace Session.Records

variable {inputCount : UInt8} {calls : List Call} {session : Session}

theorem start (inputCount : UInt8) : Records inputCount [] (.start inputCount) where
  code := rfl
  words := rfl
  types := rfl
  inputs := rfl
  counter := by
    apply UInt16.toNat_inj.mp
    simp [Session.start, StubBuilder.start, operandsOf]
  terminated := rfl
  overflowed := by
    have := inputCount.toNat_lt
    simp [Session.start, StubBuilder.start, operandsOf, fieldsOf]
    omega
  operands _ := by simp [Session.start, operandsOf]
  fields _ := rfl

theorem counter_lt (records : Records inputCount calls session)
    (within : operandsOf inputCount calls ≤ 256) :
    session.builder.nextOperand.toNat = operandsOf inputCount calls := by
  rw [records.counter, UInt16.toNat_ofNat']
  omega

/-- The id is the one counted to, and a count above the limit leaves its mark. -/
theorem newOperand (records : Records inputCount calls session) :
    Records inputCount (calls ++ [.newOperand]) (session.call .newOperand) := by
  have more : operandsOf inputCount (calls ++ [.newOperand]) = operandsOf inputCount calls + 1 :=
    operandsOf_append
  have sameFields : fieldsOf (calls ++ [.newOperand]) = fieldsOf calls := by simp [fieldsOf_append, Call.field?]
  have sameOps : opsOf (calls ++ [.newOperand]) = opsOf calls := by simp [opsOf_append, Call.op?]
  have step : session.call .newOperand =
      { session with
        builder := session.builder.newOperand.2
        operands := session.operands ++ [session.builder.newOperand.1] } := rfl
  rw [step, newOperand_snd, newOperand_fst]
  constructor
  case code => rw [sameOps]; exact records.code
  case words => rw [sameFields]; exact records.words
  case types => rw [sameFields]; exact records.types
  case inputs => exact records.inputs
  case counter => simp [more, records.counter]
  case terminated => rw [sameOps]; exact records.terminated
  case fields => rw [sameFields]; exact records.fields
  case overflowed =>
    have limit : operandsOf inputCount calls ≤ 256 →
        (session.builder.nextOperand < 256 ↔ operandsOf inputCount calls < 256) := by
      intro within
      rw [UInt16.lt_iff_toNat_lt, records.counter_lt within]
      rfl
    rw [more, sameFields]
    simp only [Bool.or_eq_true, records.overflowed, Bool.not_eq_true', decide_eq_false_iff_not]
    by_cases within : operandsOf inputCount calls ≤ 256
    · rw [limit within]
      omega
    · omega
  case operands =>
    intro within
    rw [more] at within ⊢
    have counted := records.counter_lt (by omega)
    have below : session.builder.nextOperand < 256 := by
      rw [UInt16.lt_iff_toNat_lt, counted]
      exact within
    have id : session.builder.nextOperand.toUInt8 = UInt8.ofNat (operandsOf inputCount calls) := by
      rw [← counted]
      rfl
    rw [if_pos below, ← List.append_assoc, records.operands (by omega), List.range_succ,
      List.map_append, id]
    rfl

/-- Words are kept up to the limit, and one above it leaves its mark. -/
theorem addField (records : Records inputCount calls session) {call : Call} {type : FieldType}
    {word : UInt64} (adds : call.field? = some (type, word)) :
    Records inputCount (calls ++ [call])
      { session with
        builder := (session.builder.addField type word).2
        fields := session.fields ++ [(session.builder.addField type word).1] } := by
  have sameOperands : operandsOf inputCount (calls ++ [call]) = operandsOf inputCount calls := by
    cases call <;> simp_all [operandsOf_append, Call.asksOperand, Call.field?]
  have more : fieldsOf (calls ++ [call]) = fieldsOf calls ++ [(type, word)] := by
    simp [fieldsOf_append, adds]
  have sameOps : opsOf (calls ++ [call]) = opsOf calls := by
    cases call <;> simp_all [opsOf_append, Call.op?, Call.field?]
  have stored : session.builder.data.words.length = min 256 (fieldsOf calls).length := by
    rw [records.words, List.length_map, List.length_take]
  by_cases room : session.builder.data.words.length < 256
  · have count : session.builder.data.words.length = (fieldsOf calls).length := by omega
    have all : (fieldsOf calls).take 256 = fieldsOf calls := List.take_of_length_le (by omega)
    have allMore : (fieldsOf calls ++ [(type, word)]).take 256 = fieldsOf calls ++ [(type, word)] :=
      List.take_of_length_le (by simp; omega)
    rw [addField_of_room room]
    constructor
    case code => rw [sameOps]; exact records.code
    case words => rw [more, allMore, records.words, all, List.map_append]; rfl
    case types => rw [more, allMore, records.types, all, List.map_append]; rfl
    case inputs => exact records.inputs
    case counter => rw [sameOperands]; exact records.counter
    case terminated => rw [sameOps]; exact records.terminated
    case overflowed =>
      rw [sameOperands, more, records.overflowed, List.length_append, List.length_singleton]
      omega
    case operands => rw [sameOperands]; exact records.operands
    case fields =>
      intro within
      rw [records.fields (by omega), more, List.length_append, List.length_singleton, List.range_succ,
        List.map_append, count]
      rfl
  · have full : (fieldsOf calls ++ [(type, word)]).take 256 = (fieldsOf calls).take 256 :=
      List.take_append_of_le_length (by omega)
    rw [addField_of_full room]
    constructor
    case code => rw [sameOps]; exact records.code
    case words => rw [more, full]; exact records.words
    case types => rw [more, full]; exact records.types
    case inputs => exact records.inputs
    case counter => rw [sameOperands]; exact records.counter
    case terminated => rw [sameOps]; exact records.terminated
    case overflowed =>
      rw [more, List.length_append, List.length_singleton]
      exact iff_of_true rfl (.inr (by omega))
    case operands => rw [sameOperands]; exact records.operands
    case fields =>
      intro within
      rw [more, List.length_append, List.length_singleton] at within
      omega

theorem emit (records : Records inputCount calls session) (op : Op) :
    Records inputCount (calls ++ [.emit op]) (session.call (.emit op)) := by
  have sameOperands : operandsOf inputCount (calls ++ [.emit op]) = operandsOf inputCount calls :=
    operandsOf_append
  have sameFields : fieldsOf (calls ++ [.emit op]) = fieldsOf calls := by
    simp [fieldsOf_append, Call.field?]
  have more : opsOf (calls ++ [.emit op]) = opsOf calls ++ [op] := opsOf_append
  constructor
  case code =>
    rw [more, List.flatMap_append, ← records.code]
    simp [call, StubBuilder.emit]
  case terminated =>
    rw [more, List.any_append, ← records.terminated]
    simp [call, StubBuilder.emit]
  case words => rw [sameFields]; exact records.words
  case types => rw [sameFields]; exact records.types
  case inputs => exact records.inputs
  case counter => rw [sameOperands]; exact records.counter
  case overflowed => rw [sameOperands, sameFields]; exact records.overflowed
  case operands => rw [sameOperands]; exact records.operands
  case fields => rw [sameFields]; exact records.fields

theorem call (records : Records inputCount calls session) (call : Call) :
    Records inputCount (calls ++ [call]) (session.call call) := by
  cases call with
  | newOperand => exact records.newOperand
  | addField type word => exact records.addField rfl
  | addInt32Field n => exact records.addField rfl
  | emit op => exact records.emit op

theorem after (inputCount : UInt8) (calls : List Call) :
    Records inputCount calls (.after inputCount calls) := by
  induction calls using List.reverseRecOn with
  | nil => exact .start inputCount
  | append_singleton calls call ih =>
      rw [Session.after_append]
      exact ih.call call

end Session.Records

end StubBuilder

theorem Cursor.decodes_encode (front : List Op) (last : Op)
    (plain : ∀ op ∈ front, op.isTerminal = false) (terminal : last.isTerminal = true) (offset : Nat) :
    Cursor.Decodes ⟨offset, (front ++ [last]).flatMap Op.encode⟩ (front ++ [last]) .terminal := by
  induction front generalizing offset with
  | nil => exact .terminal (Op.read_recovers last offset []) terminal
  | cons op rest ih =>
      have reads := Op.read_recovers op offset ((rest ++ [last]).flatMap Op.encode)
      exact .cons reads (plain op (.head _)) (ih (fun other among => plain other (.tail _ among)) _)

/-- Operations of which none follows a terminal one are decoded from their bytes. -/
theorem Cursor.ops_encode {ops : List Op} (closes : ∀ op ∈ ops.dropLast, op.isTerminal = false)
    (offset : Nat) : Cursor.ops ⟨offset, ops.flatMap Op.encode⟩ = .ok ops := by
  induction ops generalizing offset with
  | nil => rw [Cursor.ops]; rfl
  | cons op ops ih =>
      have reads : Op.read ⟨offset, (op :: ops).flatMap Op.encode⟩ = (.ok op, _) :=
        Op.read_recovers op offset (ops.flatMap Op.encode)
      obtain ⟨decoded, tail, decodes⟩ := Cursor.exists_decodes
        ⟨offset + op.encode.length, ops.flatMap Op.encode⟩
      cases ops with
      | nil =>
          cases terminal : op.isTerminal with
          | true => exact (Decodes.terminal reads terminal).ops_eq
          | false => exact (Decodes.cons reads terminal (.endOfCode rfl)).ops_eq
      | cons next ops =>
          rw [List.dropLast_cons_cons] at closes
          have rest := ih (fun other among => closes other (.tail _ among)) (offset + op.encode.length)
          rw [decodes.ops_eq] at rest
          rw [(Decodes.cons reads (closes op (.head _)) decodes).ops_eq]
          cases tail with
          | terminal | endOfCode => cases rest; rfl
          | undecodable error => cases rest

namespace StubBuilder

theorem nodup_map_ofNat {count : Nat} (within : count ≤ 256) :
    ((List.range count).map UInt8.ofNat).Nodup := by
  refine List.Nodup.map_on (fun a ha b hb same => ?_) List.nodup_range
  rw [List.mem_range] at ha hb
  have := congrArg UInt8.toNat same
  rw [UInt8.toNat_ofNat', UInt8.toNat_ofNat'] at this
  omega

namespace Session.Records

variable {inputCount : UInt8} {calls : List Call} {session : Session}

theorem finish_eq (records : Records inputCount calls session) :
    session.builder.finish =
      if 256 < operandsOf inputCount calls ∨ 256 < (fieldsOf calls).length then
        .error .tooManyOperands
      else if ∀ op ∈ opsOf calls, op.isTerminal = false then .error .missingTerminal
      else .ok (⟨(opsOf calls).flatMap Op.encode, UInt16.ofNat (operandsOf inputCount calls),
        inputCount⟩, ⟨(fieldsOf calls).map Prod.snd, (fieldsOf calls).map Prod.fst⟩) := by
  by_cases beyond : 256 < operandsOf inputCount calls ∨ 256 < (fieldsOf calls).length
  · rw [if_pos beyond, finish, records.overflowed.mpr beyond]
    rfl
  · have counted := records.counter_lt (by omega)
    have unmarked : session.builder.overflowed = false :=
      Bool.eq_false_iff.mpr fun marked => beyond (records.overflowed.mp marked)
    have below : ¬256 < session.builder.nextOperand := by
      rw [UInt16.lt_iff_toNat_lt, counted]
      exact fun h => beyond (.inl h)
    have all : (fieldsOf calls).take 256 = fieldsOf calls := List.take_of_length_le (by omega)
    have data : session.builder.data =
        ⟨(fieldsOf calls).map Prod.snd, (fieldsOf calls).map Prod.fst⟩ := by
      rw [← all, ← records.words, ← records.types]
    have terminal : session.builder.terminated = false ↔
        ∀ op ∈ opsOf calls, op.isTerminal = false := by
      rw [records.terminated, List.any_eq_false]
      simp
    rw [if_neg beyond, finish, unmarked, decide_eq_false below, Bool.or_false, if_neg nofun, data,
      records.code, records.counter, records.inputs]
    by_cases none : ∀ op ∈ opsOf calls, op.isTerminal = false
    · rw [if_pos none, terminal.mpr none]
      rfl
    · rw [if_neg none, eq_true_of_ne_false (mt terminal.mp none)]
      rfl

end Session.Records

/-- Building is faithful, whatever is asked for between the operations.  A program is refused when more
than 256 operand ids, inputs included, or more than 256 fields were asked for, and else when no terminal
operation was written.  Otherwise it decodes to the operations as they were written, its data are the
fields as they were added, at eight bytes each, and all that was handed out is distinct. -/
theorem building_is_faithful (inputCount : UInt8) (calls : List Call)
    (closes : ∀ op ∈ (opsOf calls).dropLast, op.isTerminal = false) :
    let session := Session.after inputCount calls
    let inputs := (List.range inputCount.toNat).map fun k =>
      (StubBuilder.start inputCount).input (UInt8.ofNat k)
    (session.builder.finish = .error .tooManyOperands ↔
      256 < operandsOf inputCount calls ∨ 256 < (fieldsOf calls).length) ∧
    (operandsOf inputCount calls ≤ 256 → (fieldsOf calls).length ≤ 256 →
      (session.builder.finish = .error .missingTerminal ↔
        ∀ op ∈ opsOf calls, op.isTerminal = false) ∧
      ((∃ op ∈ opsOf calls, op.isTerminal = true) →
        ∃ program data, session.builder.finish = .ok (program, data) ∧
          program.inputCount = inputCount ∧
          program.operandCount.toNat = operandsOf inputCount calls ∧
          program.ops = .ok (opsOf calls) ∧
          data.length = (fieldsOf calls).length ∧
          (∀ (k : Nat) (type : FieldType) (word : UInt64), (fieldsOf calls)[k]? = some (type, word) →
            (session.fields[k]?).map Field.offset = some (8 * k) ∧
              data.typed? (8 * k) = .ok (word, type)) ∧
          session.operands.length = calls.countP Call.asksOperand ∧
          (inputs ++ session.operands).Nodup ∧
          session.fields.length = (fieldsOf calls).length ∧ session.fields.Nodup)) := by
  intro session inputs
  have records := Session.Records.after inputCount calls
  have finish := records.finish_eq
  refine ⟨?_, fun operandsWithin fieldsWithin => ?_⟩
  · rw [finish]
    split
    · exact iff_of_true rfl ‹_›
    · exact iff_of_false (by split <;> nofun) ‹_›
  rw [if_neg (by omega)] at finish
  refine ⟨?_, fun ⟨op, written, terminal⟩ => ?_⟩
  · rw [finish]
    split
    · exact iff_of_true rfl ‹_›
    · exact iff_of_false nofun ‹_›
  rw [if_neg fun none => by simp [none op written] at terminal] at finish
  have handedOut := records.operands operandsWithin
  have fields := records.fields fieldsWithin
  refine ⟨_, _, finish, rfl, ?_, Cursor.ops_encode closes 0, List.length_map _, ?_, ?_, ?_, ?_, ?_⟩
  · exact UInt16.toNat_ofNat_of_lt' (Nat.lt_of_le_of_lt operandsWithin (by decide))
  · intro k type word added
    have below : k < (fieldsOf calls).length := (List.getElem?_eq_some_iff.mp added).1
    constructor
    · have small : UInt8.toNat (UInt8.ofNat k) = k :=
        UInt8.toNat_ofNat_of_lt' (Nat.lt_of_lt_of_le below fieldsWithin)
      rw [fields, List.getElem?_map, List.getElem?_range below, Option.map_some, Option.map_some,
        Field.offset, small]
    · simp [StubData.typed?, added]
  · have := congrArg List.length handedOut
    simp [operandsOf] at this
    exact this
  · exact handedOut ▸ nodup_map_ofNat operandsWithin
  · rw [fields, List.length_map, List.length_range]
  · have indices : session.fields.map Field.index =
        (List.range (fieldsOf calls).length).map UInt8.ofNat := by
      rw [fields, List.map_map]
      rfl
    exact List.Nodup.of_map Field.index (indices ▸ nodup_map_ofNat fieldsWithin)

/-- One operand, a field asked for twice and three operations. -/
theorem slot_load_is_built :
    let load : Op := ⟨.loadFixedSlotResult, (1, ⟨1⟩, ())⟩
    let guard : Op := ⟨.guardToObject, (0, 1, ())⟩
    let done : Op := ⟨.returnFromIc, ()⟩
    let calls : List Call := [.newOperand, .emit guard, .addInt32Field (-1),
      .addField .rawInt32 16, .emit load, .emit done]
    (∀ op ∈ (opsOf calls).dropLast, op.isTerminal = false) ∧
      ∃ program data, (Session.after 1 calls).builder.finish = .ok (program, data) ∧
        program.ops = .ok [guard, load, done] ∧
        data.typed? 0 = .ok (0xFFFFFFFFFFFFFFFF, .rawInt32) ∧ data.typed? 8 = .ok (16, .rawInt32) := by
  intro load guard done calls
  have closes : ∀ op ∈ (opsOf calls).dropLast, op.isTerminal = false := by decide
  obtain ⟨-, built⟩ := building_is_faithful 1 calls closes
  obtain ⟨-, built⟩ := built (by decide) (by decide)
  obtain ⟨program, data, finish, -, -, ops, -, fields, -⟩ := built ⟨done, by simp [calls, opsOf, Call.op?], rfl⟩
  exact ⟨closes, program, data, finish, ops, (fields 0 .rawInt32 0xFFFFFFFFFFFFFFFF rfl).2,
    (fields 1 .rawInt32 16 rfl).2⟩

end StubBuilder

end InlineCache
