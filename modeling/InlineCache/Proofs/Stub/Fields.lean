import InlineCache.Proofs.Eval.Reading
import InlineCache.Proofs.Stub.Stored
import Mathlib.Data.List.Nodup

/-!
The words of stub data by their fields.  A read finds a word where both lists have an entry, and fails
anywhere else.  A collector is given the words that it must see together with their fields: each field reads
back its word as long as one byte numbers those words.  Whatever was pushed keeps to that, but stored data may
be longer.
-/

namespace InlineCache

theorem Field.offset_ofNat {index : Nat} (small : index < 256) :
    offset ⟨UInt8.ofNat index⟩ = 8 * index := by
  rw [offset, UInt8.toNat_ofNat_of_lt' small]

namespace StubData

/-- A position in both lists whose word the collector must see. -/
structure TracedAt (data : StubData) (index : Nat) (type : FieldType) (word : UInt64) : Prop where
  stored : data.words[index]? = some word
  typed : data.types[index]? = some type
  traced : type.isTraced = true

/-- One byte numbers every word that the collector must see. -/
def Addressable (data : StubData) : Prop :=
  ∀ index type word, data.TracedAt index type word → index < 256

/-- The collector is given the fields that its words have. -/
structure NamesThemselves (data : StubData) : Prop where
  reads : ∀ field type word, (field, type, word) ∈ data.traced →
    data.wordOf? field.offset type = .ok word
  distinct : (data.traced.map Prod.fst).Nodup
  complete : ∀ index type word, data.TracedAt index type word →
    ∃ field : Field, (field, type, word) ∈ data.traced ∧ field.offset = 8 * index

/-- Words added one after the other.  One that is refused changes nothing. -/
def pushes (data : StubData) (entries : List (FieldType × UInt64)) : StubData :=
  entries.foldl (fun data entry =>
    match data.push entry.1 entry.2 with
    | .ok (_, data) => data
    | .error _ => data) data

variable {data : StubData} {field : Field} {type : FieldType} {word : UInt64} {index offset : Nat}

theorem mem_filter_zipIdx_iff :
    ((type, word), index) ∈ (data.types.zip data.words).zipIdx.filter (·.1.1.isTraced) ↔
      data.TracedAt index type word := by
  rw [List.mem_filter, List.mk_mem_zipIdx_iff_getElem?, List.getElem?_zip_eq_some]
  exact ⟨fun ⟨⟨types, words⟩, traced⟩ => ⟨words, types, traced⟩,
    fun ⟨words, types, traced⟩ => ⟨⟨types, words⟩, traced⟩⟩

theorem mem_traced_iff :
    (field, type, word) ∈ data.traced ↔
      ∃ index, data.TracedAt index type word ∧ field = ⟨UInt8.ofNat index⟩ := by
  rw [traced, List.mem_map]
  constructor
  · rintro ⟨⟨⟨type, word⟩, index⟩, listed, same⟩
    cases same
    exact ⟨index, mem_filter_zipIdx_iff.mp listed, rfl⟩
  · rintro ⟨index, tracedAt, rfl⟩
    exact ⟨((type, word), index), mem_filter_zipIdx_iff.mpr tracedAt, rfl⟩

theorem TracedAt.wordOf? (tracedAt : data.TracedAt index type word) :
    data.wordOf? (8 * index) type = .ok word := by
  rw [wordOf?_eq_ok, Nat.mul_div_cancel_left index (by decide)]
  exact ⟨tracedAt.stored, tracedAt.typed⟩

/-- The positions differ, so their bytes do. -/
theorem Addressable.distinct (addressable : data.Addressable) : (data.traced.map Prod.fst).Nodup := by
  rw [traced, List.map_map]
  have positions : (data.types.zip data.words).zipIdx.Nodup :=
    List.Nodup.of_map Prod.snd (List.zipIdx_map_snd .. ▸ List.nodup_range')
  refine List.Nodup.map_on ?_ (positions.filter _)
  rintro ⟨⟨type, word⟩, index⟩ listed ⟨⟨otherType, otherWord⟩, other⟩ otherListed same
  have first := mem_filter_zipIdx_iff.mp listed
  have second := mem_filter_zipIdx_iff.mp otherListed
  obtain rfl : index = other := by
    have offsets : Field.offset ⟨UInt8.ofNat index⟩ = Field.offset ⟨UInt8.ofNat other⟩ :=
      congrArg Field.offset same
    rw [Field.offset_ofNat (addressable _ _ _ first), Field.offset_ofNat (addressable _ _ _ second)]
      at offsets
    omega
  cases first.stored.symm.trans second.stored
  cases first.typed.symm.trans second.typed
  rfl

theorem namesThemselves_iff : data.NamesThemselves ↔ data.Addressable := by
  constructor
  · -- No field has the offset of a word behind the 256th.
    intro names index type word tracedAt
    obtain ⟨field, -, offset⟩ := names.complete index type word tracedAt
    have small := field.index.toNat_lt
    rw [Field.offset] at offset
    omega
  · intro addressable
    refine ⟨fun field type word listed => ?_, addressable.distinct, fun index type word tracedAt => ?_⟩
    · obtain ⟨index, tracedAt, rfl⟩ := mem_traced_iff.mp listed
      rw [Field.offset_ofNat (addressable _ _ _ tracedAt), tracedAt.wordOf?]
    · exact ⟨⟨UInt8.ofNat index⟩, mem_traced_iff.mpr ⟨index, tracedAt, rfl⟩,
        Field.offset_ofNat (addressable _ _ _ tracedAt)⟩

theorem addressable_of_length (few : data.words.length ≤ 256) : data.Addressable := by
  intro index type word tracedAt
  obtain ⟨bound, -⟩ := List.getElem?_eq_some_iff.mp tracedAt.stored
  omega

theorem length_push {pushed : StubData} (room : data.push type word = .ok (field, pushed)) :
    pushed.words.length ≤ 256 := by
  rw [push] at room
  split at room
  · cases room
    rw [List.length_append, List.length_singleton]
    omega
  · cases room

theorem length_pushes (few : data.words.length ≤ 256) (entries : List (FieldType × UInt64)) :
    (data.pushes entries).words.length ≤ 256 := by
  induction entries generalizing data with
  | nil => exact few
  | cons entry entries ih =>
      refine ih ?_
      dsimp only
      split
      · rename_i room
        exact length_push room
      · exact few

theorem word?_eq_ok_iff :
    data.word? offset = .ok word ↔
      data.words[offset / 8]? = some word ∧ offset / 8 < data.types.length := by
  have typed : offset / 8 < data.types.length ↔ ∃ type, data.types[offset / 8]? = some type :=
    ⟨fun small => ⟨_, List.getElem?_eq_getElem small⟩,
      fun ⟨_, found⟩ => (List.getElem?_eq_some_iff.mp found).1⟩
  rw [word?, typed?, typed]
  cases data.words[offset / 8]? <;> cases data.types[offset / 8]? <;> simp

theorem typed?_outside (outside : ¬(offset / 8 < data.words.length ∧ offset / 8 < data.types.length)) :
    data.typed? offset = .error (.fieldOutOfBounds offset (8 * data.words.length)) := by
  rw [typed?]
  split
  · rename_i word type words types
    obtain ⟨withinWords, -⟩ := List.getElem?_eq_some_iff.mp words
    obtain ⟨withinTypes, -⟩ := List.getElem?_eq_some_iff.mp types
    exact absurd ⟨withinWords, withinTypes⟩ outside
  · rfl

theorem wordOf?_mismatch {found expected : FieldType} (within : offset / 8 < data.words.length)
    (type : data.types[offset / 8]? = some found) (other : found ≠ expected) :
    data.wordOf? offset expected = .error (.fieldTypeMismatch offset expected found) := by
  rw [wordOf?, typed?, List.getElem?_eq_getElem within, type]
  exact if_neg other

end StubData

/-- The fields that a collector is given read back their words, differ, and leave none out, exactly when one
byte numbers those words, which it does after any pushes that begin with no more words.  Reads find the words that
are in both lists, those of a type where the type is theirs, and report anything else. -/
theorem traced_fields_name_themselves (data : StubData) :
    (data.NamesThemselves ↔ data.Addressable) ∧
    (data.words.length ≤ 256 → ∀ entries, (data.pushes entries).NamesThemselves) ∧
    ∀ offset : Nat,
      (∀ word, data.word? offset = .ok word ↔
        data.words[offset / 8]? = some word ∧ offset / 8 < data.types.length) ∧
      (∀ type word, data.wordOf? offset type = .ok word ↔
        data.words[offset / 8]? = some word ∧ data.types[offset / 8]? = some type) ∧
      (¬(offset / 8 < data.words.length ∧ offset / 8 < data.types.length) →
        data.word? offset = .error (.fieldOutOfBounds offset (8 * data.words.length)) ∧
        ∀ type, data.wordOf? offset type =
          .error (.fieldOutOfBounds offset (8 * data.words.length))) ∧
      ∀ found expected, offset / 8 < data.words.length → data.types[offset / 8]? = some found →
        found ≠ expected →
        data.wordOf? offset expected = .error (.fieldTypeMismatch offset expected found) := by
  refine ⟨StubData.namesThemselves_iff, fun few entries => ?_, fun offset =>
    ⟨fun word => StubData.word?_eq_ok_iff, fun type word => StubData.wordOf?_eq_ok,
      fun outside => ?_, fun found expected => StubData.wordOf?_mismatch⟩⟩
  · exact StubData.namesThemselves_iff.mpr
      (StubData.addressable_of_length (StubData.length_pushes few entries))
  · have fails := StubData.typed?_outside outside
    constructor
    · rw [StubData.word?, fails]
      rfl
    · intro type
      rw [StubData.wordOf?, fails]
      rfl

/-- The last word has no type, so that it is neither found nor traced, and neither is a word that is pushed: its
type stands before it. -/
theorem untyped_word_is_left_out :
    let data : StubData := ⟨[5, 7, 9], [.rawInt32, .object]⟩
    data.words.length ≤ 256 ∧ (data.pushes [(.value, 11)]).NamesThemselves ∧
      (data.pushes [(.value, 11)]).traced = [(⟨1⟩, .object, 7), (⟨2⟩, .value, 9)] ∧
      data.word? 16 = .error (.fieldOutOfBounds 16 24) ∧
      data.wordOf? 8 .shape = .error (.fieldTypeMismatch 8 .shape .object) := by
  intro data
  have few : data.words.length ≤ 256 := by decide
  obtain ⟨-, pushed, reads⟩ := traced_fields_name_themselves data
  obtain ⟨-, -, outside, -⟩ := reads 16
  obtain ⟨-, -, -, mismatch⟩ := reads 8
  exact ⟨few, pushed few _, by decide, (outside (by decide)).1,
    mismatch .object .shape (by decide) rfl (by decide)⟩

/-- Stored data may have a word behind the last field.  The collector is given the first field for it. -/
theorem word_behind_the_last_field_is_misnamed :
    let program : StubProgram := ⟨[0], 1, 0⟩
    let data : StubData :=
      ⟨List.replicate 256 0 ++ [7], List.replicate 256 .rawInt32 ++ [.object]⟩
    Stub.deserialize? (Stub.serialize program data) = some (program, data) ∧
      data.traced = [(⟨0⟩, .object, 7)] ∧
      data.wordOf? 0 .object = .error (.fieldTypeMismatch 0 .object .rawInt32) ∧
      data.wordOf? 2048 .object = .ok 7 ∧ ¬data.NamesThemselves := by
  intro program data
  have misread : data.wordOf? 0 .object = .error (.fieldTypeMismatch 0 .object .rawInt32) := rfl
  have traced : data.traced = [(⟨0⟩, .object, 7)] := by decide +kernel
  refine ⟨Stub.deserialize?_serialize program data, traced, misread, by decide +kernel, fun names => ?_⟩
  have read := names.reads ⟨0⟩ .object 7 (by rw [traced]; exact .head _)
  cases misread.symm.trans read

end InlineCache
