import InlineCache.Proofs.Json.Reading
import InlineCache.Stub.Serial

/-!
Stored stubs come back.  What is written is read again as it was, and another writer may put the members
of the two objects in any order and add members of its own.
-/

namespace InlineCache

namespace Json

/-- Members written anew, where fields are asked for by name: they come in any order, and members under
other names come in, go away or change their values. -/
inductive Revised (names : List String) :
    List (List UInt16 × Json) → List (List UInt16 × Json) → Prop
  | reorder {members others : List (List UInt16 × Json)} (same : members.Perm others) :
      Revised names members others
  | insert {before after : List (List UInt16 × Json)} {key : List UInt16} (value : Json)
      (text : Utf16.isText key = true) (foreign : ∀ name ∈ names, key ≠ Utf16.encode name.toList) :
      Revised names (before ++ after) (before ++ (key, value) :: after)
  | change {before after : List (List UInt16 × Json)} {key : List UInt16} (value other : Json)
      (foreign : ∀ name ∈ names, key ≠ Utf16.encode name.toList) :
      Revised names (before ++ (key, value) :: after) (before ++ (key, other) :: after)
  | symm {members others : List (List UInt16 × Json)} (revised : Revised names members others) :
      Revised names others members
  | trans {members middle others : List (List UInt16 × Json)} (first : Revised names members middle)
      (second : Revised names middle others) : Revised names members others

theorem field?_perm {members others : List (List UInt16 × Json)} (same : members.Perm others)
    (name : String) : field? members name = field? others name := by
  have found := same.filter (·.1 = Utf16.encode name.toList)
  unfold field?
  split
  next key value alone =>
    rw [alone] at found
    rw [← List.singleton_perm.mp found]
  next several =>
    split
    next key value alone =>
      rw [alone] at found
      exact absurd (List.perm_singleton.mp found) (several key value)
    next => rfl

theorem field?_foreign (before after : List (List UInt16 × Json)) {key : List UInt16} (value : Json)
    {name : String} (foreign : key ≠ Utf16.encode name.toList) :
    field? (before ++ (key, value) :: after) name = field? (before ++ after) name := by
  simp [field?, foreign]

theorem mapM_congr {names : List α} {f g : α → Option β} (same : ∀ name ∈ names, f name = g name) :
    names.mapM f = names.mapM g := by
  induction names with
  | nil => rfl
  | cons name names ih =>
      rw [List.mapM_cons, List.mapM_cons, same name (.head _),
        ih fun other member => same other (.tail _ member)]

/-- The fields are the same after a revision, and so is whether there are any. -/
theorem Revised.fields? {members others : List (List UInt16 × Json)}
    (revised : Revised names members others) :
    (Json.object others).fields? names = (Json.object members).fields? names := by
  induction revised with
  | reorder same =>
      simp only [Json.fields?, same.all_eq]
      rw [mapM_congr fun name _ => field?_perm same name]
  | insert value text foreign =>
      simp only [Json.fields?, List.all_append, List.all_cons, text, Bool.true_and]
      rw [mapM_congr fun name member => field?_foreign _ _ value (foreign name member)]
  | change value other foreign =>
      simp only [Json.fields?, List.all_append, List.all_cons]
      rw [mapM_congr fun name member => (field?_foreign _ _ value (foreign name member)).trans
        (field?_foreign _ _ other (foreign name member)).symm]
  | symm _ ih => exact ih.symm
  | trans _ _ first second => exact second.trans first

theorem below?_ofNat (small : n < bound) : below? bound (ofNat n) = some n := by
  simp [below?, ofNat, small]

theorem listOf?_map {read : Json → Option β} {write : α → Json} {value : α → β}
    (each : ∀ x, read (write x) = some (value x)) (xs : List α) :
    listOf? read (.array (xs.map write)) = some (xs.map value) := by
  show (xs.map write).mapM read = _
  induction xs with
  | nil => rfl
  | cons x xs ih =>
      rw [List.map_cons, List.mapM_cons, each, ih]
      rfl

end Json

theorem FieldType.ofJson?_toJson (type : FieldType) : ofJson? type.toJson = some type := by
  cases type <;> decide

theorem StubProgram.ofJson?_toJson (program : StubProgram) :
    ofJson? program.toJson = some program := by
  have fields : program.toJson.fields? fieldNames = some
      [.array (program.code.map fun b => .ofNat b.toNat), .ofNat program.operandCount.toNat,
        .ofNat program.inputCount.toNat] := rfl
  have code := Json.listOf?_map (fun b : UInt8 => Json.below?_ofNat b.toNat_lt) program.code
  have operands := Json.below?_ofNat program.operandCount.toNat_lt
  have inputs := Json.below?_ofNat program.inputCount.toNat_lt
  simp only [ofJson?, fields]
  simp [code, operands, inputs, Function.comp_def]

theorem StubData.ofJson?_toJson (data : StubData) : ofJson? data.toJson = some data := by
  have fields : data.toJson.fields? fieldNames = some
      [.array (data.words.map fun w => .ofNat w.toNat), .array (data.types.map FieldType.toJson)] :=
    rfl
  have words := Json.listOf?_map (fun w : UInt64 => Json.below?_ofNat w.toNat_lt) data.words
  have types := Json.listOf?_map FieldType.ofJson?_toJson data.types
  simp only [ofJson?, fields]
  simp [words, types, Function.comp_def]

namespace Stub

open Json

theorem deserialize?_of_spelling {text : List Char} (spelled : Spelling json text) :
    deserialize? text = ofJson? json := by
  rw [deserialize?, parse?_eq_some_iff.mpr spelled, Option.bind_some]

theorem deserialize?_serialize (program : StubProgram) (data : StubData) :
    deserialize? (serialize program data) = some (program, data) := by
  rw [serialize, deserialize?_of_spelling (spelling_render _)]
  simp only [toJson, ofJson?, StubProgram.ofJson?_toJson, StubData.ofJson?_toJson]
  rfl

/-- A stored stub comes back as it was.  A text with the same fields is read alike. -/
theorem stored_stub_comes_back (program : StubProgram) (data : StubData) :
    deserialize? (serialize program data) = some (program, data) ∧
    ∀ {text revision : List Char} {programMembers dataMembers newProgramMembers newDataMembers},
      Spelling (.array [.object programMembers, .object dataMembers]) text →
      Spelling (.array [.object newProgramMembers, .object newDataMembers]) revision →
      Revised StubProgram.fieldNames programMembers newProgramMembers →
      Revised StubData.fieldNames dataMembers newDataMembers →
      deserialize? revision = deserialize? text := by
  constructor
  · exact deserialize?_serialize program data
  · intro text revision p d p' d' spelled respelled program data
    rw [deserialize?_of_spelling spelled, deserialize?_of_spelling respelled]
    simp only [ofJson?, StubProgram.ofJson?, StubData.ofJson?, program.fields?, data.fields?]

namespace Revision

def program : StubProgram := ⟨[0], 1, 0⟩

def data : StubData := ⟨[0xFFFFFFFFFFFFFFFF], [.rawInt64]⟩

/-- The members of the program stand the other way round, and one more has half of a surrogate pair in
its value. -/
def members : List (List UInt16 × Json) :=
  [(Utf16.encode "num_inputs".toList, .ofNat 0),
    (Utf16.encode "note".toList, .object [([0xD800], .number ⟨true, 25, [], some 3⟩)]),
    (Utf16.encode "num_operands".toList, .ofNat 1),
    (Utf16.encode "code".toList, .array [.ofNat 0])]

def text : List Char :=
  ("[ \x7b\"num_inputs\": 0, \"n\\u006fte\": \x7b\"\\ud800\": -25e3\x7d, " ++
    "\"num_operands\": 1, \"code\": [0]\x7d, " ++
    "\x7b\"words\": [18446744073709551615], \"types\": [\"RawInt64\"]\x7d]").toList

theorem parse?_text : parse? text = some (.array [.object members, data.toJson]) := by
  cbv

end Revision

theorem revised_stub_comes_back :
    Spelling (.array [.object Revision.members, Revision.data.toJson]) Revision.text ∧
      deserialize? Revision.text = some (Revision.program, Revision.data) := by
  have spelled : Spelling _ (serialize Revision.program Revision.data) := spelling_render _
  have respelled := parse?_eq_some_iff.mp Revision.parse?_text
  obtain ⟨back, revised⟩ := stored_stub_comes_back Revision.program Revision.data
  have noted : Revised StubProgram.fieldNames
      ([(Utf16.encode "num_inputs".toList, .ofNat 0)] ++
        [(Utf16.encode "num_operands".toList, .ofNat 1),
          (Utf16.encode "code".toList, .array [.ofNat 0])])
      Revision.members :=
    .insert _ (by decide) (by decide)
  refine ⟨respelled, (revised spelled respelled (.trans (.reorder ?_) noted) (.reorder (.refl _))).trans back⟩
  exact (List.reverse_perm _).symm

end Stub

end InlineCache
