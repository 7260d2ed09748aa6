import InlineCache.Proofs.Code.Word
import InlineCache.Proofs.Emit.Moves

/-!
What operands stand for.  However an operand is moved about, boxed and unboxed, what is held for it is
the word of one meaning in the form of its place.
-/

namespace InlineCache

/-- What an operand stands for, in whatever form it is kept. -/
inductive Meaning
  | value (value : Value)
  | intptr (word : UInt64)
  | valueTag (word : UInt64)
  deriving DecidableEq, Repr

namespace Meaning

/-- The tag, of what can be boxed. -/
def type? : Meaning → Option ValueType
  | .value v => some v.valueType
  | .intptr _ | .valueTag _ => none

def number? : Meaning → Option Double
  | .value v => v.number?
  | .intptr _ | .valueTag _ => none

/-- The word of a meaning in a form, which not every meaning has. -/
def word? : Meaning → Form → Option UInt64
  | .value v, .boxed => some v.bits
  | .value v, .payload type =>
      if type.valueType? = some v.valueType then some (Word.unbox v.bits type) else none
  | .value v, .double =>
      if v.valueType = .double then some (Word.unboxDouble v.bits).bits else none
  | .intptr word, .payload .intptr | .valueTag word, .payload .valueTag => some word
  | .intptr _, _ | .valueTag _, _ => none

/-- Boxed doubles are in canonical form. -/
def Canonical : Meaning → Prop
  | .value v => v.valueType = .double → Word.Canonical v.bits
  | .intptr _ | .valueTag _ => True

def Shows (meaning : Meaning) (content : Content) : Prop :=
  meaning.word? content.form = some content.word

instance (meaning : Meaning) (content : Content) : Decidable (meaning.Shows content) :=
  inferInstanceAs (Decidable (_ = _))

/-- Only values are shown in a form that has a boxed one. -/
theorem Shows.exists_value {meaning : Meaning} {content : Content} (shows : meaning.Shows content)
    (boxes : ∀ type, content.form = .payload type → type.valueType?.isSome) :
    ∃ v, meaning = .value v := by
  obtain ⟨form, word⟩ := content
  cases meaning with
  | value v => exact ⟨v, rfl⟩
  | intptr | valueTag =>
      cases form with
      | boxed | double => cases shows
      | payload type =>
          have boxes := boxes type rfl
          cases type <;> simp [Shows, word?, PayloadType.valueType?] at shows boxes

/-- What is shown in a form that has a boxed one is shown boxed. -/
theorem Shows.boxed {meaning : Meaning} {content : Content} (shows : meaning.Shows content)
    (canonical : meaning.Canonical)
    (boxes : ∀ type, content.form = .payload type → type.valueType?.isSome) :
    meaning.Shows ⟨.boxed, content.boxed⟩ := by
  obtain ⟨v, rfl⟩ := shows.exists_value boxes
  obtain ⟨form, word⟩ := content
  cases form with
  | boxed => exact shows
  | payload type =>
      simp only [Shows, word?, Option.ite_none_right_eq_some, Option.some.injEq] at shows
      obtain ⟨tagged, rfl⟩ := shows
      have visible : v.valueType ≠ .magic := by
        intro magic
        rw [magic] at tagged
        cases type <;> cases tagged
      exact congrArg some (Word.box_unbox tagged (Value.tagged_valueType visible)).symm
  | double =>
      simp only [Shows, word?, Option.ite_none_right_eq_some, Option.some.injEq] at shows
      obtain ⟨double, rfl⟩ := shows
      exact congrArg some (Word.boxDouble_unboxDouble (canonical double)).symm

theorem valueType?_of_ofValueType? {tag : ValueType} {type : PayloadType}
    (found : PayloadType.ofValueType? tag = some type) : type.valueType? = some tag := by
  cases tag <;> cases found <;> rfl

/-- What is shown boxed is shown as the payload of its tag. -/
theorem Shows.payload {meaning : Meaning} {word : UInt64} {type : PayloadType}
    (shows : meaning.Shows ⟨.boxed, word⟩)
    (proven : meaning.type?.bind PayloadType.ofValueType? = some type) :
    meaning.Shows ⟨.payload type, Word.unbox word type⟩ := by
  cases meaning with
  | value v =>
      cases shows
      exact if_pos (valueType?_of_ofValueType? proven)
  | intptr | valueTag => cases shows

/-- The tag of what is shown as a payload that has one. -/
theorem Shows.type?_of_payload {meaning : Meaning} {word : UInt64} {type : PayloadType}
    {tag : ValueType} (shows : meaning.Shows ⟨.payload type, word⟩)
    (tagged : type.valueType? = some tag) : meaning.type? = some tag := by
  obtain ⟨v, rfl⟩ := shows.exists_value (by
    rintro _ ⟨⟩
    rw [tagged]
    rfl)
  simp only [Shows, word?, Option.ite_none_right_eq_some] at shows
  exact shows.1.symm.trans tagged

end Meaning

namespace Value

theorem number?_eq (v : Value) :
    v.number? = if Word.isNumber v.bits then some (Word.unboxNumber v.bits) else none := by
  have nan : v = Value.nan ↔ v.bits = tagBits.nan := by
    obtain ⟨w⟩ := v
    rw [Value.nan, Value.mk.injEq]
    rfl
  rw [number?, int32?, double?, isInt32_eq, isDouble_eq, Word.isNumber, Word.unboxNumber,
    Word.unboxDouble]
  by_cases int32 : Word.isInt32 v.bits = true
  · simp [int32]
  · by_cases isNaN : v.bits = tagBits.nan
    · rw [isNaN] at int32 nan ⊢
      simp only [nan, if_true]
      decide
    · by_cases double : Word.isDouble v.bits = true <;> simp [int32, nan, isNaN, double]

end Value

namespace Meaning

variable {meaning : Meaning} {number : Double} {word : UInt64}

theorem Shows.number_of_boxed (shows : meaning.Shows ⟨.boxed, word⟩)
    (isNumber : meaning.number? = some number) : Word.unboxNumber word = number := by
  cases meaning with
  | value v =>
      cases shows
      rw [number?, Value.number?_eq] at isNumber
      split at isNumber
      · exact Option.some.inj isNumber
      · cases isNumber
  | intptr | valueTag => cases shows

theorem not_isInt32_of_double {v : Value} (double : v.valueType = .double) :
    Word.isInt32 v.bits = false := by
  rw [Bool.eq_false_iff]
  intro int32
  have tagged : v.valueType = .int32 :=
    Value.valueType_of_tagged ((Word.hasTag_iff v.bits .int32).mp int32)
  rw [double] at tagged
  cases tagged

/-- What is shown boxed and is a double is shown as a double. -/
theorem Shows.double (shows : meaning.Shows ⟨.boxed, word⟩)
    (double : meaning.type? = some .double) :
    meaning.Shows ⟨.double, (Word.unboxDouble word).bits⟩ := by
  cases meaning with
  | value v =>
      cases shows
      exact if_pos (Option.some.inj double)
  | intptr | valueTag => cases shows

theorem Shows.number_of_double (shows : meaning.Shows ⟨.double, word⟩)
    (isNumber : meaning.number? = some number) : number = ⟨word⟩ := by
  cases meaning with
  | value v =>
      simp only [Shows, word?, Option.ite_none_right_eq_some, Option.some.injEq] at shows
      obtain ⟨double, rfl⟩ := shows
      have boxed : Shows (.value v) ⟨.boxed, v.bits⟩ := rfl
      rw [← boxed.number_of_boxed isNumber, Word.unboxNumber, not_isInt32_of_double double]
      rfl
  | intptr | valueTag => cases shows

theorem Shows.number_of_int32 (shows : meaning.Shows ⟨.payload .int32, word⟩)
    (isNumber : meaning.number? = some number) :
    Double.ofInt word.toUInt32.toInt32.toInt = number := by
  cases meaning with
  | value v =>
      simp only [Shows, word?, Option.ite_none_right_eq_some, Option.some.injEq] at shows
      obtain ⟨tagged, rfl⟩ := shows
      have int32 : Word.isInt32 v.bits = true := by
        rw [← Value.isInt32_eq]
        have tagged : Word.Tagged v.bits.toNat .int32 := by
          have same : v.valueType = .int32 := (Option.some.inj tagged).symm
          rw [← same]
          exact Value.tagged_valueType (by rw [same]; decide)
        rw [Value.isInt32_eq]
        exact (Word.hasTag_iff v.bits .int32).mpr tagged
      have boxed : Shows (.value v) ⟨.boxed, v.bits⟩ := rfl
      rw [← boxed.number_of_boxed isNumber, Word.unboxNumber, if_pos int32, Word.unbox,
        Word.signExtend_eq, Word.toUInt32_ofInt32]
  | intptr | valueTag => cases shows

end Meaning

end InlineCache
