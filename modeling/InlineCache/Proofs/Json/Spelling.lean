import InlineCache.Json.Parser

/-!
The grammar of JSON texts, apart from how they are read: a text spells a value up to the rest of it.
Blanks may stand before every token, and a string may hold any escapes.  What is rendered is spelled.
-/

namespace InlineCache

namespace Utf16

theorem toNat_ofValid (valid : n.isValidChar) : (Char.ofNat n).toNat = n := by
  rw [Char.ofNat, dif_pos valid]
  rfl

theorem toNat_ofNat {unit : UInt16} (high : isHigh unit.toNat = false)
    (low : isLow unit.toNat = false) : (Char.ofNat unit.toNat).toNat = unit.toNat := by
  have bound := unit.toNat_lt
  simp only [isHigh, isLow, Bool.and_eq_false_iff, decide_eq_false_iff_not] at high low
  exact toNat_ofValid (by omega)

theorem encodeChar_ofNat {unit : UInt16} (high : isHigh unit.toNat = false)
    (low : isLow unit.toNat = false) : encodeChar (Char.ofNat unit.toNat) = [unit] := by
  have bound : unit.toNat < 0x10000 := unit.toNat_lt
  simp only [encodeChar, toNat_ofNat high low, if_pos bound, UInt16.ofNat_toNat]

theorem le_pair (high : isHigh n = true) (low : isLow m = true) :
    0x10000 ≤ pair n m ∧ pair n m < 0x110000 := by
  simp only [isHigh, isLow, Bool.and_eq_true, decide_eq_true_eq] at high low
  unfold pair
  omega

theorem toNat_pair (high : isHigh n = true) (low : isLow m = true) :
    (Char.ofNat (pair n m)).toNat = pair n m := by
  have far := le_pair high low
  exact toNat_ofValid (by omega)

theorem encodeChar_pair {unit next : UInt16} (high : isHigh unit.toNat = true)
    (low : isLow next.toNat = true) :
    encodeChar (Char.ofNat (pair unit.toNat next.toNat)) = [unit, next] := by
  have far : ¬pair unit.toNat next.toNat < 0x10000 := Nat.not_lt.mpr (le_pair high low).1
  simp only [encodeChar, toNat_pair high low, if_neg far]
  simp only [isHigh, isLow, Bool.and_eq_true, decide_eq_true_eq] at high low
  have first : 0xD800 + (pair unit.toNat next.toNat - 0x10000) / 0x400 = unit.toNat := by
    unfold pair
    omega
  have second : 0xDC00 + (pair unit.toNat next.toNat - 0x10000) % 0x400 = next.toNat := by
    unfold pair
    omega
  rw [first, second, UInt16.ofNat_toNat, UInt16.ofNat_toNat]

end Utf16

namespace Json

/-- There are blanks before the rest of the text. -/
def Skips (cs rest : List Char) : Prop :=
  ∃ blanks, (∀ c ∈ blanks, isBlank c = true) ∧ cs = blanks ++ rest

def spell (ds : List (Fin 10)) : List Char :=
  ds.map fun d => digit d.val

/-- The digits of a whole number: a zero stands alone. -/
def IsWhole (ds : List (Fin 10)) : Prop :=
  ds ≠ [] ∧ ∀ d, ds.head? = some d → d.val = 0 → ds = [d]

inductive SpellsExponent : Option Int → List Char → Prop
  | none : SpellsExponent none []
  | plain {e : Char} {ds : List (Fin 10)} (mark : e = 'e' ∨ e = 'E') (digits : ds ≠ []) :
      SpellsExponent (some (natOfDigits ds)) (e :: spell ds)
  | plus {e : Char} {ds : List (Fin 10)} (mark : e = 'e' ∨ e = 'E') (digits : ds ≠ []) :
      SpellsExponent (some (natOfDigits ds)) (e :: '+' :: spell ds)
  | minus {e : Char} {ds : List (Fin 10)} (mark : e = 'e' ∨ e = 'E') (digits : ds ≠ []) :
      SpellsExponent (some (-natOfDigits ds)) (e :: '-' :: spell ds)

def sign (negative : Bool) : List Char :=
  if negative then ['-'] else []

def spellFraction (ds : List (Fin 10)) : List Char :=
  if ds.isEmpty then [] else '.' :: spell ds

inductive SpellsNumeral : Numeral → List Char → Prop
  | mk (negative : Bool) {whole : List (Fin 10)} (fraction : List (Fin 10)) {exponent : Option Int}
      {power : List Char} (isWhole : IsWhole whole) (spelled : SpellsExponent exponent power) :
      SpellsNumeral ⟨negative, natOfDigits whole, fraction, exponent⟩
        (sign negative ++ spell whole ++ spellFraction fraction ++ power)

/-- The units of a string, with its closing quote. -/
inductive SpellsString : List UInt16 → List Char → List Char → Prop
  | close {rest : List Char} : SpellsString [] ('"' :: rest) rest
  | raw {c : Char} {units : List UInt16} {cs rest : List Char} (quote : c ≠ '"')
      (backslash : c ≠ '\\') (printable : 32 ≤ c.toNat) (spelled : SpellsString units cs rest) :
      SpellsString (Utf16.encodeChar c ++ units) (c :: cs) rest
  | escape {c : Char} {unit : UInt16} {units : List UInt16} {cs rest : List Char}
      (escaped : escaped? c = some unit) (spelled : SpellsString units cs rest) :
      SpellsString (unit :: units) ('\\' :: c :: cs) rest
  | unicode {a b c d : Char} {unit : UInt16} {units : List UInt16} {cs rest : List Char}
      (named : hexUnit? a b c d = some unit) (spelled : SpellsString units cs rest) :
      SpellsString (unit :: units) ('\\' :: 'u' :: a :: b :: c :: d :: cs) rest

/-- What is spelled: a value, or the items of an array or the members of an object, of which there is
at least one, with the closing bracket. -/
inductive Phrase
  | value (json : Json)
  | items (items : List Json)
  | members (members : List (List UInt16 × Json))

inductive Spells : Phrase → List Char → List Char → Prop
  | null {cs rest : List Char} (opens : Skips cs ('n' :: 'u' :: 'l' :: 'l' :: rest)) :
      Spells (.value .null) cs rest
  | true {cs rest : List Char} (opens : Skips cs ('t' :: 'r' :: 'u' :: 'e' :: rest)) :
      Spells (.value (.bool true)) cs rest
  | false {cs rest : List Char} (opens : Skips cs ('f' :: 'a' :: 'l' :: 's' :: 'e' :: rest)) :
      Spells (.value (.bool false)) cs rest
  | number {numeral : Numeral} {cs spelling rest : List Char} (opens : Skips cs (spelling ++ rest))
      (spelled : SpellsNumeral numeral spelling) : Spells (.value (.number numeral)) cs rest
  | string {units : List UInt16} {cs ds rest : List Char} (opens : Skips cs ('"' :: ds))
      (spelled : SpellsString units ds rest) : Spells (.value (.string units)) cs rest
  | noItems {cs ds rest : List Char} (opens : Skips cs ('[' :: ds)) (closes : Skips ds (']' :: rest)) :
      Spells (.value (.array [])) cs rest
  | array {items : List Json} {cs ds rest : List Char} (opens : Skips cs ('[' :: ds))
      (spelled : Spells (.items items) ds rest) : Spells (.value (.array items)) cs rest
  | noMembers {cs ds rest : List Char} (opens : Skips cs ('\x7b' :: ds))
      (closes : Skips ds ('\x7d' :: rest)) : Spells (.value (.object [])) cs rest
  | object {members : List (List UInt16 × Json)} {cs ds rest : List Char}
      (opens : Skips cs ('\x7b' :: ds)) (spelled : Spells (.members members) ds rest) :
      Spells (.value (.object members)) cs rest
  | lastItem {item : Json} {cs ds rest : List Char} (first : Spells (.value item) cs ds)
      (closes : Skips ds (']' :: rest)) : Spells (.items [item]) cs rest
  | item {item : Json} {items : List Json} {cs ds es rest : List Char}
      (first : Spells (.value item) cs ds) (comma : Skips ds (',' :: es))
      (others : Spells (.items items) es rest) : Spells (.items (item :: items)) cs rest
  | lastMember {key : List UInt16} {value : Json} {cs ds es fs gs rest : List Char}
      (opens : Skips cs ('"' :: ds)) (named : SpellsString key ds es) (colon : Skips es (':' :: fs))
      (first : Spells (.value value) fs gs) (closes : Skips gs ('\x7d' :: rest)) :
      Spells (.members [(key, value)]) cs rest
  | member {key : List UInt16} {value : Json} {members : List (List UInt16 × Json)}
      {cs ds es fs gs hs rest : List Char} (opens : Skips cs ('"' :: ds))
      (named : SpellsString key ds es) (colon : Skips es (':' :: fs))
      (first : Spells (.value value) fs gs) (comma : Skips gs (',' :: hs))
      (others : Spells (.members members) hs rest) :
      Spells (.members ((key, value) :: members)) cs rest

/-- A whole text spells a value, with blanks behind it. -/
def Spelling (json : Json) (text : List Char) : Prop :=
  ∃ rest, Spells (.value json) text rest ∧ Skips rest []

theorem Skips.refl (cs : List Char) : Skips cs cs :=
  ⟨[], nofun, rfl⟩

theorem natOfDigits_concat (ds : List (Fin 10)) (d : Fin 10) :
    natOfDigits (ds ++ [d]) = 10 * natOfDigits ds + d.val := by
  simp [natOfDigits]

theorem digit_eq (d : Fin 10) : Nat.digitChar d.val = digit d.val := by
  revert d
  decide

/-- The decimal digits of a number spell it. -/
theorem exists_spell (n : Nat) :
    ∃ ds, Nat.toDigits 10 n = spell ds ∧ natOfDigits ds = n ∧ IsWhole ds ∧
      (n ≠ 0 → ∀ d, ds.head? = some d → d.val ≠ 0) := by
  induction n using Nat.strongRecOn with
  | ind n ih =>
      by_cases small : n < 10
      · refine ⟨[⟨n, small⟩], ?_, by simp [natOfDigits], ?_, ?_⟩
        · rw [Nat.toDigits_of_lt_base small]
          exact congrArg (· :: []) (digit_eq ⟨n, small⟩)
        · refine ⟨List.cons_ne_nil _ _, fun d first _ => ?_⟩
          rw [Option.some.inj first]
        · intro positive d first
          rw [← Option.some.inj first]
          exact positive
      · obtain ⟨ds, digits, number, ⟨nonempty, -⟩, leading⟩ := ih (n / 10) (by omega)
        let last : Fin 10 := ⟨n % 10, Nat.mod_lt n (by omega)⟩
        have leading (d : Fin 10) (first : (ds ++ [last]).head? = some d) : d.val ≠ 0 := by
          rw [List.head?_append, Option.or_of_isSome (by simpa using nonempty)] at first
          exact leading (by omega) d first
        refine ⟨ds ++ [last], ?_, ?_, ⟨by simp, fun d first zero => absurd zero (leading d first)⟩,
          fun _ => leading⟩
        · rw [Nat.toDigits_of_base_le (by omega) (Nat.le_of_not_lt small), digits, spell, spell,
            List.map_append]
          exact congrArg (_ ++ [·]) (digit_eq last)
        · rw [natOfDigits_concat, number]
          exact Nat.div_add_mod n 10

theorem exponent_spelled (n : Int) :
    SpellsExponent (some n) ('e' :: (if n < 0 then ['-'] else []) ++ Nat.toDigits 10 n.natAbs) := by
  obtain ⟨ds, digits, number, ⟨nonempty, -⟩, -⟩ := exists_spell n.natAbs
  by_cases negative : n < 0
  · have value : n = -natOfDigits ds := by omega
    simpa [negative, digits, ← value] using SpellsExponent.minus (.inl rfl) nonempty
  · have value : n = natOfDigits ds := by omega
    simpa [negative, digits, ← value] using SpellsExponent.plain (.inl rfl) nonempty

theorem numeral_spelled (numeral : Numeral) : SpellsNumeral numeral numeral.render := by
  obtain ⟨negative, whole, fraction, exponent⟩ := numeral
  obtain ⟨ds, digits, rfl, isWhole, -⟩ := exists_spell whole
  rw [Numeral.render, digits]
  cases exponent with
  | none => exact .mk negative fraction isWhole .none
  | some n => exact .mk negative fraction isWhole (exponent_spelled n)

theorem hexDigit?_hexDigit {d : Nat} (digit : d < 16) : hexDigit? (hexDigit d) = some d :=
  (by decide : ∀ d : Fin 16, hexDigit? (hexDigit d.val) = some d.val) ⟨d, digit⟩

theorem hexUnit?_hexDigit (unit : UInt16) :
    hexUnit? (hexDigit (unit.toNat / 4096)) (hexDigit (unit.toNat / 256 % 16))
      (hexDigit (unit.toNat / 16 % 16)) (hexDigit (unit.toNat % 16)) = some unit := by
  have bound := unit.toNat_lt
  have joined : ((unit.toNat / 4096 * 16 + unit.toNat / 256 % 16) * 16 + unit.toNat / 16 % 16) * 16 +
      unit.toNat % 16 = unit.toNat := by omega
  rw [hexUnit?, hexDigit?_hexDigit (by omega), hexDigit?_hexDigit (by omega),
    hexDigit?_hexDigit (by omega), hexDigit?_hexDigit (by omega)]
  simp only [Option.bind_eq_bind, Option.bind_some, Option.pure_def, joined, UInt16.ofNat_toNat]

theorem quoteUnit_spelled (unit : UInt16) (spelled : SpellsString units cs rest) :
    SpellsString (unit :: units) (quoteUnit unit ++ cs) rest := by
  have named {n : UInt16} (same : unit.toNat = n.toNat) : unit = n := UInt16.toNat_inj.mp same
  simp only [quoteUnit]
  split
  next same => exact .escape (by rw [named (n := 34) same]; rfl) spelled
  next quote =>
  split
  next same => exact .escape (by rw [named (n := 92) same]; rfl) spelled
  next backslash =>
  split
  next same => exact .escape (by rw [named (n := 10) same]; rfl) spelled
  split
  next same => exact .escape (by rw [named (n := 13) same]; rfl) spelled
  split
  next same => exact .escape (by rw [named (n := 9) same]; rfl) spelled
  split
  next same => exact .escape (by rw [named (n := 8) same]; rfl) spelled
  split
  next same => exact .escape (by rw [named (n := 12) same]; rfl) spelled
  split
  · exact .unicode (hexUnit?_hexDigit unit) spelled
  next odd =>
    simp only [Bool.or_eq_true, decide_eq_true_eq, not_or, Bool.not_eq_true] at odd
    obtain ⟨⟨printable, high⟩, low⟩ := odd
    have number := Utf16.toNat_ofNat high low
    have other (c : Char) (apart : unit.toNat ≠ c.toNat) : Char.ofNat unit.toNat ≠ c := by
      rintro rfl
      exact apart number.symm
    have raw := SpellsString.raw (other '"' quote) (other '\\' backslash) (by omega) spelled
    rwa [Utf16.encodeChar_ofNat high low] at raw

theorem quoteUnits_spelled (units : List UInt16) (rest : List Char) :
    SpellsString units (quoteUnits units ++ '"' :: rest) rest := by
  fun_induction quoteUnits units with
  | case1 => exact .close
  | case2 unit => exact quoteUnit_spelled unit .close
  | case3 unit next units pair ih =>
      obtain ⟨high, low⟩ := Bool.and_eq_true_iff.mp pair
      have number := Utf16.toNat_pair high low
      have far := Utf16.le_pair high low
      have other (c : Char) (near : c.toNat < 0x10000) :
          Char.ofNat (Utf16.pair unit.toNat next.toNat) ≠ c := by
        rintro rfl
        omega
      have raw := SpellsString.raw (other '"' (by decide)) (other '\\' (by decide)) (by omega) ih
      rwa [Utf16.encodeChar_pair high low] at raw
  | case4 unit next units unpaired ih =>
      rw [List.append_assoc]
      exact quoteUnit_spelled unit ih

mutual

theorem render_spelled : ∀ (json : Json) (rest : List Char),
    Spells (.value json) (json.render ++ rest) rest
  | .null, _ => .null (.refl _)
  | .bool Bool.true, _ => .true (.refl _)
  | .bool Bool.false, _ => .false (.refl _)
  | .number numeral, _ => .number (.refl _) (numeral_spelled numeral)
  | .string units, rest => by
      rw [render, quote, List.cons_append, List.cons_append, List.append_assoc]
      exact .string (.refl _) (quoteUnits_spelled units rest)
  | .array [], _ => .noItems (.refl _) (.refl _)
  | .array (item :: items), rest => by
      rw [render, List.cons_append, List.cons_append, List.append_assoc]
      exact .array (.refl _) (renderItems_spelled (item :: items) (List.cons_ne_nil _ _) rest)
  | .object [], _ => .noMembers (.refl _) (.refl _)
  | .object (member :: members), rest => by
      rw [render, List.cons_append, List.cons_append, List.append_assoc]
      exact .object (.refl _) (renderMembers_spelled (member :: members) (List.cons_ne_nil _ _) rest)

theorem renderItems_spelled : ∀ (items : List Json), items ≠ [] → ∀ rest,
    Spells (.items items) (renderItems items ++ (']' :: rest)) rest
  | [item], _, _ => .lastItem (render_spelled item _) (.refl _)
  | item :: next :: items, _, rest => by
      rw [renderItems.eq_3 _ _ (List.cons_ne_nil _ _), List.append_assoc, List.cons_append]
      exact .item (render_spelled item _) (.refl _)
        (renderItems_spelled (next :: items) (List.cons_ne_nil _ _) rest)

theorem renderMembers_spelled : ∀ (members : List (List UInt16 × Json)), members ≠ [] → ∀ rest,
    Spells (.members members) (renderMembers members ++ ('\x7d' :: rest)) rest
  | [(key, value)], _, _ => by
      simp only [renderMembers, quote, List.append_assoc, List.cons_append, List.nil_append]
      exact .lastMember (.refl _) (quoteUnits_spelled key _) (.refl _) (render_spelled value _)
        (.refl _)
  | (key, value) :: next :: members, _, rest => by
      rw [renderMembers.eq_3 _ _ _ (List.cons_ne_nil _ _), quote]
      simp only [List.append_assoc, List.cons_append, List.nil_append]
      exact .member (.refl _) (quoteUnits_spelled key _) (.refl _) (render_spelled value _)
        (.refl _) (renderMembers_spelled (next :: members) (List.cons_ne_nil _ _) rest)

end

theorem spelling_render (json : Json) : Spelling json json.render :=
  ⟨[], by simpa using render_spelled json [], .refl _⟩

end Json

end InlineCache
