import InlineCache.Proofs.Json.Tokens

/-!
The reader of JSON texts takes exactly the texts that the grammar has, and reads the value that they
spell.  What follows a value in a text is a blank or a mark, so that there is one place where a numeral
ends.
-/

namespace InlineCache.Json

theorem SpellsString.length_lt (spelled : SpellsString units cs rest) : rest.length < cs.length := by
  induction spelled with
  | close => exact Nat.lt_succ_self _
  | raw => exact Nat.lt_succ_of_lt ‹_›
  | escape | unicode =>
      simp only [List.length_cons]
      omega

theorem SpellsNumeral.opens (spelled : SpellsNumeral numeral spelling) (rest : List Char) :
    ∃ c ds, spelling ++ rest = c :: ds ∧ (c = '-' ∨ (digit? c).isSome = true) := by
  obtain ⟨negative, fraction, ⟨nonempty, -⟩, power⟩ := spelled
  rename_i whole exponent powerText
  cases negative with
  | true => exact ⟨'-', _, by simp [sign]; rfl, .inl rfl⟩
  | false =>
      obtain ⟨d, es, head⟩ := exists_spell_head nonempty (spellFraction fraction ++ (powerText ++ rest))
      exact ⟨digit d.val, es, by simpa [sign] using head, .inr (by rw [digit?_digit]; rfl)⟩

/-- What a phrase opens with is no blank, and closes no bracket. -/
theorem Spells.opens (spelled : Spells phrase cs rest) :
    ∃ c ds, Skips cs (c :: ds) ∧ isBlank c = Bool.false ∧ c ≠ ']' ∧ c ≠ '\x7d' := by
  induction spelled with
  | null opens | true opens | false opens | string opens | noItems opens | array opens
  | noMembers opens | object opens | lastMember opens | member opens =>
      exact ⟨_, _, opens, by decide, by decide, by decide⟩
  | number opens spelled =>
      obtain ⟨c, ds, head, numeric⟩ := spelled.opens _
      refine ⟨c, ds, head ▸ opens, ?_⟩
      rcases numeric with rfl | numeric
      · decide
      · obtain ⟨d, found⟩ := Option.isSome_iff_exists.mp numeric
        rw [eq_digit found]
        exact (by decide : ∀ d : Fin 10, isBlank (digit d.val) = Bool.false ∧ digit d.val ≠ ']' ∧
          digit d.val ≠ '\x7d') d
  | lastItem first closes ih | item first comma others ih => exact ih

theorem Spells.length_lt (spelled : Spells phrase cs rest) : rest.length < cs.length := by
  induction spelled with
  | null opens | true opens | false opens =>
      have := opens.length_lt
      simp only [List.length_cons] at this
      omega
  | number opens spelled =>
      obtain ⟨c, ds, head, -⟩ := spelled.opens []
      have := opens.length_le
      rw [List.append_nil] at head
      simp only [head, List.length_append, List.length_cons] at this
      omega
  | string opens spelled => exact Nat.lt_trans spelled.length_lt opens.length_lt
  | noItems opens closes | noMembers opens closes => exact Nat.lt_trans closes.length_lt opens.length_lt
  | array opens _ ih | object opens _ ih => exact Nat.lt_trans ih opens.length_lt
  | lastItem _ closes ih => exact Nat.lt_trans closes.length_lt ih
  | item _ comma _ ih others => exact Nat.lt_trans others (Nat.lt_trans comma.length_lt ih)
  | lastMember opens named colon _ closes ih =>
      have := opens.length_lt
      have := named.length_lt
      have := colon.length_lt
      have := closes.length_lt
      omega
  | member opens named colon _ comma _ ih others =>
      have := opens.length_lt
      have := named.length_lt
      have := colon.length_lt
      have := comma.length_lt
      omega

attribute [local simp] value? items? members?

theorem value?_skipBlanks (budget : Nat) (cs : List Char) :
    value? budget (skipBlanks cs) = value? budget cs := by
  cases budget with
  | zero => simp
  | succ budget => rw [value?, value?, skipBlanks_skipBlanks]

theorem items?_skipBlanks (budget : Nat) (cs : List Char) :
    items? budget (skipBlanks cs) = items? budget cs := by
  cases budget with
  | zero => simp
  | succ budget => rw [items?, items?, value?_skipBlanks]

theorem members?_skipBlanks (budget : Nat) (cs : List Char) :
    members? budget (skipBlanks cs) = members? budget cs := by
  cases budget with
  | zero => simp
  | succ budget => rw [members?, members?, skipBlanks_skipBlanks]

theorem value?_number (skips : skipBlanks cs = c :: ds)
    (numeric : c = '-' ∨ (digit? c).isSome = true) (read : numeral? (c :: ds) = some (numeral, rest)) :
    value? (budget + 1) cs = some (.number numeral, rest) := by
  rw [value?, skips]
  split
  iterate 6
    next same =>
      cases same
      exact absurd numeric (by decide)
  next => rw [read]; rfl

theorem value?_array (opens : Skips cs ('[' :: ds)) (inside : Skips ds (c :: es))
    (token : isBlank c = false) (other : c ≠ ']') (read : items? budget ds = some (items, rest)) :
    value? (budget + 1) cs = some (.array items, rest) := by
  rw [value?, opens.skipBlanks_eq (by decide)]
  simp only
  split
  next same =>
    rw [inside.skipBlanks_eq token] at same
    exact absurd (List.cons.inj same).1 other
  next =>
    rw [items?_skipBlanks, read]
    rfl

theorem value?_object (opens : Skips cs ('\x7b' :: ds)) (inside : Skips ds (c :: es))
    (token : isBlank c = false) (other : c ≠ '\x7d')
    (read : members? budget ds = some (members, rest)) :
    value? (budget + 1) cs = some (.object members, rest) := by
  rw [value?, opens.skipBlanks_eq (by decide)]
  simp only
  split
  next same =>
    rw [inside.skipBlanks_eq token] at same
    exact absurd (List.cons.inj same).1 other
  next =>
    rw [members?_skipBlanks, read]
    rfl

/-- The reader of the phrase takes the text up to the rest. -/
def Phrase.Read (budget : Nat) (cs rest : List Char) : Phrase → Prop
  | .value json => Stops rest → value? budget cs = some (json, rest)
  | .items list => items? budget cs = some (list, rest)
  | .members list => members? budget cs = some (list, rest)

/-- Items are read by the reader of values at the place where they are. -/
def Phrase.cost : Phrase → Nat
  | .value _ => 0
  | .items _ => 1
  | .members _ => 0

theorem Spells.read (spelled : Spells phrase cs rest) :
    ∀ budget, 2 * cs.length + phrase.cost ≤ budget + 1 → phrase.Read (budget + 1) cs rest := by
  induction spelled with
  | null opens | true opens | false opens =>
      intro budget _ _
      rw [value?, opens.skipBlanks_eq (by decide)]
      rfl
  | number opens spelled =>
      intro budget _ stops
      obtain ⟨c, ds, head, numeric⟩ := spelled.opens _
      have token : isBlank c = Bool.false := by
        rcases numeric with rfl | numeric
        · decide
        · obtain ⟨d, found⟩ := Option.isSome_iff_exists.mp numeric
          rw [eq_digit found]
          exact (by decide : ∀ d : Fin 10, isBlank (digit d.val) = Bool.false) d
      have read := numeral?_spelled spelled stops
      rw [head] at read opens
      exact value?_number (opens.skipBlanks_eq token) numeric read
  | string opens spelled =>
      intro budget _ _
      rw [value?, opens.skipBlanks_eq (by decide)]
      simp only [string?_spelled spelled]
      rfl
  | noItems opens closes =>
      intro budget _ _
      rw [value?, opens.skipBlanks_eq (by decide)]
      simp only [closes.skipBlanks_eq (by decide)]
  | noMembers opens closes =>
      intro budget _ _
      rw [value?, opens.skipBlanks_eq (by decide)]
      simp only [closes.skipBlanks_eq (by decide)]
  | array opens spelled ih =>
      intro budget enough _
      have shorter := opens.length_lt
      have nonempty := spelled.length_lt
      simp only [Phrase.cost] at enough ih
      obtain _ | budget := budget
      · omega
      obtain ⟨c, ds, skips, token, other, -⟩ := spelled.opens
      exact value?_array opens skips token other (ih budget (by omega))
  | object opens spelled ih =>
      intro budget enough _
      have shorter := opens.length_lt
      have nonempty := spelled.length_lt
      simp only [Phrase.cost] at enough ih
      obtain _ | budget := budget
      · omega
      obtain ⟨c, ds, skips, token, -, other⟩ := spelled.opens
      exact value?_object opens skips token other (ih budget (by omega))
  | lastItem first closes ih =>
      intro budget enough
      have nonempty := first.length_lt
      simp only [Phrase.cost] at enough ih
      obtain _ | budget := budget
      · omega
      have read : value? (budget + 1) _ = _ := ih budget (by omega) (closes.stops (stops_mark (.inr (.inl rfl))))
      show items? _ _ = _
      rw [items?, read]
      simp only [Option.bind_eq_bind, Option.bind_some, closes.skipBlanks_eq (by decide)]
      rfl
  | item first comma others ih rest =>
      intro budget enough
      have nonempty := first.length_lt
      have shorter := comma.length_lt
      simp only [Phrase.cost] at enough ih rest
      obtain _ | budget := budget
      · omega
      have read : value? (budget + 1) _ = _ := ih budget (by omega) (comma.stops (stops_mark (.inl rfl)))
      have more : items? (budget + 1) _ = _ := rest budget (by omega)
      show items? _ _ = _
      rw [items?, read]
      simp only [Option.bind_eq_bind, Option.bind_some, comma.skipBlanks_eq (by decide), more]
      rfl
  | lastMember opens named colon first closes ih =>
      intro budget enough
      have inside := opens.length_lt
      have after := named.length_lt
      have shorter := colon.length_lt
      simp only [Phrase.cost] at enough ih
      obtain _ | budget := budget
      · omega
      have read : value? (budget + 1) _ = _ := ih budget (by omega) (closes.stops (stops_mark (.inr (.inr rfl))))
      show members? _ _ = _
      rw [members?, opens.skipBlanks_eq (by decide)]
      simp only [string?_spelled named, Option.bind_eq_bind, Option.bind_some,
        colon.skipBlanks_eq (by decide), read, closes.skipBlanks_eq (by decide)]
      rfl
  | member opens named colon first comma others ih rest =>
      intro budget enough
      have inside := opens.length_lt
      have after := named.length_lt
      have shorter := colon.length_lt
      have behind := first.length_lt
      have further := comma.length_lt
      simp only [Phrase.cost] at enough ih rest
      obtain _ | budget := budget
      · omega
      have read : value? (budget + 1) _ = _ := ih budget (by omega) (comma.stops (stops_mark (.inl rfl)))
      have more : members? (budget + 1) _ = _ := rest budget (by omega)
      show members? _ _ = _
      rw [members?, opens.skipBlanks_eq (by decide)]
      simp only [string?_spelled named, Option.bind_eq_bind, Option.bind_some,
        colon.skipBlanks_eq (by decide), read, comma.skipBlanks_eq (by decide), more]
      rfl

/-- Whatever the readers take with a budget is spelled. -/
structure Sound (budget : Nat) : Prop where
  value : ∀ {cs json rest}, value? budget cs = some (json, rest) → Spells (.value json) cs rest
  items : ∀ {cs list rest}, items? budget cs = some (list, rest) → Spells (.items list) cs rest
  members : ∀ {cs list rest}, members? budget cs = some (list, rest) → Spells (.members list) cs rest

theorem Sound.value_succ (sound : Sound budget) (read : value? (budget + 1) cs = some (json, rest)) :
    Spells (.value json) cs rest := by
  rw [value?] at read
  split at read
  next rest opens =>
    cases read
    exact .null (skips_of_eq opens)
  next rest opens =>
    cases read
    exact .true (skips_of_eq opens)
  next rest opens =>
    cases read
    exact .false (skips_of_eq opens)
  next ds opens =>
    simp only [Option.bind_eq_bind, Option.bind_eq_some_iff, Option.pure_def, Option.some.injEq] at read
    obtain ⟨⟨units, _⟩, spelled, same⟩ := read
    cases same
    exact .string (skips_of_eq opens) (string?_sound spelled)
  next ds opens =>
    split at read
    next closes =>
      cases read
      exact .noItems (skips_of_eq opens) (skips_of_eq closes)
    next =>
      simp only [Option.bind_eq_bind, Option.bind_eq_some_iff, Option.pure_def, Option.some.injEq] at read
      obtain ⟨⟨items, _⟩, spelled, same⟩ := read
      cases same
      rw [items?_skipBlanks] at spelled
      exact .array (skips_of_eq opens) (sound.items spelled)
  next ds opens =>
    split at read
    next closes =>
      cases read
      exact .noMembers (skips_of_eq opens) (skips_of_eq closes)
    next =>
      simp only [Option.bind_eq_bind, Option.bind_eq_some_iff, Option.pure_def, Option.some.injEq] at read
      obtain ⟨⟨members, _⟩, spelled, same⟩ := read
      cases same
      rw [members?_skipBlanks] at spelled
      exact .object (skips_of_eq opens) (sound.members spelled)
  next =>
    simp only [Option.bind_eq_bind, Option.bind_eq_some_iff, Option.pure_def, Option.some.injEq] at read
    obtain ⟨⟨numeral, _⟩, found, same⟩ := read
    cases same
    obtain ⟨spelling, spelled, text⟩ := numeral?_sound found
    exact .number (skips_of_eq text) spelled

theorem Sound.items_succ (sound : Sound budget) (read : items? (budget + 1) cs = some (list, rest)) :
    Spells (.items list) cs rest := by
  rw [items?] at read
  simp only [Option.bind_eq_bind, Option.bind_eq_some_iff] at read
  obtain ⟨⟨item, ds⟩, first, read⟩ := read
  split at read
  next es comma =>
    simp only [Option.bind_eq_some_iff, Option.pure_def, Option.some.injEq] at read
    obtain ⟨⟨items, _⟩, others, same⟩ := read
    cases same
    exact .item (sound.value first) (skips_of_eq comma) (sound.items others)
  next closes =>
    cases read
    exact .lastItem (sound.value first) (skips_of_eq closes)
  next => cases read

theorem Sound.members_succ (sound : Sound budget)
    (read : members? (budget + 1) cs = some (list, rest)) : Spells (.members list) cs rest := by
  rw [members?] at read
  split at read
  next ds opens =>
    simp only [Option.bind_eq_bind, Option.bind_eq_some_iff] at read
    obtain ⟨⟨key, es⟩, named, read⟩ := read
    split at read
    next fs colon =>
      simp only [Option.bind_eq_some_iff] at read
      obtain ⟨⟨value, gs⟩, first, read⟩ := read
      split at read
      next hs comma =>
        simp only [Option.bind_eq_some_iff, Option.pure_def, Option.some.injEq] at read
        obtain ⟨⟨members, _⟩, others, same⟩ := read
        cases same
        exact .member (skips_of_eq opens) (string?_sound named) (skips_of_eq colon)
          (sound.value first) (skips_of_eq comma) (sound.members others)
      next closes =>
        cases read
        exact .lastMember (skips_of_eq opens) (string?_sound named) (skips_of_eq colon)
          (sound.value first) (skips_of_eq closes)
      next => cases read
    next => cases read
  next => cases read

theorem readers_sound (budget : Nat) : Sound budget := by
  induction budget with
  | zero =>
      constructor
      · intro cs json rest read
        simp at read
      · intro cs list rest read
        simp at read
      · intro cs list rest read
        simp at read
  | succ budget ih => exact ⟨ih.value_succ, ih.items_succ, ih.members_succ⟩

/-- The texts that can be parsed are those of the grammar. -/
theorem parse?_eq_some_iff {text : List Char} : parse? text = some json ↔ Spelling json text := by
  unfold parse?
  constructor
  · intro read
    split at read
    next found =>
      split at read
      next nothing =>
        cases read
        exact ⟨_, (readers_sound _).value found, skips_nil_iff.mpr (List.isEmpty_iff.mp nothing)⟩
      next => cases read
    next => cases read
  · rintro ⟨rest, spelled, blank⟩
    have read : value? (2 * text.length + 1 + 1) text = some (json, rest) :=
      spelled.read (2 * text.length + 1) (Nat.le_add_right (2 * text.length) 2) (blank.stops stops_nil)
    rw [read]
    simp [skips_nil_iff.mp blank]

end InlineCache.Json
