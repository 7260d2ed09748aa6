import InlineCache.Proofs.Json.Spelling

/-!
The readers of blanks, numerals and strings take what the grammar has.  A numeral ends where no digit,
point or exponent follows, which the grammar leaves open.
-/

namespace InlineCache.Json

theorem skips_skipBlanks (cs : List Char) : Skips cs (skipBlanks cs) :=
  ⟨cs.takeWhile isBlank, List.all_eq_true.mp List.all_takeWhile, List.takeWhile_append_dropWhile.symm⟩

theorem Skips.skipBlanks_eq (skips : Skips cs (c :: rest)) (token : isBlank c = false) :
    skipBlanks cs = c :: rest := by
  obtain ⟨blanks, blank, rfl⟩ := skips
  rw [skipBlanks, List.dropWhile_append_of_pos blank, List.dropWhile_cons_of_neg (by simp [token])]

theorem skips_nil_iff : Skips cs [] ↔ skipBlanks cs = [] := by
  constructor
  · rintro ⟨blanks, blank, rfl⟩
    exact List.dropWhile_append_of_pos blank
  · intro nothing
    exact nothing ▸ skips_skipBlanks cs

theorem skipBlanks_skipBlanks (cs : List Char) : skipBlanks (skipBlanks cs) = skipBlanks cs := by
  induction cs with
  | nil => rfl
  | cons c cs ih =>
      cases token : isBlank c with
      | true => simpa [skipBlanks, token] using ih
      | false => simp [skipBlanks, token]

theorem Skips.length_le (skips : Skips cs rest) : rest.length ≤ cs.length := by
  obtain ⟨blanks, -, rfl⟩ := skips
  simp

theorem Skips.length_lt (skips : Skips cs (c :: rest)) : rest.length < cs.length :=
  skips.length_le

theorem skips_of_eq (same : skipBlanks cs = rest) : Skips cs rest :=
  same ▸ skips_skipBlanks cs

/-- No numeral goes on with the text. -/
def Stops (rest : List Char) : Prop :=
  ∀ c, rest.head? = some c → digit? c = none ∧ c ≠ '.' ∧ c ≠ 'e' ∧ c ≠ 'E'

theorem stops_nil : Stops [] := nofun

theorem stops_mark (mark : c = ',' ∨ c = ']' ∨ c = '\x7d') : Stops (c :: rest) := by
  intro first head
  cases head
  rcases mark with rfl | rfl | rfl <;> decide

theorem Skips.stops (skips : Skips cs rest) (stops : Stops rest) : Stops cs := by
  obtain ⟨blanks, blank, rfl⟩ := skips
  cases blanks with
  | nil => exact stops
  | cons b blanks =>
      intro first head
      cases head
      have blank := blank b (.head _)
      simp only [isBlank, Bool.or_eq_true, decide_eq_true_eq] at blank
      rcases blank with ((rfl | rfl) | rfl) | rfl <;> decide

section Numerals

theorem digit?_digit (d : Fin 10) : digit? (digit d.val) = some d := by
  revert d
  decide

theorem digit_ne (d : Fin 10) : digit d.val ≠ '-' ∧ digit d.val ≠ '+' := by
  revert d
  decide

theorem eq_digit (found : digit? c = some d) : c = digit d.val := by
  unfold digit? at found
  split at found
  next range =>
    cases found
    have number : 48 + (c.toNat - 48) = c.toNat := by omega
    simp only [digit, number, Char.ofNat_toNat]
  next => cases found

theorem digits_spell (ds : List (Fin 10)) {rest : List Char}
    (ends : ∀ c, rest.head? = some c → digit? c = none) : digits (spell ds ++ rest) = (ds, rest) := by
  induction ds with
  | nil =>
      cases rest with
      | nil => rfl
      | cons c rest => simp [spell, digits, ends c rfl]
  | cons d ds ih =>
      rw [spell] at ih
      simp [spell, digits, digit?_digit, ih]

theorem eq_spell (found : digits cs = (ds, rest)) : cs = spell ds ++ rest := by
  induction cs generalizing ds with
  | nil =>
      cases found
      rfl
  | cons c cs ih =>
      unfold digits at found
      split at found
      next d one =>
        cases found
        rw [eq_digit one]
        exact congrArg (digit d.val :: ·) (ih rfl)
      next =>
        cases found
        rfl

theorem exists_spell_head {ds : List (Fin 10)} (nonempty : ds ≠ []) (rest : List Char) :
    ∃ (d : Fin 10) (es : List Char), spell ds ++ rest = digit d.val :: es := by
  cases ds with
  | nil => exact absurd rfl nonempty
  | cons d ds => exact ⟨d, spell ds ++ rest, rfl⟩

theorem whole?_spell (isWhole : IsWhole ds)
    (ends : ∀ c, rest.head? = some c → digit? c = none) :
    whole? (spell ds ++ rest) = some (natOfDigits ds, rest) := by
  obtain ⟨nonempty, alone⟩ := isWhole
  rw [whole?, digits_spell ds ends]
  cases ds with
  | nil => exact absurd rfl nonempty
  | cons d ds =>
      refine if_neg fun ⟨zero, more⟩ => ?_
      cases alone d rfl (congrArg Fin.val zero)
      cases more

theorem whole?_sound (read : whole? cs = some (n, rest)) :
    ∃ ds, IsWhole ds ∧ n = natOfDigits ds ∧ cs = spell ds ++ rest := by
  unfold whole? at read
  split at read
  next => cases read
  next d ds after found =>
    split at read
    next => cases read
    next leading =>
      cases read
      refine ⟨d :: ds, ⟨List.cons_ne_nil _ _, fun e first zero => ?_⟩, rfl, eq_spell found⟩
      cases Option.some.inj first
      cases ds with
      | nil => rfl
      | cons => exact absurd ⟨Fin.ext zero, rfl⟩ leading

theorem fraction?_spell (ds : List (Fin 10))
    (ends : ∀ c, rest.head? = some c → digit? c = none ∧ c ≠ '.') :
    fraction? (spellFraction ds ++ rest) = some (ds, rest) := by
  cases ds with
  | nil =>
      show fraction? rest = some ([], rest)
      unfold fraction?
      split
      next => exact absurd rfl (ends '.' rfl).2
      next => rfl
  | cons d ds =>
      show fraction? ('.' :: (spell (d :: ds) ++ rest)) = some (d :: ds, rest)
      rw [fraction?, digits_spell (d :: ds) fun c head => (ends c head).1]

theorem fraction?_sound (read : fraction? cs = some (ds, rest)) :
    cs = spellFraction ds ++ rest := by
  unfold fraction? at read
  split at read
  next cs =>
    split at read
    next => cases read
    next nonempty found =>
      cases read
      rw [eq_spell found]
      cases ds with
      | nil => exact (nonempty rfl).elim
      | cons d ds => rfl
  next =>
    cases read
    rfl

theorem exponentDigits?_spell (negative : Bool) (nonempty : ds ≠ [])
    (ends : ∀ c, rest.head? = some c → digit? c = none) :
    exponentDigits? negative (spell ds ++ rest) =
      some (some (if negative then -(natOfDigits ds : Int) else natOfDigits ds), rest) := by
  rw [exponentDigits?, digits_spell ds ends]
  cases ds with
  | nil => exact absurd rfl nonempty
  | cons d ds => rfl

theorem exponentDigits?_sound {negative : Bool} (read : exponentDigits? negative cs = some (n, rest)) :
    ∃ ds, ds ≠ [] ∧ n = some (if negative then -(natOfDigits ds : Int) else natOfDigits ds) ∧
      cs = spell ds ++ rest := by
  unfold exponentDigits? at read
  split at read
  next => cases read
  next ds rest nonempty found =>
    cases read
    exact ⟨ds, fun empty => nonempty (by rw [empty]), rfl, eq_spell found⟩

theorem exponent?_spell (spelled : SpellsExponent exponent power) (stops : Stops rest) :
    exponent? (power ++ rest) = some (exponent, rest) := by
  have ends c (head : rest.head? = some c) := (stops c head).1
  cases spelled with
  | none =>
      cases rest with
      | nil => rfl
      | cons c rest =>
          obtain ⟨-, -, lower, upper⟩ := stops c rfl
          exact if_neg (not_or.mpr ⟨lower, upper⟩)
  | @plain e ds mark nonempty =>
      obtain ⟨d, es, head⟩ := exists_spell_head nonempty rest
      rw [List.cons_append, exponent?, if_pos mark]
      · exact exponentDigits?_spell false nonempty ends
      · exact fun _ same => (digit_ne d).1 (List.cons.inj (head.symm.trans same)).1
      · exact fun _ same => (digit_ne d).2 (List.cons.inj (head.symm.trans same)).1
  | plus mark nonempty =>
      rw [List.cons_append, List.cons_append, exponent?, if_pos mark]
      exact exponentDigits?_spell false nonempty ends
  | minus mark nonempty =>
      rw [List.cons_append, List.cons_append, exponent?, if_pos mark]
      exact exponentDigits?_spell true nonempty ends

theorem exponent?_sound (read : exponent? cs = some (exponent, rest)) :
    ∃ power, SpellsExponent exponent power ∧ cs = power ++ rest := by
  unfold exponent? at read
  split at read
  next e cs =>
    split at read
    next mark =>
      split at read
      · obtain ⟨ds, nonempty, rfl, rfl⟩ := exponentDigits?_sound read
        exact ⟨_, .minus mark nonempty, rfl⟩
      · obtain ⟨ds, nonempty, rfl, rfl⟩ := exponentDigits?_sound read
        exact ⟨_, .plus mark nonempty, rfl⟩
      · obtain ⟨ds, nonempty, rfl, rfl⟩ := exponentDigits?_sound read
        exact ⟨_, .plain mark nonempty, rfl⟩
    next =>
      cases read
      exact ⟨[], .none, rfl⟩
  next =>
    cases read
    exact ⟨[], .none, rfl⟩

theorem SpellsExponent.head (spelled : SpellsExponent exponent power) (stops : Stops rest) :
    ∀ c, (power ++ rest).head? = some c → digit? c = Option.none ∧ c ≠ '.' := by
  have marked {e : Char} (mark : e = 'e' ∨ e = 'E') : digit? e = Option.none ∧ e ≠ '.' := by
    rcases mark with rfl | rfl <;> decide
  intro c head
  cases spelled with
  | none => exact ⟨(stops c head).1, (stops c head).2.1⟩
  | plain mark => exact Option.some.inj head ▸ marked mark
  | plus mark => exact Option.some.inj head ▸ marked mark
  | minus mark => exact Option.some.inj head ▸ marked mark

theorem numeral?_spelled (spelled : SpellsNumeral numeral spelling) (stops : Stops rest) :
    numeral? (spelling ++ rest) = some (numeral, rest) := by
  obtain ⟨negative, fraction, isWhole, power⟩ := spelled
  rename_i whole exponent powerText
  have after := power.head stops
  have point : ∀ c, (spellFraction fraction ++ (powerText ++ rest)).head? = some c →
      digit? c = none := by
    intro c head
    cases fraction with
    | nil => exact (after c head).1
    | cons => exact Option.some.inj head ▸ rfl
  have readWhole := whole?_spell isWhole point
  have readFraction := fraction?_spell fraction after
  have readPower := exponent?_spell power stops
  have body : numeral? (sign negative ++ (spell whole ++ (spellFraction fraction ++
      (powerText ++ rest)))) = some (⟨negative, natOfDigits whole, fraction, exponent⟩, rest) := by
    cases negative with
    | true => simp [sign, numeral?, readWhole, readFraction, readPower]
    | false =>
        obtain ⟨d, es, head⟩ := exists_spell_head isWhole.1 (spellFraction fraction ++
          (powerText ++ rest))
        rw [head] at readWhole
        rw [sign, head]
        simp only [numeral?]
        split
        next same => exact absurd (List.cons.inj same).1 (digit_ne d).1
        next => simp [readWhole, readFraction, readPower]
  simpa using body

theorem numeral?_sound (read : numeral? cs = some (numeral, rest)) :
    ∃ spelling, SpellsNumeral numeral spelling ∧ cs = spelling ++ rest := by
  unfold numeral? at read
  split at read
  next _ negative ds signed =>
    have opens : cs = sign negative ++ ds := by
      split at signed <;> cases signed <;> rfl
    simp only [Option.bind_eq_bind, Option.bind_eq_some_iff, Option.pure_def, Option.some.injEq] at read
    obtain ⟨⟨n, _⟩, readWhole, ⟨fraction, _⟩, readFraction, ⟨exponent, _⟩, readPower, same⟩ := read
    obtain ⟨whole, isWhole, rfl, rfl⟩ := whole?_sound readWhole
    obtain rfl := fraction?_sound readFraction
    obtain ⟨power, spelled, rfl⟩ := exponent?_sound readPower
    cases same
    exact ⟨_, .mk negative fraction isWhole spelled, by simp [opens]⟩

end Numerals

theorem string?_spelled (spelled : SpellsString units cs rest) : string? cs = some (units, rest) := by
  induction spelled with
  | close => rfl
  | @raw c units cs rest quote backslash printable spelled ih =>
      rw [string?]
      · rw [if_neg (not_or.mpr ⟨backslash, Nat.not_lt.mpr printable⟩), ih]
        rfl
      · exact fun same => quote same
      · exact fun _ _ _ _ _ same => (backslash same).elim
      · exact fun _ _ same => (backslash same).elim
  | @escape c unit units cs rest escaped spelled ih =>
      rw [string?]
      · rw [escaped, ih]
        rfl
      · rintro _ _ _ _ _ rfl
        cases escaped
  | unicode named spelled ih =>
      rw [string?, named, ih]
      rfl

theorem string?_sound (read : string? cs = some (units, rest)) : SpellsString units cs rest := by
  fun_induction string? cs generalizing units rest with
  | case1 => cases read
  | case2 cs =>
      cases read
      exact .close
  | case3 a b c d cs ih =>
      simp only [Option.bind_eq_bind, Option.bind_eq_some_iff, Option.pure_def, Option.some.injEq] at read
      obtain ⟨unit, named, ⟨units, _⟩, read, same⟩ := read
      cases same
      exact .unicode named (ih read)
  | case4 c cs _ ih =>
      simp only [Option.bind_eq_bind, Option.bind_eq_some_iff, Option.pure_def, Option.some.injEq] at read
      obtain ⟨unit, escaped, ⟨units, _⟩, read, same⟩ := read
      cases same
      exact .escape escaped (ih read)
  | case5 => cases read
  | case6 c cs quote _ _ plain ih =>
      simp only [Option.bind_eq_bind, Option.bind_eq_some_iff, Option.pure_def, Option.some.injEq] at read
      obtain ⟨⟨units, _⟩, read, same⟩ := read
      cases same
      obtain ⟨backslash, printable⟩ := not_or.mp plain
      exact .raw quote backslash (Nat.le_of_not_lt printable) (ih read)

end InlineCache.Json
