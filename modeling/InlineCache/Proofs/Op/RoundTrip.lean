import InlineCache.Op.Cursor

/-!
The wire form and the operations it stands for.  An operation is read back from its own bytes,
whatever follows them; read from other bytes, it is written back to the bytes it was read from, up to
its flags, which are any byte on the wire and written as zero or one.
-/

namespace InlineCache

/-- Reads as many operations as asked for, one after another. -/
def Op.readMany : Nat → Read (List Op)
  | 0 => return []
  | count + 1 => do
      let op ← Op.read
      return op :: (← Op.readMany count)

/-- The cursor stands at a byte of the code, or behind its last one. -/
structure Cursor.In (code : List UInt8) (cursor : Cursor) : Prop where
  offset_le : cursor.offset ≤ code.length
  rest_eq : cursor.rest = code.drop cursor.offset

/-- A read that moves the cursor neither backwards nor past the end of the code. -/
def Read.StaysIn (read : Read α) : Prop :=
  ∀ (code : List UInt8) (cursor : Cursor), cursor.In code →
    (read cursor).2.In code ∧ cursor.offset ≤ (read cursor).2.offset

theorem Read.Forward.staysIn {read : Read α} (forward : Read.Forward read) : read.StaysIn := by
  intro code cursor inside
  obtain ⟨consumed, hrest, hoffset⟩ := forward cursor
  have hlength := congrArg List.length hrest
  rw [inside.rest_eq, List.length_drop, List.length_append] at hlength
  have hle := inside.offset_le
  refine ⟨⟨by omega, ?_⟩, by omega⟩
  rw [hoffset, ← List.drop_drop, ← inside.rest_eq, hrest, List.drop_left]

theorem Op.readMany_forward (count : Nat) : Read.Forward (Op.readMany count) := by
  induction count with
  | zero => exact .pure _
  | succ count ih => exact Op.read_forward.bind fun _ => ih.bind fun _ => .pure _

/-- For each byte of an argument, whether it is a flag. -/
def Param.flags : Param → List Bool
  | .use _ | .result _ | .field | .valueType | .classKind => [false]
  | .typed => [false, false]
  | .flag => [true]
  | .int32 => [false, false, false, false]

/-- For each byte of an operation with the opcode, whether it is a flag. -/
def Opcode.flags (opcode : Opcode) : List Bool :=
  false :: opcode.signature.flatMap Param.flags

/-- A byte as it is written: a flag is zero or one. -/
def asWritten (flag : Bool) (b : UInt8) : UInt8 :=
  if flag ∧ b ≠ 0 then 1 else b

section Int32

theorem toNat_or_shiftLeft (low : UInt32) (b : UInt8) (i : UInt32) (hi : i.toNat ≤ 24)
    (hlow : low.toNat < 1 <<< i.toNat) :
    (low ||| b.toUInt32 <<< i).toNat = low.toNat + (1 <<< i.toNat) * b.toNat := by
  rw [Nat.one_shiftLeft] at hlow ⊢
  have hb := Nat.lt_of_le_of_lt
    (Nat.mul_le_mul_right b.toNat (Nat.pow_le_pow_right Nat.two_pos hi))
    (Nat.mul_lt_mul_of_pos_left b.toNat_lt (by decide))
  rw [UInt32.toNat_or, UInt32.toNat_shiftLeft, UInt8.toNat_toUInt32,
    Nat.mod_eq_of_lt (by omega : i.toNat < 32), Nat.shiftLeft_eq, Nat.mul_comm,
    Nat.mod_eq_of_lt hb, Nat.or_comm, ← Nat.two_pow_add_eq_or_of_lt hlow, Nat.add_comm]

theorem toNat_join (b0 b1 b2 b3 : UInt8) :
    (b0.toUInt32 ||| b1.toUInt32 <<< 8 ||| b2.toUInt32 <<< 16 ||| b3.toUInt32 <<< 24).toNat =
      b0.toNat + 0x100 * b1.toNat + 0x10000 * b2.toNat + 0x1000000 * b3.toNat := by
  have h0 := b0.toNat_lt
  have h1 := b1.toNat_lt
  have h2 := b2.toNat_lt
  have first := toNat_or_shiftLeft b0.toUInt32 b1 8 (by decide) (by simpa using h0)
  have second := toNat_or_shiftLeft _ b2 16 (by decide) (by rw [first]; simp; omega)
  have third := toNat_or_shiftLeft _ b3 24 (by decide) (by rw [second, first]; simp; omega)
  rw [third, second, first]
  simp

theorem join_bytes (w : UInt32) :
    w.toUInt8.toUInt32 ||| (w >>> 8).toUInt8.toUInt32 <<< 8 |||
      (w >>> 16).toUInt8.toUInt32 <<< 16 ||| (w >>> 24).toUInt8.toUInt32 <<< 24 = w := by
  apply UInt32.toNat_inj.mp
  rw [toNat_join]
  have hw := w.toNat_lt
  simp [Nat.shiftRight_eq_div_pow]
  omega

theorem encodeInt32_join (b0 b1 b2 b3 : UInt8) :
    encodeInt32 (b0.toUInt32 ||| b1.toUInt32 <<< 8 ||| b2.toUInt32 <<< 16 |||
      b3.toUInt32 <<< 24).toInt32 = [b0, b1, b2, b3] := by
  have h0 := b0.toNat_lt
  have h1 := b1.toNat_lt
  have h2 := b2.toNat_lt
  have h3 := b3.toNat_lt
  have join := toNat_join b0 b1 b2 b3
  rw [encodeInt32, UInt32.toUInt32_toInt32]
  generalize b0.toUInt32 ||| b1.toUInt32 <<< 8 ||| b2.toUInt32 <<< 16 ||| b3.toUInt32 <<< 24 = w
    at join
  simp only [List.cons.injEq, and_true, ← UInt8.toNat_inj]
  refine ⟨?_, ?_, ?_, ?_⟩ <;> simp [Nat.shiftRight_eq_div_pow] <;> omega

theorem Read.int32_encode (n : Int32) (offset : Nat) (rest : List UInt8) :
    Read.int32 ⟨offset, encodeInt32 n ++ rest⟩ = (.ok n, ⟨offset + 4, rest⟩) := by
  have join := join_bytes n.toUInt32
  simp only [Read.int32, encodeInt32, List.cons_append, List.nil_append]
  rw [join, Int32.toInt32_toUInt32]

end Int32

/-- What is written is read back, and the cursor stops behind it. -/
def Read.Recovers (read : Read α) (encode : α → List UInt8) : Prop :=
  ∀ (a : α) (offset : Nat) (rest : List UInt8),
    read ⟨offset, encode a ++ rest⟩ = (.ok a, ⟨offset + (encode a).length, rest⟩)

/-- What is read is written as some bytes that were read earlier and the bytes that are consumed,
but for the flags among them. -/
def Read.Rewrites (earlier : List UInt8) (read : Read α) (encode : α → List UInt8)
    (flags : List Bool) : Prop :=
  ∀ (cursor next : Cursor) (a : α), read cursor = (.ok a, next) →
    ∃ consumed, cursor.rest = consumed ++ next.rest ∧
      next.offset = cursor.offset + consumed.length ∧ consumed.length = flags.length ∧
      encode a = earlier ++ List.zipWith asWritten flags consumed

namespace Read

theorem bind_ok {read : Read α} {after : α → Read β} {cursor next : Cursor} {b : β}
    (h : (read >>= after) cursor = (.ok b, next)) :
    ∃ a middle, read cursor = (.ok a, middle) ∧ after a middle = (.ok b, next) := by
  rw [Read.bind_apply] at h
  rcases hr : read cursor with ⟨error | a, middle⟩
  · rw [hr] at h
    cases congrArg Prod.fst h
  · rw [hr] at h
    exact ⟨a, middle, rfl, h⟩

theorem Recovers.bind_apply {read : Read α} {encode : α → List UInt8}
    (recovers : Recovers read encode) (after : α → Read β) (a : α) (offset : Nat)
    (rest : List UInt8) :
    (read >>= after) ⟨offset, encode a ++ rest⟩ =
      after a ⟨offset + (encode a).length, rest⟩ := by
  rw [Read.bind_apply, recovers]

theorem Rewrites.pure (encode : α → List UInt8) (a : α) :
    Rewrites (encode a) (pure a) encode [] := by
  intro cursor next b h
  cases h
  exact ⟨[], rfl, rfl, rfl, by simp⟩

theorem Rewrites.bind {read : Read α} {after : α → Read β} {earlier : List UInt8}
    {encode : α → List UInt8} {encodeAll : β → List UInt8} {flags flagsAfter : List Bool}
    (hread : Rewrites [] read encode flags)
    (hafter : ∀ a, Rewrites (earlier ++ encode a) (after a) encodeAll flagsAfter) :
    Rewrites earlier (read >>= after) encodeAll (flags ++ flagsAfter) := by
  intro cursor next b h
  obtain ⟨a, middle, hfirst, hsecond⟩ := bind_ok h
  obtain ⟨u, hu, hu', hu'', hencode⟩ := hread _ _ _ hfirst
  obtain ⟨v, hv, hv', hv'', hencodeAll⟩ := hafter a _ _ _ hsecond
  refine ⟨u ++ v, by rw [hu, hv, List.append_assoc], ?_, by simp [hu'', hv''], ?_⟩
  · rw [hv', hu', List.length_append, Nat.add_assoc]
  · rw [hencodeAll, hencode, List.zipWith_append hu''.symm, List.nil_append, List.append_assoc]

theorem byte_recovers : Recovers Read.byte (fun b => [b]) :=
  fun _ _ _ => rfl

theorem byte_ok {cursor next : Cursor} {b : UInt8} (h : Read.byte cursor = (.ok b, next)) :
    cursor.rest = b :: next.rest ∧ next.offset = cursor.offset + 1 := by
  obtain ⟨offset, rest⟩ := cursor
  cases rest with
  | nil => cases congrArg Prod.fst h
  | cons c rest =>
      cases h
      exact ⟨rfl, rfl⟩

theorem byte_rewrites : Rewrites [] Read.byte (fun b => [b]) [false] := by
  intro cursor next b h
  obtain ⟨hrest, hoffset⟩ := byte_ok h
  exact ⟨[b], hrest, hoffset, rfl, by simp [asWritten]⟩

theorem int32_rewrites : Rewrites [] Read.int32 encodeInt32 [false, false, false, false] := by
  rintro ⟨offset, rest⟩ next n h
  match rest with
  | b0 :: b1 :: b2 :: b3 :: rest =>
      cases h
      refine ⟨[b0, b1, b2, b3], rfl, rfl, rfl, ?_⟩
      rw [encodeInt32_join]
      simp [asWritten]
  | [] | [_] | [_, _] | [_, _, _] => cases congrArg Prod.fst h

section Code

/-! A byte that stands for something, each thing with a byte of its own. -/

variable {byte : α → UInt8} {ofByte? : UInt8 → Option α} {after : UInt8 → Read α}
  {unknown : UInt8 → StubError}

theorem recovers_code (ofByte?_byte : ∀ a, ofByte? (byte a) = some a)
    (known : ∀ {b a}, ofByte? b = some a → after b = pure a) :
    Recovers (Read.byte >>= after) (fun a => [byte a]) := by
  intro a offset rest
  rw [byte_recovers.bind_apply after (byte a), known (ofByte?_byte a)]
  rfl

theorem rewrites_code (byte_of_ofByte? : ∀ {b a}, ofByte? b = some a → byte a = b)
    (known : ∀ {b a}, ofByte? b = some a → after b = pure a)
    (unknown : ∀ {b}, ofByte? b = none → ∃ error, after b = throw error) :
    Rewrites [] (Read.byte >>= after) (fun a => [byte a]) [false] := by
  rw [← List.append_nil [false]]
  refine byte_rewrites.bind fun b => ?_
  cases found : ofByte? b with
  | none =>
      obtain ⟨error, herror⟩ := unknown found
      rw [herror]
      intro cursor next a h
      cases congrArg Prod.fst h
  | some a =>
      rw [known found, ← byte_of_ofByte? found]
      exact .pure _ a

end Code

theorem valueType_recovers : Recovers Read.valueType (fun type => [type.byte]) :=
  recovers_code ValueType.ofByte?_byte fun h => by rw [h]

theorem valueType_rewrites : Rewrites [] Read.valueType (fun type => [type.byte]) [false] :=
  rewrites_code ValueType.byte_of_ofByte? (fun h => by rw [h]) fun h => ⟨_, by rw [h]⟩

theorem classKind_recovers : Recovers Read.classKind (fun kind => [kind.byte]) :=
  recovers_code ClassKind.ofByte?_byte fun h => by rw [h]

theorem classKind_rewrites : Rewrites [] Read.classKind (fun kind => [kind.byte]) [false] :=
  rewrites_code ClassKind.byte_of_ofByte? (fun h => by rw [h]) fun h => ⟨_, by rw [h]⟩

theorem opcode_recovers : Recovers Read.opcode (fun opcode => [opcode.byte]) :=
  recovers_code Opcode.ofByte?_byte fun h => by rw [h]

theorem opcode_rewrites : Rewrites [] Read.opcode (fun opcode => [opcode.byte]) [false] :=
  rewrites_code Opcode.byte_of_ofByte? (fun h => by rw [h]) fun h => ⟨_, by rw [h]⟩

end Read

theorem Param.read_recovers (param : Param) : Read.Recovers param.read param.encode := by
  cases param with
  | use kind => exact Read.byte_recovers
  | result kind => exact Read.byte_recovers
  | typed =>
      rintro ⟨id, type⟩ offset rest
      exact (Read.byte_recovers.bind_apply _ id offset (type.byte :: rest)).trans
        (Read.valueType_recovers.bind_apply _ type (offset + 1) rest)
  | field => exact fun _ _ _ => rfl
  | flag =>
      intro b offset rest
      cases b <;> rfl
  | int32 => exact Read.int32_encode
  | valueType => exact Read.valueType_recovers
  | classKind => exact Read.classKind_recovers

theorem Param.read_rewrites (param : Param) :
    Read.Rewrites [] param.read param.encode param.flags := by
  cases param with
  | use kind => exact Read.byte_rewrites
  | result kind => exact Read.byte_rewrites
  | typed =>
      exact Read.byte_rewrites.bind fun id =>
        Read.valueType_rewrites.bind fun type => .pure Param.typed.encode ⟨id, type⟩
  | field => exact Read.byte_rewrites.bind fun b => .pure Param.field.encode ⟨b⟩
  | flag =>
      intro cursor next flag h
      obtain ⟨b, middle, hbyte, hpure⟩ := Read.bind_ok h
      obtain ⟨hrest, hoffset⟩ := Read.byte_ok hbyte
      cases hpure
      refine ⟨[b], hrest, hoffset, rfl, ?_⟩
      by_cases zero : b = 0 <;> simp [Param.encode, Param.flags, asWritten, zero]
  | int32 => exact Read.int32_rewrites
  | valueType => exact Read.valueType_rewrites
  | classKind => exact Read.classKind_rewrites

theorem Args.read_recovers (params : List Param) :
    Read.Recovers (Args.read params) (Args.encode params) := by
  induction params with
  | nil => exact fun _ _ _ => rfl
  | cons param params ih =>
      rintro ⟨arg, args⟩ offset rest
      rw [Args.encode, List.append_assoc, Args.read, param.read_recovers.bind_apply, ih.bind_apply,
        List.length_append, Nat.add_assoc]
      rfl

theorem Args.read_rewrites (params : List Param) :
    Read.Rewrites [] (Args.read params) (Args.encode params) (params.flatMap Param.flags) := by
  induction params with
  | nil => exact .pure (Args.encode []) ()
  | cons param params ih =>
      rw [List.flatMap_cons, ← List.append_nil (params.flatMap Param.flags)]
      exact param.read_rewrites.bind fun arg => ih.bind fun args =>
        .pure (Args.encode (param :: params)) (arg, args)

theorem Op.read_recovers : Read.Recovers Op.read Op.encode := by
  rintro ⟨opcode, args⟩ offset rest
  have hopcode := Read.opcode_recovers.bind_apply
    (fun opcode => do return Op.mk opcode (← Args.read opcode.signature)) opcode offset
    (Args.encode opcode.signature args ++ rest)
  refine hopcode.trans ?_
  rw [(Args.read_recovers opcode.signature).bind_apply]
  simp [Op.encode, Nat.add_assoc, Nat.add_comm 1]
  rfl

/-- An operation that is read is written as the bytes that were consumed, but for its flags. -/
theorem Op.read_rewrites {cursor next : Cursor} {op : Op} (h : Op.read cursor = (.ok op, next)) :
    ∃ consumed, cursor.rest = consumed ++ next.rest ∧
      next.offset = cursor.offset + consumed.length ∧
      consumed.length = op.opcode.flags.length ∧
      op.encode = List.zipWith asWritten op.opcode.flags consumed := by
  obtain ⟨opcode, middle, hopcode, hrest⟩ := Read.bind_ok h
  obtain ⟨args, stop, hargs, hpure⟩ := Read.bind_ok hrest
  cases hpure
  obtain ⟨u, hu, hu', hu'', hbyte⟩ := Read.opcode_rewrites _ _ _ hopcode
  obtain ⟨v, hv, hv', hv'', hencode⟩ := Args.read_rewrites _ _ _ _ hargs
  refine ⟨u ++ v, by rw [hu, hv, List.append_assoc], ?_,
    by simp [Opcode.flags, hu'', hv'', Nat.add_comm], ?_⟩
  · rw [hv', hu', List.length_append, Nat.add_assoc]
  · rw [show Opcode.flags _ = [false] ++ opcode.signature.flatMap Param.flags from rfl,
      List.zipWith_append hu''.symm, Op.encode, hencode]
    exact congrArg (· ++ _) hbyte

theorem Op.readMany_encode (ops : List Op) (offset : Nat) (trailing : List UInt8) :
    Op.readMany ops.length ⟨offset, ops.flatMap Op.encode ++ trailing⟩ =
      (.ok ops, ⟨offset + (ops.flatMap Op.encode).length, trailing⟩) := by
  induction ops generalizing offset with
  | nil => rfl
  | cons op ops ih =>
      rw [List.length_cons, Op.readMany, List.flatMap_cons, List.append_assoc,
        Op.read_recovers.bind_apply, Read.bind_apply, ih, List.length_append, Nat.add_assoc]
      rfl

/-- The wire form goes round both ways.  Operations are read back one by one from their bytes, and
the cursor stops at the first byte that is not theirs.  What is read from any bytes is written in as
many bytes as the cursor moved, the same ones but for flags, which are written as zero or one.  And
no read, one that fails included, moves the cursor backwards or past the end of the code. -/
theorem wire_form_round_trips :
    (∀ (ops : List Op) (offset : Nat) (trailing : List UInt8),
      Op.readMany ops.length ⟨offset, ops.flatMap Op.encode ++ trailing⟩ =
        (.ok ops, ⟨offset + (ops.flatMap Op.encode).length, trailing⟩)) ∧
    (∀ (code : List UInt8) (cursor next : Cursor) (op : Op), cursor.In code →
      Op.read cursor = (.ok op, next) →
        next.offset = cursor.offset + op.encode.length ∧
        op.opcode.flags.length = op.encode.length ∧
        op.encode = List.zipWith asWritten op.opcode.flags
          ((code.drop cursor.offset).take op.encode.length)) ∧
    Read.byte.StaysIn ∧ Read.int32.StaysIn ∧ Read.operand.StaysIn ∧ Read.field.StaysIn ∧
      Read.opcode.StaysIn ∧ (∀ param : Param, param.read.StaysIn) ∧
      (∀ params, (Args.read params).StaysIn) ∧ Op.read.StaysIn ∧
      (∀ count, (Op.readMany count).StaysIn) := by
  refine ⟨Op.readMany_encode, ?_, Read.Forward.byte.staysIn, Read.Forward.int32.staysIn,
    Read.Forward.byte.staysIn, Read.Forward.field.staysIn, Read.Forward.opcode.staysIn,
    fun param => (Read.Forward.param param).staysIn,
    fun params => (Read.Forward.args params).staysIn, Op.read_forward.staysIn,
    fun count => (Op.readMany_forward count).staysIn⟩
  intro code cursor next op inside h
  obtain ⟨consumed, hrest, hoffset, hflags, hencode⟩ := Op.read_rewrites h
  have hlength : op.encode.length = consumed.length := by simp [hencode, hflags]
  refine ⟨by rw [hoffset, hlength], by rw [← hflags, hlength], ?_⟩
  rw [hlength, ← inside.rest_eq, hrest, List.take_left]
  exact hencode

/-- A flag of five is read as true, and written as one. -/
theorem lenient_flag_is_rewritten :
    let code := [Opcode.loadBooleanResult.byte, 5, Opcode.returnFromIc.byte]
    let op : Op := ⟨.loadBooleanResult, true, ()⟩
    Cursor.In code (.start code) ∧
      Op.read (.start code) = (.ok op, ⟨2, [Opcode.returnFromIc.byte]⟩) ∧
      op.encode = List.zipWith asWritten [false, true] [Opcode.loadBooleanResult.byte, 5] ∧
      op.encode = [Opcode.loadBooleanResult.byte, 1] := by
  intro code op
  have inside : Cursor.In code (.start code) := ⟨Nat.zero_le _, rfl⟩
  have read : Op.read (.start code) = (.ok op, ⟨2, [Opcode.returnFromIc.byte]⟩) := rfl
  obtain ⟨-, -, written⟩ := wire_form_round_trips.2.1 code (.start code) _ op inside read
  exact ⟨inside, read, written, rfl⟩

end InlineCache
