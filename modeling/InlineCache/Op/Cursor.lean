import InlineCache.Op.Codec

/-!
Reads move the cursor forward and nowhere else: what a read leaves is a suffix of what it was given,
and an operation takes at least its opcode byte.
-/

namespace InlineCache

/-- The second cursor is the first one moved over some bytes of its rest. -/
def Cursor.Reaches (start stop : Cursor) : Prop :=
  ∃ consumed, start.rest = consumed ++ stop.rest ∧ stop.offset = start.offset + consumed.length

theorem Cursor.Reaches.refl (cursor : Cursor) : cursor.Reaches cursor :=
  ⟨[], rfl, rfl⟩

theorem Cursor.Reaches.trans {a b c : Cursor} (hab : a.Reaches b) (hbc : b.Reaches c) :
    a.Reaches c := by
  obtain ⟨u, hu, hu'⟩ := hab
  obtain ⟨v, hv, hv'⟩ := hbc
  refine ⟨u ++ v, by rw [hu, hv, List.append_assoc], ?_⟩
  rw [hv', hu', List.length_append]
  omega

theorem Cursor.Reaches.length_le {a b : Cursor} (h : a.Reaches b) :
    b.rest.length ≤ a.rest.length := by
  obtain ⟨u, hu, -⟩ := h
  rw [hu, List.length_append]
  omega

/-- A sequence of reads stops at the first failure. -/
theorem Read.bind_apply (read : Read α) (next : α → Read β) (cursor : Cursor) :
    (read >>= next) cursor =
      match read cursor with
      | (.ok a, middle) => next a middle
      | (.error error, middle) => (.error error, middle) := by
  show StateT.run (m := Id) (ExceptT.bindCont next (read cursor).1) (read cursor).2 = _
  rcases read cursor with ⟨_ | _, _⟩ <;> rfl

/-- A read that only moves the cursor forward. -/
def Read.Forward (read : Read α) : Prop :=
  ∀ cursor : Cursor, cursor.Reaches (read cursor).2

namespace Read.Forward

protected theorem pure (a : α) : Read.Forward (pure a : Read α) :=
  fun cursor => .refl cursor

protected theorem throw (error : StubError) : Read.Forward (throw error : Read α) :=
  fun cursor => .refl cursor

protected theorem bind {read : Read α} {next : α → Read β} (hread : Read.Forward read)
    (hnext : ∀ a, Read.Forward (next a)) : Read.Forward (read >>= next) := by
  intro cursor
  have h := hread cursor
  rw [Read.bind_apply]
  rcases hr : read cursor with ⟨error | a, middle⟩
  · rw [hr] at h
    exact h
  · rw [hr] at h
    exact h.trans (hnext a middle)

theorem byte : Read.Forward Read.byte := by
  intro cursor
  unfold Read.byte
  split
  · rename_i b rest h
    exact ⟨[b], h, rfl⟩
  · exact .refl cursor

theorem int32 : Read.Forward Read.int32 := by
  intro cursor
  unfold Read.int32
  split
  · rename_i b0 b1 b2 b3 rest h
    exact ⟨[b0, b1, b2, b3], h, rfl⟩
  · exact .refl cursor

theorem field : Read.Forward Read.field :=
  byte.bind fun _ => .pure _

theorem valueType : Read.Forward Read.valueType :=
  byte.bind fun b => by
    cases ValueType.ofByte? b
    · exact .throw _
    · exact .pure _

theorem classKind : Read.Forward Read.classKind :=
  byte.bind fun b => by
    cases ClassKind.ofByte? b
    · exact .throw _
    · exact .pure _

theorem opcode : Read.Forward Read.opcode :=
  byte.bind fun b => by
    cases Opcode.ofByte? b
    · exact .throw _
    · exact .pure _

theorem param (p : Param) : Read.Forward p.read := by
  cases p with
  | use kind => exact byte
  | result kind => exact byte
  | typed => exact byte.bind fun _ => valueType.bind fun _ => .pure _
  | field => exact field
  | flag => exact byte.bind fun _ => .pure _
  | int32 => exact int32
  | valueType => exact valueType
  | classKind => exact classKind

theorem args (params : List Param) : Read.Forward (Args.read params) := by
  induction params with
  | nil => exact .pure _
  | cons p params ih => exact (param p).bind fun _ => ih.bind fun _ => .pure _

end Read.Forward

theorem Op.read_forward : Read.Forward Op.read :=
  Read.Forward.opcode.bind fun _ => (Read.Forward.args _).bind fun _ => .pure _

/-- Nothing can be read from an empty rest. -/
theorem Op.read_nil (offset : Nat) :
    Op.read ⟨offset, []⟩ = (.error (.unexpectedEnd offset), ⟨offset, []⟩) :=
  rfl

theorem Op.read_rest_lt {cursor next : Cursor} {op : Op} (h : Op.read cursor = (.ok op, next)) :
    next.rest.length < cursor.rest.length := by
  obtain ⟨offset, rest⟩ := cursor
  cases rest with
  | nil =>
      rw [Op.read_nil] at h
      cases congrArg Prod.fst h
  | cons b rest =>
      rw [Op.read, Read.bind_apply] at h
      have hopcode : (Read.opcode ⟨offset, b :: rest⟩).2 = ⟨offset + 1, rest⟩ := by
        rw [Read.opcode, Read.bind_apply]
        simp only [Read.byte]
        cases Opcode.ofByte? b <;> rfl
      rcases hr : Read.opcode ⟨offset, b :: rest⟩ with ⟨error | opcode, middle⟩
      · rw [hr] at h
        cases congrArg Prod.fst h
      · rw [hr] at h hopcode
        have hforward : Cursor.Reaches middle next := by
          rw [show next = _ from (congrArg Prod.snd h).symm]
          exact ((Read.Forward.args opcode.signature).bind
            fun args => .pure (Op.mk opcode args)) middle
        have hlength := hforward.length_le
        rw [show middle = _ from hopcode] at hlength
        simpa [Nat.lt_succ_iff] using hlength

end InlineCache
