import InlineCache.Proofs.Uniform.View

/-!
What an operation writes to the registers that it holds, and how it comes to hold them.
-/

namespace InlineCache

namespace Shows

variable {entry : Entry} {origin : Machine} {view : View} {window : Option Window}
  {held : List (Nat × Register)} {own : List (Source × UInt64)}
  {float : Option (FloatRegister × Option Double)} {paths : List (Label × ExitStatus)}
  {labels : List Label} {a b : Assembler} {m n : Machine}

/-- A register that operands are not in is written: they hold what they held. -/
theorem contents_setReg {notes : Notes} (shows : Shows view notes a m) {reg : Register} {w : UInt64}
    {i : Nat} {content : Content}
    (elsewhere : (a.allocation.place i).resource? ≠ some (.register reg))
    (found : a.allocation.content (m.setReg reg w) i = some content) :
    view.contents i = some content ∨ ∃ w, notes.window = some w ∧ w.result = i :=
  shows.shown i content ((Location.content?_setReg elsewhere m w).symm.trans found)

/-- The first scratch register is written. -/
theorem set {reg : Register} {old : UInt64} (new : UInt64)
    (shows : Shows view ⟨window, held, (.reg reg, old) :: own, float, paths, labels⟩ a m) :
    Shows view ⟨window, held, (.reg reg, new) :: own, float, paths, labels⟩ a (m.setReg reg new) := by
  obtain ⟨config, balanced⟩ := shows.balanced
  obtain ⟨scratch, -⟩ := shows.scratch reg old (.head _)
  have alone := balanced.not_place_of_scratch scratch
  have distinct := List.pairwise_cons.mp shows.apart
  exact
    { shows with
      shown := fun i content found => shows.contents_setReg (alone i) found
      opened := by
        intro w opens
        obtain ⟨place, pinned, written, fresh⟩ := shows.opened w opens
        refine ⟨place, pinned, fun word wrote => ?_, fresh⟩
        refine Eq.trans (if_neg ?_) (written word wrote)
        intro same
        exact alone w.result (by rw [place, ← same]; rfl)
      own := by
        rintro ⟨source, w⟩ member
        rcases List.mem_cons.mp member with same | before
        · cases same
          exact if_pos rfl
        · refine Machine.sources_setReg new (List.forall_mem_cons.mp shows.own).2 ?_ _ before
          exact fun w member => distinct.1 _ member reg rfl rfl
      scratch := by
        intro other w member
        rcases List.mem_cons.mp member with same | before
        · cases same
          exact shows.scratch reg old (.head _)
        · exact shows.scratch other w (.tail _ before)
      apart := List.pairwise_cons.mpr ⟨fun fact member => distinct.1 fact member, distinct.2⟩ }

/-- The register of the operand that is being defined is written. -/
theorem fill {result : Nat} {reg : Register} {type : PayloadType} {old : Option UInt64}
    (new : UInt64)
    (shows : Shows view ⟨some ⟨result, reg, type, old⟩, held, own, float, paths, labels⟩ a m) :
    Shows view ⟨some ⟨result, reg, type, some new⟩, held, own, float, paths, labels⟩ a
      (m.setReg reg new) := by
  obtain ⟨config, balanced⟩ := shows.balanced
  obtain ⟨place, pinned, -, fresh⟩ := shows.opened _ rfl
  have located : (a.allocation.place result).resource? = some (.register reg) := by
    rw [place]
    rfl
  exact
    { shows with
      shown := by
        intro i content found
        by_cases own : i = result
        · exact .inr ⟨_, rfl, own.symm⟩
        · have elsewhere : (a.allocation.place i).resource? ≠ some (.register reg) :=
            fun shared => own (balanced.place_unique shared located)
          refine (shows.contents_setReg elsewhere found).imp_right ?_
          rintro ⟨_, ⟨⟩, same⟩
          exact ⟨_, rfl, same⟩
      opened := by
        rintro w ⟨⟩
        refine ⟨place, pinned, ?_, fresh⟩
        rintro word ⟨⟩
        exact if_pos rfl
      held := by
        intro note member
        obtain ⟨pinned, listed, apart⟩ := shows.held note member
        refine ⟨pinned, listed, ?_⟩
        rintro w ⟨⟩
        exact apart ⟨result, reg, type, old⟩ rfl
      own := Machine.sources_setReg new shows.own fun w member =>
        balanced.not_place_of_scratch (shows.scratch _ w member).1 _ located }

/-- Whatever was written there is not what is wanted. -/
theorem blank {result : Nat} {reg : Register} {type : PayloadType} {word : Option UInt64}
    (shows : Shows view ⟨some ⟨result, reg, type, word⟩, held, own, float, paths, labels⟩ a m) :
    Shows view ⟨some ⟨result, reg, type, none⟩, held, own, float, paths, labels⟩ a m :=
  { shows with
    shown := by
      intro i content found
      refine (shows.shown i content found).imp_right ?_
      rintro ⟨_, ⟨⟩, same⟩
      exact ⟨_, rfl, same⟩
    opened := by
      rintro _ ⟨⟩
      obtain ⟨place, pinned, -, fresh⟩ := shows.opened _ rfl
      exact ⟨place, pinned, fun _ impossible => absurd impossible.symm (Option.some_ne_none _), fresh⟩
    held := by
      intro note member
      obtain ⟨pinned, located, apart⟩ := shows.held note member
      refine ⟨pinned, located, ?_⟩
      rintro _ ⟨⟩
      exact apart ⟨result, reg, type, word⟩ rfl }

theorem setFloat {reg : FloatRegister} {old : Option Double} (d : Double)
    (shows : Shows view ⟨window, held, own, some (reg, old), paths, labels⟩ a m) :
    Shows view ⟨window, held, own, some (reg, some d), paths, labels⟩ a (m.setFloat reg d) := by
  obtain ⟨config, balanced⟩ := shows.balanced
  obtain ⟨scratch, -⟩ := shows.float reg old rfl
  have alone := balanced.not_place_of_scratchFloat scratch
  exact
    { shows with
      shown := fun i content found => shows.shown i content
        ((Location.content?_setFloat (alone i) m d).symm.trans found)
      own := Machine.sources_congr shows.own fun _ _ _ => rfl
      float := by
        rintro other number ⟨⟩
        refine ⟨scratch, ?_⟩
        rintro value ⟨⟩
        exact if_pos rfl }

/-- An operand that an operation has asked for. -/
theorem grasp (shows : Shows view ⟨window, held, own, float, paths, labels⟩ a m) {i : Nat}
    {reg : Register} (located : (a.allocation.place i).register? = some reg)
    (pinned : a.allocation.pinned.contains reg.index = true)
    (apart : ∀ w, window = some w → w.result ≠ i) :
    Shows view ⟨window, (i, reg) :: held, own, float, paths, labels⟩ a m :=
  { shows with held := List.forall_mem_cons.mpr ⟨⟨pinned, located, apart⟩, shows.held⟩ }

/-- A scratch register that was not held before. -/
theorem grab (shows : Shows view ⟨window, held, own, float, paths, labels⟩ a m) {reg : Register}
    (scratch : a.allocation.scratch.contains reg.index = true)
    (pinned : a.allocation.pinned.contains reg.index = true) (other : ∀ w, (.reg reg, w) ∉ own) :
    Shows view ⟨window, held, (.reg reg, m.regs reg) :: own, float, paths, labels⟩ a m :=
  { shows with
    own := List.forall_mem_cons.mpr ⟨rfl, shows.own⟩
    scratch := by
      intro taken w member
      rcases List.mem_cons.mp member with same | before
      · cases same
        exact ⟨scratch, pinned⟩
      · exact shows.scratch taken w before
    apart := by
      refine List.pairwise_cons.mpr ⟨?_, shows.apart⟩
      rintro ⟨source, w⟩ member taken ⟨⟩ rfl
      exact other w member }

/-- A word that stands in the code. -/
theorem quote (shows : Shows view ⟨window, held, own, float, paths, labels⟩ a m) (word : UInt64) :
    Shows view ⟨window, held, (.imm word, word) :: own, float, paths, labels⟩ a m :=
  { shows with
    own := List.forall_mem_cons.mpr ⟨rfl, shows.own⟩
    scratch := by
      intro reg w member
      rcases List.mem_cons.mp member with impossible | before
      · cases impossible
      · exact shows.scratch reg w before
    apart := List.pairwise_cons.mpr
      ⟨fun _ _ _ impossible => Source.noConfusion impossible, shows.apart⟩ }

/-- A scratch register is given back. -/
theorem drop {front back : List (Source × UInt64)} {reg : Register} {w : UInt64}
    (shows : Shows view
      ⟨window, held, front ++ (.reg reg, w) :: back, float, paths, labels⟩ a m) :
    Shows view ⟨window, held, front ++ back, float, paths, labels⟩
      (a.withAllocation (a.allocation.release reg)) m := by
  obtain ⟨config, balanced⟩ := shows.balanced
  obtain ⟨scratch, -⟩ := shows.scratch reg w (List.mem_append_right _ (.head _))
  have fewer : (front ++ back).Sublist (front ++ (.reg reg, w) :: back) :=
    (List.sublist_cons_self _ _).append_left _
  exact
    { shows with
      balanced := ⟨config, balanced.release scratch⟩
      opened := by
        intro w opens
        obtain ⟨place, pinned, rest⟩ := shows.opened w opens
        have located : (a.allocation.place w.result).register? = some w.reg := by
          rw [place]
          rfl
        exact ⟨place, balanced.pinned_remove scratch located pinned, rest⟩
      held := by
        intro note member
        obtain ⟨pinned, located, apart⟩ := shows.held note member
        exact ⟨balanced.pinned_remove scratch located pinned, located, apart⟩
      own := fun note member => shows.own note (fewer.subset member)
      scratch := by
        intro other v member
        obtain ⟨scratch, pinned⟩ := shows.scratch other v (fewer.subset member)
        have different := index_ne_of_apart shows.apart member
        exact ⟨(RegisterSet.contains_remove_of_ne different).trans scratch,
          (RegisterSet.contains_remove_of_ne different).trans pinned⟩
      apart := shows.apart.sublist fewer }

theorem aim (shows : Shows view ⟨window, held, own, float, paths, labels⟩ a m) {label : Label}
    {status : ExitStatus} (listed : ∃ path ∈ a.exits, path.label = label ∧ path.status = status) :
    Shows view ⟨window, held, own, float, (label, status) :: paths, labels⟩ a m :=
  { shows with paths := List.forall_mem_cons.mpr ⟨listed, shows.paths⟩ }

/-- A label that has been asked for is none of those before. -/
theorem ask (shows : Shows view ⟨window, held, own, float, paths, labels⟩ a m) :
    Shows view ⟨window, held, own, float, paths, a.buffer.labels :: labels⟩
      { a with buffer := a.buffer.newLabel.2 } m :=
  { shows.stay (b := { a with buffer := a.buffer.newLabel.2 }) rfl (fun _ member => member)
      (Nat.le_succ _) with
    given := List.forall_mem_cons.mpr
      ⟨Nat.lt_succ_self _, fun label member => Nat.lt_succ_of_lt (shows.given label member)⟩
    distinct := List.nodup_cons.mpr
      ⟨fun member => Nat.lt_irrefl _ (shows.given _ member), shows.distinct⟩ }

/-- A tag of an operand is taken as proven. -/
theorem learn {notes : Notes} (shows : Shows view notes a m) {id : OperandId} {type : ValueType}
    (defined : a.allocation.defined id.toNat = true) (single : type ≠ .double) :
    Shows (view.learn id.toNat type) notes
      (a.withAllocation (a.allocation.setKnownType id type)) m :=
  { shows with
    balanced := by
      obtain ⟨config, balanced⟩ := shows.balanced
      exact ⟨config, balanced.setKnownType id type⟩
    shown := fun i content found => shows.shown i content
      ((congrArg (·.content? m) (Allocation.place_setKnownType _ _ _ _)).symm.trans found)
    known := by
      intro i
      rw [Assembler.allocation_withAllocation, Allocation.known_setKnownType, View.known_learn]
      by_cases own : i = id.toNat
      · rw [if_pos ⟨own.symm, own ▸ Allocation.lt_of_defined defined⟩, if_pos own]
      · rw [if_neg fun same => own same.1.symm, if_neg own]
        exact shows.known i
    defined := fun i content found =>
      (Allocation.defined_setKnownType _ _ _ _).trans (shows.defined i content found)
    single := by
      intro i
      rw [View.known_learn]
      split
      · exact fun same => single (Option.some.inj same)
      · exact shows.single i
    opened := by
      intro w opens
      obtain ⟨place, rest⟩ := shows.opened w opens
      exact ⟨(Allocation.place_setKnownType _ _ _ _).trans place, rest⟩
    held := by
      intro note member
      obtain ⟨pinned, located, apart⟩ := shows.held note member
      exact ⟨pinned, (congrArg _ (Allocation.place_setKnownType _ _ _ _)).trans located, apart⟩ }

/-- An operand takes another form in the register that it is in. -/
theorem convert {notes : Notes} (shows : Shows view notes a m) (i : Nat) {reg : Register}
    (location : Location) {form : Form} (w : UInt64)
    (located : (a.allocation.place i).register? = some reg)
    (apart : ∀ window, notes.window = some window → window.result ≠ i)
    (register : location.register? = some reg) (formed : location.form? = some form)
    (single : form ≠ .double) :
    Shows (view.store i ⟨form, w⟩) notes
      (a.withAllocation (a.allocation.setLocation i location)) (m.setReg reg w) := by
  obtain ⟨config, balanced⟩ := shows.balanced
  have resource := Location.resource?_eq_register.mpr located
  have somewhere : a.allocation.place i ≠ .nowhere := by
    intro empty
    rw [empty] at located
    cases located
  have place : (a.allocation.setLocation i location).place i = location :=
    Allocation.place_setLocation_self (Allocation.lt_of_place somewhere)
  have others {j : Nat} (other : j ≠ i) :
      (a.allocation.setLocation i location).place j = a.allocation.place j :=
    Allocation.place_setLocation_ne (Ne.symm other)
  have elsewhere {j : Nat} (other : j ≠ i) :
      (a.allocation.place j).resource? ≠ some (.register reg) :=
    fun shared => other (balanced.place_unique shared resource)
  have word : (m.setReg reg w).wordAt location = w := by
    cases location with
    | payloadReg found type | valueReg found =>
        cases register
        exact if_pos rfl
    | _ => cases register
  exact
    { shows with
      balanced := ⟨config, balanced.relist somewhere
        ((Location.resource?_eq_register.mpr register).trans resource.symm)⟩
      shown := by
        intro j content found
        rw [View.contents_store]
        by_cases own : j = i
        · subst own
          rw [Assembler.allocation_withAllocation, Allocation.content_of_place place,
            Location.content?, formed, word] at found
          exact .inl ((if_pos rfl).trans found)
        · rw [if_neg own]
          rw [Assembler.allocation_withAllocation,
            Allocation.content_of_place (others own)] at found
          exact shows.contents_setReg (elsewhere own) found
      known := fun j => (Allocation.known_setLocation _ _ _ _).trans (shows.known j)
      defined := by
        intro j content found
        refine (Allocation.defined_setLocation _ _ _ _).trans ?_
        rw [View.contents_store] at found
        split at found
        · rename_i own
          exact own ▸ balanced.placed i somewhere
        · exact shows.defined j content found
      formed := by
        intro j content found
        rw [View.contents_store] at found
        split at found
        · cases found
          exact single
        · exact shows.formed j content found
      opened := by
        intro window opens
        obtain ⟨inside, pinned, written, fresh⟩ := shows.opened window opens
        have different := apart window opens
        refine ⟨(others different).trans inside, pinned, fun word wrote => ?_,
          (if_neg different).trans fresh⟩
        refine Eq.trans (if_neg ?_) (written word wrote)
        intro same
        exact elsewhere different (by rw [inside, ← same]; rfl)
      held := by
        intro note member
        obtain ⟨pinned, listed, aside⟩ := shows.held note member
        refine ⟨pinned, ?_, aside⟩
        by_cases own : note.1 = i
        · rw [own] at listed ⊢
          rw [Assembler.allocation_withAllocation, place, register]
          exact located.symm.trans listed
        · exact (congrArg _ (others own)).trans listed
      own := Machine.sources_setReg w shows.own fun v member =>
        balanced.not_place_of_scratch (shows.scratch _ v member).1 i resource }

end Shows

end InlineCache
