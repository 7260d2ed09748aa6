import InlineCache.Proofs.Emit.Blank
import InlineCache.Proofs.Emit.Settles

/-!
The trail of an operand through code while it is made.  Where the code so far goes on, and where it waits for
a label that is still to be bound, the operand is blank at the place that the allocator has on record.
-/

namespace InlineCache

/-- An operand that is followed along a speculative run, from a place behind some code. -/
structure Trail where
  run : Speculation
  operand : Nat
  passed : List Inst
  start : Location

namespace Trail

/-- The operand has come to a place.  It is blank there, on the way to an open label too. -/
structure Follows (trail : Trail) (opened : List Label) (place : Location) (known : Option ValueType)
    (buffer : CodeBuffer) : Prop where
  code : ∃ insts, buffer.insts.toList = trail.passed ++ insts ∧ trail.start.along insts = place ∧
    trail.run.BlankAlong trail.passed trail.start insts
  here : ∀ m, trail.run.flow buffer.insts.toList = .running none m → place.BlankIn known m
  waits : ∀ label m, trail.run.flow buffer.insts.toList = .running (some label) m →
    label < buffer.labels ∧ (label ∈ opened → place.BlankIn known m)

/-- The operand is where the allocator has it. -/
def Tracks (trail : Trail) (opened : List Label) (state : Assembler) : Prop :=
  trail.Follows opened (state.allocation.place trail.operand)
    (state.allocation.known trail.operand) state.buffer

theorem Tracks.relabel {trail : Trail} {opened : List Label} {before after : Assembler}
    (tracks : trail.Tracks opened before) (code : after.buffer = before.buffer)
    (place : after.allocation.place trail.operand = before.allocation.place trail.operand)
    (known : after.allocation.known trail.operand = before.allocation.known trail.operand) :
    trail.Tracks opened after := by
  rw [Tracks, code, place, known]
  exact tracks

namespace Follows

variable {trail : Trail} {opened : List Label} {place next : Location} {known tag : Option ValueType}
  {buffer : CodeBuffer} {inst : Inst} {label : Label}

/-- An instruction takes the operand along.  Nothing may wait meanwhile where it was before. -/
theorem emit (follows : trail.Follows opened place known buffer) (plain : inst.bound? = none)
    (moved : place.through inst = next)
    (reads : ∀ m, place.BlankIn known m → ∀ base, inst.base? = some base →
      place.register? = some base → m.regs base = 0)
    (keeps : ∀ guess m n, place.BlankIn known m →
      inst.speculate trail.run.entry guess m = .next n → next.BlankIn tag n)
    (leaves : ∀ guess m n label, place.BlankIn known m →
      inst.speculate trail.run.entry guess m = .jump label n → label ∈ opened → next.BlankIn tag n)
    (still : opened = [] ∨ next = place ∧ tag = known)
    (targets : ∀ label ∈ inst.targets, label < buffer.labels) :
    trail.Follows opened next tag (buffer.emit inst) := by
  obtain ⟨⟨insts, code, rfl, along⟩, here, waits⟩ := follows
  have listed : (buffer.emit inst).insts.toList = buffer.insts.toList ++ [inst] := Array.toList_push
  have moved : trail.start.along (insts ++ [inst]) = next :=
    (Location.along_concat ..).trans moved
  have blank (m : Machine) (flow : trail.run.flow (buffer.insts.toList ++ [inst]) = .running none m) :
      next.BlankIn tag m := by
    rcases Speculation.flow_concat_running flow with ⟨m, before, goes⟩ | ⟨label, -, same⟩
    · exact keeps _ _ _ (here m before) (Flow.next_of_ofEffect goes)
    · split at same
      · rename_i bound
        rw [bound] at plain
        cases plain
      · cases same
  refine ⟨⟨insts ++ [inst], ?_, moved, along.concat (fun m flow => ?_) fun m flow => ⟨tag, ?_⟩⟩, ?_, ?_⟩
  · rw [listed, code, List.append_assoc]
  · exact reads m (here m (code ▸ flow))
  · rw [moved]
    exact blank m (by rwa [code, List.append_assoc])
  · rw [listed]
    exact blank
  · intro label m flow
    rw [listed] at flow
    rcases Speculation.flow_concat_running flow with ⟨m, before, goes⟩ | ⟨other, waiting, same⟩
    · have jumps := Flow.jump_of_ofEffect goes
      exact ⟨targets label (Inst.mem_targets_of_speculate jumps),
        leaves _ _ _ label (here m before) jumps⟩
    · split at same
      · cases same
      · cases same
        obtain ⟨bound, blank⟩ := waits label m waiting
        refine ⟨bound, fun member => ?_⟩
        rcases still with rfl | ⟨rfl, rfl⟩
        · cases member
        · exact blank member

/-- An instruction that goes nowhere moves the operand. -/
theorem move (follows : trail.Follows [] place known buffer) (plain : inst.bound? = none)
    (moved : place.through inst = next) (base : inst.base? = none) (targets : inst.targets = [])
    (keeps : ∀ guess m n, place.BlankIn known m →
      inst.speculate trail.run.entry guess m = .next n → next.BlankIn tag n) :
    trail.Follows [] next tag (buffer.emit inst) :=
  follows.emit plain moved (fun _ _ _ found => nomatch (base.symm.trans found)) keeps
    (fun _ _ _ _ _ _ member => nomatch member) (.inl rfl) fun _ member => nomatch (targets ▸ member)

/-- An instruction that has nothing to do with the operand, and accesses nothing. -/
theorem apart (follows : trail.Follows opened place known buffer) (plain : inst.bound? = none)
    (targets : inst.targets = []) (base : inst.base? = none) (zeroed : inst.zeroed? = none)
    (apart : inst.Apart place) : trail.Follows opened place known (buffer.emit inst) := by
  have kept {guess : Guess} {m n : Machine} (blank : place.BlankIn known m)
      (goes : (inst.speculate trail.run.entry guess m).machine? = some n) : place.BlankIn known n :=
    blank.leaves (Inst.leaves_of_speculate goes) apart
      fun reg named => nomatch (zeroed.symm.trans named)
  refine follows.emit plain (Location.through_eq apart) (fun _ _ reg found => ?_)
    (fun guess m n blank goes => kept blank (congrArg Effect.machine? goes))
    (fun guess m n label blank jumps _ => kept blank (congrArg Effect.machine? jumps))
    (.inr ⟨rfl, rfl⟩) fun _ member => nomatch (targets ▸ member)
  cases base.symm.trans found

/-- Where a label is bound the operand is blank, whichever way one comes. -/
theorem bind (follows : trail.Follows (label :: opened) place known buffer) :
    trail.Follows opened place known (buffer.emit (.bind label)) := by
  obtain ⟨⟨insts, code, rfl, along⟩, here, waits⟩ := follows
  have listed : (buffer.emit (.bind label)).insts.toList = buffer.insts.toList ++ [.bind label] :=
    Array.toList_push
  have moved : trail.start.along (insts ++ [.bind label]) = trail.start.along insts :=
    Location.along_concat ..
  have blank (m : Machine)
      (flow : trail.run.flow (buffer.insts.toList ++ [.bind label]) = .running none m) :
      (trail.start.along insts).BlankIn known m := by
    rcases Speculation.flow_concat_running flow with ⟨m, before, goes⟩ | ⟨other, waiting, same⟩
    · cases goes
      exact here _ before
    · split at same
      · rename_i bound
        cases bound
        exact (waits label m waiting).2 (.head _)
      · cases same
  refine ⟨⟨insts ++ [.bind label], ?_, moved, along.concat (fun _ _ _ found => nomatch found)
    fun m flow => ⟨known, ?_⟩⟩, ?_, ?_⟩
  · rw [listed, code, List.append_assoc]
  · rw [moved]
    exact blank m (by rwa [code, List.append_assoc])
  · rw [listed]
    exact blank
  · intro other m flow
    rw [listed] at flow
    rcases Speculation.flow_concat_running flow with ⟨m, -, goes⟩ | ⟨before, waiting, same⟩
    · cases goes
    · split at same
      · cases same
      · cases same
        exact (waits other m waiting).imp id fun blank member => blank (.tail _ member)

/-- Labels that are handed out are gone to by nothing yet. -/
theorem more_labels (follows : trail.Follows opened place known buffer) (after : CodeBuffer)
    (code : after.insts = buffer.insts) (labels : buffer.labels ≤ after.labels) {fresh : List Label}
    (new : ∀ label ∈ fresh, buffer.labels ≤ label) :
    trail.Follows (fresh ++ opened) place known after := by
  obtain ⟨before, here, waits⟩ := follows
  refine ⟨code ▸ before, code ▸ here, fun label m flow => ?_⟩
  obtain ⟨bound, blank⟩ := waits label m (code ▸ flow)
  refine ⟨Nat.lt_of_lt_of_le bound labels, fun member => ?_⟩
  rcases List.mem_append.mp member with fresh | old
  · exact absurd (new label fresh) (Nat.not_le_of_lt bound)
  · exact blank old

end Follows

end Trail

namespace Asm

variable {trail : Trail} {state middle after fetched : Assembler} {config : CodeConfig}
  {flight : List Resource} {reg : Register} {id : OperandId} {slot : Nat}

theorem TakesRegister.tracks (takes : TakesRegister state reg after)
    (balanced : state.allocation.Balanced config flight) (tracks : trail.Tracks [] state) :
    trail.Tracks [] after := by
  cases takes with
  | pool => exact tracks
  | spill victim slot _ held _ unused _ =>
      have known : (state.allocation.spill victim slot).known trail.operand =
          state.allocation.known trail.operand := Allocation.known_setLocation _ _ _ _
      show trail.Follows [] ((state.allocation.spill victim slot).place trail.operand)
        ((state.allocation.spill victim slot).known trail.operand) _
      rw [known]
      by_cases own : victim = trail.operand
      · subst own
        rw [Allocation.place_spill held]
        refine tracks.move rfl (if_pos held) rfl rfl ?_
        rintro guess m _ blank ⟨⟩
        exact blank.spilled held slot
      · have same : (state.allocation.spill victim slot).place trail.operand =
            state.allocation.place trail.operand := Allocation.place_setLocation_ne own
        rw [same]
        refine tracks.apart rfl rfl rfl rfl fun resource touched located => ?_
        simp only [Inst.touches, Inst.written?, Inst.filled?, Option.map_none, Option.map_some,
          Option.toList_none, Option.toList_some, List.nil_append, List.cons_append, List.mem_cons,
          List.not_mem_nil, or_false] at touched
        rcases touched with rfl | rfl
        · exact unused (balanced.used_of_place _ located)
        · exact own (balanced.place_unique (Location.resource?_eq_register.mpr held) located)

/-- An operand, be it the one on the trail or another, is loaded from its slot. -/
theorem TakesRegister.reload_follows (takes : TakesRegister state reg middle) (id : OperandId)
    (slot : Nat) (balanced : state.allocation.Balanced config flight)
    (slotted : (state.allocation.place id.toNat).slot? = some slot) (tracks : trail.Tracks [] state) :
    trail.Follows []
      (if id.toNat = trail.operand then (state.allocation.place id.toNat).reloaded reg
        else middle.allocation.place trail.operand)
      (state.allocation.known trail.operand) (middle.buffer.emit (.restore reg slot)) := by
  have taken := takes.balanced balanced
  have tracked := takes.tracks balanced tracks
  have known := takes.known trail.operand
  have same := takes.place id.toNat (Location.register?_of_slot? slotted)
  rw [← known]
  split
  · rename_i own
    rw [own] at same slotted ⊢
    rw [← same] at slotted ⊢
    refine tracked.move rfl (if_pos slotted) rfl rfl ?_
    rintro guess m _ blank ⟨⟩
    exact blank.reloaded slotted reg
  · rename_i other
    refine tracked.apart rfl rfl rfl rfl fun resource touched located => ?_
    simp only [Inst.touches, Inst.written?, Inst.filled?, Option.map_none, Option.map_some,
      Option.toList_none, Option.toList_some, List.append_nil, List.cons_append, List.nil_append,
      List.mem_cons, List.not_mem_nil, or_false] at touched
    rcases touched with rfl | rfl
    · exact taken.not_place_of_flight (.head _) _ located
    · refine other (taken.place_unique ?_ located)
      rw [same]
      exact Location.resource?_eq_slot.mpr slotted

/-- Its form is changed in place. -/
theorem box_follows {type : PayloadType} {tag : ValueType} {place : Location}
    {known : Option ValueType} {buffer : CodeBuffer}
    (follows : trail.Follows [] (if id.toNat = trail.operand then .payloadReg reg type else place)
      known buffer) (tagged : type.valueType? = some tag)
    (alone : id.toNat ≠ trail.operand → place.resource? ≠ some (.register reg)) :
    trail.Follows [] (if id.toNat = trail.operand then .valueReg reg else place)
      (if id.toNat = trail.operand then some tag else known) (buffer.emit (.boxPayload reg reg type)) := by
  split
  · rename_i own
    rw [if_pos own] at follows
    refine follows.move rfl (if_pos ⟨rfl, rfl⟩) rfl rfl ?_
    rintro guess m _ blank ⟨⟩
    exact blank.boxed tagged
  · rename_i other
    rw [if_neg other] at follows
    refine follows.apart rfl rfl rfl rfl fun resource touched => ?_
    cases List.mem_singleton.mp touched
    exact alone other

theorem unbox_follows {type : PayloadType} {place : Location} {known : Option ValueType}
    {buffer : CodeBuffer}
    (follows : trail.Follows [] (if id.toNat = trail.operand then .valueReg reg else place) known buffer)
    (proven : id.toNat = trail.operand → known.bind PayloadType.ofValueType? = some type)
    (alone : id.toNat ≠ trail.operand → place.resource? ≠ some (.register reg)) :
    trail.Follows [] (if id.toNat = trail.operand then .payloadReg reg type else place) known
      (buffer.emit (.unboxPayload reg reg type)) := by
  split
  · rename_i own
    rw [if_pos own] at follows
    refine follows.move rfl (if_pos ⟨rfl, rfl⟩) rfl rfl ?_
    rintro guess m _ blank ⟨⟩
    exact blank.unboxed (proven own)
  · rename_i other
    rw [if_neg other] at follows
    refine follows.apart rfl rfl rfl rfl fun resource touched => ?_
    cases List.mem_singleton.mp touched
    exact alone other

/-- An operand is listed at the place that it has come to. -/
theorem tracks_listed {location : Location}
    (follows : trail.Follows []
      (if id.toNat = trail.operand then location else state.allocation.place trail.operand)
      (state.allocation.known trail.operand) state.buffer)
    (bound : id.toNat < state.allocation.operands.length) :
    trail.Tracks [] (state.withAllocation (state.allocation.setLocation id.toNat location)) := by
  have place : (state.allocation.setLocation id.toNat location).place trail.operand =
      if id.toNat = trail.operand then location else state.allocation.place trail.operand := by
    rw [Allocation.place_setLocation]
    simp only [bound, and_true]
  have known : (state.allocation.setLocation id.toNat location).known trail.operand =
      state.allocation.known trail.operand := Allocation.known_setLocation _ _ _ _
  show trail.Follows [] ((state.allocation.setLocation id.toNat location).place trail.operand)
    ((state.allocation.setLocation id.toNat location).known trail.operand) state.buffer
  rw [place, known]
  exact follows

theorem ite_place {allocation : Allocation} {location : Location}
    (place : allocation.place id.toNat = location) (operand : Nat) :
    (if id.toNat = operand then location else allocation.place operand) = allocation.place operand := by
  split
  · rename_i own
    rw [← own, place]
  · rfl

theorem FetchesValue.tracks (fetches : FetchesValue state id reg fetched)
    (balanced : state.allocation.Balanced config flight)
    (single : (state.allocation.place id.toNat).form? ≠ some .double)
    (bound : id.toNat < state.allocation.operands.length) (tracks : trail.Tracks [] state) :
    trail.Tracks []
      (fetched.withAllocation (fetched.allocation.setLocation id.toNat (.valueReg reg))) := by
  refine tracks_listed ?_ ((fetches.revises bound).length.symm ▸ bound)
  have alone {allocation : Allocation} (level : allocation.Balanced config flight)
      (held : (allocation.place id.toNat).resource? = some (.register reg))
      (other : id.toNat ≠ trail.operand) :
      (allocation.place trail.operand).resource? ≠ some (.register reg) :=
    alone_at level held _ (Ne.symm other)
  have learned (allocation : Allocation) (tag : ValueType) (inside : id.toNat < allocation.operands.length) :
      (allocation.setKnownType id tag).known trail.operand =
        if id.toNat = trail.operand then some tag else allocation.known trail.operand := by
    rw [Allocation.known_setKnownType]
    by_cases own : id.toNat = trail.operand
    · rw [if_pos own, if_pos ⟨own, own ▸ inside⟩]
    · rw [if_neg own, if_neg fun both => own both.1]
  cases fetches with
  | valueReg place =>
      rw [ite_place place]
      exact tracks
  | payloadReg type tag place tagged =>
      have here : trail.Follows []
          (if id.toNat = trail.operand then .payloadReg reg type else state.allocation.place trail.operand)
          (state.allocation.known trail.operand) state.buffer := by
        rw [ite_place place]
        exact tracks
      have boxed := box_follows here tagged (alone balanced (by rw [place]; rfl))
      rw [← learned state.allocation tag bound] at boxed
      rw [Assembler.allocation_withAllocation, Allocation.place_setKnownType]
      exact boxed
  | valueSlot slot middle place takes =>
      have loaded := takes.reload_follows id slot balanced (by rw [place]; rfl) tracks
      rw [place, ← takes.known] at loaded
      exact loaded
  | payloadSlot slot type tag middle place takes tagged =>
      have loaded := takes.reload_follows id slot balanced (by rw [place]; rfl) tracks
      rw [place, ← takes.known] at loaded
      have boxed := box_follows loaded tagged fun _ =>
        (takes.balanced balanced).not_place_of_flight (.head _) _
      rw [← learned middle.allocation tag (takes.length.symm ▸ bound)] at boxed
      rw [Assembler.allocation_withAllocation, Allocation.place_setKnownType]
      exact boxed
  | floatReg float middle _ place => exact absurd (place ▸ rfl) single
  | floatSlot slot float first middle _ place => exact absurd (place ▸ rfl) single

theorem FetchesPayload.tracks {type : PayloadType} (fetches : FetchesPayload state id reg type fetched)
    (balanced : state.allocation.Balanced config flight)
    (bound : id.toNat < state.allocation.operands.length) (tracks : trail.Tracks [] state) :
    trail.Tracks []
      (fetched.withAllocation (fetched.allocation.setLocation id.toNat (.payloadReg reg type))) := by
  refine tracks_listed ?_ (fetches.alike.1.length.symm ▸ bound)
  cases fetches with
  | payloadReg place =>
      rw [ite_place place]
      exact tracks
  | valueReg place proven =>
      rw [Assembler.allocation_emitted]
      refine unbox_follows (by rw [ite_place place]; exact tracks) (fun own => by rw [← own]; exact proven)
        fun other => alone_at balanced (by rw [place]; rfl) _ (Ne.symm other)
  | payloadSlot slot middle place takes =>
      have loaded := takes.reload_follows id slot balanced (by rw [place]; rfl) tracks
      rw [place, ← takes.known] at loaded
      exact loaded
  | valueSlot slot middle place proven takes =>
      have loaded := takes.reload_follows id slot balanced (by rw [place]; rfl) tracks
      rw [place] at loaded
      have unboxed := unbox_follows loaded (fun own => by rw [← own]; exact proven) fun _ =>
        (takes.balanced balanced).not_place_of_flight (.head _) _
      rw [← takes.known] at unboxed
      exact unboxed

end Asm

end InlineCache
