import InlineCache.Heap.Trace
import InlineCache.Proofs.Code.Word
import InlineCache.Proofs.Heap.Growth

/-!
What tracing an object finds.  It marks the shape, the slots that the shape covers, and the elements; an object has
room for slots beyond those.  As long as references are written to covered slots, and an object does not change to a
shape that uncovers one, nothing that can be read from an object escapes.
-/

namespace InlineCache

inductive HeapCall
  | newShape (classKind : ClassKind) (proto : Option CellId) (fixedSlots slotSpan : Nat)
  | newObject (shape : CellId)
  | newArray (elements : Array Value)
  | parseRegExp (source flags : String)
  | newMatchResult (elements : Array Value) (index : Int32) (input : Address)
  | newString (units : Array UInt16)
  | newSymbol (description : Option String)
  | newBigInt (n : Int)
  | setFixedSlot (object : CellId) (index : Nat) (value : Value)
  | setDynamicSlot (object : CellId) (index : Nat) (value : Value)
  | setElement (object : CellId) (index : Nat) (value : Value)
  | setShape (object shape : CellId)
  | serve (request : Request)

namespace HeapCall

/-- The heap after a call; one that fails leaves it as it is. -/
def run (heap : Heap) : HeapCall → Heap
  | .newShape classKind proto fixedSlots slotSpan =>
      (heap.newShape classKind proto fixedSlots slotSpan).2
  | .newObject shape => (heap.newObject shape).2
  | .newArray elements => (heap.newArray elements).2
  | .parseRegExp source flags =>
      match heap.parseRegExp source flags with
      | .ok (_, after) => after
      | .error _ => heap
  | .newMatchResult elements index input => (heap.newMatchResult elements index input).2
  | .newString units => (heap.newString units).2
  | .newSymbol description => (heap.newSymbol description).2
  | .newBigInt n => (heap.newBigInt n).2
  | .setFixedSlot object index value => heap.setFixedSlot object index value
  | .setDynamicSlot object index value => heap.setDynamicSlot object index value
  | .setElement object index value => heap.setElement object index value
  | .setShape object shape => heap.setShape object shape
  | .serve request =>
      match request.call heap with
      | .ok (_, after) => after
      | .error _ => heap

end HeapCall

/-- The slots of an object that refer to cells are slots of the shape. -/
structure Object.Covered (object : Object) (shape : Shape) : Prop where
  fixed : ∀ {i : Nat} {v : Value} {cell : CellRef}, object.fixedSlot? i = some v →
    v.cell? = some cell → i < shape.fixedSlots
  dynamic : ∀ {i : Nat} {v : Value} {cell : CellRef}, object.dynamicSlot? i = some v →
    v.cell? = some cell → i < shape.dynamicSlots

namespace HeapCall

/-- An object takes on no shape that needs more dynamic slots than it has. -/
def Allowed (heap : Heap) : HeapCall → Prop
  | .setShape object shape => (heap.shape shape).dynamicSlots ≤ (heap.object object).dynamic.size
  | _ => True

/-- References are written to slots that the shape of the object covers, and no shape is taken on that uncovers one.
Where the shape of match results may have to be made, a number is left for it. -/
def Tidy (heap : Heap) : HeapCall → Prop
  | .setFixedSlot object index value =>
      value.cell? = none ∨ index < (heap.shapeOf (heap.object object)).fixedSlots
  | .setDynamicSlot object index value =>
      value.cell? = none ∨ index < (heap.shapeOf (heap.object object)).dynamicSlots
  | .setShape object shape => (heap.object object).Covered (heap.shape shape)
  | .newMatchResult .. | .serve .. => heap.shapes.size < 0x100000000
  | _ => True

end HeapCall

/-- Each of the calls meets the condition on the heap that it is made on, and together they lead to the last heap. -/
inductive Heap.Calls (condition : Heap → HeapCall → Prop) : Heap → List HeapCall → Heap → Prop
  | nil (heap : Heap) : Calls condition heap [] heap
  | cons {heap after : Heap} {call : HeapCall} {calls : List HeapCall}
      (meets : condition heap call) (rest : Calls condition (call.run heap) calls after) :
      Calls condition heap (call :: calls) after

/-- A value that an accessor of the object returns. -/
def Object.Reads (object : Object) (v : Value) : Prop :=
  ∃ i : Nat, object.fixedSlot? i = some v ∨ object.dynamicSlot? i = some v ∨ object.element? i = some v

namespace Value

theorem cell?_ofInt32 (n : Int32) : (ofInt32 n).cell? = none := by
  have boxed : (ofInt32 n).bits = Word.boxInt32 (Word.ofInt32 n) := by
    rw [Word.boxInt32_eq, Word.toUInt32_ofInt32]
  have bits := Word.toNat_boxInt32 (Word.ofInt32 n)
  rw [← boxed] at bits
  have bare (kind : RefKind) : (ofInt32 n).ref? kind = none := by
    refine if_neg fun ⟨ref, _⟩ => ?_
    have tagged := (isRef_iff kind _).mp ref
    cases kind <;> simp only [RefKind.valueType, Word.Tagged] at tagged <;> omega
  simp only [cell?, bare]

theorem mem_trace {v : Value} {cell : CellRef} : cell ∈ v.trace ↔ v.cell? = some cell := by
  rw [trace, Option.mem_toList]

end Value

namespace Object.Covered

variable {object : Object} {shape other : Shape} {v : Value}

theorem mono (covered : object.Covered shape) (fixed : shape.fixedSlots ≤ other.fixedSlots)
    (dynamic : shape.dynamicSlots ≤ other.dynamicSlots) : object.Covered other where
  fixed reads refers := Nat.lt_of_lt_of_le (covered.fixed reads refers) fixed
  dynamic reads refers := Nat.lt_of_lt_of_le (covered.dynamic reads refers) dynamic

theorem make (id : CellId) (elements : Array Value) (regExp : Option RegExp) (layout : Shape) :
    (Object.make id layout elements regExp).Covered shape where
  fixed reads refers := by
    obtain ⟨_, rfl⟩ := Vector.getElem?_eq_some_iff.mp reads
    rw [Object.make, Vector.getElem_replicate] at refers
    cases refers
  dynamic reads refers := by
    obtain ⟨_, rfl⟩ := Array.getElem?_eq_some_iff.mp reads
    simp only [Object.make, Array.getElem_replicate] at refers
    cases refers

theorem setFixedSlot {i : Nat} (covered : object.Covered shape)
    (tidy : v.cell? = none ∨ i < shape.fixedSlots) : (object.setFixedSlot i v).Covered shape where
  fixed {j w cell} reads refers := by
    rw [Object.fixedSlot?, Object.setFixedSlot, Vector.getElem?_setIfInBounds] at reads
    split at reads
    · rename_i same
      subst same
      split at reads
      · cases reads
        exact tidy.resolve_left fun bare => nomatch bare.symm.trans refers
      · cases reads
    · exact covered.fixed reads refers
  dynamic := covered.dynamic

theorem setDynamicSlot {i : Nat} (covered : object.Covered shape)
    (tidy : v.cell? = none ∨ i < shape.dynamicSlots) : (object.setDynamicSlot i v).Covered shape where
  fixed := covered.fixed
  dynamic {j w cell} reads refers := by
    rw [Object.dynamicSlot?, Object.setDynamicSlot, Array.getElem?_setIfInBounds] at reads
    split at reads
    · rename_i same
      subst same
      split at reads
      · cases reads
        exact tidy.resolve_left fun bare => nomatch bare.symm.trans refers
      · cases reads
    · exact covered.dynamic reads refers

end Object.Covered

namespace Heap

/-- Every object is covered by its shape, and the shape of match results covers what they keep. -/
structure Covered (heap : Heap) : Prop where
  objects : ∀ id, (heap.object id).Covered (heap.shapeOf (heap.object id))
  results : ∀ id, heap.matchShape = some id → 2 ≤ (heap.shape id).fixedSlots

theorem object_pushObject (heap : Heap) (object : Object) (id : CellId) :
    (heap.pushObject object).2.object id = object ∨
      (heap.pushObject object).2.object id = heap.object id := by
  simp only [pushObject, Heap.object, Array.getD_eq_getD_getElem?, Array.getElem?_push]
  split
  · exact .inl rfl
  · exact .inr rfl

theorem object_modifyObject (heap : Heap) (id other : CellId) (f : Object → Object) :
    (heap.modifyObject id f).object other = heap.object other ∨
      other = id ∧ (heap.modifyObject id f).object other = f (heap.object other) := by
  simp only [modifyObject, Heap.object, Array.getD_eq_getD_getElem?, Array.getElem?_modify]
  by_cases same : id.toNat = other.toNat
  · rw [if_pos same]
    cases heap.objects[other.toNat]? with
    | none => exact .inl rfl
    | some object => exact .inr ⟨(UInt32.toNat_inj.mp same).symm, rfl⟩
  · exact .inl (by rw [if_neg same])

/-- A new shape takes the place of an empty one. -/
theorem shape_newShape_le (heap : Heap) (classKind : ClassKind) (proto : Option CellId)
    (fixedSlots slotSpan : Nat) (id : CellId) :
    let after := (heap.newShape classKind proto fixedSlots slotSpan).2
    (heap.shape id).fixedSlots ≤ (after.shape id).fixedSlots ∧
      (heap.shape id).dynamicSlots ≤ (after.shape id).dynamicSlots := by
  simp only [newShape, Heap.shape, Array.getD_eq_getD_getElem?, Array.getElem?_push]
  split
  · rename_i new
    rw [new, Array.getElem?_eq_none (Nat.le_refl _)]
    exact ⟨Nat.zero_le _, Nat.zero_le _⟩
  · exact ⟨Nat.le_refl _, Nat.le_refl _⟩

theorem shape_newShape_self (heap : Heap) (classKind : ClassKind) (proto : Option CellId)
    (fixedSlots slotSpan : Nat) (room : heap.shapes.size < 0x100000000) :
    let made := heap.newShape classKind proto fixedSlots slotSpan
    made.2.shape made.1 = .make classKind proto fixedSlots slotSpan := by
  have number : (UInt32.ofNat heap.shapes.size).toNat = heap.shapes.size :=
    UInt32.toNat_ofNat_of_lt' room
  simp only [newShape, Heap.shape, Array.getD_eq_getD_getElem?, number, Array.getElem?_push, if_true]
  rfl

namespace Covered

variable {heap after : Heap}

theorem empty : Covered .empty where
  objects id := by
    simp only [Heap.object, Heap.empty, Array.getD_eq_getD_getElem?]
    exact .make ..
  results _ named := nomatch named

theorem grow (covered : heap.Covered) (objects : after.objects = heap.objects)
    (results : ∀ id, after.matchShape = some id →
      heap.matchShape = some id ∨ 2 ≤ (after.shape id).fixedSlots)
    (shapes : ∀ id, (heap.shape id).fixedSlots ≤ (after.shape id).fixedSlots ∧
      (heap.shape id).dynamicSlots ≤ (after.shape id).dynamicSlots) : after.Covered where
  objects id := by
    have same : after.object id = heap.object id := by rw [Heap.object, objects, Heap.object]
    rw [same]
    obtain ⟨fixed, dynamic⟩ := shapes (heap.object id).shape
    exact (covered.objects id).mono fixed dynamic
  results id named := by
    rcases results id named with before | here
    · exact Nat.le_trans (covered.results id before) (shapes id).1
    · exact here

/-- Nothing changes but cells without slots. -/
theorem still (covered : heap.Covered) (objects : after.objects = heap.objects)
    (shapes : after.shapes = heap.shapes) (results : after.matchShape = heap.matchShape) :
    after.Covered :=
  covered.grow objects (fun _ named => .inl (results ▸ named)) fun id => by
    rw [Heap.shape, Heap.shape, shapes]
    exact ⟨Nat.le_refl _, Nat.le_refl _⟩

theorem newShape (covered : heap.Covered) (classKind : ClassKind) (proto : Option CellId)
    (fixedSlots slotSpan : Nat) : (heap.newShape classKind proto fixedSlots slotSpan).2.Covered :=
  covered.grow rfl (fun _ => .inl) (shape_newShape_le heap classKind proto fixedSlots slotSpan)

theorem pushObject (covered : heap.Covered) {object : Object}
    (new : object.Covered (heap.shapeOf object)) : (heap.pushObject object).2.Covered where
  objects id := by
    rcases heap.object_pushObject object id with same | same
    · rw [same]
      exact new
    · rw [same]
      exact covered.objects id
  results := covered.results

theorem addObject (covered : heap.Covered) (shape : CellId) (elements : Array Value)
    (regExp : Option RegExp) : (heap.addObject shape elements regExp).2.Covered :=
  covered.pushObject (.make ..)

theorem modifyObject (covered : heap.Covered) {id : CellId} {f : Object → Object}
    (keeps : (f (heap.object id)).Covered (heap.shapeOf (f (heap.object id)))) :
    (heap.modifyObject id f).Covered where
  objects other := by
    rcases heap.object_modifyObject id other f with same | ⟨rfl, same⟩
    · rw [same]
      exact covered.objects other
    · rw [same]
      exact keeps
  results := covered.results

theorem setFixedSlot (covered : heap.Covered) {id : CellId} {index : Nat} {v : Value}
    (tidy : v.cell? = none ∨ index < (heap.shapeOf (heap.object id)).fixedSlots) :
    (heap.setFixedSlot id index v).Covered :=
  covered.modifyObject ((covered.objects id).setFixedSlot tidy)

theorem ensureArrayShape (covered : heap.Covered) : heap.ensureArrayShape.2.Covered := by
  rw [Heap.ensureArrayShape]
  split
  · exact covered
  · exact (covered.newShape .array none 0 0).still rfl rfl rfl

theorem ensureRegExpShape (covered : heap.Covered) : heap.ensureRegExpShape.2.Covered := by
  rw [Heap.ensureRegExpShape]
  split
  · exact covered
  · exact (covered.newShape .regExp none 2 2).still rfl rfl rfl

theorem ensureMatchShape (covered : heap.Covered) (room : heap.shapes.size < 0x100000000) :
    heap.ensureMatchShape.2.Covered ∧
      2 ≤ (heap.ensureMatchShape.2.shape heap.ensureMatchShape.1).fixedSlots := by
  rw [Heap.ensureMatchShape]
  split
  · rename_i id named
    exact ⟨covered, covered.results id named⟩
  · have made := heap.shape_newShape_self .array none 2 2 room
    have wide : 2 ≤ ((heap.newShape .array none 2 2).2.shape
        (heap.newShape .array none 2 2).1).fixedSlots := by
      rw [made]
      exact Nat.le_refl 2
    refine ⟨(covered.newShape .array none 2 2).grow rfl (fun id named => ?_) fun _ =>
      ⟨Nat.le_refl _, Nat.le_refl _⟩, wide⟩
    cases named
    exact .inr wide

theorem newMatchResult (covered : heap.Covered) (room : heap.shapes.size < 0x100000000)
    (elements : Array Value) (index : Int32) (input : Address) :
    (heap.newMatchResult elements index input).2.Covered := by
  obtain ⟨shaped, wide⟩ := covered.ensureMatchShape room
  refine shaped.pushObject ?_
  refine Object.Covered.setFixedSlot (.setFixedSlot (.make ..) (.inr ?_)) (.inr ?_)
  · exact Nat.lt_of_lt_of_le Nat.zero_lt_two wide
  · exact Nat.lt_of_lt_of_le Nat.one_lt_two wide

theorem newCaptures (units : Array UInt16) (captures : List (Option (Nat × Nat)))
    (covered : heap.Covered) :
    (heap.newCaptures units captures).2.Covered ∧
      (heap.newCaptures units captures).2.shapes = heap.shapes := by
  induction captures generalizing heap with
  | nil => exact ⟨covered, rfl⟩
  | cons capture captures ih =>
      cases capture with
      | none => exact ih covered
      | some ends =>
          have made : (heap.newString (units.extract ends.1 ends.2)).2.Covered :=
            covered.still rfl rfl rfl
          exact ih made

theorem serve (covered : heap.Covered) (room : heap.shapes.size < 0x100000000) {request : Request}
    {v : Value} (answers : request.call heap = .ok (v, after)) : after.Covered := by
  cases request with
  | matcher regExp input lastIndex =>
      obtain ⟨found, -, answers⟩ := Request.execRegExp_of_bind answers
      cases found with
      | none =>
          cases answers
          exact covered
      | some found =>
          cases answers
          have whole : (heap.newString
              ((heap.stringAt input).extract found.start found.stop)).2.Covered :=
            covered.still rfl rfl rfl
          obtain ⟨strings, shapes⟩ :=
            whole.newCaptures (heap.stringAt input) found.captures.toList
          exact strings.newMatchResult (shapes ▸ room) _ _ _
  | searcher regExp input lastIndex =>
      obtain ⟨found, -, answers⟩ := Request.execRegExp_of_bind answers
      cases found with
      | none =>
          cases answers
          exact covered
      | some found =>
          dsimp only at answers
          split at answers <;> cases answers <;> exact covered
  | tester regExp input lastIndex =>
      obtain ⟨found, -, answers⟩ := Request.execRegExp_of_bind answers
      cases found <;> cases answers <;> exact covered
  | substring string start length =>
      rw [Request.call, Heap.substringKernel] at answers
      dsimp only at answers
      split at answers
      · cases answers
        exact covered.still rfl rfl rfl
      · cases answers

theorem parseRegExp (covered : heap.Covered) {source flags : String} {id : CellId}
    (parses : heap.parseRegExp source flags = .ok (id, after)) : after.Covered := by
  rw [Heap.parseRegExp] at parses
  cases reads : RegExp.Flags.parse flags with
  | error error =>
      rw [reads] at parses
      cases parses
  | ok bits =>
      rw [reads] at parses
      replace parses : heap.newRegExp source bits = .ok (id, after) := parses
      rw [Heap.newRegExp] at parses
      cases compiles : RegExp.compile source bits with
      | error error =>
          rw [compiles] at parses
          cases parses
      | ok regExp =>
          rw [compiles] at parses
          cases parses
          have made := covered.ensureRegExpShape.addObject heap.ensureRegExpShape.1 #[] (some regExp)
          exact made.setFixedSlot (.inl (Value.cell?_ofInt32 _))

theorem call {call : HeapCall} (covered : heap.Covered) (tidy : call.Tidy heap) :
    (call.run heap).Covered := by
  cases call with
  | newShape classKind proto fixedSlots slotSpan => exact covered.newShape ..
  | newObject shape => exact covered.addObject ..
  | newArray elements => exact covered.ensureArrayShape.addObject ..
  | parseRegExp source flags =>
      rw [HeapCall.run]
      split
      · rename_i parses
        exact covered.parseRegExp parses
      · exact covered
  | newMatchResult elements index input => exact covered.newMatchResult tidy ..
  | newString | newSymbol | newBigInt => exact covered.still rfl rfl rfl
  | setFixedSlot object index value => exact covered.setFixedSlot tidy
  | setDynamicSlot object index value =>
      exact covered.modifyObject ((covered.objects object).setDynamicSlot tidy)
  | setElement object index value =>
      obtain ⟨fixed, dynamic⟩ := covered.objects object
      exact covered.modifyObject ⟨fixed, dynamic⟩
  | setShape object shape =>
      obtain ⟨fixed, dynamic⟩ := tidy
      exact covered.modifyObject ⟨fixed, dynamic⟩
  | serve request =>
      rw [HeapCall.run]
      split
      · rename_i answers
        exact covered.serve tidy answers
      · exact covered

theorem calls {calls : List HeapCall} (run : Calls HeapCall.Tidy heap calls after)
    (covered : heap.Covered) : after.Covered := by
  induction run with
  | nil => exact covered
  | cons tidy _ ih => exact ih (covered.call tidy)

end Covered

theorem mem_traces {values : List Value} {cell : CellRef} :
    cell ∈ values.flatMap Value.trace ↔ ∃ (i : Nat) (v : Value), values[i]? = some v ∧ v.cell? = some cell := by
  rw [List.mem_flatMap]
  constructor
  · rintro ⟨v, member, marked⟩
    obtain ⟨i, held⟩ := List.mem_iff_getElem?.mp member
    exact ⟨i, v, held, Value.mem_trace.mp marked⟩
  · rintro ⟨i, v, held, refers⟩
    exact ⟨v, List.mem_of_getElem? held, Value.mem_trace.mpr refers⟩

theorem getElem?_take_eq_some {values : List Value} {count i : Nat} {v : Value} :
    (values.take count)[i]? = some v ↔ i < count ∧ values[i]? = some v := by
  rw [List.getElem?_take]
  split
  · rename_i below
    exact ⟨fun held => ⟨below, held⟩, And.right⟩
  · rename_i above
    exact ⟨nofun, fun held => absurd held.1 above⟩

/-- Tracing an object marks its shape, the cells of the slots that the shape covers, and those of the elements. -/
theorem mem_traceObject {heap : Heap} {object : Object} {cell : CellRef} :
    cell ∈ heap.traceObject object ↔
      cell = .shape (Block.shape object.shape).address ∨
      (∃ i v, (i < (heap.shapeOf object).fixedSlots ∧ object.fixedSlot? i = some v) ∧
        v.cell? = some cell) ∨
      (∃ i v, (i < (heap.shapeOf object).dynamicSlots ∧ object.dynamicSlot? i = some v) ∧
        v.cell? = some cell) ∨
      ∃ i v, object.element? i = some v ∧ v.cell? = some cell := by
  rw [traceObject]
  simp only [List.mem_cons, List.mem_append, mem_traces, getElem?_take_eq_some, or_assoc,
    Vector.getElem?_toList, Array.getElem?_toList, Object.fixedSlot?, Object.dynamicSlot?,
    Object.element?]

theorem mem_traceObject_of_covered {heap : Heap} {object : Object} {v : Value} {cell : CellRef}
    (covered : object.Covered (heap.shapeOf object)) (reads : object.Reads v)
    (refers : v.cell? = some cell) : cell ∈ heap.traceObject object := by
  rw [mem_traceObject]
  obtain ⟨i, fixed | dynamic | element⟩ := reads
  · exact .inr (.inl ⟨i, v, ⟨covered.fixed fixed refers, fixed⟩, refers⟩)
  · exact .inr (.inr (.inl ⟨i, v, ⟨covered.dynamic dynamic refers, dynamic⟩, refers⟩))
  · exact .inr (.inr (.inr ⟨i, v, element, refers⟩))

end Heap

/-- On every heap, tracing an object marks its shape, and every cell that can be read from an element or from a slot
that the shape covers.  On a heap that has been built by tidy calls it marks every cell that can be read from the
object at all. -/
theorem tracing_marks_readable_cells (heap : Heap) (id : CellId) :
    let object := heap.object id
    CellRef.shape (Block.shape object.shape).address ∈ heap.traceObject object ∧
    (∀ (i : Nat) (v : Value) (cell : CellRef),
      (i < (heap.shapeOf object).fixedSlots ∧ object.fixedSlot? i = some v ∨
        i < (heap.shapeOf object).dynamicSlots ∧ object.dynamicSlot? i = some v ∨
        object.element? i = some v) →
      v.cell? = some cell → cell ∈ heap.traceObject object) ∧
    ∀ calls, Heap.Calls HeapCall.Tidy .empty calls heap →
      ∀ v cell, object.Reads v → v.cell? = some cell → cell ∈ heap.traceObject object := by
  intro object
  refine ⟨Heap.mem_traceObject.mpr (.inl rfl), fun i v cell reads refers => ?_,
    fun calls built v cell reads refers => ?_⟩
  · rw [Heap.mem_traceObject]
    rcases reads with fixed | dynamic | element
    · exact .inr (.inl ⟨i, v, fixed, refers⟩)
    · exact .inr (.inr (.inl ⟨i, v, dynamic, refers⟩))
    · exact .inr (.inr (.inr ⟨i, v, element, refers⟩))
  · have covered := (Heap.Covered.calls built .empty).objects id
    exact Heap.mem_traceObject_of_covered covered reads refers

/-- The string stays in its dynamic slot when the object takes on another shape with as many slots. -/
theorem reshaped_object_keeps_its_string :
    let string := (Block.string 0).address
    let calls : List HeapCall :=
      [.newShape .plainObject none 1 2, .newShape .array none 1 2, .newObject 0, .newString #[120],
        .setDynamicSlot 0 0 (.ofRef .string string), .setShape 0 1]
    let heap := calls.foldl HeapCall.run .empty
    Heap.Calls HeapCall.Tidy .empty calls heap ∧ (heap.object 0).shape = 1 ∧
      (heap.object 0).Reads (.ofRef .string string) ∧
      (Value.ofRef .string string).cell? = some (.ref .string string) ∧
      CellRef.ref .string string ∈ heap.traceObject (heap.object 0) := by
  intro string calls heap
  have kept : (Object.make 0 (.make .plainObject none 1 2) #[] none).Covered
      (.make .array none 1 2) := .make ..
  have built : Heap.Calls HeapCall.Tidy .empty calls heap := by
    refine .cons trivial (.cons trivial (.cons trivial (.cons trivial (.cons (.inr Nat.one_pos)
      (.cons ?_ (.nil _))))))
    exact kept.setDynamicSlot (.inr Nat.one_pos)
  have reads : (heap.object 0).Reads (.ofRef .string string) := ⟨0, .inr (.inl rfl)⟩
  have refers : (Value.ofRef .string string).cell? = some (.ref .string string) := by
    decide
  obtain ⟨-, -, tidy⟩ := tracing_marks_readable_cells heap 0
  exact ⟨built, rfl, reads, refers, tidy calls built _ _ reads refers⟩

/-- An object that takes on a shape without slots keeps the string in its first fixed slot, where it can still be
read, and tracing the object does not mark it. -/
theorem uncovered_slot_escapes_tracing :
    let string := (Block.string 0).address
    let calls : List HeapCall :=
      [.newShape .plainObject none 1 1, .newShape .plainObject none 0 0, .newObject 0,
        .newString #[120], .setFixedSlot 0 0 (.ofRef .string string), .setShape 0 1]
    let heap := calls.foldl HeapCall.run .empty
    Heap.Calls HeapCall.Allowed .empty calls heap ∧
      (heap.object 0).fixedSlot? 0 = some (.ofRef .string string) ∧
      (Value.ofRef .string string).cell? = some (.ref .string string) ∧
      CellRef.ref .string string ∉ heap.traceObject (heap.object 0) := by
  intro string calls heap
  refine ⟨?_, rfl, by decide, by decide⟩
  exact .cons trivial (.cons trivial (.cons trivial (.cons trivial (.cons trivial
    (.cons (Nat.le_refl 0) (.nil _))))))

end InlineCache
