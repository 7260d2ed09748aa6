import InlineCache.Code.Register

/-!
Register sets seen through membership: two sets with the same members are the same, and each operation
says which registers are members of its result.
-/

namespace InlineCache.RegisterSet

theorem lt_of_contains {set : RegisterSet} {r : UInt8} (member : set.contains r = true) :
    r.toNat < 32 :=
  BitVec.lt_of_getLsbD member

theorem ext_contains {a b : RegisterSet} (same : ∀ r, a.contains r = b.contains r) : a = b := by
  obtain ⟨a⟩ := a
  obtain ⟨b⟩ := b
  congr 1
  apply BitVec.eq_of_getLsbD_eq
  intro i bound
  have small : i < 256 := by omega
  have equality := same (UInt8.ofNat i)
  simpa only [contains, UInt8.toNat_ofNat_of_lt' small] using equality

@[simp] theorem contains_union (a b : RegisterSet) (r : UInt8) :
    (a.union b).contains r = (a.contains r || b.contains r) := by
  simp only [union, contains, BitVec.getLsbD_or]

theorem contains_insert_of_contains {set : RegisterSet} {r : UInt8} (q : UInt8)
    (member : set.contains r = true) : (set.insert q).contains r = true := by
  rw [contains_insert, member, Bool.true_or]

theorem contains_insert_self (set : RegisterSet) {r : UInt8} (bound : r.toNat < 32) :
    (set.insert r).contains r = true := by
  simp only [contains_insert, bound, decide_true, Bool.and_self, Bool.or_true]

theorem contains_insert_of_ne {set : RegisterSet} {q r : UInt8} (different : q ≠ r) :
    (set.insert q).contains r = set.contains r := by
  rw [contains_insert, decide_eq_false different, Bool.and_false, Bool.or_false]

theorem contains_remove_of_ne {set : RegisterSet} {r q : UInt8} (different : r ≠ q) :
    (set.remove r).contains q = set.contains q := by
  rw [contains_remove, decide_eq_true different, Bool.and_true]

theorem insert_remove {set : RegisterSet} {r : UInt8} (member : set.contains r = true) :
    (set.remove r).insert r = set := by
  refine ext_contains fun q => ?_
  by_cases same : r = q
  · subst same
    rw [contains_insert_self _ (lt_of_contains member), member]
  · rw [contains_insert_of_ne same, contains_remove_of_ne same]

theorem remove_insert {set : RegisterSet} {r : UInt8} (absent : set.contains r = false) :
    (set.insert r).remove r = set := by
  refine ext_contains fun q => ?_
  by_cases same : r = q
  · subst same
    rw [contains_remove, decide_eq_false (not_not_intro rfl), Bool.and_false, absent]
  · rw [contains_remove_of_ne same, contains_insert_of_ne same]

theorem contains_first (count : Nat) (r : UInt8) :
    (first count).contains r = decide (r.toNat < min count 32) := by
  unfold first capacity contains
  split
  · simp only [BitVec.getLsbD_allOnes, decide_eq_decide]
    omega
  · rename_i bound
    have twoPow : (BitVec.twoPow 32 count - 1#32).getLsbD r.toNat =
        decide (r.toNat < count) := by
      have power : (BitVec.twoPow 32 count).toNat = 2 ^ count := by
        rw [BitVec.toNat_twoPow, Nat.mod_eq_of_lt]
        exact Nat.pow_lt_pow_right (by decide) (by omega)
      have value : (BitVec.twoPow 32 count - 1#32).toNat = 2 ^ count - 1 := by
        have positive : 1 ≤ 2 ^ count := Nat.one_le_two_pow
        rw [BitVec.toNat_sub_of_le (by
          rw [BitVec.le_def, power]
          exact positive), power]
        rfl
      rw [BitVec.getLsbD, value, Nat.testBit_two_pow_sub_one]
    refine twoPow.trans ?_
    simp only [decide_eq_decide]
    omega

theorem lowest?_eq_some {set : RegisterSet} {r : UInt8} (lowest : set.lowest? = some r) :
    set.contains r = true := by
  simp only [lowest?, Option.map_eq_some_iff] at lowest
  obtain ⟨i, found, rfl⟩ := lowest
  have bound : i < 32 := List.mem_range.mp (List.mem_of_find?_eq_some found)
  have small : i < 256 := by omega
  simpa only [contains, UInt8.toNat_ofNat_of_lt' small] using List.find?_some found

theorem lowest?_eq_none {set : RegisterSet} (lowest : set.lowest? = none) (r : UInt8) :
    set.contains r = false := by
  simp only [lowest?, Option.map_eq_none_iff, List.find?_eq_none, List.mem_range] at lowest
  rw [Bool.eq_false_iff]
  intro member
  exact lowest r.toNat (lt_of_contains member) member

theorem takeLowest_eq_some {set rest : RegisterSet} {r : UInt8}
    (taken : set.takeLowest = some (r, rest)) : set.contains r = true ∧ rest = set.remove r := by
  simp only [takeLowest, Option.map_eq_some_iff, Prod.mk.injEq] at taken
  obtain ⟨_, lowest, rfl, rfl⟩ := taken
  exact ⟨lowest?_eq_some lowest, rfl⟩

theorem takeLowest_eq_none {set : RegisterSet} (taken : set.takeLowest = none) (r : UInt8) :
    set.contains r = false := by
  simp only [takeLowest, Option.map_eq_none_iff] at taken
  exact lowest?_eq_none taken r

theorem mem_toList {set : RegisterSet} {r : UInt8} : r ∈ set.toList ↔ set.contains r = true := by
  simp only [toList, List.mem_map, List.mem_filter, List.mem_range, capacity]
  constructor
  · rintro ⟨i, ⟨bound, member⟩, rfl⟩
    have small : i < 256 := by omega
    simpa only [contains, UInt8.toNat_ofNat_of_lt' small] using member
  · intro member
    exact ⟨r.toNat, ⟨lt_of_contains member, member⟩, UInt8.ofNat_toNat⟩

end InlineCache.RegisterSet
