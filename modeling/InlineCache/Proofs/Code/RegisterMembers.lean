import InlineCache.Proofs.Code.RegisterSet
import Mathlib.Data.Finset.Max
import Mathlib.Data.Finset.Sort

/-!
Register sets as finite sets of numbers.  Each operation on the mask is the operation of its name on
the numbers below 32, also where a count or a register number is 32 and more; and an arithmetic in
which a shift by 32 has no value carries every one of them out.
-/

namespace InlineCache.RegisterSet

theorem contains_ofNat (set : RegisterSet) {i : Nat} (bound : i < 32) :
    set.contains (UInt8.ofNat i) = set.mask.getLsbD i := by
  have small : i < 256 := by omega
  rw [contains, UInt8.toNat_ofNat_of_lt' small]

/-- The numbers of the registers in a set. -/
def members (set : RegisterSet) : Finset ℕ :=
  (Finset.range 32).filter fun i => set.mask.getLsbD i = true

theorem mem_members {set : RegisterSet} {i : ℕ} :
    i ∈ set.members ↔ set.mask.getLsbD i = true := by
  rw [members, Finset.mem_filter, Finset.mem_range]
  exact ⟨And.right, fun member => ⟨BitVec.lt_of_getLsbD member, member⟩⟩

theorem lt_of_mem_members {set : RegisterSet} {i : ℕ} (member : i ∈ set.members) : i < 32 :=
  BitVec.lt_of_getLsbD (mem_members.mp member)

theorem toNat_mem_members {set : RegisterSet} {r : UInt8} :
    r.toNat ∈ set.members ↔ set.contains r = true :=
  mem_members

theorem members_empty : empty.members = ∅ := by
  ext i
  simp [mem_members, empty]

theorem members_first (count : Nat) : (first count).members = Finset.range (min count 32) := by
  ext i
  rw [mem_members, Finset.mem_range]
  by_cases bound : i < 32
  · have small : i < 256 := by omega
    rw [← contains_ofNat _ bound, contains_first, UInt8.toNat_ofNat_of_lt' small, decide_eq_true_eq]
  · rw [BitVec.getLsbD_of_ge _ _ (Nat.le_of_not_lt bound)]
    simp only [Bool.false_eq_true, false_iff]
    omega

theorem members_insert (set : RegisterSet) (r : UInt8) :
    (set.insert r).members =
      if r.toNat < 32 then Insert.insert r.toNat set.members else set.members := by
  ext i
  split <;> rename_i bound
  · simp only [mem_members, insert, BitVec.getLsbD_or, BitVec.getLsbD_twoPow, bound, decide_true,
      Bool.true_and, Bool.or_eq_true, decide_eq_true_eq, Finset.mem_insert, or_comm,
      eq_comm (a := i)]
  · simp only [mem_members, insert, BitVec.getLsbD_or, BitVec.getLsbD_twoPow, bound, decide_false,
      Bool.false_and, Bool.or_false]

theorem members_remove (set : RegisterSet) (r : UInt8) :
    (set.remove r).members = set.members.erase r.toNat := by
  ext i
  rw [Finset.mem_erase]
  by_cases bound : i < 32
  · have small : i < 256 := by omega
    have same : r = UInt8.ofNat i ↔ r.toNat = i := by
      rw [← UInt8.toNat_inj, UInt8.toNat_ofNat_of_lt' small]
    simp only [mem_members, ← contains_ofNat _ bound, contains_remove, ne_eq, same,
      Bool.and_eq_true, decide_eq_true_eq, eq_comm (a := i), and_comm]
  · exact iff_of_false (fun member => bound (lt_of_mem_members member))
      (fun member => bound (lt_of_mem_members member.2))

theorem mask_eq_zero_iff {set : RegisterSet} : set.mask = 0 ↔ set.members = ∅ := by
  rw [Finset.eq_empty_iff_forall_notMem]
  constructor
  · intro zero i
    simp [mem_members, zero]
  · intro absent
    apply BitVec.eq_of_getLsbD_eq
    intro i _
    simpa [mem_members] using absent i

/-! ### Questions -/

theorem isEmpty_iff {set : RegisterSet} : set.isEmpty = true ↔ set.members = ∅ := by
  rw [isEmpty, decide_eq_true_eq, mask_eq_zero_iff]

/-- The bits counted so far are the members below the position that the count has reached. -/
theorem cpopNatRec_eq_card (mask : BitVec 32) (n : Nat) :
    mask.cpopNatRec n 0 = ((Finset.range n).filter fun i => mask.getLsbD i = true).card := by
  induction n with
  | zero => rfl
  | succ n counted =>
    rw [BitVec.cpopNatRec_succ, BitVec.cpopNatRec_eq, counted, Finset.range_add_one,
      Finset.filter_insert]
    cases bit : mask.getLsbD n with
    | false => simp
    | true => simp

theorem size_eq_card (set : RegisterSet) : set.size = set.members.card := by
  rw [size, BitVec.toNat_cpop, cpopNatRec_eq_card, members]

theorem toList_map_toNat (set : RegisterSet) :
    set.toList.map UInt8.toNat = (List.range 32).filter set.mask.getLsbD := by
  rw [toList, List.map_map]
  refine (List.map_congr_left fun i member => ?_).trans (List.map_id _)
  have bound : i < 32 := List.mem_range.mp (List.mem_filter.mp member).1
  have small : i < 256 := by omega
  exact UInt8.toNat_ofNat_of_lt' small

theorem toList_ascends (set : RegisterSet) : set.toList.Pairwise (· < ·) := by
  have numbers : (set.toList.map UInt8.toNat).Pairwise (· < ·) := by
    rw [toList_map_toNat]
    exact List.pairwise_lt_range.filter _
  exact (List.pairwise_map.mp numbers).imp UInt8.lt_iff_toNat_lt.mpr

theorem toList_map_eq_sort (set : RegisterSet) :
    set.toList.map UInt8.toNat = set.members.sort (· ≤ ·) := by
  have ascends : (set.toList.map UInt8.toNat).Pairwise (· ≤ ·) :=
    List.pairwise_map.mpr ((toList_ascends set).imp fun before =>
      (UInt8.lt_iff_toNat_lt.mp before).le)
  refine List.Perm.eq_of_pairwise' ascends (Finset.pairwise_sort _ _) ?_
  refine (List.perm_ext_iff_of_nodup ?_ (Finset.sort_nodup _ _)).mpr fun i => ?_
  · rw [toList_map_toNat]
    exact List.nodup_range.filter _
  · rw [toList_map_toNat, Finset.mem_sort, members, Finset.mem_filter, List.mem_filter,
      List.mem_range, Finset.mem_range]

/-! ### The least member -/

theorem lowest?_isLeast {set : RegisterSet} {r : UInt8} (lowest : set.lowest? = some r) :
    IsLeast (set.members : Set ℕ) r.toNat := by
  simp only [lowest?, Option.map_eq_some_iff] at lowest
  obtain ⟨i, found, rfl⟩ := lowest
  obtain ⟨member, inRange, before⟩ := List.find?_range_eq_some.mp found
  have small : i < 256 := Nat.lt_trans (List.mem_range.mp inRange) (by decide)
  rw [UInt8.toNat_ofNat_of_lt' small]
  refine ⟨mem_members.mpr member, fun j inSet => ?_⟩
  by_contra! below
  have absent := before j below
  rw [mem_members.mp inSet] at absent
  contradiction

theorem takeLowest_isLeast {set rest : RegisterSet} {r : UInt8}
    (taken : set.takeLowest = some (r, rest)) :
    IsLeast (set.members : Set ℕ) r.toNat ∧ rest = set.remove r := by
  simp only [takeLowest, Option.map_eq_some_iff, Prod.mk.injEq] at taken
  obtain ⟨_, lowest, rfl, rfl⟩ := taken
  exact ⟨lowest?_isLeast lowest, rfl⟩

theorem takeLowest_eq_none_iff {set : RegisterSet} :
    set.takeLowest = none ↔ set.members = ∅ := by
  rw [takeLowest, Option.map_eq_none_iff, lowest?, Option.map_eq_none_iff, List.find?_eq_none,
    Finset.eq_empty_iff_forall_notMem]
  exact ⟨fun absent i member => absent i (List.mem_range.mpr (lt_of_mem_members member))
      (mem_members.mp member),
    fun absent i _ member => absent i (mem_members.mpr member)⟩

theorem lowest?_eq_trailingZeros {set : RegisterSet} (inhabited : set.mask ≠ 0) :
    set.lowest? = some (UInt8.ofNat set.mask.ctz.toNat) := by
  have bound : set.mask.ctz.toNat < 32 := BitVec.ctz_lt_iff_ne_zero.mpr inhabited
  have found : (List.range capacity).find? set.mask.getLsbD = some set.mask.ctz.toNat := by
    refine List.find?_range_eq_some.mpr ⟨BitVec.getLsbD_true_ctz_of_ne_zero inhabited,
      List.mem_range.mpr bound, fun j below => ?_⟩
    rw [BitVec.getLsbD_false_of_lt_ctz below, Bool.not_false]
  rw [lowest?, found, Option.map_some]

/-! ### Sessions -/

/-- A call on a register set, with any count and any register number. -/
inductive Call where
  | empty
  | first (count : UInt8)
  | insert (r : UInt8)
  | remove (r : UInt8)
  | takeLowest

namespace Call

/-- What a call answers, and the set that it leaves. -/
def onMask : Call → RegisterSet → Option UInt8 × RegisterSet
  | .empty, _ => (none, .empty)
  | .first count, _ => (none, .first count.toNat)
  | .insert r, set => (none, set.insert r)
  | .remove r, set => (none, set.remove r)
  | .takeLowest, set =>
    match set.takeLowest with
    | none => (none, set)
    | some (r, rest) => (some r, rest)

/-- The call of the same name on a finite set. -/
def onNumbers : Call → Finset ℕ → Option ℕ × Finset ℕ
  | .empty, _ => (none, ∅)
  | .first count, _ => (none, Finset.range (min count.toNat 32))
  | .insert r, numbers => (none, if r.toNat < 32 then Insert.insert r.toNat numbers else numbers)
  | .remove r, numbers => (none, numbers.erase r.toNat)
  | .takeLowest, numbers =>
    if inhabited : numbers.Nonempty then
      (some (numbers.min' inhabited), numbers.erase (numbers.min' inhabited))
    else
      (none, numbers)

attribute [local simp] onMask onNumbers

theorem onMask_members (call : Call) (set : RegisterSet) :
    call.onNumbers set.members =
      ((call.onMask set).1.map UInt8.toNat, (call.onMask set).2.members) := by
  cases call with
  | empty => simp [members_empty]
  | first count => simp [members_first]
  | insert r => simp [members_insert]
  | remove r => simp [members_remove]
  | takeLowest =>
    simp only [onNumbers, onMask]
    cases taken : set.takeLowest with
    | none =>
      have absent := takeLowest_eq_none_iff.mp taken
      rw [dif_neg (Finset.not_nonempty_iff_eq_empty.mpr absent)]
      rfl
    | some answer =>
      obtain ⟨r, rest⟩ := answer
      obtain ⟨least, rfl⟩ := takeLowest_isLeast taken
      have inhabited : set.members.Nonempty := ⟨_, least.1⟩
      have lowest : set.members.min' inhabited = r.toNat :=
        (Finset.isLeast_min' _ inhabited).unique least
      rw [dif_pos inhabited, lowest]
      simp only [Option.map_some, members_remove]

end Call

/-- The answers to a sequence of calls, and the state that they leave. -/
def session {State Number : Type} (act : Call → State → Option Number × State) :
    List Call → State → List (Option Number) × State
  | [], state => ([], state)
  | call :: calls, state =>
    ((act call state).1 :: (session act calls (act call state).2).1,
      (session act calls (act call state).2).2)

theorem session_members (calls : List Call) (set : RegisterSet) :
    session Call.onNumbers calls set.members =
      ((session Call.onMask calls set).1.map (Option.map UInt8.toNat),
        (session Call.onMask calls set).2.members) := by
  induction calls generalizing set with
  | nil => rfl
  | cons call calls follows =>
    simp only [session, Call.onMask_members, follows, List.map_cons]

/-! ### Shifts that stay below the width -/

/-- The word with one bit set, in an arithmetic where a shift by the width has no value. -/
def oneShifted? (amount : Nat) : Option (BitVec 32) :=
  if amount < 32 then some (1#32 <<< amount) else none

def first? (count : UInt8) : Option RegisterSet :=
  if 32 ≤ count.toNat then
    some ⟨BitVec.allOnes 32⟩
  else
    (oneShifted? count.toNat).map fun bit => ⟨bit - 1⟩

def contains? (set : RegisterSet) (r : UInt8) : Option Bool :=
  if r.toNat < 32 then
    (oneShifted? r.toNat).map fun bit => set.mask &&& bit ≠ 0
  else
    some false

def insert? (set : RegisterSet) (r : UInt8) : Option RegisterSet :=
  if r.toNat < 32 then
    (oneShifted? r.toNat).map fun bit => ⟨set.mask ||| bit⟩
  else
    some set

def remove? (set : RegisterSet) (r : UInt8) : Option RegisterSet :=
  if r.toNat < 32 then
    (oneShifted? r.toNat).map fun bit => ⟨set.mask &&& ~~~bit⟩
  else
    some set

def takeLowest? (set : RegisterSet) : Option (Option UInt8 × RegisterSet) :=
  if set.mask = 0 then
    some (none, set)
  else
    (set.remove? (UInt8.ofNat set.mask.ctz.toNat)).map fun rest =>
      (some (UInt8.ofNat set.mask.ctz.toNat), rest)

/-- The members in ascending order, each number below the capacity asked for in turn. -/
def toList? (set : RegisterSet) : Option (List UInt8) :=
  ((List.range capacity).map UInt8.ofNat).filterM set.contains?

/-- A call carried out with shifts that have a value only below the width. -/
def Call.onMask? : Call → RegisterSet → Option (Option UInt8 × RegisterSet)
  | .empty, _ => some (none, .empty)
  | .first count, _ => (first? count).map (none, ·)
  | .insert r, set => (set.insert? r).map (none, ·)
  | .remove r, set => (set.remove? r).map (none, ·)
  | .takeLowest, set => set.takeLowest?

theorem oneShifted?_of_lt {amount : Nat} (bound : amount < 32) :
    oneShifted? amount = some (BitVec.twoPow 32 amount) := by
  rw [oneShifted?, if_pos bound, BitVec.twoPow_eq]

theorem first?_eq_some (count : UInt8) : first? count = some (first count.toNat) := by
  unfold first? first capacity
  split <;> rename_i bound
  · rfl
  · rw [oneShifted?_of_lt (Nat.lt_of_not_le bound)]
    rfl

theorem contains?_eq_some (set : RegisterSet) (r : UInt8) :
    set.contains? r = some (set.contains r) := by
  unfold contains? contains
  split <;> rename_i bound
  · rw [oneShifted?_of_lt bound, Option.map_some, BitVec.and_twoPow]
    cases bit : set.mask.getLsbD r.toNat with
    | false => simp
    | true =>
      have nonzero : BitVec.twoPow 32 r.toNat ≠ 0#32 := fun zero => by
        have set : (BitVec.twoPow 32 r.toNat).getLsbD r.toNat = true := by
          rw [BitVec.getLsbD_twoPow, decide_eq_true bound, decide_eq_true rfl, Bool.and_self]
        rw [zero, BitVec.getLsbD_zero] at set
        contradiction
      simp [nonzero]
  · rw [BitVec.getLsbD_of_ge _ _ (Nat.le_of_not_lt bound)]

theorem insert?_eq_some (set : RegisterSet) (r : UInt8) :
    set.insert? r = some (set.insert r) := by
  unfold insert?
  split <;> rename_i bound
  · rw [oneShifted?_of_lt bound]
    rfl
  · refine congrArg some (ext_contains fun q => ?_)
    rw [contains_insert, decide_eq_false bound, Bool.false_and, Bool.or_false]

theorem remove?_eq_some (set : RegisterSet) (r : UInt8) :
    set.remove? r = some (set.remove r) := by
  unfold remove?
  split <;> rename_i bound
  · rw [oneShifted?_of_lt bound]
    rfl
  · refine congrArg some (ext_contains fun q => ?_)
    by_cases same : r = q
    · subst same
      rw [contains, BitVec.getLsbD_of_ge _ _ (Nat.le_of_not_lt bound), contains_remove, contains,
        BitVec.getLsbD_of_ge _ _ (Nat.le_of_not_lt bound), Bool.false_and]
    · rw [contains_remove_of_ne same]

theorem takeLowest?_eq_some (set : RegisterSet) :
    set.takeLowest? = some (Call.takeLowest.onMask set) := by
  simp only [takeLowest?, Call.onMask]
  split <;> rename_i inhabited
  · rw [takeLowest_eq_none_iff.mpr (mask_eq_zero_iff.mp inhabited)]
  · rw [remove?_eq_some, takeLowest, lowest?_eq_trailingZeros inhabited]
    rfl

theorem filterAuxM_some {α : Type} (keep : α → Bool) (items kept : List α) :
    List.filterAuxM (fun a => some (keep a)) items kept =
      some ((items.filter keep).reverse ++ kept) := by
  induction items generalizing kept with
  | nil => rfl
  | cons item items follows =>
    rw [List.filterAuxM, Option.bind_eq_bind, Option.bind_some, follows]
    cases chosen : keep item with
    | false => rw [cond_false, List.filter_cons_of_neg (by rw [chosen]; decide)]
    | true =>
      rw [cond_true, List.filter_cons_of_pos chosen, List.reverse_cons, List.append_assoc]
      rfl

theorem toList?_eq_some (set : RegisterSet) : set.toList? = some set.toList := by
  have asked : set.contains? = fun r => some (set.contains r) := funext (contains?_eq_some set)
  rw [toList?, asked, List.filterM, filterAuxM_some, Option.bind_eq_bind, Option.bind_some,
    List.append_nil, List.reverse_reverse, toList, List.filter_map]
  refine congrArg some (congrArg (List.map UInt8.ofNat) (List.filter_congr fun i inRange => ?_))
  exact contains_ofNat set (List.mem_range.mp inRange)

theorem Call.onMask?_eq_some (call : Call) (set : RegisterSet) :
    call.onMask? set = some (call.onMask set) := by
  cases call with
  | empty => rfl
  | first count => simp only [onMask?, onMask, first?_eq_some, Option.map_some]
  | insert r => simp only [onMask?, onMask, insert?_eq_some, Option.map_some]
  | remove r => simp only [onMask?, onMask, remove?_eq_some, Option.map_some]
  | takeLowest => exact takeLowest?_eq_some set

/-! ### Register sets are finite sets -/

/-- A register set that is told by its members: it answers every question as the finite set of their
numbers does, and no shift that it makes on the way reaches the width. -/
structure Denotes (set : RegisterSet) (numbers : Finset ℕ) : Prop where
  below : ∀ i ∈ numbers, i < 32
  contains : ∀ r : UInt8, set.contains r = true ↔ r.toNat ∈ numbers
  size : set.size = numbers.card
  isEmpty : set.isEmpty = true ↔ numbers = ∅
  lists : set.toList.map UInt8.toNat = numbers.sort (· ≤ ·)
  ascends : set.toList.Pairwise (· < ·)
  takes : ∀ r rest, set.takeLowest = some (r, rest) →
    IsLeast (numbers : Set ℕ) r.toNat ∧ rest.members = numbers.erase r.toNat
  takesNothing : set.takeLowest = none ↔ numbers = ∅
  shiftsToContain : ∀ r, set.contains? r = some (set.contains r)
  shiftsToList : set.toList? = some set.toList
  shiftsToAct : ∀ call : Call, call.onMask? set = some (call.onMask set)

theorem denotes_members (set : RegisterSet) : set.Denotes set.members where
  below _ := lt_of_mem_members
  contains _ := toNat_mem_members.symm
  size := size_eq_card set
  isEmpty := isEmpty_iff
  lists := toList_map_eq_sort set
  ascends := toList_ascends set
  takes r rest taken := by
    obtain ⟨least, rfl⟩ := takeLowest_isLeast taken
    exact ⟨least, members_remove set r⟩
  takesNothing := takeLowest_eq_none_iff
  shiftsToContain := contains?_eq_some set
  shiftsToList := toList?_eq_some set
  shiftsToAct call := call.onMask?_eq_some set

/-- Whatever is done to a register set, it answers as the finite set does to which the same is done,
and it is the set of the numbers in there. -/
theorem sessions_act_on_finite_sets (calls : List Call) :
    (session Call.onMask calls .empty).1.map (Option.map UInt8.toNat) =
        (session Call.onNumbers calls ∅).1 ∧
      (session Call.onMask calls .empty).2.Denotes (session Call.onNumbers calls ∅).2 := by
  have follows := session_members calls .empty
  rw [members_empty] at follows
  rw [follows]
  exact ⟨rfl, denotes_members _⟩

example :
    session Call.onMask
        [.first 3, .remove 0, .insert 32, .takeLowest, .takeLowest, .takeLowest] .empty =
      ([none, none, none, some 1, some 2, none], .empty) := by
  decide

end InlineCache.RegisterSet
