import Mathlib.Algebra.Group.Nat.Defs
import Mathlib.Data.Finset.Card
import Mathlib.Data.Finset.Range
import Mathlib.Logic.Function.Basic
import Mathlib.Tactic.Common
import SocksDirect.MachineRun

namespace SocksDirect

open Function Machine

/-!
# The growing slot array

`darray_t<T, INITSIZE>` of `common/darray.hpp`: a vector of cells with a
validity flag, where a new element goes to a slot that is known to be free, the
next free slot is then searched round the vector, and the vector is doubled
before it can become full.

Slots and counters are natural numbers.  The code's are 32 bits wide, which
makes no difference below 2^29 elements.
-/

/-- One cell of the vector. -/
structure DarrayCell (T : Type) where
  data : T
  isvalid : Bool

/-- The vector and the counters; cells from `size` on do not exist yet. -/
structure Darray (T : Type) where
  lowestAvailable : Nat
  highestPossible : Nat
  totalNum : Nat
  size : Nat
  data : Nat → DarrayCell T

namespace Darray

variable {T : Type}

/-- The constructor: `blank` is the element a new cell holds. -/
def empty (initsize : Nat) (blank : T) : Darray T where
  lowestAvailable := 0
  highestPossible := 0
  totalNum := 0
  size := initsize
  data := fun _ => { data := blank, isvalid := false }

/-- `operator[]`. -/
def get (array : Darray T) (loc : Nat) : T := (array.data loc).data

/-- `isvalid`. -/
def isvalid (array : Darray T) (loc : Nat) : Bool :=
  if array.highestPossible < loc then false else (array.data loc).isvalid

/-- The loop of the iterators, with the number of slots left up to `highest_possible`. -/
def searchValid (array : Darray T) : Nat → Nat → Int
  | 0, _ => -1
  | left + 1, pointer =>
    if array.isvalid pointer then pointer else searchValid array left (pointer + 1)

/-- `iterator_init`. -/
def iteratorInit (array : Darray T) : Int := array.searchValid (array.highestPossible + 1) 0

/-- `iterator_next`. -/
def iteratorNext (array : Darray T) (prevPointer : Nat) : Int :=
  array.searchValid (array.highestPossible + 1 - (prevPointer + 1)) (prevPointer + 1)

/--
The loop of `add` that looks for the next free slot.  It has no bound in the
code; here it gives up when it has not found one in `fuel` slots.
-/
def nextAvailable? (data : Nat → DarrayCell T) (size : Nat) : Nat → Nat → Option Nat
  | 0, _ => none
  | fuel + 1, lowestAvailable =>
    let following := if lowestAvailable + 1 = size then 0 else lowestAvailable + 1
    if (data following).isvalid then nextAvailable? data size fuel following else some following

/-- `add`, with the slot that it returns. -/
def add? (array : Darray T) (input : T) : Option (Darray T × Nat) :=
  let idx := array.lowestAvailable
  let data := update array.data idx { data := input, isvalid := true }
  let totalNum := array.totalNum + 1
  let size := if array.size ≤ totalNum then array.size * 2 else array.size
  match nextAvailable? data size size idx with
  | none => none
  | some lowestAvailable =>
    some
      ({ lowestAvailable := lowestAvailable
         highestPossible :=
           if array.highestPossible < idx then idx
           else array.highestPossible
         totalNum := totalNum
         size := size
         data := data }, idx)

/-- The loop of `del` that lowers `highest_possible` to a valid slot. -/
def lowerHighest (data : Nat → DarrayCell T) : Nat → Nat
  | 0 => 0
  | highest + 1 =>
    if (data (highest + 1)).isvalid then highest + 1 else lowerHighest data highest

/-- `del`. -/
def del (array : Darray T) (loc : Nat) : Darray T :=
  let data := update array.data loc { array.data loc with isvalid := false }
  { array with
    highestPossible :=
      if loc = array.highestPossible then
        lowerHighest data array.highestPossible
      else
        array.highestPossible
    totalNum := array.totalNum - 1
    data := data }

theorem data_del_of_ne (array : Darray T) {loc other : Nat} (different : other ≠ loc) :
    (array.del loc).data other = array.data other :=
  update_of_ne different _ _

@[simp] theorem get_del (array : Darray T) (loc other : Nat) :
    (array.del loc).get other = array.get other := by
  by_cases same : other = loc
  · subst same
    simp [get, del]
  · exact congrArg DarrayCell.data (array.data_del_of_ne same)

/-- The slots in use. -/
def slots (array : Darray T) : Finset Nat :=
  {loc ∈ Finset.range array.size | (array.data loc).isvalid}

/-- What the operations keep: there is a free slot and `add` knows one. -/
structure WellFormed (array : Darray T) : Prop where
  available : (array.data array.lowestAvailable).isvalid = false
  availableBelow : array.lowestAvailable < array.size
  below : ∀ loc, (array.data loc).isvalid = true → loc < array.size ∧ loc ≤ array.highestPossible
  counted : array.slots.card = array.totalNum
  room : array.totalNum < array.size

theorem wellFormed_empty {initsize : Nat} (positive : 0 < initsize) (blank : T) :
    (empty initsize blank).WellFormed where
  available := rfl
  availableBelow := positive
  below := by
    intro loc valid
    exact absurd valid Bool.false_ne_true
  counted := by simp [slots, empty]
  room := positive

theorem exists_round {start target size : Nat} (startBelow : start < size)
    (targetBelow : target < size) :
    ∃ steps, 0 < steps ∧ steps ≤ size ∧ (start + steps) % size = target := by
  by_cases behind : start < target
  · refine ⟨target - start, by omega, by omega, ?_⟩
    rw [Nat.add_sub_cancel' (Nat.le_of_lt behind)]
    exact Nat.mod_eq_of_lt targetBelow
  · refine ⟨size - start + target, by omega, by omega, ?_⟩
    rw [← Nat.add_assoc, Nat.add_sub_cancel' (Nat.le_of_lt startBelow), Nat.add_mod_left]
    exact Nat.mod_eq_of_lt targetBelow

/-- The search finds a free slot if there is one within its reach. -/
theorem nextAvailable?_of_free {data : Nat → DarrayCell T} {size fuel start steps : Nat}
    (startBelow : start < size) (positive : 0 < steps) (within : steps ≤ fuel)
    (free : (data ((start + steps) % size)).isvalid = false) :
    ∃ found, nextAvailable? data size fuel start = some found ∧
        found < size ∧ (data found).isvalid = false := by
  induction fuel generalizing start steps with
  | zero => omega
  | succ fuel inductionHypothesis =>
    have following : (if start + 1 = size then 0 else start + 1) = (start + 1) % size := by
      split
      case isTrue wraps => rw [wraps, Nat.mod_self]
      case isFalse inside => rw [Nat.mod_eq_of_lt (by omega)]
    have followingBelow : (start + 1) % size < size := Nat.mod_lt _ (Nat.zero_lt_of_lt startBelow)
    simp only [nextAvailable?, following]
    cases valid : (data ((start + 1) % size)).isvalid with
    | false => exact ⟨_, rfl, followingBelow, valid⟩
    | true =>
      obtain _ | _ | steps := steps
      · omega
      · rw [free] at valid
        exact absurd valid Bool.false_ne_true
      · refine inductionHypothesis followingBelow (Nat.succ_pos steps) (by omega) ?_
        rw [Nat.mod_add_mod, Nat.add_assoc, Nat.add_comm 1]
        exact free

theorem le_lowerHighest {data : Nat → DarrayCell T} {highest loc : Nat} (below : loc ≤ highest)
    (valid : (data loc).isvalid = true) :
    loc ≤ lowerHighest data highest := by
  induction highest with
  | zero => exact below
  | succ highest inductionHypothesis =>
    simp only [lowerHighest]
    split
    case isTrue => exact below
    case isFalse invalid =>
        refine inductionHypothesis (Nat.lt_succ_iff.mp ?_)
        refine Nat.lt_of_le_of_ne below ?_
        rintro rfl
        exact invalid valid

namespace WellFormed

variable {array : Darray T}

theorem isvalid_eq (wellFormed : array.WellFormed) (loc : Nat) :
    array.isvalid loc = (array.data loc).isvalid := by
  simp only [Darray.isvalid]
  split
  case isTrue above =>
      cases valid : (array.data loc).isvalid with
      | false => rfl
      | true => exact absurd (wellFormed.below loc valid).2 (Nat.not_le_of_lt above)
  case isFalse => rfl

theorem mem_slots (wellFormed : array.WellFormed) {loc : Nat} :
    loc ∈ array.slots ↔ (array.data loc).isvalid = true := by
  simp only [slots, Finset.mem_filter, Finset.mem_range, and_iff_right_iff_imp]
  intro valid
  exact (wellFormed.below loc valid).1

theorem exists_free {data : Nat → DarrayCell T} {size : Nat}
    (room : ({loc ∈ Finset.range size | (data loc).isvalid} : Finset Nat).card < size) :
    ∃ target < size, (data target).isvalid = false := by
  obtain ⟨target, inside, unused⟩ :=
    Finset.exists_mem_notMem_of_card_lt_card (room.trans_eq (Finset.card_range size).symm)
  refine ⟨target, Finset.mem_range.mp inside, ?_⟩
  apply Bool.eq_false_of_not_eq_true
  intro valid
  exact unused (Finset.mem_filter.mpr ⟨inside, valid⟩)

/-- The slots in use after one more has been filled, in a vector that may grow. -/
theorem card_filled (wellFormed : array.WellFormed) (input : T) {size : Nat}
    (grown : array.size ≤ size) :
    ({loc ∈ Finset.range size |
        (update array.data array.lowestAvailable { data := input, isvalid := true } loc).isvalid} :
        Finset Nat).card = array.totalNum + 1 := by
  have filled :
      ({loc ∈ Finset.range size |
          (update array.data array.lowestAvailable
            { data := input, isvalid := true } loc).isvalid} :
          Finset Nat) = insert array.lowestAvailable array.slots := by
    ext loc
    rw [Finset.mem_insert, wellFormed.mem_slots, Finset.mem_filter, Finset.mem_range]
    have available := wellFormed.availableBelow
    by_cases same : loc = array.lowestAvailable
    · simp [same, Nat.lt_of_lt_of_le available grown]
    · simp only [update_of_ne same, same, false_or, and_iff_right_iff_imp]
      intro valid
      exact Nat.lt_of_lt_of_le (wellFormed.below loc valid).1 grown
  have unused : array.lowestAvailable ∉ array.slots := by
    rw [wellFormed.mem_slots, wellFormed.available]
    exact Bool.false_ne_true
  rw [filled, Finset.card_insert_of_notMem unused, wellFormed.counted]

/-- `add` returns: it fills a free slot and knows another one afterwards. -/
theorem add (wellFormed : array.WellFormed) (input : T) : ∃ next,
      array.add? input = some (next, array.lowestAvailable) ∧ next.WellFormed ∧
        next.data = update array.data array.lowestAvailable { data := input, isvalid := true } := by
  have room := wellFormed.room
  have availableBelow := wellFormed.availableBelow
  simp only [add?]
  generalize sized : (if array.size ≤ array.totalNum + 1 then array.size * 2
      else array.size) = size
  have grown : array.size ≤ size ∧ array.totalNum + 1 < size := by split at sized <;> omega
  have card := wellFormed.card_filled input grown.1
  obtain ⟨target, targetBelow, free⟩ := exists_free (card.trans_lt grown.2)
  obtain ⟨steps, positive, within, arrives⟩ :=
    exists_round (Nat.lt_of_lt_of_le availableBelow grown.1) targetBelow
  rw [← arrives] at free
  obtain ⟨found, search, foundBelow, foundFree⟩ :=
    nextAvailable?_of_free (Nat.lt_of_lt_of_le availableBelow grown.1) positive within free
  rw [search]
  refine ⟨_, rfl, ⟨foundFree, foundBelow, ?_, card, grown.2⟩, rfl⟩
  intro loc valid
  by_cases same : loc = array.lowestAvailable
  · subst same
    refine ⟨Nat.lt_of_lt_of_le availableBelow grown.1, ?_⟩
    dsimp only
    split <;> omega
  · dsimp only at valid
    rw [update_of_ne same] at valid
    obtain ⟨below, notAbove⟩ := wellFormed.below loc valid
    refine ⟨Nat.lt_of_lt_of_le below grown.1, ?_⟩
    dsimp only
    split <;> omega

/-- `del` frees a slot. -/
theorem del (wellFormed : array.WellFormed) {loc : Nat} (valid : (array.data loc).isvalid = true) :
    (array.del loc).WellFormed := by
  have flags : ∀ other, ((array.del loc).data other).isvalid = true ↔
          other ≠ loc ∧ (array.data other).isvalid = true := by
    intro other
    by_cases same : other = loc
    · simp [Darray.del, same]
    · simp [Darray.del, same]
  have remaining : (array.del loc).slots = array.slots.erase loc := by
    ext other
    rw [Finset.mem_erase, wellFormed.mem_slots, slots, Finset.mem_filter,
      Finset.mem_range, flags, and_iff_right_iff_imp]
    rintro ⟨-, otherValid⟩
    exact (wellFormed.below other otherValid).1
  have used : loc ∈ array.slots := wellFormed.mem_slots.mpr valid
  refine ⟨?_, wellFormed.availableBelow, ?_, ?_, ?_⟩
  · apply Bool.eq_false_of_not_eq_true
    intro stillValid
    have before := ((flags _).mp stillValid).2
    exact absurd (wellFormed.available.symm.trans before) Bool.false_ne_true
  · intro other otherValid
    have before := wellFormed.below other ((flags other).mp otherValid).2
    refine ⟨before.1, ?_⟩
    simp only [Darray.del]
    split
    case isTrue => exact le_lowerHighest before.2 otherValid
    case isFalse => exact before.2
  · rw [remaining, Finset.card_erase_of_mem used, wellFormed.counted]
    rfl
  · exact Nat.lt_of_le_of_lt (Nat.sub_le _ _) wellFormed.room

end WellFormed

section Iterators

variable {array : Darray T}

private theorem searchValid_hit {left pointer slot : Nat} (notBehind : pointer ≤ slot)
    (inReach : slot < pointer + left) (valid : array.isvalid slot = true)
    (first : ∀ other, pointer ≤ other → array.isvalid other = true → slot ≤ other) :
    array.searchValid left pointer = slot := by
  induction left generalizing pointer with
  | zero => omega
  | succ left inductionHypothesis =>
    rw [searchValid]
    split
    case isTrue here =>
      have same : slot = pointer := Nat.le_antisymm (first pointer (Nat.le_refl _) here) notBehind
      rw [same]
    case isFalse free =>
      have different : pointer ≠ slot := fun same => free (same ▸ valid)
      refine inductionHypothesis (by omega) (by omega) fun other behind otherValid => ?_
      exact first other (by omega) otherValid

private theorem searchValid_miss {left pointer : Nat}
    (free : ∀ other, pointer ≤ other → array.isvalid other = false) :
    array.searchValid left pointer = -1 := by
  induction left generalizing pointer with
  | zero => rfl
  | succ left inductionHypothesis =>
    rw [searchValid, free pointer (Nat.le_refl _)]
    exact inductionHypothesis fun other behind => free other (by omega)

/-- What the iterators return one after the other, and -1 at the end. -/
def Follows (array : Darray T) : Int → List Nat → Prop
  | pointer, [] => pointer = -1
  | pointer, slot :: rest => pointer = slot ∧ Follows array (array.iteratorNext slot) rest

/-- From any place on the iterators return the valid slots in order. -/
private theorem follows_searchValid {slots : List Nat} {pointer : Nat}
    (increasing : slots.Pairwise (· < ·))
    (exactly : ∀ slot, slot ∈ slots ↔ pointer ≤ slot ∧ array.isvalid slot = true) :
    Follows array (array.searchValid (array.highestPossible + 1 - pointer) pointer) slots := by
  induction slots generalizing pointer with
  | nil =>
    refine searchValid_miss fun other behind => Bool.eq_false_iff.mpr fun valid => ?_
    exact absurd ((exactly other).mpr ⟨behind, valid⟩) (List.not_mem_nil)
  | cons slot rest inductionHypothesis =>
    rw [List.pairwise_cons] at increasing
    obtain ⟨notBehind, valid⟩ := (exactly slot).mp (by simp)
    have below : slot ≤ array.highestPossible := by
      by_contra above
      simp [isvalid, Nat.lt_of_not_le above] at valid
    refine ⟨searchValid_hit notBehind (by omega) valid fun other behind otherValid => ?_, ?_⟩
    · rcases List.mem_cons.mp ((exactly other).mpr ⟨behind, otherValid⟩) with rfl | later
      · exact Nat.le_refl _
      · exact Nat.le_of_lt (increasing.1 other later)
    · refine inductionHypothesis increasing.2 fun other => ?_
      constructor
      · intro later
        exact ⟨increasing.1 other later, ((exactly other).mp (by simp [later])).2⟩
      · rintro ⟨behind, otherValid⟩
        have member := (exactly other).mpr ⟨by omega, otherValid⟩
        exact (List.mem_cons.mp member).resolve_left (by omega)

end Iterators

/-- An array with what has been added and not deleted. -/
structure Tracked (T : Type) where
  array : Darray T
  live : Finset Nat
  added : Nat → T

/-- The operations of a user of the array. -/
inductive Operation (T : Type) where
  | add (input : T)
  | del (loc : Nat)

/-- One operation: only live elements are deleted, and there are never more than 2^29. -/
def Tracked.step? (tracked : Tracked T) : Operation T → Option (Tracked T)
  | .add input =>
    if tracked.live.card < 2 ^ 29 then
      (tracked.array.add? input).map fun result =>
        { array := result.1
          live := insert result.2 tracked.live
          added := update tracked.added result.2 input }
    else
      none
  | .del loc =>
    if loc ∈ tracked.live then
      some { tracked with array := tracked.array.del loc, live := tracked.live.erase loc }
    else
      none

/-- A new array. -/
def Tracked.initial (initsize : Nat) (blank : T) : Tracked T where
  array := empty initsize blank
  live := ∅
  added := fun _ => blank

/-- The array holds what was added, and its vector has at most 2^30 cells. -/
structure Tracked.Holds (tracked : Tracked T) : Prop where
  wellFormed : tracked.array.WellFormed
  live : tracked.array.slots = tracked.live
  added : ∀ loc ∈ tracked.live, tracked.array.get loc = tracked.added loc
  bounded : tracked.array.size ≤ 2 ^ 30

namespace Tracked

variable {tracked next : Tracked T}

theorem Holds.mem_live (holds : tracked.Holds) {loc : Nat} :
    loc ∈ tracked.live ↔ (tracked.array.data loc).isvalid = true := by
  rw [← holds.live, holds.wellFormed.mem_slots]

theorem Holds.lowestAvailable_notMem (holds : tracked.Holds) :
    tracked.array.lowestAvailable ∉ tracked.live := by
  rw [holds.mem_live, holds.wellFormed.available]
  exact Bool.false_ne_true

theorem holds_initial {initsize : Nat} (positive : 0 < initsize) (small : initsize ≤ 2 ^ 29)
    (blank : T) : (initial initsize blank).Holds where
  wellFormed := wellFormed_empty positive blank
  live := by simp [initial, slots, empty]
  added loc member := absurd member (Finset.notMem_empty loc)
  bounded := by
    simp only [initial, empty]
    omega

/-- `add` and `del` keep the live elements where they are. -/
theorem Holds.step {operation : Operation T} (holds : tracked.Holds)
    (accepted : tracked.step? operation = some next) : next.Holds := by
  cases operation with
  | add input =>
    simp only [step?, Option.ite_none_right_eq_some] at accepted
    obtain ⟨few, accepted⟩ := accepted
    obtain ⟨array, added, wellFormed, data⟩ := holds.wellFormed.add input
    have size : array.size = if tracked.array.size ≤ tracked.array.totalNum + 1 then
        tracked.array.size * 2 else tracked.array.size := by
      simp only [add?] at added
      split at added
      case h_1 => simp at added
      case h_2 =>
        simp only [Option.some.injEq, Prod.mk.injEq] at added
        rw [← added.1]
    rw [added, Option.map_some, Option.some.injEq] at accepted
    subst accepted
    refine ⟨wellFormed, ?_, ?_, ?_⟩
    · ext loc
      rw [wellFormed.mem_slots, data, Finset.mem_insert, holds.mem_live]
      by_cases same : loc = tracked.array.lowestAvailable
      · simp [same]
      · simp [same]
    · intro loc member
      simp only [get, data]
      by_cases same : loc = tracked.array.lowestAvailable
      · simp [same]
      · have before := holds.added loc (Finset.mem_of_mem_insert_of_ne member same)
        simpa [same, get] using before
    · have count := holds.wellFormed.counted
      have bounded := holds.bounded
      rw [holds.live] at count
      simp only [size]
      split <;> omega
  | del loc =>
    simp only [step?, Option.ite_none_right_eq_some, Option.some.injEq] at accepted
    obtain ⟨isLive, rfl⟩ := accepted
    have valid := holds.mem_live.mp isLive
    have wellFormed := holds.wellFormed.del valid
    refine ⟨wellFormed, ?_, ?_, holds.bounded⟩
    · ext other
      rw [wellFormed.mem_slots, Finset.mem_erase, holds.mem_live]
      by_cases same : other = loc
      · simp [Darray.del, same]
      · simp [Darray.del, same]
    · intro other member
      rw [get_del]
      exact holds.added other (Finset.mem_of_mem_erase member)

/-- The live slots in increasing order. -/
def inOrder (tracked : Tracked T) : List Nat :=
  (List.range tracked.array.size).filter fun loc => loc ∈ tracked.live

/-- In every state reached from a new array the counter is the number of live slots and leaves
room, so that `add` ends and returns a slot that is not live; the live slots are the valid ones
and hold what was added to them; and the iterators return them in order and then -1. -/
theorem darray_correct
    {initsize : Nat}
    (positive : 1 ≤ initsize)
    (small : initsize ≤ 2 ^ 29)
    {blank : T}
    {operations : List (Operation T)}
    (accepted : run? step? (initial initsize blank) operations = some tracked) :
    tracked.array.totalNum = tracked.live.card ∧
      tracked.array.totalNum < tracked.array.size ∧
      tracked.array.size ≤ 2 ^ 30 ∧
      (∀ input, ∃ array loc, tracked.array.add? input = some (array, loc) ∧ loc ∉ tracked.live) ∧
      (∀ loc, tracked.array.isvalid loc = true ↔ loc ∈ tracked.live) ∧
      (∀ loc ∈ tracked.live, tracked.array.get loc = tracked.added loc) ∧
      Follows tracked.array tracked.array.iteratorInit tracked.inOrder := by
  have holds : tracked.Holds := invariant_of_run (holds_initial positive small blank)
    (fun before stepped => Holds.step before stepped) accepted
  have valid (loc : Nat) : tracked.array.isvalid loc = true ↔ loc ∈ tracked.live := by
    rw [holds.wellFormed.isvalid_eq, holds.mem_live]
  refine ⟨?_, holds.wellFormed.room, holds.bounded, ?_, valid, holds.added, ?_⟩
  · rw [← holds.wellFormed.counted, holds.live]
  · intro input
    obtain ⟨array, added, -⟩ := holds.wellFormed.add input
    exact ⟨array, _, added, holds.lowestAvailable_notMem⟩
  · refine @follows_searchValid T tracked.array tracked.inOrder 0
      (List.pairwise_lt_range.filter _) fun loc => ?_
    rw [inOrder, List.mem_filter, List.mem_range, valid, decide_eq_true_eq]
    constructor
    · exact fun both => ⟨Nat.zero_le _, both.2⟩
    · rintro ⟨-, isLive⟩
      exact ⟨(holds.wellFormed.below loc (holds.mem_live.mp isLive)).1, isLive⟩

/-- Two elements in an array that starts with one cell. -/
theorem twoAdded_correct :
    ∃ tracked, run? step? (initial 1 0) [.add 7, .add 8, .del 0] = some tracked ∧
      tracked.array.iteratorInit = 1 ∧
      tracked.array.totalNum = tracked.live.card := by
  exact ⟨_, rfl, by decide, (darray_correct (Nat.le_refl 1) (by decide)
    (show run? step? (initial 1 0) [.add 7, .add 8, .del 0] = some _ from rfl)).1⟩

end Tracked

end Darray

end SocksDirect
