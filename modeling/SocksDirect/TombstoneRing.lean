import Mathlib.Data.List.Nodup
import Mathlib.Data.List.Perm.Subperm
import Mathlib.Logic.Function.Basic
import Mathlib.Tactic.Common

namespace SocksDirect.TombstoneRing

open Function

/-!
# Rings whose elements are deleted in any order

A ring of slots holds the most recent part of an unbounded sequence of
elements.  The sender fills the slot of the next index; the receiver marks any
present element as deleted and gives slots back only from the front, over a
contiguous run of deleted elements.

`place` says which cell holds the element of an index; indices less than one
capacity apart have different cells.
-/

/-- One slot: an element, whether the slot is in use, and its deletion mark. -/
structure Slot (α : Type) where
  data : α
  isvalid : Bool
  isdel : Bool
  deriving Repr, DecidableEq

/--
One element as the receiver obtained it.  `inOrder` tells the removals that
promise the oldest element from those of an element of the caller's choice.
-/
structure Taken (α : Type) where
  index : Nat
  item : α
  inOrder : Bool
  deriving Repr, DecidableEq

/--
What has happened to a ring: the elements sent, the index last stored in each
cell, the elements obtained, and the number of slots given back.
-/
structure History (Cell α : Type) where
  sent : List α
  serial : Cell → Nat
  taken : List (Taken α)
  released : Nat

namespace History

variable {Cell α : Type}

/-- Nothing has been sent. -/
def empty (Cell α : Type) : History Cell α where
  sent := []
  serial := fun _ => 0
  taken := []
  released := 0

/-- The next element has been stored in `cell`. -/
def push [DecidableEq Cell] (history : History Cell α) (cell : Cell) (item : α) : History Cell α :=
  { history with
    sent := history.sent ++ [item]
    serial := update history.serial cell history.sent.length }

/-- The element stored in `cell` has been obtained as `item`. -/
def take (history : History Cell α) (cell : Cell) (item : α) (inOrder : Bool) : History Cell α :=
  { history with
    taken := history.taken ++ [{ index := history.serial cell, item := item, inOrder := inOrder }] }

/-- The oldest slot has been given back. -/
def release (history : History Cell α) : History Cell α :=
  { history with released := history.released + 1 }

/-- The element of this index has been obtained. -/
def IsTaken (history : History Cell α) (index : Nat) : Prop := index ∈ history.taken.map Taken.index

/-- Whether an index has been obtained can be computed. -/
instance (history : History Cell α) (index : Nat) : Decidable (history.IsTaken index) :=
  inferInstanceAs (Decidable (index ∈ history.taken.map Taken.index))

/-- The element of an index, unless it has been obtained. -/
def present? (history : History Cell α) (index : Nat) : Option α :=
  if history.IsTaken index then none else history.sent[index]?

/-- The elements sent and not obtained, in the order they were sent. -/
def pending (history : History Cell α) : List α :=
  (List.range history.sent.length).filterMap history.present?

/-- The indices of the elements sent and not obtained, in order. -/
def pendingIndices (history : History Cell α) : List Nat :=
  (List.range history.sent.length).filter fun index => ¬ history.IsTaken index

/-- The element of this index has been replaced by another one. -/
def rewrite (history : History Cell α) (index : Nat) (item : α) : History Cell α :=
  { history with sent := history.sent.set index item }

variable {history : History Cell α} {index : Nat}

theorem mem_pendingIndices :
    index ∈ history.pendingIndices ↔ index < history.sent.length ∧ ¬ history.IsTaken index := by
  simp [pendingIndices]

theorem nodup_pendingIndices (history : History Cell α) : history.pendingIndices.Nodup :=
  List.nodup_range.filter _

theorem pending_eq_filterMap (history : History Cell α) :
    history.pending = history.pendingIndices.filterMap (history.sent[·]?) := by
  rw [pending, pendingIndices, List.filterMap_filter]
  refine List.filterMap_congr fun index _ => ?_
  simp only [present?]
  by_cases taken : history.IsTaken index <;> simp [taken]

variable {inOrder : Bool}

theorem isTaken_take_iff {cell : Cell} {item : α} : (history.take cell item inOrder).IsTaken index ↔
      history.IsTaken index ∨ index = history.serial cell := by
  simp [IsTaken, take]

/--
Every element is obtained as it was sent and at most once, and a removal in order
comes when every older element has been obtained.
-/
structure Delivered (history : History Cell α) : Prop where
  once : (history.taken.map Taken.index).Nodup
  genuine : ∀ entry ∈ history.taken, history.sent[entry.index]? = some entry.item
  oldestFirst : ∀ earlier entry later, history.taken = earlier ++ entry :: later →
        entry.inOrder = true → ∀ index < entry.index, index ∈ earlier.map Taken.index

section

variable (delivered : history.Delivered)

include delivered

theorem Delivered.lt_of_isTaken (taken : history.IsTaken index) : index < history.sent.length := by
  obtain ⟨entry, member, rfl⟩ := List.mem_map.mp taken
  exact (List.getElem?_eq_some_iff.mp (delivered.genuine entry member)).1

theorem Delivered.push [DecidableEq Cell] (cell : Cell) (item : α) :
    (history.push cell item).Delivered where
  once := delivered.once
  genuine := by
    intro entry member
    have sentBefore := delivered.genuine entry member
    have inside := (List.getElem?_eq_some_iff.mp sentBefore).1
    change (history.sent ++ [item])[entry.index]? = some entry.item
    rw [List.getElem?_append_left inside]
    exact sentBefore
  oldestFirst := delivered.oldestFirst

theorem Delivered.pendingIndices_push [DecidableEq Cell] (cell : Cell) (item : α) :
    (history.push cell item).pendingIndices = history.pendingIndices ++ [history.sent.length] := by
  have fresh : ¬ history.IsTaken history.sent.length := fun taken =>
    Nat.lt_irrefl _ (delivered.lt_of_isTaken taken)
  have sameTaken : ∀ index, (history.push cell item).IsTaken index ↔ history.IsTaken index :=
    fun _ => Iff.rfl
  simp only [pendingIndices, sameTaken]
  simp [History.push, List.range_succ, fresh]

theorem Delivered.pending_push [DecidableEq Cell] (cell : Cell) (item : α) :
    (history.push cell item).pending = history.pending ++ [item] := by
  have before : history.pendingIndices.filterMap
          ((history.push cell item).sent[·]?) = history.pending := by
    rw [pending_eq_filterMap]
    refine List.filterMap_congr fun index member => ?_
    exact List.getElem?_append_left (mem_pendingIndices.mp member).1
  rw [pending_eq_filterMap, delivered.pendingIndices_push, List.filterMap_append, before]
  simp [History.push]

end

theorem length_pending_eq (history : History Cell α) :
    history.pending.length = history.pendingIndices.length := by
  rw [pending_eq_filterMap, List.length_filterMap_eq_countP, List.countP_eq_length]
  intro index member
  rw [List.getElem?_eq_getElem (mem_pendingIndices.mp member).1]
  rfl

/-- Elements are obtained at the front only. -/
def Contiguous (history : History Cell α) : Prop :=
  ∀ index, history.released ≤ index → ¬ history.IsTaken index

theorem Contiguous.length_le (contiguous : history.Contiguous) :
    history.sent.length ≤ history.released + history.pending.length := by
  have pending : List.range' history.released
          (history.sent.length - history.released) ⊆
        history.pendingIndices := by
    intro index member
    obtain ⟨behind, inside⟩ := List.mem_range'_1.mp member
    exact mem_pendingIndices.mpr ⟨by omega, contiguous index behind⟩
  have counted := (List.subperm_of_subset List.nodup_range' pending).length_le
  rw [List.length_range', ← length_pending_eq] at counted
  omega

theorem pendingIndices_take {cell : Cell} {item : α} :
    (history.take cell item inOrder).pendingIndices =
      history.pendingIndices.filter (· ≠ history.serial cell) := by
  simp only [pendingIndices, isTaken_take_iff, List.filter_filter]
  refine List.filter_congr fun index _ => ?_
  by_cases taken : history.IsTaken index <;> simp [taken]

theorem Delivered.rewrite (delivered : history.Delivered) (present : ¬ history.IsTaken index)
    (item : α) : (history.rewrite index item).Delivered where
  once := delivered.once
  genuine := by
    intro entry member
    have different : index ≠ entry.index := by
      rintro rfl
      exact present (List.mem_map_of_mem member)
    change (history.sent.set index item)[entry.index]? = _
    rw [List.getElem?_set_ne different]
    exact delivered.genuine entry member
  oldestFirst := delivered.oldestFirst

/-- The oldest slot, if in use, holds an element that is not obtained yet. -/
def HeadPresent (history : History Cell α) : Prop :=
  history.released < history.sent.length → ¬ history.IsTaken history.released

theorem HeadPresent.push [DecidableEq Cell] (present : history.HeadPresent)
    (delivered : history.Delivered) (cell : Cell) (item : α) :
    (history.push cell item).HeadPresent := by
  intro _ taken
  exact present (delivered.lt_of_isTaken taken) taken

theorem HeadPresent.length_le_released (present : history.HeadPresent)
    (allTaken : ∀ index < history.sent.length, history.IsTaken index) :
    history.sent.length ≤ history.released := by
  by_contra within
  exact present (Nat.lt_of_not_le within) (allTaken _ (Nat.lt_of_not_le within))

/-- An element obtained for the first time joins the account. -/
theorem Delivered.take (delivered : history.Delivered) {cell : Cell} {item : α}
    (genuine : history.sent[history.serial cell]? = some item)
    (first : ¬ history.IsTaken (history.serial cell))
    (older : inOrder = true → ∀ index < history.serial cell, history.IsTaken index) :
    (history.take cell item inOrder).Delivered where
  once := by
    simp only [History.take, List.map_append, List.map_cons, List.map_nil]
    exact List.Nodup.append delivered.once (List.nodup_singleton _)
      (List.disjoint_singleton.mpr first)
  genuine := by
    intro entry member
    simp only [History.take, List.mem_append, List.mem_singleton] at member
    rcases member with before | rfl
    · exact delivered.genuine entry before
    · exact genuine
  oldestFirst := by
    intro earlier entry later split marked
    rcases List.eq_nil_or_concat later with rfl | ⟨before, last, rfl⟩
    · obtain ⟨rfl, same⟩ := List.append_inj' split rfl
      obtain rfl := (List.cons.inj same).1
      exact older marked
    · have splitBefore : history.taken = earlier ++ entry :: before := by
        rw [List.concat_eq_append, ← List.cons_append, ← List.append_assoc] at split
        exact (List.append_inj' split rfl).1
      exact delivered.oldestFirst earlier entry before splitBefore marked

end History

section Window

variable {Cell α : Type} {place : Nat → Cell} {capacity : Nat}

/-- Indices less than one capacity apart have different cells. -/
def Spaced (place : Nat → Cell) (capacity : Nat) : Prop :=
  ∀ earlier later, earlier < later → later < earlier + capacity → place earlier ≠ place later

theorem Spaced.eq_of_place_eq (spaced : Spaced place capacity)
    {first second released sentCount : Nat} (bounded : sentCount ≤ released + capacity)
    (firstIn : released ≤ first ∧ first < sentCount)
    (secondIn : released ≤ second ∧ second < sentCount) (same : place first = place second) :
    first = second := by
  rcases Nat.lt_trichotomy first second with before | equal | after
  · exact absurd same (spaced first second before (by omega))
  · exact equal
  · exact absurd same.symm (spaced second first after (by omega))

/--
The slots hold exactly the elements from `released` to the last one sent, each
with its deletion mark, and every other slot is free.
-/
structure Holds
    (place : Nat → Cell)
    (capacity : Nat)
    (slots : Cell → Slot α)
    (history : History Cell α) : Prop where
  ordered : history.released ≤ history.sent.length
  bounded : history.sent.length ≤ history.released + capacity
  valid : ∀ index, history.released ≤ index → index < history.sent.length →
      (slots (place index)).isvalid = true
  content : ∀ index, history.released ≤ index → index < history.sent.length →
      history.sent[index]? = some (slots (place index)).data
  marked : ∀ index, history.released ≤ index → index < history.sent.length →
      ((slots (place index)).isdel = true ↔ history.IsTaken index)
  serial : ∀ index, history.released ≤ index → index < history.sent.length →
      history.serial (place index) = index
  vacant : ∀ cell, (∀ index, history.released ≤ index → index < history.sent.length →
        place index ≠ cell) → (slots cell).isvalid = false
  releasedTaken : ∀ index < history.released, history.IsTaken index
  delivered : history.Delivered

theorem field_update [DecidableEq Cell] {β : Type} {slots : Cell → Slot α} {updated : Cell}
    {slot : Slot α} (field : Slot α → β) (unchanged : field slot = field (slots updated))
    {cell : Cell} :
    field (update slots updated slot cell) = field (slots cell) := by
  by_cases same : cell = updated
  · subst same
    rw [update_self]
    exact unchanged
  · rw [update_of_ne same]

namespace Holds

variable {slots : Cell → Slot α} {history : History Cell α}

theorem empty (free : ∀ cell, (slots cell).isvalid = false) :
    Holds place capacity slots (History.empty Cell α) where
  ordered := Nat.le_refl 0
  bounded := Nat.zero_le _
  valid := fun _ _ inside => absurd inside (Nat.not_lt_zero _)
  content := fun _ _ inside => absurd inside (Nat.not_lt_zero _)
  marked := fun _ _ inside => absurd inside (Nat.not_lt_zero _)
  serial := fun _ _ inside => absurd inside (Nat.not_lt_zero _)
  vacant := fun cell _ => free cell
  releasedTaken := fun _ below => absurd below (Nat.not_lt_zero _)
  delivered :=
    { once := List.nodup_nil
      genuine := fun _ member => absurd member List.not_mem_nil
      oldestFirst := by
        intro earlier entry later split
        simp [History.empty] at split }

theorem exists_of_isvalid (held : Holds place capacity slots history) {cell : Cell}
    (inUse : (slots cell).isvalid = true) :
    ∃ index, history.released ≤ index ∧ index < history.sent.length ∧ place index = cell := by
  by_contra missing
  have free : (slots cell).isvalid = false := by
    apply held.vacant
    intro index released inside same
    exact missing ⟨index, released, inside, same⟩
  rw [inUse] at free
  exact Bool.noConfusion free

theorem isvalid_released_iff (held : Holds place capacity slots history) :
    (slots (place history.released)).isvalid = true ↔ history.released < history.sent.length := by
  constructor
  · intro inUse
    obtain ⟨index, released, inside, _⟩ := held.exists_of_isvalid inUse
    exact Nat.lt_of_le_of_lt released inside
  · exact held.valid _ (Nat.le_refl _)

variable {index : Nat}

section

variable (held : Holds place capacity slots history)

include held

theorem released_le_of_not_isTaken (present : ¬ history.IsTaken index) :
    history.released ≤ index := by
  by_contra below
  exact present (held.releasedTaken index (Nat.lt_of_not_le below))

theorem place_ne (spaced : Spaced place capacity) {other : Nat}
    (indexHeld : history.released ≤ index ∧ index < history.sent.length)
    (otherHeld : history.released ≤ other ∧ other < history.sent.length) (different : other ≠ index) :
    place other ≠ place index := fun same =>
  different (spaced.eq_of_place_eq held.bounded otherHeld indexHeld same)

/-- Storing the next element while there is room. -/
theorem push [DecidableEq Cell] (spaced : Spaced place capacity)
    (room : history.sent.length < history.released + capacity) (item : α) :
    Holds place capacity
      (update slots (place history.sent.length)
      { data := item, isvalid := true, isdel := false })
      (history.push (place history.sent.length) item) := by
  have other : ∀ index, history.released ≤ index → index < history.sent.length →
        place index ≠ place history.sent.length := by
    intro index released inside
    exact spaced index _ inside (by omega)
  have split : ∀ index, index < (history.sent ++ [item]).length →
        index < history.sent.length ∨ index = history.sent.length := by
    intro index inside
    rw [List.length_append, List.length_singleton] at inside
    omega
  constructor
  case ordered =>
    simp only [History.push, List.length_append, List.length_singleton]
    exact Nat.le_succ_of_le held.ordered
  case bounded =>
    simp only [History.push, List.length_append, List.length_singleton]
    omega
  case valid =>
    intro index released inside
    rcases split index inside with before | rfl
    · rw [update_of_ne (other index released before)]
      exact held.valid index released before
    · rw [update_self]
  case content =>
    intro index released inside
    change (history.sent ++ [item])[index]? = _
    rcases split index inside with before | rfl
    · rw [update_of_ne (other index released before), List.getElem?_append_left before]
      exact held.content index released before
    · rw [update_self, List.getElem?_concat_length]
  case marked =>
    intro index released inside
    rcases split index inside with before | rfl
    · rw [update_of_ne (other index released before)]
      exact held.marked index released before
    · rw [update_self]
      constructor
      · intro impossible
        exact Bool.noConfusion impossible
      · intro taken
        exact absurd (held.delivered.lt_of_isTaken taken) (Nat.lt_irrefl _)
  case serial =>
    intro index released inside
    change update history.serial _ _ _ = _
    rcases split index inside with before | rfl
    · rw [update_of_ne (other index released before)]
      exact held.serial index released before
    · rw [update_self]
  case vacant =>
    intro cell outside
    have different : cell ≠ place history.sent.length := by
      intro same
      exact outside history.sent.length held.ordered (by simp [History.push]) same.symm
    rw [update_of_ne different]
    apply held.vacant
    intro index released inside
    apply outside index released
    simp only [History.push, List.length_append]
    omega
  case releasedTaken => exact held.releasedTaken
  case delivered => exact held.delivered.push _ item

/-- Marking a held element that has not been obtained yet. -/
theorem take [DecidableEq Cell] (spaced : Spaced place capacity)
    (released : history.released ≤ index) (inside : index < history.sent.length)
    (present : ¬ history.IsTaken index) {inOrder : Bool}
    (oldest : inOrder = true → index = history.released) :
    Holds place capacity
      (update slots (place index) { slots (place index) with isdel := true })
      (history.take (place index) (slots (place index)).data inOrder) := by
  have own := held.serial index released inside
  constructor
  case ordered => exact held.ordered
  case bounded => exact held.bounded
  case valid =>
    intro other otherReleased otherInside
    rw [field_update Slot.isvalid (by rfl)]
    exact held.valid other otherReleased otherInside
  case content =>
    intro other otherReleased otherInside
    rw [field_update Slot.data (by rfl)]
    exact held.content other otherReleased otherInside
  case marked =>
    intro other otherReleased otherInside
    rw [History.isTaken_take_iff, own]
    by_cases same : other = index
    · subst same
      simp
    · have different := held.place_ne spaced ⟨released, inside⟩ ⟨otherReleased, otherInside⟩ same
      rw [update_of_ne different, held.marked other otherReleased otherInside]
      simp [same]
  case serial => exact held.serial
  case vacant =>
    intro cell outside
    rw [field_update Slot.isvalid (by rfl)]
    exact held.vacant cell outside
  case releasedTaken =>
    intro other below
    exact History.isTaken_take_iff.mpr (Or.inl (held.releasedTaken other below))
  case delivered =>
    apply held.delivered.take
    · rw [own]
      exact held.content index released inside
    · rw [own]
      exact present
    · rw [own]
      intro ordered other below
      rw [oldest ordered] at below
      exact held.releasedTaken other below

/-- Giving back the slot of the oldest element once it has been obtained. -/
theorem release [DecidableEq Cell] (spaced : Spaced place capacity)
    (inside : history.released < history.sent.length) (taken : history.IsTaken history.released) :
    Holds place capacity
      (update slots (place history.released)
      { slots (place history.released) with isvalid := false })
      history.release := by
  have elsewhere : ∀ index, history.released + 1 ≤ index → index < history.sent.length →
          update slots (place history.released)
              { slots (place history.released) with isvalid := false }
              (place index) = slots (place index) := by
    intro index released indexInside
    have different :=
      held.place_ne spaced ⟨Nat.le_refl _, inside⟩
        ⟨Nat.le_of_succ_le released, indexInside⟩
        (Nat.ne_of_gt released)
    rw [update_of_ne different]
  constructor
  case ordered => exact inside
  case bounded =>
    have bounded := held.bounded
    simp only [History.release]
    omega
  case valid =>
    intro index released indexInside
    rw [elsewhere index released indexInside]
    exact held.valid index (Nat.le_of_succ_le released) indexInside
  case content =>
    intro index released indexInside
    rw [elsewhere index released indexInside]
    exact held.content index (Nat.le_of_succ_le released) indexInside
  case marked =>
    intro index released indexInside
    rw [elsewhere index released indexInside]
    exact held.marked index (Nat.le_of_succ_le released) indexInside
  case serial =>
    intro index released indexInside
    exact held.serial index (Nat.le_of_succ_le released) indexInside
  case vacant =>
    intro cell outside
    by_cases same : cell = place history.released
    · subst same
      rw [update_self]
    · rw [update_of_ne same]
      apply held.vacant
      intro index released indexInside
      by_cases front : index = history.released
      · subst front
        exact Ne.symm same
      · exact outside index (by simp only [History.release]; omega) indexInside
  case releasedTaken =>
    intro index below
    rcases Nat.lt_succ_iff_lt_or_eq.mp below with before | rfl
    · exact held.releasedTaken index before
    · exact taken
  case delivered =>
    exact
      { once := held.delivered.once
        genuine := held.delivered.genuine
        oldestFirst := held.delivered.oldestFirst }

/-- Obtaining the oldest element keeps the others contiguous. -/
theorem contiguous_pop {laterSlots : Cell → Slot α} {later : History Cell α}
    (heldLater : Holds place capacity laterSlots later) (present : later.HeadPresent)
    (obtained : ∀ index, later.IsTaken index ↔ history.IsTaken index ∨ index = history.released)
    (contiguous : history.Contiguous) :
    later.Contiguous := by
  intro index behind taken
  have inside := heldLater.delivered.lt_of_isTaken taken
  have front := present (Nat.lt_of_le_of_lt behind inside)
  have upToFront : index ≤ history.released := by
    rcases (obtained index).mp taken with before | rfl
    · by_contra beyond
      exact contiguous index (Nat.le_of_not_le beyond) before
    · exact Nat.le_refl _
  apply front
  rw [obtained]
  rcases Nat.lt_or_eq_of_le (Nat.le_trans behind upToFront) with older | same
  · exact Or.inl (held.releasedTaken _ older)
  · exact Or.inr same

/-- The oldest element held is the first of the pending ones. -/
theorem pendingIndices_cons (present : history.HeadPresent)
    (inside : history.released < history.sent.length) :
    ∃ later, history.pendingIndices = history.released :: later := by
  have split : List.range history.sent.length = List.range history.released ++
          (history.released ::
            List.range' (history.released + 1) (history.sent.length - history.released - 1)) := by
    have joined :=
      List.range'_append_1
        (s := 0)
        (m := history.released)
        (n := history.sent.length - history.released - 1 + 1)
    rw [Nat.zero_add] at joined
    rw [List.range_eq_range', List.range_eq_range', ← List.range'_succ, joined]
    congr 1
    omega
  have gone : (List.range history.released).filter (fun index => ¬ history.IsTaken index) = [] := by
    refine List.filter_eq_nil_iff.mpr fun index member => ?_
    simp [held.releasedTaken index (List.mem_range.mp member)]
  have front : decide (¬ history.IsTaken history.released) = true := decide_eq_true (present inside)
  rw [History.pendingIndices, split, List.filter_append, gone, List.nil_append]
  refine ⟨_, List.filter_cons_of_pos ?_⟩
  exact front

/-- Replacing an element that has not been obtained. -/
theorem rewrite [DecidableEq Cell] (spaced : Spaced place capacity)
    (released : history.released ≤ index) (inside : index < history.sent.length)
    (present : ¬ history.IsTaken index) (item : α) :
    Holds place capacity
      (update slots (place index) { slots (place index) with data := item })
      (history.rewrite index item) := by
  have sameLength : (history.rewrite index item).sent.length = history.sent.length :=
    List.length_set
  constructor
  case ordered =>
    rw [sameLength]
    exact held.ordered
  case bounded =>
    rw [sameLength]
    exact held.bounded
  case valid =>
    intro another anotherReleased anotherInside
    rw [sameLength] at anotherInside
    rw [field_update Slot.isvalid (by rfl)]
    exact held.valid another anotherReleased anotherInside
  case content =>
    intro another anotherReleased anotherInside
    rw [sameLength] at anotherInside
    change (history.sent.set index item)[another]? = _
    by_cases same : another = index
    · subst same
      rw [update_self, List.getElem?_set_self inside]
    · have different :=
        held.place_ne spaced ⟨released, inside⟩ ⟨anotherReleased, anotherInside⟩ same
      rw [update_of_ne different, List.getElem?_set_ne (Ne.symm same)]
      exact held.content another anotherReleased anotherInside
  case marked =>
    intro another anotherReleased anotherInside
    rw [sameLength] at anotherInside
    rw [field_update Slot.isdel (by rfl)]
    exact held.marked another anotherReleased anotherInside
  case serial =>
    intro another anotherReleased anotherInside
    rw [sameLength] at anotherInside
    exact held.serial another anotherReleased anotherInside
  case vacant =>
    intro cell outside
    rw [field_update Slot.isvalid (by rfl)]
    apply held.vacant
    intro another anotherReleased anotherInside
    exact outside another anotherReleased (sameLength ▸ anotherInside)
  case releasedTaken => exact held.releasedTaken
  case delivered => exact held.delivered.rewrite present item

end

end Holds

/--
The elements met on a walk of at most `steps` slots from the slot of `index` up
to the first free slot, without the deleted ones.
-/
def walk (slots : Cell → Slot α) (place : Nat → Cell) : Nat → Nat → List α
  | 0, _ => []
  | steps + 1, index =>
    let slot := slots (place index)
    if slot.isvalid then
      if slot.isdel then
        walk slots place steps (index + 1)
      else
        slot.data :: walk slots place steps (index + 1)
    else
      []

namespace Holds

variable {slots : Cell → Slot α} {history : History Cell α}

/-- A walk inside one capacity meets the elements of its indices. -/
theorem walk_eq_filterMap (held : Holds place capacity slots history)
    (spaced : Spaced place capacity) {steps index : Nat} (released : history.released ≤ index)
    (within : index + steps ≤ history.released + capacity) :
    walk slots place steps index = (List.range' index steps).filterMap history.present? := by
  induction steps generalizing index with
  | zero => rfl
  | succ steps inductionHypothesis =>
    have rest :=
      inductionHypothesis (Nat.le_succ_of_le released)
        (show index + 1 + steps ≤ history.released + capacity by omega)
    by_cases inside : index < history.sent.length
    · have content := held.content index released inside
      rw [walk, List.range'_succ, if_pos (held.valid index released inside), rest]
      by_cases taken : history.IsTaken index
      · rw [if_pos ((held.marked index released inside).mpr taken), List.filterMap_cons_none]
        rw [History.present?, if_pos taken]
      · have unmarked : ¬ (slots (place index)).isdel = true := fun mark =>
          taken ((held.marked index released inside).mp mark)
        rw [if_neg unmarked, List.filterMap_cons_some]
        rw [History.present?, if_neg taken, content]
    · have free : (slots (place index)).isvalid = false := by
        apply held.vacant
        intro earlier earlierReleased earlierInside
        exact spaced earlier index (by omega) (by omega)
      have beyond : ∀ later ∈ List.range' index (steps + 1), history.present? later = none := by
        intro later member
        have after := (List.mem_range'_1.mp member).1
        rw [History.present?, List.getElem?_eq_none (by omega)]
        exact ite_self none
      rw [walk, free, if_neg Bool.false_ne_true, List.filterMap_eq_nil_iff.mpr beyond]

/-- A walk over the whole ring meets exactly the elements not obtained. -/
theorem walk_eq_pending (held : Holds place capacity slots history)
    (spaced : Spaced place capacity) :
    walk slots place capacity history.released = history.pending := by
  have ordered := held.ordered
  have bounded := held.bounded
  have gone : ((List.range' 0 history.released).filterMap history.present?) = [] := by
    refine List.filterMap_eq_nil_iff.mpr fun index member => ?_
    rw [History.present?, if_pos]
    exact held.releasedTaken index (by have below := (List.mem_range'_1.mp member).2; omega)
  have beyond : ((List.range' history.sent.length
        (history.released + capacity - history.sent.length)).filterMap history.present?) = [] := by
    refine List.filterMap_eq_nil_iff.mpr fun index member => ?_
    have after := (List.mem_range'_1.mp member).1
    rw [History.present?, List.getElem?_eq_none after]
    exact ite_self none
  have front : List.range history.sent.length = List.range' 0 history.released ++
          List.range' history.released (history.sent.length - history.released) := by
    rw [List.range_eq_range', ← Nat.add_sub_cancel' ordered,
      ← List.range'_append_1, Nat.zero_add, Nat.add_sub_cancel_left]
  have back : List.range' history.released capacity = List.range' history.released
            (history.sent.length - history.released) ++
          List.range' history.sent.length (history.released + capacity - history.sent.length) := by
    have joined :=
      List.range'_append_1
        (s := history.released)
        (m := history.sent.length - history.released)
        (n := history.released + capacity - history.sent.length)
    rw [Nat.add_sub_cancel' ordered] at joined
    rw [joined]
    congr 1
    omega
  rw [held.walk_eq_filterMap spaced (Nat.le_refl _) (Nat.le_refl _),
    History.pending, front, back, List.filterMap_append,
    List.filterMap_append, gone, beyond, List.nil_append, List.append_nil]

end Holds

end Window

end SocksDirect.TombstoneRing
