import Mathlib.Data.Nat.ModEq
import Mathlib.Tactic.Common

namespace SocksDirect.CircularWindow

/-!
# Circular windows and wrapping counters

A circular buffer of `capacity` cells stores an unbounded stream: position
`p` of the stream lives in cell `p % capacity`.  The stream positions between
two free-running counters form a window, and a window no longer than the
capacity occupies pairwise different cells.

The counters themselves are words that wrap; their differences and masked offsets
are read back as facts about the unbounded positions they stand for.
-/

variable {capacity : Nat}

theorem eq_of_mod_eq {first second : Nat} (sameCell : first % capacity = second % capacity)
    (firstNear : first < second + capacity) (secondNear : second < first + capacity) :
    first = second := by
  rcases Nat.le_total first second with ordered | ordered
  · have divides : capacity ∣ second - first := (Nat.modEq_iff_dvd' ordered).mp sameCell
    have distanceZero : second - first = 0 := Nat.eq_zero_of_dvd_of_lt divides (by omega)
    omega
  · have divides : capacity ∣ first - second := (Nat.modEq_iff_dvd' ordered).mp sameCell.symm
    have distanceZero : first - second = 0 := Nat.eq_zero_of_dvd_of_lt divides (by omega)
    omega

/-- A copy cut at the end of the buffer touches the cells of consecutive positions. -/
theorem segmented_eq_mod {position count index : Nat} (fits : count ≤ capacity)
    (inside : index < count) :
    (if index <
          (if capacity - position % capacity < count then
            capacity - position % capacity
          else
            count) then
        position % capacity + index
      else
        index -
          (if capacity - position % capacity < count then
            capacity - position % capacity
          else
            count)) = (position + index) % capacity := by
  have offsetBound : position % capacity < capacity := Nat.mod_lt _ (by omega)
  rw [Nat.add_mod, Nat.mod_eq_of_lt (show index < capacity by omega)]
  generalize position % capacity = offset at offsetBound ⊢
  by_cases wraps : capacity ≤ offset + index
  · have cut : capacity - offset < count := by omega
    have beyond : ¬ index < capacity - offset := by omega
    rw [if_pos cut, if_neg beyond, Nat.mod_eq_sub_mod wraps, Nat.mod_eq_of_lt (by omega)]
    omega
  · have before : index <
          (if capacity - offset < count then
            capacity - offset
          else
            count) := by
      split <;> omega
    rw [if_pos before, Nat.mod_eq_of_lt (by omega)]

/--
The cells after a copy of `count` items to the stream positions from `start`
on.
-/
def store {α : Type} (capacity : Nat) (cells : Nat → α) (start count : Nat)
    (item : Nat → α) : Nat → α :=
  fun cell =>
    let offset := (cell + (capacity - start % capacity)) % capacity
    if offset < count then item offset else cells cell

theorem store_congr_start {α : Type} {first second : Nat}
    (same : first % capacity = second % capacity) (cells : Nat → α) (count : Nat) (item : Nat → α) :
    store capacity cells first count item = store capacity cells second count item := by
  funext cell
  simp only [store, same]

theorem offset_eq {start index : Nat} (inside : index < capacity) :
    ((start + index) % capacity + (capacity - start % capacity)) %
      capacity = index := by
  have startBound : start % capacity < capacity := Nat.mod_lt _ (by omega)
  rw [Nat.add_mod start index, Nat.mod_eq_of_lt inside]
  generalize start % capacity = offset at startBound ⊢
  by_cases wraps : capacity ≤ offset + index
  · rw [Nat.mod_eq_sub_mod wraps,
      Nat.mod_eq_of_lt (show offset + index - capacity < capacity by omega),
      show offset + index - capacity + (capacity - offset) = index by omega,
      Nat.mod_eq_of_lt inside]
  · rw [Nat.mod_eq_of_lt (show offset + index < capacity by omega),
      show offset + index + (capacity - offset) = index + capacity by omega,
      Nat.add_mod_right, Nat.mod_eq_of_lt inside]

theorem store_inside {α : Type} {start count index : Nat} (cells : Nat → α) (item : Nat → α)
    (fits : count ≤ capacity) (inside : index < count) :
    store capacity cells start count item ((start + index) % capacity) = item index := by
  have offset : ((start + index) % capacity + (capacity - start % capacity)) %
          capacity = index :=
    offset_eq (by omega)
  simp only [store, offset, if_pos inside]

theorem store_behind {α : Type} {start count position : Nat} (cells : Nat → α) (item : Nat → α)
    (behind : start + count ≤ position) (near : position < start + capacity) :
    store capacity cells start count item (position % capacity) = cells (position % capacity) := by
  obtain ⟨index, rfl⟩ : ∃ index, position = start + index := ⟨position - start, by omega⟩
  have offset : ((start + index) % capacity + (capacity - start % capacity)) %
          capacity = index :=
    offset_eq (by omega)
  have beyond : ¬ index < count := by omega
  simp only [store, offset, if_neg beyond]

theorem toNat_ofNat_sub_ofNat {earlier later : Nat} (ordered : earlier ≤ later)
    (near : later - earlier < 2 ^ 64) :
    (UInt64.ofNat later - UInt64.ofNat earlier).toNat = later - earlier := by
  have split : UInt64.ofNat later = UInt64.ofNat earlier + UInt64.ofNat (later - earlier) := by
    rw [← UInt64.ofNat_add]
    congr 1
    omega
  have difference : UInt64.ofNat later - UInt64.ofNat earlier = UInt64.ofNat (later - earlier) := by
    grind
  rw [difference]
  exact UInt64.toNat_ofNat_of_lt' near

variable {exponent : Nat}

theorem toNat_ofNat_and_mask (representable : exponent < 64) (position : Nat) :
    (UInt64.ofNat position &&&
      (UInt64.ofNat (2 ^ exponent) - 1)).toNat = position % 2 ^ exponent := by
  have powerBound : 2 ^ exponent < 2 ^ 64 := Nat.pow_lt_pow_right (by decide) representable
  have powerPositive : 0 < 2 ^ exponent := Nat.two_pow_pos exponent
  have maskValue : (UInt64.ofNat (2 ^ exponent) - 1).toNat = 2 ^ exponent - 1 := by
    have distance : (UInt64.ofNat (2 ^ exponent) - UInt64.ofNat 1).toNat = 2 ^ exponent - 1 :=
      toNat_ofNat_sub_ofNat powerPositive (by omega)
    simpa using distance
  rw [UInt64.toNat_and, maskValue, UInt64.toNat_ofNat', Nat.and_two_pow_sub_one_eq_mod]
  exact Nat.mod_mod_of_dvd _ (Nat.pow_dvd_pow 2 (Nat.le_of_lt representable))

theorem toNat_ofNat_sub_ofNat_word32 {earlier later : Nat} (ordered : earlier ≤ later)
    (near : later - earlier < 2 ^ 32) :
    (UInt32.ofNat later - UInt32.ofNat earlier).toNat = later - earlier := by
  have split : UInt32.ofNat later = UInt32.ofNat earlier + UInt32.ofNat (later - earlier) := by
    rw [← UInt32.ofNat_add]
    congr 1
    omega
  have difference : UInt32.ofNat later - UInt32.ofNat earlier = UInt32.ofNat (later - earlier) := by
    grind
  rw [difference]
  exact UInt32.toNat_ofNat_of_lt' near

theorem toNat_add_word32 {left right : UInt32} (small : left.toNat + right.toNat < 2 ^ 32) :
    (left + right).toNat = left.toNat + right.toNat := by
  exact Nat.mod_eq_of_lt small

theorem toNat_and_mask_word32 (representable : exponent < 32) (word : UInt32) :
    (word &&& (UInt32.ofNat (2 ^ exponent) - 1)).toNat = word.toNat % 2 ^ exponent := by
  have powerBound : 2 ^ exponent < 2 ^ 32 := Nat.pow_lt_pow_right (by decide) representable
  have powerPositive : 0 < 2 ^ exponent := Nat.two_pow_pos exponent
  have maskValue : (UInt32.ofNat (2 ^ exponent) - 1).toNat = 2 ^ exponent - 1 := by
    have distance : (UInt32.ofNat (2 ^ exponent) - UInt32.ofNat 1).toNat = 2 ^ exponent - 1 :=
      toNat_ofNat_sub_ofNat_word32 powerPositive (by omega)
    simpa using distance
  rw [UInt32.toNat_and, maskValue, Nat.and_two_pow_sub_one_eq_mod]

theorem toNat_ofNat_and_mask_word32 (representable : exponent < 32) (position : Nat) :
    (UInt32.ofNat position &&&
      (UInt32.ofNat (2 ^ exponent) - 1)).toNat = position % 2 ^ exponent := by
  rw [toNat_and_mask_word32 representable, UInt32.toNat_ofNat']
  exact Nat.mod_mod_of_dvd _ (Nat.pow_dvd_pow 2 (Nat.le_of_lt representable))

end SocksDirect.CircularWindow
