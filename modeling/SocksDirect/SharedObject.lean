import Mathlib.Data.Finset.Basic

namespace SocksDirect

/-!
# Shared ownership

An object that lives as long as someone points to it, as under
`std::shared_ptr`.  Every pointer has a name; a new one is copied from an
existing one.  The destructor runs when the last pointer is dropped, and a field
records that it has then run once.
-/

/-- An object, the pointers to it, and how often its destructor has run. -/
structure SharedObject
    (Holder Value : Type)
    [DecidableEq Holder] where
  value : Value
  holders : Finset Holder
  destroyed : Nat
  destroyedOnce : destroyed = if holders = ∅ then 1 else 0

namespace SharedObject

variable {Holder Value : Type} [DecidableEq Holder]

/-- A new object with its first pointer. -/
def make (value : Value) (holder : Holder) : SharedObject Holder Value where
  value := value
  holders := {holder}
  destroyed := 0
  destroyedOnce := by simp

/-- Copy a pointer. -/
def copy (object : SharedObject Holder Value) {source : Holder} (target : Holder)
    (held : source ∈ object.holders) : SharedObject Holder Value where
  value := object.value
  holders := insert target object.holders
  destroyed := object.destroyed
  destroyedOnce := by
    have notEmpty : object.holders ≠ ∅ := Finset.ne_empty_of_mem held
    rw [object.destroyedOnce, if_neg notEmpty, if_neg (Finset.insert_ne_empty _ _)]

/-- Drop a pointer, if there is one under this name. -/
def drop (destructor : Value → Value) (object : SharedObject Holder Value)
    (holder : Holder) : SharedObject Holder Value :=
  if held : holder ∈ object.holders then
    { value :=
        if object.holders.erase holder = ∅ then destructor object.value else object.value
      holders := object.holders.erase holder
      destroyed :=
        if object.holders.erase holder = ∅ then object.destroyed + 1 else object.destroyed
      destroyedOnce := by rw [object.destroyedOnce, if_neg (Finset.ne_empty_of_mem held)] }
  else
    object

variable {destructor : Value → Value} {object : SharedObject Holder Value}

@[simp] theorem mem_copy {source target other : Holder} (held : source ∈ object.holders) :
    other ∈ (object.copy target held).holders ↔ other = target ∨ other ∈ object.holders :=
  Finset.mem_insert

@[simp] theorem value_copy {source target : Holder} {held : source ∈ object.holders} :
    (object.copy target held).value = object.value :=
  rfl

@[simp] theorem mem_drop {holder other : Holder} :
    other ∈ (object.drop destructor holder).holders ↔ other ≠ holder ∧ other ∈ object.holders := by
  unfold drop
  split
  · exact Finset.mem_erase
  · rename_i notHeld
    constructor
    · intro member
      refine ⟨?_, member⟩
      rintro rfl
      exact notHeld member
    · exact And.right

/--
The value of an object: as it was made while there are pointers to it, as the
destructor leaves it when there are none.
-/
def HasValue (destructor : Value → Value) (made : Value)
    (object : SharedObject Holder Value) : Prop :=
  object.value = if object.holders = ∅ then destructor made else made

theorem hasValue_make (made : Value) (holder : Holder) :
    HasValue destructor made (make made holder) := by
  rw [HasValue, make, if_neg (Finset.singleton_ne_empty holder)]

theorem HasValue.copy {made : Value} {source : Holder} (hasValue : HasValue destructor made object)
    (target : Holder) (held : source ∈ object.holders) :
    HasValue destructor made (object.copy target held) := by
  have held' : target ∈ (object.copy target held).holders := (mem_copy held).mpr (.inl rfl)
  rw [HasValue, if_neg (Finset.ne_empty_of_mem held)] at hasValue
  rw [HasValue, value_copy, hasValue, if_neg (Finset.ne_empty_of_mem held')]

theorem HasValue.drop {made : Value} (hasValue : HasValue destructor made object)
    (holder : Holder) :
    HasValue destructor made (object.drop destructor holder) := by
  unfold SharedObject.drop
  split
  · rename_i held
    rw [HasValue, if_neg (Finset.ne_empty_of_mem held)] at hasValue
    rw [HasValue, hasValue]
  · exact hasValue

end SharedObject

end SocksDirect
