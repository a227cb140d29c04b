import Mathlib.Tactic.Common

namespace SocksDirect

/-!
# Interest sets

Sets in which targets are registered with an event each, as the kernel keeps them
for `epoll_ctl`: a target is added to a set in which it is not, it is modified in
or deleted from a set in which it is, and a target that is closed leaves all sets.
-/

/-- For every set the targets registered in it. -/
structure InterestSets (Key Target Event : Type) where
  entry : Key → Target → Option Event

namespace InterestSets

variable {Key Target Event : Type}

/-- Sets without targets. -/
def empty : InterestSets Key Target Event where
  entry := fun _ _ => none

section Changes

variable [DecidableEq Key] [DecidableEq Target]

/-- One registration is written or taken out. -/
def write (sets : InterestSets Key Target Event) (key : Key) (target : Target)
    (event : Option Event) : InterestSets Key Target Event where
  entry := fun otherKey otherTarget =>
    if otherKey = key ∧ otherTarget = target then event else sets.entry otherKey otherTarget

/-- A target is added to a set. -/
def add? (sets : InterestSets Key Target Event) (key : Key) (target : Target)
    (event : Event) : Option (InterestSets Key Target Event) :=
  if (sets.entry key target).isSome then none else some (sets.write key target (some event))

/-- The event of a target in a set is replaced. -/
def modify? (sets : InterestSets Key Target Event) (key : Key) (target : Target)
    (event : Event) : Option (InterestSets Key Target Event) :=
  if (sets.entry key target).isSome then some (sets.write key target (some event)) else none

/-- A target is deleted from a set. -/
def delete? (sets : InterestSets Key Target Event) (key : Key)
    (target : Target) : Option (InterestSets Key Target Event) :=
  if (sets.entry key target).isSome then some (sets.write key target none) else none

@[simp] theorem entry_write_self (sets : InterestSets Key Target Event) (key : Key)
    (target : Target) (event : Option Event) :
    (sets.write key target event).entry key target = event :=
  if_pos ⟨rfl, rfl⟩

theorem entry_write_of_ne {key otherKey : Key} {target otherTarget : Target}
    (apart : ¬ (otherKey = key ∧ otherTarget = target)) (sets : InterestSets Key Target Event)
    (event : Option Event) :
    (sets.write key target event).entry otherKey otherTarget = sets.entry otherKey otherTarget :=
  if_neg apart

end Changes

section Closing

variable [DecidableEq Target]

/-- A target is closed. -/
def close (sets : InterestSets Key Target Event)
    (target : Target) : InterestSets Key Target Event where
  entry := fun key other =>
    if other = target then none else sets.entry key other

@[simp] theorem entry_close_self (sets : InterestSets Key Target Event) (key : Key)
    (target : Target) : (sets.close target).entry key target = none :=
  if_pos rfl

theorem entry_close_of_ne {target other : Target} (different : other ≠ target)
    (sets : InterestSets Key Target Event) (key : Key) :
    (sets.close target).entry key other = sets.entry key other :=
  if_neg different

end Closing

end InterestSets

end SocksDirect
