import Mathlib.Data.List.Infix
import Mathlib.Logic.Relation
import Mathlib.Tactic.Common

namespace SocksDirect

/-!
# Bounded streams

The purpose of a single-producer, single-consumer channel, in its own terms:
what has been delivered is always an initial part of what has been sent, and
at most `bound` items are in between.  Both facts are fields of the structure,
so a value that lost, duplicated or reordered an item cannot be built.
-/

/-- What a call on a channel was given or has returned. -/
inductive StreamCall (α : Type) where
  | sent (items : List α) (count : Nat)
  | received (items : List α)
  deriving Repr, DecidableEq

/--
A bounded queue with one caller: the items that it holds after a call, if the
call may return so.  A call may transfer less than it could.
-/
def StreamCall.after? {α : Type} [DecidableEq α] (bound : Nat) (held : List α) :
    StreamCall α → Option (List α)
  | .sent items count =>
    if count ≤ items.length ∧ held.length + count ≤ bound then
      some (held ++ items.take count)
    else
      none
  | .received items => if items <+: held then some (held.drop items.length) else none

/-- The history of a channel that holds at most `bound` items at a time. -/
structure BoundedStream (α : Type) (bound : Nat) where
  sent : List α
  delivered : List α
  deliveredPrefix : delivered <+: sent
  pendingBound : sent.length ≤ delivered.length + bound

namespace BoundedStream

variable {α : Type} {bound : Nat}

/-- The items that have been sent and not yet delivered, oldest first. -/
def pending (stream : BoundedStream α bound) : List α := stream.sent.drop stream.delivered.length

/-- The sender's move: append items while the bound is kept. -/
def Push (items : List α) (stream next : BoundedStream α bound) : Prop :=
  next.sent = stream.sent ++ items ∧ next.delivered = stream.delivered

/-- The receiver's move: take the oldest `count` pending items. -/
def Pop (count : Nat) (stream next : BoundedStream α bound) : Prop :=
  count ≤ stream.pending.length ∧ next.sent = stream.sent ∧
    next.delivered = stream.delivered ++ stream.pending.take count

theorem delivered_append_pending (stream : BoundedStream α bound) :
    stream.delivered ++ stream.pending = stream.sent := by
  obtain ⟨rest, split⟩ := stream.deliveredPrefix
  rw [pending, ← split, List.drop_left]

theorem delivered_eq_sent_iff (stream : BoundedStream α bound) :
    stream.delivered = stream.sent ↔ stream.pending = [] := by
  constructor
  · intro same
    rw [pending, same, List.drop_length]
  · intro nothingPending
    have together := stream.delivered_append_pending
    rwa [nothingPending, List.append_nil] at together

theorem length_pending (stream : BoundedStream α bound) :
    stream.pending.length = stream.sent.length - stream.delivered.length := by
  rw [pending, List.length_drop]

theorem pendingRoom (stream : BoundedStream α bound) : stream.pending.length ≤ bound := by
  have room := stream.pendingBound
  rw [length_pending]
  omega

section Calls

variable [DecidableEq α] {stream next : BoundedStream α bound}

theorem Push.after? {items : List α} {count : Nat} (pushed : Push (items.take count) stream next)
    (within : count ≤ items.length) :
    StreamCall.after? bound stream.pending (.sent items count) = some next.pending := by
  obtain ⟨sent, delivered⟩ := pushed
  have pending : next.pending = stream.pending ++ items.take count := by
    rw [BoundedStream.pending, sent, delivered]
    exact List.drop_append_of_le_length stream.deliveredPrefix.length_le
  have room := next.pendingRoom
  rw [pending, List.length_append, List.length_take, Nat.min_eq_left within] at room
  rw [StreamCall.after?, if_pos ⟨within, room⟩, pending]

theorem Pop.after? {count : Nat} (popped : Pop count stream next) :
    StreamCall.after? bound stream.pending (.received (stream.pending.take count)) =
      some next.pending := by
  obtain ⟨available, sent, delivered⟩ := popped
  have length : (stream.pending.take count).length = count := by
    rw [List.length_take, Nat.min_eq_left available]
  rw [StreamCall.after?, if_pos (List.take_prefix _ _), length, pending, pending, sent, delivered,
    List.length_append, length, List.drop_drop]

end Calls

end BoundedStream

end SocksDirect
