import SocksDirect.CircularWindow
import SocksDirect.MachineRun
import SocksDirect.TombstoneRing

namespace SocksDirect

open Function

open TombstoneRing

/-!
# The single-sender element queue

`locklessqueue_t<T, SIZE>` of `common/locklessqueue_n.hpp`, with credits
enabled and without RDMA.  Sender and receiver share the ring of 16-byte slots
and one return flag; pointer and credit counter are private to each side.  The
sender's slot write and the receiver's slot read are 16-byte copies and single
steps, as is every other access to shared memory and every update of a private
counter.

The history, which no step reads, numbers the elements in the order of their slot
writes, and logs an element when its deletion mark is stored.
-/

/-- The template parameter `SIZE`, a power of two that fits in 32 bits. -/
structure QueueSize where
  exponent : Nat
  representable : exponent ≤ 31
  deriving Repr, DecidableEq

namespace QueueSize

/-- The number of slots. -/
def slots (size : QueueSize) : Nat := 2 ^ size.exponent

/-- `SIZE` as the code computes with it. -/
def word (size : QueueSize) : UInt32 := UInt32.ofNat size.slots

/-- `MASK = SIZE - 1`. -/
def mask (size : QueueSize) : UInt32 := size.word - 1

/-- `CREDITS_PER_RETURN = SIZE / 2 + 1`. -/
def creditsPerReturn (size : QueueSize) : UInt32 := size.word / 2 + 1

/-- The credits that the return flag carries. -/
def flagCredits (size : QueueSize) (returnFlag : Bool) : Nat :=
  if returnFlag then size.creditsPerReturn.toNat else 0

/-- The slot of the element with this index. -/
def place (size : QueueSize) (index : Nat) : Nat := index % size.slots

/-- The slot that a pointer or a location selects. -/
def cell (size : QueueSize) (pointer : UInt32) : Nat := (pointer &&& size.mask).toNat

section

variable (size : QueueSize)

include size

theorem slots_pos : 0 < size.slots := Nat.two_pow_pos size.exponent

theorem slots_le : size.slots ≤ 2 ^ 31 := Nat.pow_le_pow_right (by decide) size.representable

theorem toNat_word : size.word.toNat = size.slots :=
  UInt32.toNat_ofNat_of_lt' (Nat.lt_of_le_of_lt size.slots_le (by decide))

theorem toNat_creditsPerReturn : size.creditsPerReturn.toNat = size.slots / 2 + 1 := by
  have bound := size.slots_le
  rw [creditsPerReturn, UInt32.toNat_add, UInt32.toNat_div, toNat_word]
  exact Nat.mod_eq_of_lt (show size.slots / 2 + 1 < 2 ^ 32 by omega)

theorem slots_lt_two_returns : size.slots < 2 * size.creditsPerReturn.toNat := by
  rw [toNat_creditsPerReturn]
  omega

theorem cell_ofNat (index : Nat) : size.cell (UInt32.ofNat index) = size.place index :=
  CircularWindow.toNat_ofNat_and_mask_word32 (Nat.lt_succ_of_le size.representable) index

theorem spaced_place : Spaced size.place size.slots := by
  intro earlier later ordered near same
  have equal := CircularWindow.eq_of_mod_eq same (by omega) near
  omega

end

end QueueSize

/-- The private words of one side. -/
structure QueueEnd where
  pointer : UInt32
  credits : UInt32
  deriving Repr, DecidableEq

/-- A `push_nb` call in progress, by its next step. -/
inductive PushNb (Data : Type) where
  | testCredits (data : Data)
  | readFlag (data : Data)
  | addCredits (data : Data)
  | clearFlag (data : Data)
  | write (data : Data)
  | advance
  | spend
  deriving Repr, DecidableEq

/--
A `pop_nb` or `del` call in progress, by its next step.  `popped` is the
element that `pop_nb` has read and will return; it is absent for a `del` of the
caller.
-/
inductive QueueReceive (Data : Type) where
  | readHead
  | markDel (loc : UInt32) (popped : Option Data)
  | compareHead (loc : UInt32)
  | testValid
  | testDel
  | clearValid
  | advance
  | countCredit
  | compareCredits
  | setFlag
  | resetCredits
  deriving Repr, DecidableEq

/-- The shared memory, both sides and what has happened so far. -/
structure LocklessQueue (size : QueueSize) (Data : Type) where
  ringbuffer : Nat → Slot Data
  returnFlag : Bool
  sender : QueueEnd
  receiver : QueueEnd
  pushing : Option (PushNb Data)
  receiving : Option (QueueReceive Data)
  history : History Nat Data

/-- The calls of the two sides and the next steps inside them. -/
inductive QueueAction (Data : Type) where
  | pushNb (data : Data)
  | senderStep
  | popNb
  | del (loc : UInt32)
  | receiverStep
  deriving Repr, DecidableEq

namespace LocklessQueue

variable {size : QueueSize} {Data : Type}

/-- `init` on both sides and `init_mem`; `zero` is the element of zero bytes. -/
def initial (size : QueueSize) (zero : Data) : LocklessQueue size Data where
  ringbuffer := fun _ => { data := zero, isvalid := false, isdel := false }
  returnFlag := false
  sender := { pointer := 0, credits := size.word }
  receiver := { pointer := 0, credits := 0 }
  pushing := none
  receiving := none
  history := History.empty Nat Data

/-- `peek`: the validity flag, the deletion mark and the element. -/
def peek (queue : LocklessQueue size Data) (loc : UInt32) : Bool × Bool × Data :=
  let element := queue.ringbuffer (size.cell loc)
  (element.isvalid, element.isdel, element.data)

/--
The sender's next step inside `push_nb`, with the value that the call returns
if the step is its last.
-/
def senderStep? (queue : LocklessQueue size Data) :
    Option (LocklessQueue size Data × Option Bool) :=
  match queue.pushing with
  | none => none
  | some (.testCredits data) =>
    if queue.sender.credits = 0 then
      some ({ queue with pushing := some (.readFlag data) }, none)
    else
      some ({ queue with pushing := some (.write data) }, none)
  | some (.readFlag data) =>
    if queue.returnFlag then
      some ({ queue with pushing := some (.addCredits data) }, none)
    else
      some ({ queue with pushing := none }, some false)
  | some (.addCredits data) =>
    some
      ({ queue with
          sender := { queue.sender with credits := queue.sender.credits + size.creditsPerReturn }
          pushing := some (.clearFlag data) }, none)
  | some (.clearFlag data) =>
    some ({ queue with returnFlag := false, pushing := some (.write data) }, none)
  | some (.write data) =>
    let localPtr := size.cell queue.sender.pointer
    some
      ({ queue with
          ringbuffer :=
            update queue.ringbuffer localPtr
              { data := data, isvalid := true, isdel := false }
          pushing := some .advance
          history := queue.history.push localPtr data }, none)
  | some .advance =>
    some
      ({ queue with
          sender := { queue.sender with pointer := queue.sender.pointer + 1 }
          pushing := some .spend }, none)
  | some .spend =>
    some
      ({ queue with
          sender := { queue.sender with credits := queue.sender.credits - 1 }
          pushing := none }, some true)

/--
The receiver's next step inside `pop_nb` or `del`.  A `pop_nb` that finds no
element returns at once; both calls end when the loop of `del` ends.
-/
def receiverStep? (queue : LocklessQueue size Data) : Option (LocklessQueue size Data) :=
  let front := size.cell queue.receiver.pointer
  match queue.receiving with
  | none => none
  | some .readHead =>
    let element := queue.ringbuffer front
    if element.isvalid then
      some
        { queue with
          receiving := some (.markDel (queue.receiver.pointer &&& size.mask) (some element.data)) }
    else
      some { queue with receiving := none }
  | some (.markDel loc popped) =>
    let slot := queue.ringbuffer (size.cell loc)
    some
      { queue with
        ringbuffer := update queue.ringbuffer (size.cell loc) { slot with isdel := true }
        receiving := some (.compareHead (loc &&& size.mask))
        history := queue.history.take (size.cell loc) (popped.getD slot.data) popped.isSome }
  | some (.compareHead loc) =>
    if loc = queue.receiver.pointer &&& size.mask then
      some { queue with receiving := some .testValid }
    else
      some { queue with receiving := none }
  | some .testValid =>
    if (queue.ringbuffer front).isvalid then
      some { queue with receiving := some .testDel }
    else
      some { queue with receiving := none }
  | some .testDel =>
    if (queue.ringbuffer front).isdel then
      some { queue with receiving := some .clearValid }
    else
      some { queue with receiving := none }
  | some .clearValid =>
    some
      { queue with
        ringbuffer := update queue.ringbuffer front { queue.ringbuffer front with isvalid := false }
        receiving := some .advance
        history := queue.history.release }
  | some .advance =>
    some
      { queue with
        receiver := { queue.receiver with pointer := queue.receiver.pointer + 1 }
        receiving := some .countCredit }
  | some .countCredit =>
    some
      { queue with
        receiver := { queue.receiver with credits := queue.receiver.credits + 1 }
        receiving := some .compareCredits }
  | some .compareCredits =>
    if queue.receiver.credits = size.creditsPerReturn then
      some { queue with receiving := some .setFlag }
    else
      some { queue with receiving := some .testValid }
  | some .setFlag => some { queue with returnFlag := true, receiving := some .resetCredits }
  | some .resetCredits =>
    some
      { queue with receiver := { queue.receiver with credits := 0 }, receiving := some .testValid }

/--
Each side starts a call only when it has none in progress, and the receiver
calls `del` only on an element that `peek` shows as valid and not deleted.
-/
def step? (queue : LocklessQueue size Data) : QueueAction Data → Option (LocklessQueue size Data)
  | .pushNb data =>
    if queue.pushing.isNone then some { queue with pushing := some (.testCredits data) } else none
  | .senderStep => queue.senderStep?.map Prod.fst
  | .popNb =>
    if queue.receiving.isNone then some { queue with receiving := some .readHead } else none
  | .del loc =>
    if queue.receiving.isNone ∧ (queue.peek loc).1 = true ∧ (queue.peek loc).2.1 = false then
      some { queue with receiving := some (.markDel loc none) }
    else
      none
  | .receiverStep => queue.receiverStep?

/-- `push_nb` from its first to its last step; it has at most seven. -/
def pushNb (queue : LocklessQueue size Data)
    (data : Data) : Option (LocklessQueue size Data × Bool) :=
  Machine.finish senderStep? 7 { queue with pushing := some (.testCredits data) }

end LocklessQueue

end SocksDirect
