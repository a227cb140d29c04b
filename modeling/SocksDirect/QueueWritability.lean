import SocksDirect.LocklessQueueCredits

namespace SocksDirect

open Machine TombstoneRing

/-!
# When a drained queue is reported as writable

`is_full` of `common/locklessqueue_n.hpp` looks at the credits that the sender
holds itself.  Credits that the receiver has returned are behind the return
flag until a `push_nb` runs out of its own, so that a queue from which every
element has been deleted can still be reported as full.  `check_sockfd_send` of
`lib/socket_lib.cpp` passes the answer on to `poll`.
-/

namespace LocklessQueue

variable {size : QueueSize} {Data : Type} {queue : LocklessQueue size Data}

/-- `is_full`, on the sender's side and with credits enabled. -/
def isFull (queue : LocklessQueue size Data) : Bool := decide (queue.sender.credits < 16)

/-- Every pushed element has been deleted and no call is in progress. -/
structure Drained (queue : LocklessQueue size Data) : Prop where
  deleted : ∀ index < queue.history.sent.length, queue.history.IsTaken index
  noPush : queue.pushing = none
  noReceive : queue.receiving = none

/--
No returned credits wait behind the flag, or the receiver has collected so few
towards the next return that the sender still holds sixteen.
-/
def HoldsSixteen (queue : LocklessQueue size Data) : Prop :=
  queue.returnFlag = false ∨ queue.receiver.credits.toNat + 17 ≤ size.slots / 2

/-- How the credits of a drained queue are distributed. -/
theorem Invariant.credits_of_drained
    (inv : queue.Invariant)
    (drained : queue.Drained) :
    queue.sender.credits.toNat + queue.receiver.credits.toNat +
        size.flagCredits queue.returnFlag = size.slots ∧
      queue.receiver.credits.toNat ≤ size.slots / 2 := by
  have account := inv.account
  have phase := inv.receiverPhase
  rw [drained.noPush, drained.noReceive] at account
  rw [drained.noReceive] at phase
  obtain ⟨few, present⟩ := phase
  have empty := present.length_le_released drained.deleted
  have ordered := inv.held.ordered
  rw [QueueSize.toNat_creditsPerReturn] at few
  simp only [receiverUncounted, receiverBehind, senderDoubled, receiverDoubled] at account
  omega

/-- A drained queue is not full exactly when its sender holds sixteen credits. -/
theorem Invariant.isFull_iff_of_drained
    (inv : queue.Invariant)
    (large : 5 ≤ size.exponent)
    (drained : queue.Drained) :
    queue.isFull = false ↔ queue.HoldsSixteen := by
  obtain ⟨account, few⟩ := inv.credits_of_drained drained
  obtain ⟨parts, divided⟩ : 2 ^ 5 ∣ size.slots := Nat.pow_dvd_pow 2 large
  have positive := size.slots_pos
  rw [isFull, decide_eq_false_iff_not, UInt32.not_lt, UInt32.le_iff_toNat_le,
    show (16 : UInt32).toNat = 16 from rfl, HoldsSixteen]
  cases flag : queue.returnFlag with
  | false =>
    rw [flag] at account
    simp only [QueueSize.flagCredits, Bool.false_eq_true, ↓reduceIte] at account
    simp only [true_or, iff_true]
    omega
  | true =>
    rw [flag] at account
    simp only [QueueSize.flagCredits, ↓reduceIte, QueueSize.toNat_creditsPerReturn] at account
    simp only [Bool.true_eq_false, false_or]
    omega

end LocklessQueue

/-- The types of a user-level socket. -/
inductive UsocketType where
  | tcpListen
  | tcpConnect
  deriving Repr, DecidableEq

/-- `file_struc_rd_t`, as far as `check_sockfd_send` reads it. -/
structure FileStrucRd where
  type : UsocketType
  isopened : Bool
  deriving Repr, DecidableEq

/--
The thread's tables and the sending queue of each buffer.  A descriptor has the
indices of the buffers that it writes to.
-/
structure SendThread (size : QueueSize) (Data : Type) where
  fdsDatawithrd : Int32 → Option FileStrucRd
  fdsWr : Int32 → List Nat
  buffer : Nat → LocklessQueue size Data

/-- The events that `check_sockfd_send` returns; `pollerr` sets `errno` to `EBADF`. -/
inductive Revents where
  | zero
  | pollerr
  | pollout
  deriving Repr, DecidableEq

namespace SendThread

variable {size : QueueSize} {Data : Type}

/--
`check_sockfd_send`.  `monitor2procHook` is what the messages of the monitor do
to the thread's tables; if it leaves the descriptor without a buffer, the code
reads an element that does not exist.
-/
def checkSockfdSend (monitor2procHook : SendThread size Data → SendThread size Data)
    (thread : SendThread size Data) (sockfd : Int32) : Option Revents :=
  match thread.fdsDatawithrd sockfd with
  | none => some .pollerr
  | some file =>
    if file.type = .tcpListen then
      some .zero
    else if thread.fdsWr sockfd = [] ∨ file.type ≠ .tcpConnect ∨ file.isopened = false then
      some .zero
    else
      let hooked := monitor2procHook thread
      (hooked.fdsWr sockfd).head?.map fun bufferIdx =>
        if (hooked.buffer bufferIdx).isFull then .zero else .pollout

/-- An open connection whose first buffer sends through this queue. -/
structure Sends
    (monitor2procHook : SendThread size Data → SendThread size Data)
    (thread : SendThread size Data)
    (sockfd : Int32)
    (queue : LocklessQueue size Data) : Prop where
  connection : thread.fdsDatawithrd sockfd = some ⟨.tcpConnect, true⟩
  writable : thread.fdsWr sockfd ≠ []
  selected : ∃ bufferIdx rest,
    (monitor2procHook thread).fdsWr sockfd = bufferIdx :: rest ∧
      (monitor2procHook thread).buffer bufferIdx = queue

/-- An open connection is reported as writable exactly if its queue is not full. -/
theorem Sends.checkSockfdSend_eq
    {monitor2procHook : SendThread size Data → SendThread size Data}
    {thread : SendThread size Data}
    {sockfd : Int32}
    {queue : LocklessQueue size Data}
    (sends : Sends monitor2procHook thread sockfd queue) :
    checkSockfdSend monitor2procHook thread sockfd =
      some (if queue.isFull then .zero else .pollout) := by
  obtain ⟨bufferIdx, rest, first, isQueue⟩ := sends.selected
  simp [checkSockfdSend, sends.connection, sends.writable, first, isQueue]

end SendThread

namespace LocklessQueue

/--
After any calls of `push_nb`, `pop_nb` and `del`, on a ring of at least 32 slots:
a queue whose elements have all been deleted is not full exactly when no credits
wait behind the return flag or the receiver has collected at most `SIZE / 2 - 17`
more, and `check_sockfd_send` reports an open connection that sends through it as
writable in the same cases.
-/
theorem writable_of_drained_iff
    {size : QueueSize}
    {Data : Type}
    {zero : Data}
    {actions : List (QueueAction Data)}
    {queue : LocklessQueue size Data}
    (large : 5 ≤ size.exponent)
    (accepted : run? step? (initial size zero) actions = some queue)
    (drained : queue.Drained) :
    (queue.isFull = false ↔ queue.HoldsSixteen) ∧
      ∀ monitor2procHook thread sockfd,
        SendThread.Sends monitor2procHook thread sockfd queue →
        (SendThread.checkSockfdSend monitor2procHook thread sockfd = some .pollout ↔
          queue.HoldsSixteen) := by
  have invariant : queue.Invariant :=
    invariant_of_run (Invariant.initially size zero)
      (fun before stepped => before.step stepped) accepted
  have exactly := invariant.isFull_iff_of_drained large drained
  refine ⟨exactly, ?_⟩
  intro monitor2procHook thread sockfd sends
  rw [sends.checkSockfdSend_eq, ← exactly]
  cases queue.isFull with
  | false => simp
  | true => simp

/-- A ring of 32 slots. -/
def slots32 : QueueSize := ⟨5, by decide⟩

/-- An element is pushed and popped; the receiver's call has this many steps. -/
def pushAndPop (receiverSteps : Nat) : List (QueueAction Nat) :=
  .pushNb 0 :: List.replicate 4 .senderStep ++ .popNb :: List.replicate receiverSteps .receiverStep

/-- A thread with one open connection, which sends through this queue. -/
def connectedThread (queue : LocklessQueue slots32 Nat) : SendThread slots32 Nat where
  fdsDatawithrd := fun _ => some ⟨.tcpConnect, true⟩
  fdsWr := fun _ => [0]
  buffer := fun _ => queue

theorem sends_connectedThread (queue : LocklessQueue slots32 Nat) :
    SendThread.Sends id (connectedThread queue) 0 queue :=
  ⟨rfl, List.cons_ne_nil _ _, 0, [], rfl, rfl⟩

/-- One element through the queue: it is drained and reported as writable. -/
theorem writable_of_drained_one_element :
    ∃ queue : LocklessQueue slots32 Nat,
      run? step? (initial slots32 0) (pushAndPop 10) = some queue ∧
      queue.isFull = false ∧
      SendThread.checkSockfdSend id (connectedThread queue) 0 = some .pollout := by
  obtain ⟨queue, accepted, deleted, noPush, noReceive, noFlag⟩ :=
    exists_reached_of_check step? (initial slots32 0) (pushAndPop 10)
      (fun queue =>
        (∀ index < queue.history.sent.length, queue.history.IsTaken index) ∧
          queue.pushing = none ∧ queue.receiving = none ∧ queue.returnFlag = false)
      (by decide +kernel)
  obtain ⟨notFull, reported⟩ :=
    writable_of_drained_iff (by decide) accepted ⟨deleted, noPush, noReceive⟩
  exact ⟨queue, accepted, notFull.mpr (.inl noFlag),
    (reported id _ 0 (sends_connectedThread queue)).mpr (.inl noFlag)⟩

/--
17 elements, each popped before the next one is pushed.  The last pop returns
its credits through the flag, which no push has to read.
-/
def afterReturn : List (QueueAction Nat) :=
  (List.replicate 16 (pushAndPop 10)).flatten ++ pushAndPop 12

/--
The queue is empty and idle, 17 credits wait behind the flag, and with the 15
that are left to the sender it is reported as full.
-/
theorem not_writable_after_return :
    ∃ queue : LocklessQueue slots32 Nat,
      run? step? (initial slots32 0) afterReturn = some queue ∧
      queue.Drained ∧
      queue.isFull = true ∧
      SendThread.Sends id (connectedThread queue) 0 queue ∧
      SendThread.checkSockfdSend id (connectedThread queue) 0 = some .zero := by
  obtain ⟨queue, accepted, deleted, noPush, noReceive, full⟩ :=
    exists_reached_of_check step? (initial slots32 0) afterReturn
      (fun queue =>
        (∀ index < queue.history.sent.length, queue.history.IsTaken index) ∧
          queue.pushing = none ∧ queue.receiving = none ∧ queue.isFull = true)
      (by decide +kernel)
  have sends := sends_connectedThread queue
  refine ⟨queue, accepted, ⟨deleted, noPush, noReceive⟩, full, sends, ?_⟩
  rw [sends.checkSockfdSend_eq, full]
  rfl

end LocklessQueue

end SocksDirect
