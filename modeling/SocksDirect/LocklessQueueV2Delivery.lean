import SocksDirect.LocklessQueueV2

namespace SocksDirect

open Function Machine

open CircularWindow

/-!
# Delivery of the variable-size message queue

`del` clears the valid bit of a header but leaves the payload in place, and the
slots behind a message are not cleared either.  So when a message ends in front
of a slot that was part of an earlier payload, whether the receiver finds a
valid header there depends on a payload byte of a message consumed long before.

As long as every message ends in front of a slot that does not look valid, or
fills the ring up to the oldest header, the receiver sees exactly the pushed
messages.
-/

namespace QueueMessage

/-- The number of slots of a message. -/
def slots (message : QueueMessage) : Nat := message.header.slotsOccupied

/-- The byte at an offset of a message, header first. -/
def byteAt (message : QueueMessage) (offset : Nat) : UInt8 :=
  if offset < 16 then message.header.byteAt offset else message.payload.getD (offset - 16) 0

/-- What a receiver is to see of a message. -/
def view (message : QueueMessage) : MetaElement × List UInt8 := (message.header, message.payload)

theorem slots_pos (message : QueueMessage) : 0 < message.slots := Nat.succ_pos _

theorem slots_le (message : QueueMessage) : message.slots ≤ 257 := by
  have bounded := message.bounded
  have sized := message.sized
  simp only [slots, MetaElement.slotsOccupied]
  omega

theorem bytes_le (message : QueueMessage) : 16 + message.payload.length ≤ 16 * message.slots := by
  have sized := message.sized
  simp only [slots, MetaElement.slotsOccupied]
  omega

/-- The number of slots of consecutive messages. -/
def totalSlots : List QueueMessage → Nat
  | [] => 0
  | message :: rest => message.slots + totalSlots rest

@[simp] theorem totalSlots_append (first second : List QueueMessage) :
    totalSlots (first ++ second) = totalSlots first + totalSlots second := by
  induction first with
  | nil => simp [totalSlots]
  | cons message rest inductionHypothesis => simp [totalSlots, inductionHypothesis, Nat.add_assoc]

end QueueMessage

namespace LocklessQueueV2

open QueueMessage

section Bytes

theorem slots_locklessqSize : locklessqSize.slots = 512 := rfl

theorem locklessqBytes_eq : locklessqBytes = 8192 := rfl

theorem byte_cell (position offset : Nat) :
    (16 * locklessqSize.cell (UInt32.ofNat position) + offset) %
      locklessqBytes = (16 * position + offset) % locklessqBytes := by
  rw [locklessqSize.cell_ofNat, QueueSize.place, slots_locklessqSize, locklessqBytes_eq]
  omega

section

variable (bytes : Nat → UInt8) (position : Nat)

include bytes position

theorem metaAt_cell : metaAt bytes (locklessqSize.cell (UInt32.ofNat position)) =
      metaAt bytes position := by
  simp only [metaAt, byte_cell]

theorem setFlags_cell (flags : UInt8) :
    setFlags bytes (locklessqSize.cell (UInt32.ofNat position)) flags =
      setFlags bytes position flags := by
  simp only [setFlags, byte_cell]

theorem writeMessage_ofNat (message : QueueMessage) :
    writeMessage bytes (UInt32.ofNat position) message.header
      message.payload = store locklessqBytes
      (store locklessqBytes bytes (16 * (position + 1))
      message.payload.length fun offset => message.payload.getD offset 0)
      (16 * position) 16 message.header.byteAt := by
  have next : UInt32.ofNat position + 1 = UInt32.ofNat (position + 1) :=
    (UInt32.ofNat_add position 1).symm
  have start : ∀ first, 16 * locklessqSize.cell (UInt32.ofNat first) % locklessqBytes =
          16 * first % locklessqBytes :=
    fun first => byte_cell first 0
  rw [writeMessage, next, store_congr_start (start (position + 1)),
    store_congr_start (start position)]

/-- Inside the message the copies leave its bytes. -/
theorem writeMessage_inside (message : QueueMessage) {offset : Nat}
    (inside : offset < 16 + message.payload.length) :
    writeMessage bytes (UInt32.ofNat position) message.header
      message.payload ((16 * position + offset) % locklessqBytes) = message.byteAt offset := by
  have bounded := message.bounded
  rw [writeMessage_ofNat, QueueMessage.byteAt]
  by_cases inHeader : offset < 16
  · rw [if_pos inHeader]
    exact store_inside _ _ (by rw [locklessqBytes_eq]; omega) inHeader
  · obtain ⟨index, rfl⟩ : ∃ index, offset = 16 + index := ⟨offset - 16, by omega⟩
    have behind : 16 * position + (16 + index) = 16 * (position + 1) + index := by omega
    rw [if_neg inHeader, store_behind _ _ (by omega)
        (show 16 * position + (16 + index) < 16 * position + locklessqBytes
          by rw [locklessqBytes_eq]; omega), behind, Nat.add_sub_cancel_left]
    exact store_inside _ _ (by rw [locklessqBytes_eq]; omega) (by omega)

theorem writeMessage_behind (message : QueueMessage) {byte : Nat}
    (behind : 16 * position + 16 + message.payload.length ≤ byte)
    (near : byte < 16 * position + locklessqBytes) :
    writeMessage bytes (UInt32.ofNat position) message.header
      message.payload (byte % locklessqBytes) = bytes (byte % locklessqBytes) := by
  rw [writeMessage_ofNat, store_behind _ _ (by omega) near, store_behind _ _ (by omega) (by omega)]

end

theorem metaAt_congr {first second : Nat → UInt8} {position : Nat}
    (same : ∀ offset < 16, first ((16 * position + offset) % locklessqBytes) =
      second ((16 * position + offset) % locklessqBytes)) :
    metaAt first position = metaAt second position :=
  MetaElement.ofBytes_congr same

/-- Storing flags replaces the flags of the header in the slot. -/
theorem metaAt_setFlags (bytes : Nat → UInt8) {position other : Nat} (flags : UInt8)
    (sameSlot : other % 512 = position % 512) :
    metaAt (setFlags bytes position flags) other =
      { metaAt bytes position with flags := flags } := by
  have sameByte : ∀ offset,
        (16 * other + offset) % locklessqBytes = (16 * position + offset) % locklessqBytes := by
    intro offset
    rw [locklessqBytes_eq]
    omega
  have elsewhere : ∀ offset < 16, offset ≠ 2 →
          (16 * position + offset) % locklessqBytes ≠ (16 * position + 2) % locklessqBytes := by
    intro offset inside different
    rw [locklessqBytes_eq]
    omega
  simp only [metaAt, MetaElement.ofBytes, setFlags, sameByte, MetaElement.mk.injEq]
  refine ⟨?_, update_self .., ?_, ?_, ?_⟩
  · rw [update_of_ne (elsewhere 0 (by decide) (by decide)),
      update_of_ne (elsewhere 1 (by decide) (by decide))]
  · rw [update_of_ne (elsewhere 3 (by decide) (by decide))]
  · rw [update_of_ne (elsewhere 4 (by decide) (by decide)),
      update_of_ne (elsewhere 5 (by decide) (by decide)),
      update_of_ne (elsewhere 6 (by decide) (by decide)),
      update_of_ne (elsewhere 7 (by decide) (by decide))]
  · funext index
    rw [update_of_ne (elsewhere _ (by omega) (by omega))]

theorem setFlags_behind (bytes : Nat → UInt8) {position byte : Nat} (flags : UInt8)
    (behind : 16 * position + 16 ≤ byte) (near : byte < 16 * position + locklessqBytes) :
    setFlags bytes position flags (byte % locklessqBytes) = bytes (byte % locklessqBytes) := by
  refine update_of_ne (fun same => ?_) _ _
  have equal := eq_of_mod_eq same (by omega) (by omega)
  omega

end Bytes

/-- The message lies in the ring from the slot of a position on. -/
def StoredAt (bytes : Nat → UInt8) (position : Nat) (message : QueueMessage) : Prop :=
  ∀ offset < 16 + message.payload.length,
    bytes ((16 * position + offset) % locklessqBytes) = message.byteAt offset

/-- The messages lie behind each other from the slot of a position on. -/
def Stored (bytes : Nat → UInt8) : Nat → List QueueMessage → Prop
  | _, [] => True
  | position, message :: rest =>
    StoredAt bytes position message ∧ Stored bytes (position + message.slots) rest

variable {position : Nat}

theorem StoredAt.metaAt_eq {bytes : Nat → UInt8} {message : QueueMessage}
    (stored : StoredAt bytes position message) :
    metaAt bytes position = message.header := by
  rw [← message.header.ofBytes_byteAt]
  refine MetaElement.ofBytes_congr fun offset inside => ?_
  rw [stored offset (by omega), QueueMessage.byteAt, if_pos inside]

/-- Messages stay stored while the bytes of their slots do not change. -/
theorem Stored.congr {first second : Nat → UInt8} {messages : List QueueMessage}
    (stored : Stored first position messages)
    (same : ∀ byte, 16 * position ≤ byte → byte < 16 * (position + totalSlots messages) →
      second (byte % locklessqBytes) = first (byte % locklessqBytes)) :
    Stored second position messages := by
  induction messages generalizing position with
  | nil => exact trivial
  | cons message rest inductionHypothesis =>
    obtain ⟨here, later⟩ := stored
    simp only [totalSlots] at same
    have fits := message.bytes_le
    refine ⟨?_, inductionHypothesis later ?_⟩
    · intro offset inside
      rw [same _ (by omega) (by omega)]
      exact here offset inside
    · intro byte lower upper
      exact same byte (by omega) (by omega)

theorem Stored.append {bytes : Nat → UInt8} {messages : List QueueMessage} {message : QueueMessage}
    (stored : Stored bytes position messages)
    (last : StoredAt bytes (position + totalSlots messages) message) :
    Stored bytes position (messages ++ [message]) := by
  induction messages generalizing position with
  | nil => exact ⟨last, trivial⟩
  | cons first rest inductionHypothesis =>
    refine ⟨stored.1, inductionHypothesis stored.2 ?_⟩
    rw [totalSlots, ← Nat.add_assoc] at last
    exact last

/-- The credits that the return flag carries. -/
def flagCredits (returnFlag : Bool) : Nat := if returnFlag then 257 else 0

/--
What holds after `consumed` with `pending` to come.  The slot behind the last
message does not look valid, unless the ring is full.
-/
structure Tracks
    (consumed pending : List QueueMessage)
    (queue : LocklessQueueV2) : Prop where
  pushed : queue.pushed = consumed ++ pending
  seen : queue.seen = consumed.map QueueMessage.view
  senderPointer : queue.sender.pointer = UInt32.ofNat (totalSlots consumed + totalSlots pending)
  receiverPointer : queue.receiver.pointer = UInt32.ofNat (totalSlots consumed)
  stored : Stored queue.bytesArr (totalSlots consumed) pending
  account : queue.sender.credits.toNat + totalSlots pending +
        queue.receiver.credits.toNat + flagCredits queue.returnFlag = 512
  counted : queue.receiver.credits.toNat < 257
  clean : totalSlots pending = 512 ∨
      ¬ (metaAt queue.bytesArr (totalSlots consumed + totalSlots pending)).IsValid

/--
The condition on a step: a message that `push_nb` accepts ends in front of a
slot that does not look valid, or it fills the ring up to the receiver's
pointer.
-/
def EndsAtInvalidSlot (queue : LocklessQueueV2) : MessageQueueAction → Prop
  | .pushNb message =>
    let slots := UInt32.ofNat message.header.slotsOccupied
    let tail := queue.sender.pointer + slots
    (queue.sender.credits < slots ∧ queue.returnFlag = false) ∨
      tail - queue.receiver.pointer = locklessqSize.word ∨ ¬ (queue.peekMeta tail).IsValid
  | .receive => True

instance (queue : LocklessQueueV2) : ∀ action, Decidable (queue.EndsAtInvalidSlot action)
  | .pushNb _ => inferInstanceAs (Decidable (_ ∨ _ ∨ _))
  | .receive => .isTrue trivial

/--
What the receiver has seen is the first part of what has been pushed, header
and payload unchanged, and the slot at its pointer is valid exactly when there
is more.
-/
def SeesPushed (queue : LocklessQueueV2) : Prop :=
  queue.seen <+: queue.pushed.map QueueMessage.view ∧
    ((queue.peekMeta queue.receiver.pointer).IsValid ↔ queue.seen.length < queue.pushed.length)

namespace Tracks

variable {consumed pending : List QueueMessage} {queue : LocklessQueueV2}

theorem initially : Tracks [] [] initial where
  pushed := rfl
  seen := rfl
  senderPointer := rfl
  receiverPointer := rfl
  stored := trivial
  account := rfl
  counted := by decide
  clean := Or.inr (by decide)

theorem toNat_slots (message : QueueMessage) :
    (UInt32.ofNat message.header.slotsOccupied).toNat = message.slots :=
  UInt32.toNat_ofNat_of_lt' (Nat.lt_of_le_of_lt message.slots_le (by decide))

variable {message : QueueMessage}

section

variable (tracks : Tracks consumed pending queue)

include tracks

/-- The part of `push_nb` after the test for credits. -/
theorem commit (enough : message.slots ≤ queue.sender.credits.toNat)
    (clean : totalSlots pending + message.slots = 512 ∨ ¬ (metaAt queue.bytesArr
      (totalSlots consumed + totalSlots pending + message.slots)).IsValid) :
    Tracks consumed (pending ++ [message]) (queue.commit message) := by
  have account := tracks.account
  have slotsBound := message.slots_le
  have bytesBound := message.bytes_le
  have total : totalSlots (pending ++ [message]) = totalSlots pending + message.slots := by
    simp [totalSlots]
  have unchanged : ∀ byte, 16 * (totalSlots consumed + totalSlots pending) + 16 +
            message.payload.length ≤ byte → byte <
              16 * (totalSlots consumed + totalSlots pending) + locklessqBytes →
            (queue.commit message).bytesArr (byte % locklessqBytes) =
              queue.bytesArr (byte % locklessqBytes) := by
    intro byte behind near
    simp only [LocklessQueueV2.commit, tracks.senderPointer]
    exact writeMessage_behind _ _ message behind near
  constructor
  case pushed => simp only [LocklessQueueV2.commit, tracks.pushed, List.append_assoc]
  case seen => exact tracks.seen
  case senderPointer =>
    simp only [LocklessQueueV2.commit, tracks.senderPointer]
    rw [← UInt32.ofNat_add, total, Nat.add_assoc]
    rfl
  case receiverPointer => exact tracks.receiverPointer
  case stored =>
    apply Stored.append
    · refine tracks.stored.congr fun byte lower upper => ?_
      have wrapped :=
        unchanged (byte + locklessqBytes) (by rw [locklessqBytes_eq]; omega) (by omega)
      rwa [Nat.add_mod_right] at wrapped
    · intro offset inside
      simp only [LocklessQueueV2.commit, tracks.senderPointer]
      exact writeMessage_inside _ _ message inside
  case account =>
    have spent : (queue.sender.credits -
            UInt32.ofNat message.header.slotsOccupied).toNat =
          queue.sender.credits.toNat - message.slots := by
      rw [UInt32.toNat_sub_of_le _ _
        (UInt32.le_iff_toNat_le.mpr (by rw [toNat_slots]; exact enough)), toNat_slots]
    simp only [LocklessQueueV2.commit, spent, total]
    omega
  case counted => exact tracks.counted
  case clean =>
    rw [total]
    refine clean.imp_right fun invalid => ?_
    rw [← Nat.add_assoc,
      metaAt_congr fun offset inside => unchanged _ (by omega) (by rw [locklessqBytes_eq]; omega)]
    exact invalid

theorem refill (flag : queue.returnFlag = true) :
    Tracks consumed pending queue.refill ∧ 257 ≤ queue.refill.sender.credits.toNat := by
  have account := tracks.account
  rw [flag, flagCredits, if_pos rfl] at account
  have added : (queue.sender.credits + creditsPerReturn).toNat = queue.sender.credits.toNat + 257 :=
    toNat_add_word32 (show queue.sender.credits.toNat + 257 < 2 ^ 32 by omega)
  refine ⟨{ tracks with account := ?_ }, ?_⟩
  · simp only [LocklessQueueV2.refill, added, flagCredits, Bool.false_eq_true, if_false]
    omega
  · simp only [LocklessQueueV2.refill, added]
    omega

/-- The condition on a push, in terms of positions. -/
theorem clean_of_condition (condition : queue.EndsAtInvalidSlot (.pushNb message))
    (accepts : ¬ (queue.sender.credits <
      UInt32.ofNat message.header.slotsOccupied ∧ queue.returnFlag = false)) :
    totalSlots pending + message.slots = 512 ∨ ¬ (metaAt queue.bytesArr
      (totalSlots consumed + totalSlots pending + message.slots)).IsValid := by
  have account := tracks.account
  have slotsBound := message.slots_le
  have tail : queue.sender.pointer +
          UInt32.ofNat message.header.slotsOccupied =
        UInt32.ofNat (totalSlots consumed + totalSlots pending + message.slots) := by
    rw [tracks.senderPointer, ← UInt32.ofNat_add]
    rfl
  rcases condition with refused | full | invalid
  · exact absurd refused accepts
  · left
    rw [tail, tracks.receiverPointer] at full
    have distance :=
      toNat_ofNat_sub_ofNat_word32
        (show
          totalSlots consumed ≤ totalSlots consumed + totalSlots pending + message.slots
          by omega)
        (by omega)
    rw [full, QueueSize.toNat_word, slots_locklessqSize] at distance
    omega
  · right
    rw [peekMeta, tail, metaAt_cell] at invalid
    exact invalid

/-- `push_nb` under the condition. -/
theorem pushNb (condition : queue.EndsAtInvalidSlot (.pushNb message)) :
    ∃ nextPending, Tracks consumed nextPending (queue.pushNb message).1 := by
  rw [LocklessQueueV2.pushNb]
  by_cases short : queue.sender.credits < UInt32.ofNat message.header.slotsOccupied
  · rw [if_pos short]
    by_cases flag : queue.returnFlag = true
    · rw [if_pos flag]
      obtain ⟨refilled, enough⟩ := tracks.refill flag
      refine ⟨_,
        refilled.commit (message.slots_le.trans enough) (tracks.clean_of_condition condition ?_)⟩
      rw [flag]
      exact fun impossible => Bool.noConfusion impossible.2
    · rw [if_neg flag]
      exact ⟨pending, tracks⟩
  · rw [if_neg short]
    refine ⟨_,
      tracks.commit ?_ (tracks.clean_of_condition condition fun refused => short refused.1)⟩
    rw [UInt32.lt_iff_toNat_lt, toNat_slots] at short
    exact Nat.le_of_not_lt short

end

variable {rest : List QueueMessage}

section

variable (tracks : Tracks consumed (message :: rest) queue)

include tracks

theorem peekMeta_front : queue.peekMeta queue.receiver.pointer = message.header := by
  rw [peekMeta, tracks.receiverPointer, metaAt_cell]
  exact tracks.stored.1.metaAt_eq

theorem readData_front : queue.readData queue.receiver.pointer message.header.size.toNat =
      message.payload := by
  rw [readData, tracks.receiverPointer, ← message.sized]
  refine List.ext_getElem (by simp) fun index inRange inside => ?_
  have byte := tracks.stored.1 (16 + index) (by omega)
  rw [QueueMessage.byteAt, if_neg (by omega), Nat.add_sub_cancel_left,
    List.getD_eq_getElem?_getD, List.getElem?_eq_getElem inside, Option.getD_some] at byte
  rw [List.getElem_map, List.getElem_range, Nat.add_assoc, byte_cell]
  exact byte

theorem stored_rest (flags : UInt8) : Stored (setFlags queue.bytesArr (totalSlots consumed) flags)
      (totalSlots consumed + message.slots) rest := by
  have account := tracks.account
  have positive := message.slots_pos
  simp only [totalSlots] at account
  refine tracks.stored.2.congr fun byte lower upper => ?_
  exact setFlags_behind _ flags (by omega) (by rw [locklessqBytes_eq]; omega)

/-- Nor does the slot behind the last message look valid afterwards. -/
theorem clean_rest : ¬ (metaAt
      (setFlags queue.bytesArr (totalSlots consumed) bitmapIsDel)
      (totalSlots consumed + message.slots + totalSlots rest)).IsValid := by
  have account := tracks.account
  have clean := tracks.clean
  have positive := message.slots_pos
  simp only [totalSlots] at account clean
  by_cases full : message.slots + totalSlots rest = 512
  · have wrapped : (totalSlots consumed + message.slots + totalSlots rest) % 512 =
          totalSlots consumed % 512 := by
      omega
    rw [metaAt_setFlags _ _ wrapped]
    simp only [MetaElement.IsValid]
    decide
  · have invalid := clean.resolve_left full
    rw [← Nat.add_assoc] at invalid
    rw [metaAt_congr fun offset inside =>
      setFlags_behind _ _ (by omega) (by rw [locklessqBytes_eq]; omega)]
    exact invalid

theorem loop_ends : ¬ ((metaAt
      (setFlags queue.bytesArr (totalSlots consumed) bitmapIsDel)
      (totalSlots consumed + message.slots)).IsValid ∧ (metaAt
      (setFlags queue.bytesArr (totalSlots consumed) bitmapIsDel)
      (totalSlots consumed + message.slots)).IsDel) := by
  rintro ⟨valid, deleted⟩
  cases rest with
  | nil => exact tracks.clean_rest valid
  | cons following later =>
    have stored := tracks.stored_rest bitmapIsDel
    rw [stored.1.metaAt_eq, MetaElement.IsDel, following.valid] at deleted
    exact deleted (by decide)

end

/-- The state after the receiver has consumed a message. -/
def consumedFront (queue : LocklessQueueV2) (position : Nat)
    (message : QueueMessage) : LocklessQueueV2 :=
  let slots := UInt32.ofNat message.header.slotsOccupied
  let credits := queue.receiver.credits + slots
  { queue with
    bytesArr := setFlags queue.bytesArr position bitmapIsDel
    returnFlag := queue.returnFlag || decide (creditsPerReturn ≤ credits)
    receiver :=
      { pointer := queue.receiver.pointer + slots
        credits :=
          if creditsPerReturn ≤ credits then credits - creditsPerReturn else credits }
    seen := queue.seen ++ [message.view] }

theorem releaseLoop_once (fuel : Nat)
    (ready : (queue.peekMeta queue.receiver.pointer).IsValid ∧
      (queue.peekMeta queue.receiver.pointer).IsDel)
    (ends : ¬ ((queue.releaseFront.peekMeta
      queue.releaseFront.receiver.pointer).IsValid ∧
      (queue.releaseFront.peekMeta queue.releaseFront.receiver.pointer).IsDel)) :
    releaseLoop (fuel + 2) queue = queue.releaseFront := by
  rw [releaseLoop, if_pos ready, releaseLoop, if_neg ends]

/-- The receiver sees the oldest pending message and releases its slots. -/
theorem receive_eq (tracks : Tracks consumed (message :: rest) queue) :
    queue.receive = consumedFront queue (totalSlots consumed) message := by
  have front := tracks.peekMeta_front
  have pointer := tracks.receiverPointer
  have isValid : message.header.IsValid := by
    rw [MetaElement.IsValid, message.valid]
    decide
  let marked : LocklessQueueV2 :=
    { queue with
      bytesArr := setFlags queue.bytesArr (totalSlots consumed) (bitmapIsValid ||| bitmapIsDel)
      seen := queue.seen ++ [message.view] }
  have markedFront : marked.peekMeta marked.receiver.pointer =
        { message.header with flags := bitmapIsValid ||| bitmapIsDel } := by
    simp only [marked, peekMeta, pointer]
    rw [metaAt_cell, metaAt_setFlags _ _ rfl, tracks.stored.1.metaAt_eq]
  have released : marked.releaseFront = consumedFront queue (totalSlots consumed) message := by
    rw [releaseFront, markedFront]
    simp only [consumedFront, marked, pointer, setFlags_cell]
    rw [setFlags, setFlags, update_idem]
    rfl
  have receives : queue.receive = releaseLoop locklessqSize.slots marked := by
    rw [receive, front, if_pos isValid, tracks.readData_front, del, if_pos rfl]
    simp only [peekMeta, pointer, setFlags_cell, metaAt_cell,
      tracks.stored.1.metaAt_eq, message.valid, marked]
    rfl
  rw [receives, ← released]
  refine releaseLoop_once 510 ?_ ?_
  · rw [markedFront]
    simp only [MetaElement.IsValid, MetaElement.IsDel]
    decide
  · rw [released]
    simp only [consumedFront, peekMeta, pointer]
    rw [← UInt32.ofNat_add, metaAt_cell]
    exact tracks.loop_ends

/-- The receiver consumes the oldest pending message. -/
theorem receive_cons (tracks : Tracks consumed (message :: rest) queue) :
    Tracks (consumed ++ [message]) rest queue.receive := by
  have account := tracks.account
  have slotsBound := message.slots_le
  have total : totalSlots (consumed ++ [message]) = totalSlots consumed + message.slots := by
    simp [totalSlots]
  have sum : (queue.receiver.credits +
          UInt32.ofNat message.header.slotsOccupied).toNat =
        queue.receiver.credits.toNat + message.slots := by
    rw [UInt32.toNat_add, toNat_slots]
    exact Nat.mod_eq_of_lt (show queue.receiver.credits.toNat + message.slots < 2 ^ 32 by omega)
  have perReturn : creditsPerReturn.toNat = 257 := rfl
  simp only [totalSlots] at account
  rw [tracks.receive_eq]
  constructor
  case pushed => simp [consumedFront, tracks.pushed]
  case seen => simp [consumedFront, tracks.seen]
  case senderPointer =>
    rw [total]
    simp only [consumedFront, tracks.senderPointer, totalSlots, Nat.add_assoc]
  case receiverPointer =>
    rw [total]
    simp only [consumedFront, tracks.receiverPointer]
    exact (UInt32.ofNat_add _ _).symm
  case stored =>
    rw [total]
    exact tracks.stored_rest bitmapIsDel
  case account =>
    simp only [consumedFront]
    by_cases full :
        creditsPerReturn ≤ queue.receiver.credits + UInt32.ofNat message.header.slotsOccupied
    · have reached := UInt32.le_iff_toNat_le.mp full
      have consumedFlag : queue.returnFlag = false := by
        cases flag : queue.returnFlag with
        | false => rfl
        | true =>
          rw [flag, flagCredits, if_pos rfl] at account
          omega
      rw [if_pos full, UInt32.toNat_sub_of_le _ _ full, sum, perReturn,
        decide_eq_true full, Bool.or_true, flagCredits, if_pos rfl]
      rw [consumedFlag, flagCredits, if_neg Bool.false_ne_true] at account
      omega
    · rw [if_neg full, sum, decide_eq_false full, Bool.or_false]
      omega
  case counted =>
    simp only [consumedFront]
    by_cases full :
        creditsPerReturn ≤ queue.receiver.credits + UInt32.ofNat message.header.slotsOccupied
    · rw [if_pos full, UInt32.toNat_sub_of_le _ _ full, sum, perReturn]
      omega
    · rw [if_neg full, sum]
      rw [UInt32.le_iff_toNat_le, sum, perReturn] at full
      omega
  case clean =>
    rw [total]
    exact Or.inr tracks.clean_rest

theorem receive_nil (tracks : Tracks consumed [] queue) :
    ¬ (queue.peekMeta queue.receiver.pointer).IsValid := by
  have invalid := tracks.clean.resolve_left (by simp [totalSlots])
  rw [peekMeta, tracks.receiverPointer, metaAt_cell]
  exact invalid

/-- Every step that meets the condition keeps track. -/
theorem step (tracks : Tracks consumed pending queue) {action : MessageQueueAction}
    {next : LocklessQueueV2} (condition : queue.EndsAtInvalidSlot action)
    (stepped : queue.step? action = some next) :
    ∃ nextConsumed nextPending, Tracks nextConsumed nextPending next := by
  cases action with
  | pushNb message =>
    obtain rfl := Option.some.inj stepped
    obtain ⟨nextPending, kept⟩ := tracks.pushNb condition
    exact ⟨consumed, nextPending, kept⟩
  | receive =>
    obtain rfl := Option.some.inj stepped
    cases pending with
    | nil =>
      refine ⟨consumed, [], ?_⟩
      rw [receive, if_neg tracks.receive_nil]
      exact tracks
    | cons message rest => exact ⟨_, _, tracks.receive_cons⟩

theorem seesPushed (tracks : Tracks consumed pending queue) : queue.SeesPushed := by
  have seen := tracks.seen
  have pushed := tracks.pushed
  refine ⟨?_, ?_⟩
  · rw [seen, pushed, List.map_append]
    exact List.prefix_append _ _
  · rw [seen, pushed, List.length_map, List.length_append]
    cases pending with
    | nil => simp [tracks.receive_nil]
    | cons message rest =>
      rw [tracks.peekMeta_front, MetaElement.IsValid, message.valid]
      simp [bitmapIsValid]

end Tracks

/-- The state is tracked by some messages consumed and pending. -/
def Tracked (queue : LocklessQueueV2) : Prop := ∃ consumed pending, Tracks consumed pending queue

/--
In every run in which each accepted message ends in front of a slot that does
not look valid, or fills the ring, the receiver sees exactly the pushed
messages, in order and unchanged, and finds no valid slot when it has consumed
them all.
-/
theorem sees_pushed_of_clean_tails
    {actions : List MessageQueueAction}
    (along : Along step? EndsAtInvalidSlot initial actions)
    {queue : LocklessQueueV2}
    (reached : ReachedBy step? initial actions queue) :
    queue.SeesPushed := by
  obtain ⟨earlier, later, rfl, accepted⟩ := reached
  have tracked : queue.Tracked := by
    refine invariant_along ⟨[], [], Tracks.initially⟩ ?_ accepted along.left
    rintro state action next ⟨consumed, pending, tracks⟩ condition stepped
    exact tracks.step condition stepped
  obtain ⟨consumed, pending, tracks⟩ := tracked
  exact tracks.seesPushed

/-- A message of the given number of bytes, all of which are 1. -/
def onesMessage (size : UInt16) (bounded : size.toNat ≤ 4096) : QueueMessage where
  header := { size := size, flags := bitmapIsValid, command := 3, fd := 5, raw := fun _ => 0 }
  payload := List.replicate size.toNat 1
  valid := rfl
  sized := List.length_replicate
  bounded := by
    rw [List.length_replicate]
    exact bounded

/-- Two short messages, each consumed after it has been pushed. -/
def shortMessages : List MessageQueueAction :=
  [.pushNb (onesMessage 20 (by decide)), .receive, .pushNb (onesMessage 3 (by decide)), .receive]

/-- Two short messages are seen, and nothing else. -/
theorem sees_pushed_of_short_messages :
    ∃ queue, run? step? initial shortMessages = some queue ∧
      queue.seen.length = 2 ∧
      queue.SeesPushed := by
  obtain ⟨queue, accepted, count⟩ :=
    exists_reached_of_check step? initial shortMessages
      (fun queue => queue.seen.length = 2) (by decide +kernel)
  refine ⟨queue, accepted, count, ?_⟩
  exact sees_pushed_of_clean_tails
    (show Along step? EndsAtInvalidSlot initial shortMessages by decide +kernel)
    ⟨shortMessages, [], (List.append_nil _).symm, accepted⟩

/-- Two messages of 4096 bytes, each consumed, and one more look. -/
def longMessages : List MessageQueueAction :=
  [.pushNb (onesMessage 4096 (by decide)), .receive,
    .pushNb (onesMessage 4096 (by decide)), .receive, .receive]

/--
The second message ends in front of a payload slot of the first one, and the
receiver takes that slot for a third message.
-/
theorem stale_payload_seen :
    ∃ queue, run? step? initial longMessages = some queue ∧
      queue.pushed.length = 2 ∧
      queue.seen.length = 3 ∧
      ¬ queue.SeesPushed := by
  obtain ⟨queue, accepted, pushed, seen⟩ :=
    exists_reached_of_check step? initial longMessages
      (fun queue => queue.pushed.length = 2 ∧ queue.seen.length = 3)
      (by decide +kernel)
  refine ⟨queue, accepted, pushed, seen, ?_⟩
  rintro ⟨sees, -⟩
  have atMost := sees.length_le
  rw [List.length_map, pushed, seen] at atMost
  exact absurd atMost (by decide)

end LocklessQueueV2

end SocksDirect
