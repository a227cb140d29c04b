import SocksDirect.LocklessQueue

namespace SocksDirect

open CircularWindow

/-!
# The variable-size message queue

`locklessq_v2` of `common/locklessq_v2.hpp`, with credits enabled and the ring
mapped twice back to back, so that a byte address beyond the ring is the same
byte as its remainder.  The ring has 512 slots of 16 bytes.  A message is a
16-byte header in one slot and its payload in the slots that follow; the slots
are bytes, and whether a slot is a header is nowhere recorded.

The receiver looks at the slot at its pointer; if the header there has the
valid bit, it reads header and payload and calls `del` on it.
-/

/-- `LOCKLESSQ_SIZE` is `2 ^ 9`. -/
def locklessqSize : QueueSize :=
  { exponent := 9
    representable := by decide }

/-- The number of bytes of the ring. -/
def locklessqBytes : Nat := 16 * locklessqSize.slots

/-- `LOCKLESSQ_BITMAP_ISVALID`. -/
def bitmapIsValid : UInt8 := 0x1

/-- `LOCKLESSQ_BITMAP_ISDEL`. -/
def bitmapIsDel : UInt8 := 0x2

/-- `element_t`: the 16-byte header, packed.  `raw` is the inner element. -/
structure MetaElement where
  size : UInt16
  flags : UInt8
  command : UInt8
  fd : UInt32
  raw : Fin 8 → UInt8

namespace MetaElement

/-- The byte at an offset of the packed, little-endian header. -/
def byteAt (element : MetaElement) : Nat → UInt8
  | 0 => UInt8.ofNat element.size.toNat
  | 1 => UInt8.ofNat (element.size.toNat / 256)
  | 2 => element.flags
  | 3 => element.command
  | 4 => UInt8.ofNat element.fd.toNat
  | 5 => UInt8.ofNat (element.fd.toNat / 256)
  | 6 => UInt8.ofNat (element.fd.toNat / 65536)
  | 7 => UInt8.ofNat (element.fd.toNat / 16777216)
  | offset + 8 => if inside : offset < 8 then element.raw ⟨offset, inside⟩ else 0

/-- The header that 16 bytes of memory are. -/
def ofBytes (bytes : Nat → UInt8) : MetaElement where
  size := UInt16.ofNat ((bytes 0).toNat + 256 * (bytes 1).toNat)
  flags := bytes 2
  command := bytes 3
  fd :=
    UInt32.ofNat
      ((bytes 4).toNat + 256 * (bytes 5).toNat +
        65536 * (bytes 6).toNat + 16777216 * (bytes 7).toNat)
  raw := fun index => bytes (8 + index.val)

/-- `slots_occupied`: the header's slot and those of the payload. -/
def slotsOccupied (element : MetaElement) : Nat := (element.size.toNat + 15) / 16 + 1

/-- The header has the valid bit. -/
def IsValid (element : MetaElement) : Prop := element.flags &&& bitmapIsValid ≠ 0

/-- The header has the deletion bit. -/
def IsDel (element : MetaElement) : Prop := element.flags &&& bitmapIsDel ≠ 0

instance (element : MetaElement) : Decidable element.IsValid :=
  inferInstanceAs (Decidable (element.flags &&& bitmapIsValid ≠ 0))

instance (element : MetaElement) : Decidable element.IsDel :=
  inferInstanceAs (Decidable (element.flags &&& bitmapIsDel ≠ 0))

theorem ofBytes_congr {first second : Nat → UInt8}
    (same : ∀ offset < 16, first offset = second offset) :
    ofBytes first = ofBytes second := by
  simp only [ofBytes, mk.injEq]
  refine ⟨?_, same 2 (by decide), same 3 (by decide), ?_, ?_⟩
  · rw [same 0 (by decide), same 1 (by decide)]
  · rw [same 4 (by decide), same 5 (by decide), same 6 (by decide), same 7 (by decide)]
  · funext index
    exact same _ (by omega)

/-- A packed header is read back as it is. -/
theorem ofBytes_byteAt (element : MetaElement) : ofBytes element.byteAt = element := by
  have sizeBound := element.size.toNat_lt
  have fdBound := element.fd.toNat_lt
  obtain ⟨size, flags, command, fd, raw⟩ := element
  simp only [ofBytes, mk.injEq, byteAt, UInt8.toNat_ofNat']
  refine ⟨?_, trivial, trivial, ?_, ?_⟩
  · apply UInt16.toNat_inj.mp
    rw [UInt16.toNat_ofNat']
    simp only at sizeBound
    omega
  · apply UInt32.toNat_inj.mp
    rw [UInt32.toNat_ofNat']
    simp only at fdBound
    omega
  · funext index
    have offset : 8 + index.val = index.val + 8 := Nat.add_comm _ _
    rw [offset]
    simp

end MetaElement

/--
A message as the sender passes it to `push_nb`: the header is marked valid, its
size is that of the payload, and the payload has at most 4096 bytes.
-/
structure QueueMessage where
  header : MetaElement
  payload : List UInt8
  valid : header.flags = bitmapIsValid
  sized : payload.length = header.size.toNat
  bounded : payload.length ≤ 4096

/-- The shared memory, both sides, and the messages pushed and seen. -/
structure LocklessQueueV2 where
  bytesArr : Nat → UInt8
  returnFlag : Bool
  sender : QueueEnd
  receiver : QueueEnd
  pushed : List QueueMessage
  seen : List (MetaElement × List UInt8)

/-- A `push_nb` of the sender, or one look of the receiver at its pointer. -/
inductive MessageQueueAction where
  | pushNb (message : QueueMessage)
  | receive

namespace LocklessQueueV2

/-- `CREDITS_PER_RETURN`. -/
def creditsPerReturn : UInt32 := locklessqSize.creditsPerReturn

/-- `init` on both sides and `init_mem`. -/
def initial : LocklessQueueV2 where
  bytesArr := fun _ => 0
  returnFlag := false
  sender := { pointer := 0, credits := locklessqSize.word }
  receiver := { pointer := 0, credits := 0 }
  pushed := []
  seen := []

/-- The header that the bytes of a slot are. -/
def metaAt (bytes : Nat → UInt8) (slot : Nat) : MetaElement :=
  .ofBytes fun offset => bytes ((16 * slot + offset) % locklessqBytes)

/-- `peek_meta`. -/
def peekMeta (queue : LocklessQueueV2) (loc : UInt32) : MetaElement :=
  metaAt queue.bytesArr (locklessqSize.cell loc)

/-- The given number of bytes from `peek_data` on. -/
def readData (queue : LocklessQueueV2) (loc : UInt32) (count : Nat) : List UInt8 :=
  (List.range count).map fun offset =>
    queue.bytesArr ((16 * locklessqSize.cell loc + 16 + offset) % locklessqBytes)

/-- The copies of the payload and of the header in `push_nb`. -/
def writeMessage (bytes : Nat → UInt8) (pointer : UInt32) (header : MetaElement)
    (payload : List UInt8) : Nat → UInt8 :=
  store locklessqBytes
    (store locklessqBytes bytes
      (16 * locklessqSize.cell (pointer + 1)) payload.length
      fun offset => payload.getD offset 0)
    (16 * locklessqSize.cell pointer) 16 header.byteAt

/-- The part of `push_nb` after the test for credits. -/
def commit (queue : LocklessQueueV2) (message : QueueMessage) : LocklessQueueV2 :=
  let slots := UInt32.ofNat message.header.slotsOccupied
  { queue with
    bytesArr := writeMessage queue.bytesArr queue.sender.pointer message.header message.payload
    sender := { pointer := queue.sender.pointer + slots, credits := queue.sender.credits - slots }
    pushed := queue.pushed ++ [message] }

/-- The sender consumes the return flag. -/
def refill (queue : LocklessQueueV2) : LocklessQueueV2 :=
  { queue with
    returnFlag := false
    sender := { queue.sender with credits := queue.sender.credits + creditsPerReturn } }

/-- `push_nb`. -/
def pushNb (queue : LocklessQueueV2) (message : QueueMessage) : LocklessQueueV2 × Bool :=
  if queue.sender.credits < UInt32.ofNat message.header.slotsOccupied then
    if queue.returnFlag then (queue.refill.commit message, true) else (queue, false)
  else
    (queue.commit message, true)

/-- Replace the flags of the header in a slot. -/
def setFlags (bytes : Nat → UInt8) (slot : Nat) (flags : UInt8) : Nat → UInt8 :=
  Function.update bytes ((16 * slot + 2) % locklessqBytes) flags

/-- The body of the loop in `del`. -/
def releaseFront (queue : LocklessQueueV2) : LocklessQueueV2 :=
  let front := queue.peekMeta queue.receiver.pointer
  let slots := UInt32.ofNat front.slotsOccupied
  let credits := queue.receiver.credits + slots
  { queue with
    bytesArr :=
      setFlags queue.bytesArr (locklessqSize.cell queue.receiver.pointer)
        (front.flags &&& ~~~bitmapIsValid)
    returnFlag := queue.returnFlag || decide (creditsPerReturn ≤ credits)
    receiver :=
      { pointer := queue.receiver.pointer + slots
        credits :=
          if creditsPerReturn ≤ credits then credits - creditsPerReturn else credits } }

/--
The loop of `del`.  Every iteration clears the valid bit of one of the 512
slots, so it ends after at most 512 of them.
-/
def releaseLoop : Nat → LocklessQueueV2 → LocklessQueueV2
  | 0, queue => queue
  | fuel + 1, queue =>
    let front := queue.peekMeta queue.receiver.pointer
    if front.IsValid ∧ front.IsDel then releaseLoop fuel queue.releaseFront else queue

/-- `del`. -/
def del (queue : LocklessQueueV2) (loc : UInt32) : LocklessQueueV2 :=
  let marked :=
    { queue with
      bytesArr :=
        setFlags queue.bytesArr (locklessqSize.cell loc)
          ((queue.peekMeta loc).flags ||| bitmapIsDel) }
  if loc &&& locklessqSize.mask = queue.receiver.pointer &&& locklessqSize.mask then
    releaseLoop locklessqSize.slots marked
  else
    marked

/--
One look of the receiver: `peek_meta` at its pointer and, if the slot there is
valid, header and payload are read and the message is deleted.
-/
def receive (queue : LocklessQueueV2) : LocklessQueueV2 :=
  let loc := queue.receiver.pointer
  let header := queue.peekMeta loc
  if header.IsValid then
    let message := (header, queue.readData loc header.size.toNat)
    ({ queue with seen := queue.seen ++ [message] }).del loc
  else
    queue

/-- Calls of the two sides, in any order. -/
def step? (queue : LocklessQueueV2) : MessageQueueAction → Option LocklessQueueV2
  | .pushNb message => some (queue.pushNb message).1
  | .receive => some queue.receive

end LocklessQueueV2

end SocksDirect
