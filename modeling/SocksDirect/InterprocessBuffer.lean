import SocksDirect.ChainedBlocks
import SocksDirect.MachineRun
import SocksDirect.SharedQueue

namespace SocksDirect

open TombstoneRing

/-!
# The interprocess block buffer

One direction of `interprocess_local_t` (`common/interprocess_t.cpp` and
`common/interprocess_t_n.hpp`): the side that calls `push_data` and the side
that calls `pop_data`.  A message is a chain of blocks of 1018 bytes; the
metadata queue `q` carries one element for each message, which points to the
first block of its chain.  Blocks are taken from a queue of free block ids by
the pushing side and put back by the popping side, one by one.  That queue has
2048 slots and its credits are disabled.

All elements here are `DATA_TRANSFER` elements, so the emergency queue is empty
and `pop_data` takes the element of `q` at the iterator's pointer.  The blocking
`push` into `q` at the end of `push_data` is a step of its own.
-/

/-- `INTERPROCESS_SLOTS_BLK_SIZE`. -/
def slotsBlkSize : Nat := 1018

/-- `INTERPROCESS_SLOTS_IN_BUFFER`. -/
def slotsInBuffer : Nat := 1024

/-- The queue of free block ids has `2 * INTERPROCESS_SLOTS_IN_BUFFER` slots. -/
def availQueueSize : QueueSize :=
  { exponent := 11
    representable := by decide }

/-- The metadata queue has `INTERPROCESS_SLOTS_IN_QUEUE` slots. -/
def metaQueueSize : QueueSize :=
  { exponent := 8
    representable := by decide }

/-- `buffer_t::element`: one block.  The last block of a chain points to -1. -/
structure BufferBlock where
  size : Nat
  offset : Nat
  data : Nat → UInt8
  nextPtr : Int

/-- `buffer_t`: the blocks and the queue of the free ones. -/
structure BlockBuffer where
  mem : Int → BufferBlock
  availSlots : SharedQueue availQueueSize Int

namespace BufferBlock

/-- The block as `pushdata` fills it, up to its link. -/
def fill (block : BufferBlock) (bytes : List UInt8) : BufferBlock :=
  { block with
    size := bytes.length
    offset := 0
    data := fun index => if index < bytes.length then bytes.getD index 0 else block.data index }

/-- The bytes of a block that have not been popped. -/
def bytes (block : BufferBlock) : List UInt8 :=
  (List.range block.size).map fun index => block.data (block.offset + index)

/-- The first bytes of a block have been popped. -/
def skip (block : BufferBlock) (count : Nat) : BufferBlock :=
  { block with size := block.size - count, offset := block.offset + count }

end BufferBlock

/--
What `popdata` leaves behind: the buffer, the block that is returned, the bytes
copied to the caller and the number of wanted bytes that were not there.
-/
structure PopResult where
  buffer : BlockBuffer
  currentLoc : Int
  popped : List UInt8
  sizeleft : Nat

namespace BlockBuffer

/-- Replace one block. -/
def setBlock (buffer : BlockBuffer) (id : Int) (block : BufferBlock) : BlockBuffer :=
  { buffer with mem := Function.update buffer.mem id block }

/-- Link the previous block, if there is one, to the block just taken. -/
def link (buffer : BlockBuffer) (prevBlk blk : Int) : BlockBuffer :=
  if prevBlk ≠ -1 then
    buffer.setBlock prevBlk { buffer.mem prevBlk with nextPtr := blk }
  else
    buffer

/-- Copy the next bytes into the block just taken; the last one ends the chain. -/
def copyIn (buffer : BlockBuffer) (blk : Int) (sizeLeft : List UInt8) : BlockBuffer :=
  let filled := (buffer.mem blk).fill (sizeLeft.take slotsBlkSize)
  buffer.setBlock blk
    (if (sizeLeft.drop slotsBlkSize).length = 0 then { filled with nextPtr := -1 } else filled)

/--
The loop of `pushdata`: the bytes left, the previous block and the value to
return.  Every iteration copies at least one byte.
-/
def pushLoop : Nat → BlockBuffer → List UInt8 → Int → Int → BlockBuffer × Int
  | 0, buffer, _, _, ret => (buffer, ret)
  | fuel + 1, buffer, sizeLeft, prevBlk, ret =>
    if 0 < sizeLeft.length then
      match buffer.availSlots.popNb? with
      | none => (buffer, ret)
      | some (blk, availSlots) =>
        let taken := { buffer with availSlots := availSlots }
        pushLoop fuel ((taken.link prevBlk blk).copyIn blk sizeLeft)
          (sizeLeft.drop slotsBlkSize) blk
          (if prevBlk = -1 then blk else ret)
    else
      (buffer, ret)

/-- `pushdata`. -/
def pushdata (buffer : BlockBuffer) (bytes : List UInt8) : BlockBuffer × Int :=
  pushLoop bytes.length buffer bytes (-1) (-1)

/-- The blocking `push` of a freed block; its queue has no credits. -/
def release (buffer : BlockBuffer) (id : Int) : BlockBuffer :=
  { buffer with availSlots := (buffer.availSlots.pushNb? id).getD buffer.availSlots }

/--
The loop of `popdata`: the current block, the number of bytes still wanted and
the bytes copied so far.  A block that is wanted as a whole is released.
-/
def popLoop : Nat → BlockBuffer → Int → Nat → List UInt8 → PopResult
  | 0, buffer, currentLoc, sizeleft, copied =>
    { buffer := buffer, currentLoc := currentLoc, popped := copied, sizeleft := sizeleft }
  | fuel + 1, buffer, currentLoc, sizeleft, copied =>
    if currentLoc ≠ -1 ∧ sizeleft ≠ 0 then
      let block := buffer.mem currentLoc
      if block.size ≤ sizeleft then
        popLoop fuel (buffer.release currentLoc) block.nextPtr
          (sizeleft - block.size) (copied ++ block.bytes)
      else
        { buffer := buffer.setBlock currentLoc (block.skip sizeleft)
          currentLoc := currentLoc
          popped := copied ++ block.bytes.take sizeleft
          sizeleft := 0 }
    else
      { buffer := buffer, currentLoc := currentLoc, popped := copied, sizeleft := sizeleft }

/-- `popdata`. -/
def popdata (buffer : BlockBuffer) (src : Int) (size : Nat) : PopResult :=
  popLoop (size + 1) buffer src size []

end BlockBuffer

/-- `queue_t::element` of a `DATA_TRANSFER`. -/
structure TransferElement where
  pointer : Int
  fd : Int
  deriving Repr, DecidableEq

/-- A message by the bytes pushed and the bytes that `pop_data` has returned. -/
structure Transfer where
  bytes : List UInt8
  popped : List UInt8
  deriving Repr, DecidableEq

/--
One direction of the channel.  `waiting` is the element of a `push_data` whose
`push` into `q` has not succeeded yet; `transfers` are the messages by number;
`returned` is the value of the last call.
-/
structure InterprocessChannel where
  buffer : BlockBuffer
  q : SharedQueue metaQueueSize TransferElement
  waiting : Option (TransferElement × List UInt8)
  transfers : List Transfer
  returned : Nat

/-- Calls of the two sides. -/
inductive TransferAction where
  | pushData (fd : Int) (bytes : List UInt8)
  | push
  | popData (loc : UInt32) (len : Nat)
  deriving Repr, DecidableEq

namespace InterprocessChannel

/-- A queue over cleared memory. -/
def clearedQueue {Data : Type} (size : QueueSize) (zero : Data) (sender receiver : QueueEnd)
    (creditDisabled : Bool) : SharedQueue size Data where
  ringbuffer := fun _ => { data := zero, isvalid := false, isdel := false }
  returnFlag := false
  sender := sender
  receiver := receiver
  creditDisabled := creditDisabled
  history := History.empty Nat Data

/-- `monitor_init` pushes all block ids through a queue object of its own. -/
def monitorInit : SharedQueue availQueueSize Int :=
  (List.range slotsInBuffer).foldl
    (fun queue id => (queue.pushNb? (Int.ofNat id)).getD queue)
    (clearedQueue availQueueSize 0
      { pointer := 0, credits := 0 }
      { pointer := 0, credits := 0 }
      true)

/--
The state after `monitor_init` and `init` on both sides.  The pushing side pops
free ids from pointer 0 on; the popping side puts them back from
`INTERPROCESS_SLOTS_IN_BUFFER` on.
-/
def initial : InterprocessChannel where
  buffer :=
    { mem := fun _ =>
        { size := 0, offset := 0, data := fun _ => 0, nextPtr := 0 }
      availSlots :=
        { monitorInit with
          returnFlag := false
          sender := { pointer := UInt32.ofNat slotsInBuffer, credits := availQueueSize.word }
          receiver := { pointer := 0, credits := 0 } } }
  q :=
    clearedQueue metaQueueSize
      { pointer := 0, fd := 0 }
      { pointer := 0, credits := metaQueueSize.word }
      { pointer := 0, credits := 0 }
      false
  waiting := none
  transfers := []
  returned := 0

/-- The ids in the queue of free blocks. -/
def freeBlocks (channel : InterprocessChannel) : List Int := channel.buffer.availSlots.contents

/--
`push_data` up to its `push` into `q`.  It is called when no earlier call is in
progress, with at least one byte, and when there are enough free blocks.
-/
def pushData? (channel : InterprocessChannel) (fd : Int)
    (bytes : List UInt8) : Option InterprocessChannel :=
  if channel.waiting.isNone ∧ 0 < bytes.length ∧
      bytes.length ≤ slotsBlkSize * channel.freeBlocks.length then
    let pushed := channel.buffer.pushdata bytes
    if pushed.2 = -1 then
      some { channel with buffer := pushed.1, returned := 0 }
    else
      some
        { channel with
          buffer := pushed.1
          waiting := some ({ pointer := pushed.2, fd := fd }, bytes) }
  else
    none

/-- One attempt of the blocking `push` into `q`. -/
def push? (channel : InterprocessChannel) : Option InterprocessChannel :=
  match channel.waiting with
  | none => none
  | some (element, bytes) =>
    match channel.q.pushNb? element with
    | none => some channel
    | some q =>
      some
        { channel with
          q := q
          waiting := none
          transfers := channel.transfers ++ [{ bytes := bytes, popped := [] }]
          returned := bytes.length }

/--
`pop_data` on the element at `loc`, which is valid and not deleted.  The element is
deleted with the last block, and otherwise set to the first one left.
-/
def popData? (channel : InterprocessChannel) (loc : UInt32)
    (len : Nat) : Option InterprocessChannel :=
  if (channel.q.peek loc).1 = true ∧ (channel.q.peek loc).2.1 = false then
    let element := (channel.q.peek loc).2.2
    let result := channel.buffer.popdata element.pointer len
    let index := channel.q.history.serial (metaQueueSize.cell loc)
    some
      { channel with
        buffer := result.buffer
        q :=
          if result.currentLoc = -1 then
            channel.q.del loc false
          else
            channel.q.set loc { element with pointer := result.currentLoc }
        transfers :=
          channel.transfers.modify index fun transfer =>
            { transfer with popped := transfer.popped ++ result.popped }
        returned := len - result.sizeleft }
  else
    none

/-- The calls of the two sides in any order. -/
def step? (channel : InterprocessChannel) : TransferAction → Option InterprocessChannel
  | .pushData fd bytes => channel.pushData? fd bytes
  | .push => channel.push?
  | .popData loc len => channel.popData? loc len

/-- The ids of the chain that starts at a block. -/
def chainIds (mem : Int → BufferBlock) (start : Int) : List Int :=
  ChainedBlocks.follow (fun id => (mem id).nextPtr) (-1) (slotsInBuffer + 1) start

/-- The ids of all blocks of this direction. -/
def allBlocks : List Int := (List.range slotsInBuffer).map Int.ofNat

/--
The ids of all live chains: those of the elements in `q` that are not deleted,
and that of an element which waits to be pushed.
-/
def liveBlocks (channel : InterprocessChannel) : List Int :=
  (channel.q.contents ++ (channel.waiting.map Prod.fst).toList).flatMap
    fun element => chainIds channel.buffer.mem element.pointer

end InterprocessChannel

end SocksDirect
