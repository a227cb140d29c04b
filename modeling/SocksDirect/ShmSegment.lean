import SocksDirect.ShmRing

namespace SocksDirect

/-!
# Attaching to a shared-memory segment

`include/socksdirect/shm_segment.hpp` and the part of `try_attach` in
`src/lib/shm_conn.cpp` that follows the monitor's answer.  Both ends have the
same key, so there is one POSIX name; an object stays mapped after its name is
unlinked.  A segment with that name may have been left behind by an earlier run.

Every access to the name, to an object's size and to its header is one step of
one end.  Waiting may take any time, so it is no condition on a step, and the
futex words, which only end a wait, are left out.
-/

/-- `ShmSegment::Role`. -/
inductive Role where
  | creator
  | joiner
  deriving Repr, DecidableEq

/-- The fields of `sd_shm_header` and the two closed flags that attaching uses. -/
structure SegmentHeader where
  magic : UInt32
  abiMajor : UInt16
  refcount : Int32
  creatorPid : Int32
  joinerPid : Int32
  creatorToJoinerClosed : Bool
  joinerToCreatorClosed : Bool
  deriving Repr, DecidableEq

/-- `kShmSegmentMagic`, the text "SDM1". -/
def kShmSegmentMagic : UInt32 := 0x53444D31

namespace SegmentHeader

/-- The content of a freshly sized object. -/
def zero : SegmentHeader where
  magic := 0
  abiMajor := 0
  refcount := 0
  creatorPid := 0
  joinerPid := 0
  creatorToJoinerClosed := false
  joinerToCreatorClosed := false

/-- The pid field that the other end writes. -/
def peerPid (header : SegmentHeader) : Role → Int32
  | .creator => header.joinerPid
  | .joiner => header.creatorPid

/-- `mark_closed` on the ring this end writes to. -/
def markOutboundClosed (header : SegmentHeader) : Role → SegmentHeader
  | .creator => { header with creatorToJoinerClosed := true }
  | .joiner => { header with joinerToCreatorClosed := true }

end SegmentHeader

/-- The objects the name can stand for during one attachment. -/
inductive SegmentObject where
  | leaked
  | created
  deriving Repr, DecidableEq

/-- The POSIX objects: what the name is linked to, sizes and headers. -/
structure SharedMemory where
  name : Option SegmentObject
  sized : SegmentObject → Bool
  header : SegmentObject → SegmentHeader

namespace SharedMemory

/-- Replace the header of one object. -/
def setHeader (memory : SharedMemory) (object : SegmentObject)
    (header : SegmentHeader) : SharedMemory :=
  { memory with header := fun other => if other = object then header else memory.header other }

/-- `ftruncate` to the layout size. -/
def setSized (memory : SharedMemory) (object : SegmentObject) : SharedMemory :=
  { memory with sized := fun other => if other = object then true else memory.sized other }

/-- `shm_unlink`. -/
def unlink (memory : SharedMemory) : SharedMemory := { memory with name := none }

end SharedMemory

/-- The stores of the creator's header initialisation, in order. -/
inductive InitStep where
  | clear
  | abiMajor
  | creatorPid
  | refcount
  | magic
  deriving Repr, DecidableEq

/-- Positions of `wait_for_peer`; `remaining` is the time left in ms. -/
inductive WaitStep where
  | first (remaining : Nat)
  | again (remaining : Nat)
  | futexWait (remaining : Nat)
  | last
  deriving Repr, DecidableEq

/-- Positions of `ShmSegment::close`. -/
inductive CloseStep where
  | markClosed
  | fetchSub
  | unmap (last : Bool)
  deriving Repr, DecidableEq

/-- Where the creator stands in `try_attach`; it is on the segment it created. -/
inductive CreatorStep where
  | shmOpen (attempt : Nat)
  | unlinkLeaked
  | ftruncate
  | unlinkUnsized
  | mmap
  | initialise (step : InitStep)
  | waitForPeer (step : WaitStep)
  | close (step : CloseStep)
  | finished (installed : Bool)
  deriving Repr, DecidableEq

/--
Where the joiner stands in `try_attach`.  `finished` holds the segment of the
returned connection, or nothing after a fall back to TCP.  `crashed` is an
access to a mapping that the object's size does not back yet.
-/
inductive JoinerStep where
  | shmOpen (attempt : Nat)
  | fstat (object : SegmentObject) (round : Nat)
  | mmap (object : SegmentObject)
  | loadMagic (object : SegmentObject) (round : Nat)
  | checkMagic (object : SegmentObject)
  | checkAbi (object : SegmentObject)
  | storeJoinerPid (object : SegmentObject)
  | fetchAdd (object : SegmentObject)
  | waitForPeer (object : SegmentObject) (step : WaitStep)
  | close (object : SegmentObject) (step : CloseStep)
  | finished (segment : Option SegmentObject)
  | crashed
  deriving Repr, DecidableEq

namespace WaitStep

/-- One step of `wait_for_peer`, given the peer's pid field. -/
def step (peerPid : Int32) : WaitStep → CallStep WaitStep Bool
  | .first remaining =>
    if peerPid ≠ 0 then .returned true else .running (.again remaining)
  | .again remaining =>
    if peerPid ≠ 0 then .returned true else .running (.futexWait remaining)
  | .futexWait remaining =>
    let slice := if remaining > 50 then 50 else remaining
    if remaining - slice > 0 then .running (.first (remaining - slice)) else .running .last
  | .last => .returned (peerPid ≠ 0)

end WaitStep

namespace SharedMemory

variable (memory : SharedMemory)

/--
The creator's `shm_open` with `O_CREAT | O_EXCL`.  An existing name is taken
for a leak the first time and is an error the second time.
-/
def creatorOpen (attempt : Nat) (ok : Bool) : SharedMemory × CreatorStep :=
  if ok then
    match memory.name with
    | none =>
      ({ memory with
          name := some .created
          sized := fun other => if other = .created then false else memory.sized other
          header := fun other => if other = .created then .zero else memory.header other },
        .ftruncate)
    | some _ =>
      if attempt = 0 then (memory, .unlinkLeaked) else (memory, .finished false)
  else
    (memory, .finished false)

/-- The header stores of the creator, `magic` last. -/
def initialise (pid : Int32) : InitStep → SharedMemory × CreatorStep
  | .clear => (memory.setHeader .created .zero, .initialise .abiMajor)
  | .abiMajor =>
    (memory.setHeader .created
        { memory.header .created with abiMajor := 1 }, .initialise .creatorPid)
  | .creatorPid =>
    (memory.setHeader .created
        { memory.header .created with creatorPid := pid }, .initialise .refcount)
  | .refcount =>
    (memory.setHeader .created { memory.header .created with refcount := 1 }, .initialise .magic)
  | .magic =>
    (memory.setHeader .created
        { memory.header .created with magic := kShmSegmentMagic }, .waitForPeer (.first 200))

/-- One step of `ShmSegment::close`. -/
def close (role : Role) (object : SegmentObject) :
    CloseStep → SharedMemory × CallStep CloseStep Unit
  | .markClosed =>
    (memory.setHeader object ((memory.header object).markOutboundClosed role), .running .fetchSub)
  | .fetchSub =>
    let prev := (memory.header object).refcount
    (memory.setHeader object
        { memory.header object with refcount := prev - 1 }, .running (.unmap (prev = 1)))
  | .unmap last => (if last then memory.unlink else memory, .returned ())

/--
One step of the creator's `try_attach`.  `ok` is the outcome of the system
call, if the step is one that can fail.
-/
def creatorStep? (pid : Int32) (ok : Bool) : CreatorStep → Option (SharedMemory × CreatorStep)
  | .shmOpen attempt => some (memory.creatorOpen attempt ok)
  | .unlinkLeaked => some (memory.unlink, .shmOpen 1)
  | .ftruncate =>
    if ok then some (memory.setSized .created, .mmap) else some (memory, .unlinkUnsized)
  | .unlinkUnsized => some (memory.unlink, .finished false)
  | .mmap =>
    if ok then some (memory, .initialise .clear) else some (memory, .finished false)
  | .initialise step => some (memory.initialise pid step)
  | .waitForPeer step =>
    match step.step ((memory.header .created).peerPid .creator) with
    | .running next => some (memory, .waitForPeer next)
    | .returned true => some (memory, .finished true)
    | .returned false => some (memory, .close .markClosed)
  | .close step =>
    match memory.close .creator .created step with
    | (closed, .running next) => some (closed, .close next)
    | (closed, .returned ()) => some (closed, .finished false)
  | .finished _ => none

/-- The joiner's `shm_open`, repeated while the name does not exist. -/
def joinerOpen (attempt : Nat) (ok : Bool) : JoinerStep :=
  if ok then
    match memory.name with
    | some object => .fstat object 0
    | none =>
      if attempt < 5000 then .shmOpen (attempt + 1) else .finished none
  else
    .finished none

/-- One step of the joiner's `try_attach`. -/
def joinerStep? (pid : Int32) (ok : Bool) : JoinerStep → Option (SharedMemory × JoinerStep)
  | .shmOpen attempt => some (memory, memory.joinerOpen attempt ok)
  | .fstat object round =>
    if ok && memory.sized object then
      some (memory, .mmap object)
    else if round + 1 < 100 then
      some (memory, .fstat object (round + 1))
    else
      some (memory, .mmap object)
  | .mmap object =>
    if ok then some (memory, .loadMagic object 0) else some (memory, .finished none)
  | .loadMagic object round =>
    if memory.sized object then
      if (memory.header object).magic = kShmSegmentMagic then
        some (memory, .checkMagic object)
      else if round + 1 < 100 then
        some (memory, .loadMagic object (round + 1))
      else
        some (memory, .checkMagic object)
    else
      some (memory, .crashed)
  | .checkMagic object =>
    if memory.sized object then
      if (memory.header object).magic = kShmSegmentMagic then
        some (memory, .checkAbi object)
      else
        some (memory, .finished none)
    else
      some (memory, .crashed)
  | .checkAbi object =>
    if (memory.header object).abiMajor = 1 then
      some (memory, .storeJoinerPid object)
    else
      some (memory, .finished none)
  | .storeJoinerPid object =>
    some (memory.setHeader object { memory.header object with joinerPid := pid }, .fetchAdd object)
  | .fetchAdd object =>
    some
      (memory.setHeader object
          { memory.header object with refcount := (memory.header object).refcount + 1 },
        .waitForPeer object (.first 200))
  | .waitForPeer object step =>
    match step.step ((memory.header object).peerPid .joiner) with
    | .running next => some (memory, .waitForPeer object next)
    | .returned true => some (memory, .finished (some object))
    | .returned false => some (memory, .close object .markClosed)
  | .close object step =>
    match memory.close .joiner object step with
    | (closed, .running next) => some (closed, .close object next)
    | (closed, .returned ()) => some (closed, .finished none)
  | .finished _ => none
  | .crashed => none

end SharedMemory

/-- The value of `getpid()`. -/
structure ProcessId where
  value : Int32
  nonzero : value ≠ 0
  deriving DecidableEq

/-- Both ends of a connection in `try_attach`. -/
structure Attachment where
  memory : SharedMemory
  creator : CreatorStep
  joiner : JoinerStep

/-- One end moves; `ok` is the outcome of a system call that can fail. -/
structure AttachAction where
  role : Role
  ok : Bool
  deriving Repr, DecidableEq

namespace Attachment

/--
The state after the monitor's answers.  `leaked` is the size and header of a
segment that already has the connection's name, if there is one.
-/
def initial (leaked : Option (Bool × SegmentHeader)) : Attachment where
  memory := {
    name := leaked.map fun _ => .leaked
    sized := fun object =>
      match object, leaked with
      | .leaked, some (sized, _) => sized
      | _, _ => false
    header := fun object =>
      match object, leaked with
      | .leaked, some (_, header) => header
      | _, _ => .zero }
  creator := .shmOpen 0
  joiner := .shmOpen 0

/-- The end with the given role takes its next step. -/
def step? (pid : Role → ProcessId) (attachment : Attachment)
    (action : AttachAction) : Option Attachment :=
  match action.role with
  | .creator =>
    (attachment.memory.creatorStep? (pid .creator).value action.ok
        attachment.creator).map
      fun (memory, position) => { attachment with memory := memory, creator := position }
  | .joiner =>
    (attachment.memory.joinerStep? (pid .joiner).value action.ok
        attachment.joiner).map
      fun (memory, position) => { attachment with memory := memory, joiner := position }

end Attachment

end SocksDirect
