import Mathlib.Algebra.Group.Nat.Defs
import SocksDirect.MachineRun

namespace SocksDirect

/-!
# The process-shared byte ring

`include/socksdirect/shm_ring.hpp`.  A `ShmRing<kBufBytes>` is written by one
producer and read by one consumer.  `tail` and `head` are free-running 64-bit
counters, `data` is the shared buffer, and an index is a masked counter.

`send_some` and `recv_some` are broken into their individual accesses to
shared memory: the two counter loads, one step for every byte of the two
`memcpy` segments, and the counter store that publishes.  What a call has
loaded earlier is kept in its local state and may be stale when it is used.
-/

/-- A `kBufBytes` argument: a power of two that a `size_t` can hold. -/
structure Capacity where
  exponent : Nat
  representable : exponent < 64
  deriving Repr, DecidableEq

namespace Capacity

/-- The number of data cells. -/
def kBufBytes (capacity : Capacity) : Nat := 2 ^ capacity.exponent

/-- `kBufBytes` as the machine word it is in the source. -/
def word (capacity : Capacity) : UInt64 := UInt64.ofNat capacity.kBufBytes

/-- The index mask `kBufBytes - 1`. -/
def kMask (capacity : Capacity) : UInt64 := capacity.word - 1

end Capacity

/-- The capacity of `ShmSegmentRing`, 1 MiB per direction. -/
def Capacity.shmSegmentRing : Capacity where
  exponent := 20
  representable := by decide

/-- The shared fields of one ring; padding is left out. -/
structure ShmRing (capacity : Capacity) where
  tail : UInt64
  closed : UInt8
  head : UInt64
  data : Nat → UInt8

/-- A call in progress either goes on with new locals or returns. -/
inductive CallStep (Locals Result : Type) where
  | running (locals : Locals)
  | returned (result : Result)
  deriving Repr, DecidableEq

/--
One `send_some(buf, len)` between two accesses to shared memory; `len` is the
length of `buf`.
-/
inductive SendSome where
  | loadTail (buf : List UInt8)
  | loadHead (buf : List UInt8) (t : UInt64)
  | copy (buf : List UInt8) (t : UInt64) (n copied : Nat)
  deriving Repr, DecidableEq

/--
One `recv_some(buf, len)` between two accesses to shared memory; the bytes
already copied out are kept in `buf`.
-/
inductive RecvSome where
  | loadTail (len : Nat)
  | loadHead (len : Nat) (t : UInt64)
  | copy (h : UInt64) (n : Nat) (buf : List UInt8)
  deriving Repr, DecidableEq

namespace SendSome

/-- The caller's buffer. -/
def buf : SendSome → List UInt8
  | .loadTail buf => buf
  | .loadHead buf _ => buf
  | .copy buf _ _ _ => buf

end SendSome

namespace ShmRing

variable {capacity : Capacity}

/-- Bytes available to the consumer. -/
def readable (ring : ShmRing capacity) : Nat := (ring.tail - ring.head).toNat

/-- Free space available to the producer. -/
def writable (ring : ShmRing capacity) : Nat := (capacity.word - (ring.tail - ring.head)).toNat

/-- Whether some party has marked the stream as ended. -/
def peerClosed (ring : ShmRing capacity) : Bool := ring.closed != 0

/-- `mark_closed`: store the end-of-stream flag. -/
def markClosed (ring : ShmRing capacity) : ShmRing capacity := { ring with closed := 1 }

/--
The data cell of byte `index` in the two-part copy of `n` bytes that starts at
a counter value: the part up to the end of the buffer, then the part from its
beginning.
-/
def copyCell (capacity : Capacity) (counter : UInt64) (n index : Nat) : Nat :=
  let off := (counter &&& capacity.kMask).toNat
  let first :=
    if capacity.kBufBytes - off < n then capacity.kBufBytes - off else n
  if index < first then off + index else index - first

/-- Store one data byte. -/
def writeCell (ring : ShmRing capacity) (cell : Nat) (byte : UInt8) : ShmRing capacity :=
  { ring with data := fun query => if query = cell then byte else ring.data query }

/-- One access of `send_some` to shared memory. -/
def sendSomeStep (ring : ShmRing capacity) : SendSome → ShmRing capacity × CallStep SendSome Nat
  | .loadTail buf => (ring, .running (.loadHead buf ring.tail))
  | .loadHead buf t =>
    let free := (capacity.word - (t - ring.head)).toNat
    if free = 0 then
      (ring, .returned 0)
    else
      let n := if buf.length < free then buf.length else free
      (ring, .running (.copy buf t n 0))
  | .copy buf t n copied =>
    if copied < n then
      (ring.writeCell (copyCell capacity t n copied) (buf.getD copied 0),
        .running (.copy buf t n (copied + 1)))
    else
      ({ ring with tail := t + UInt64.ofNat n }, .returned n)

/-- One access of `recv_some` to shared memory. -/
def recvSomeStep (ring : ShmRing capacity) :
    RecvSome → ShmRing capacity × CallStep RecvSome (List UInt8)
  | .loadTail len => (ring, .running (.loadHead len ring.tail))
  | .loadHead len t =>
    let avail := (t - ring.head).toNat
    if avail = 0 then
      (ring, .returned [])
    else
      let n := if len < avail then len else avail
      (ring, .running (.copy ring.head n []))
  | .copy h n buf =>
    if buf.length < n then
      (ring, .running (.copy h n (buf ++ [ring.data (copyCell capacity h n buf.length)])))
    else
      ({ ring with head := h + UInt64.ofNat n }, .returned buf)

/--
A data cell holds a byte that has been published and not yet consumed when it
is the masked index of a counter value from `head` on and before `tail`.
-/
def HoldsUnconsumed (ring : ShmRing capacity) (cell : Nat) : Prop :=
  ∃ index,
    index < ring.readable ∧ ((ring.head + UInt64.ofNat index) &&& capacity.kMask).toNat = cell

end ShmRing

/--
One ring with its producer and its consumer; `none` means no call in progress.
`accepted` and `received` are the bytes that `send_some` has accepted and that
`recv_some` has returned.
-/
structure RingSystem (capacity : Capacity) where
  ring : ShmRing capacity
  producer : Option SendSome
  consumer : Option RecvSome
  accepted : List UInt8
  received : List UInt8

/-- The moves of the two parties, and the flag store of a closing party. -/
inductive RingAction where
  | sendSome (buf : List UInt8)
  | producerStep
  | recvSome (len : Nat)
  | consumerStep
  | markClosed
  deriving Repr, DecidableEq

namespace RingSystem

variable {capacity : Capacity}

/--
The ring after `init`, which stores 0 into the counters and the flag and leaves
the data cells as they are, or with any other equal counters.
-/
def initial (capacity : Capacity) (start : UInt64) (data : Nat → UInt8) : RingSystem capacity where
  ring := { tail := start, closed := 0, head := start, data := data }
  producer := none
  consumer := none
  accepted := []
  received := []

/--
The producer's next access, when a `send_some` call is in progress, with the
value that the call returns if the access is its last.
-/
def producerStep? (system : RingSystem capacity) : Option (RingSystem capacity × Option Nat) :=
  match system.producer with
  | none => none
  | some call =>
    match system.ring.sendSomeStep call with
    | (ring, .running next) => some ({ system with ring := ring, producer := some next }, none)
    | (ring, .returned n) =>
      some
        ({ system with
            ring := ring
            producer := none
            accepted := system.accepted ++ call.buf.take n }, some n)

/--
The consumer's next access, when a `recv_some` call is in progress, with the
bytes that the call returns if the access is its last.
-/
def consumerStep? (system : RingSystem capacity) :
    Option (RingSystem capacity × Option (List UInt8)) :=
  match system.consumer with
  | none => none
  | some call =>
    match system.ring.recvSomeStep call with
    | (ring, .running next) => some ({ system with ring := ring, consumer := some next }, none)
    | (ring, .returned bytes) =>
      some
        ({ system with ring := ring, consumer := none, received := system.received ++ bytes },
          some bytes)

/-- Each party starts a call only when it has none in progress. -/
def step? (system : RingSystem capacity) : RingAction → Option (RingSystem capacity)
  | .sendSome buf =>
    if system.producer = none then some { system with producer := some (.loadTail buf) } else none
  | .producerStep => system.producerStep?.map Prod.fst
  | .recvSome len =>
    if system.consumer = none then some { system with consumer := some (.loadTail len) } else none
  | .consumerStep => system.consumerStep?.map Prod.fst
  | .markClosed => some { system with ring := system.ring.markClosed }

/-- The data cell that the producer's next step stores to, if it stores one. -/
def storedCell? (system : RingSystem capacity) : Option Nat :=
  match system.producer with
  | some (.copy _ t n copied) =>
    if copied < n then some (ShmRing.copyCell capacity t n copied) else none
  | _ => none

/-- Everything one producer step can do, with the value it returns if any. -/
inductive ProducerMove
    (system : RingSystem capacity) :
    RingSystem capacity → Option Nat → Prop where
  | loadTail {buf : List UInt8} (inProgress : system.producer = some (.loadTail buf)) :
      ProducerMove system { system with producer := some (.loadHead buf system.ring.tail) } none
  | full {buf : List UInt8} {t : UInt64} (inProgress : system.producer = some (.loadHead buf t))
      (noSpace : (capacity.word - (t - system.ring.head)).toNat = 0) :
      ProducerMove system { system with producer := none } (some 0)
  | loadHead {buf : List UInt8} {t : UInt64} {n : Nat}
      (inProgress : system.producer = some (.loadHead buf t))
      (space : (capacity.word - (t - system.ring.head)).toNat ≠ 0)
      (amount : n = min buf.length (capacity.word - (t - system.ring.head)).toNat) :
      ProducerMove system { system with producer := some (.copy buf t n 0) } none
  | store {buf : List UInt8} {t : UInt64} {n copied : Nat}
      (inProgress : system.producer = some (.copy buf t n copied)) (unfinished : copied < n) :
      ProducerMove system
        { system with
          ring := system.ring.writeCell (ShmRing.copyCell capacity t n copied) (buf.getD copied 0)
          producer := some (.copy buf t n (copied + 1)) }
        none
  | publish {buf : List UInt8} {t : UInt64} {n copied : Nat}
      (inProgress : system.producer = some (.copy buf t n copied)) (finished : n ≤ copied) :
      ProducerMove system
        { system with
          ring := { system.ring with tail := t + UInt64.ofNat n }
          producer := none
          accepted := system.accepted ++ buf.take n }
        (some n)

/-- Everything one consumer step can do, with the bytes it returns if any. -/
inductive ConsumerMove
    (system : RingSystem capacity) :
    RingSystem capacity → Option (List UInt8) → Prop where
  | loadTail {len : Nat} (inProgress : system.consumer = some (.loadTail len)) :
      ConsumerMove system { system with consumer := some (.loadHead len system.ring.tail) } none
  | empty {len : Nat} {t : UInt64} (inProgress : system.consumer = some (.loadHead len t))
      (noData : (t - system.ring.head).toNat = 0) :
      ConsumerMove system { system with consumer := none } (some [])
  | loadHead {len n : Nat} {t : UInt64} (inProgress : system.consumer = some (.loadHead len t))
      (data : (t - system.ring.head).toNat ≠ 0)
      (amount : n = min len (t - system.ring.head).toNat) :
      ConsumerMove system { system with consumer := some (.copy system.ring.head n []) } none
  | fetch {h : UInt64} {n : Nat} {buf : List UInt8}
      (inProgress : system.consumer = some (.copy h n buf)) (unfinished : buf.length < n) :
      ConsumerMove system
        { system with
          consumer :=
            some
              (.copy h n (buf ++ [system.ring.data (ShmRing.copyCell capacity h n buf.length)])) }
        none
  | publish {h : UInt64} {n : Nat} {buf : List UInt8}
      (inProgress : system.consumer = some (.copy h n buf)) (finished : n ≤ buf.length) :
      ConsumerMove system
        { system with
          ring := { system.ring with head := h + UInt64.ofNat n }
          consumer := none
          received := system.received ++ buf }
        (some buf)

/-- Every producer step is one of the listed moves. -/
theorem producerStep?_move {system next : RingSystem capacity} {returned : Option Nat}
    (accepted : system.producerStep? = some (next, returned)) :
    ProducerMove system next returned := by
  revert accepted
  fun_cases producerStep? with rintro ⟨⟩
  | case2 call inProgress ring later stepped =>
    revert stepped
    fun_cases ShmRing.sendSomeStep with rintro ⟨⟩
    | case1 buf => exact .loadTail inProgress
    | case3 buf t free space n => exact .loadHead inProgress space (by dsimp only [n]; split <;> omega)
    | case4 buf t n copied unfinished => exact .store inProgress unfinished
  | case3 call inProgress ring n stepped =>
    revert stepped
    fun_cases ShmRing.sendSomeStep with rintro ⟨⟩
    | case2 buf t free noSpace =>
      rw [List.take_zero, List.append_nil]
      exact .full inProgress noSpace
    | case5 buf t n copied finished => exact .publish inProgress (Nat.le_of_not_lt finished)

/-- Every consumer step is one of the listed moves. -/
theorem consumerStep?_move {system next : RingSystem capacity} {returned : Option (List UInt8)}
    (accepted : system.consumerStep? = some (next, returned)) :
    ConsumerMove system next returned := by
  revert accepted
  fun_cases consumerStep? with rintro ⟨⟩
  | case2 call inProgress ring later stepped =>
    revert stepped
    fun_cases ShmRing.recvSomeStep with rintro ⟨⟩
    | case1 len => exact .loadTail inProgress
    | case3 len t avail data n => exact .loadHead inProgress data (by dsimp only [n]; split <;> omega)
    | case4 h n buf unfinished => exact .fetch inProgress unfinished
  | case3 call inProgress ring bytes stepped =>
    revert stepped
    fun_cases ShmRing.recvSomeStep with rintro ⟨⟩
    | case2 len t avail noData =>
      rw [List.append_nil]
      exact .empty inProgress noData
    | case5 h n buf finished => exact .publish inProgress (Nat.le_of_not_lt finished)

theorem consumerStep?_enabled {system : RingSystem capacity} {call : RecvSome}
    (inProgress : system.consumer = some call) :
    ∃ outcome, system.consumerStep? = some outcome := by
  simp only [consumerStep?, inProgress]
  split <;> exact ⟨_, rfl⟩

end RingSystem

end SocksDirect
