import SocksDirect.ShmRing

namespace SocksDirect

/-!
# One direction of an upgraded connection

`shm_send` and `shm_recv` of `src/lib/socket_api.cpp` over one ring and its
futex word, with the two other parties that end the stream: the peer's
`ShmSegment::close` and the local `Watchdog::sweep_once` that finds the peer
dead.  Every access to the ring, the closed flag and the wake counter is a step
of its own, so all of them interleave.

`send_mu` and `recv_mu` are modelled by starting a call only when the party is
idle.  The metric counters and the choice between `yield` and `nanosleep` in a
full ring have no influence on the stream and are left out.
-/

/-- The two flag bits that the data path looks at. -/
structure MsgFlags where
  dontWait : Bool
  peek : Bool
  deriving Repr, DecidableEq

/-- What `shm_send` returns: a byte count, or -1 with `EAGAIN`. -/
inductive SendResult where
  | sent (total : Nat)
  | again
  deriving Repr, DecidableEq

/-- What `shm_recv` returns: bytes, 0, or -1 with an error number. -/
inductive RecvResult where
  | data (bytes : List UInt8)
  | zero
  | again
  | notSupported
  deriving Repr, DecidableEq

/-- The locals of one `shm_send` call. -/
structure SendCall where
  buf : List UInt8
  nonblock : Bool
  total : Nat
  deriving Repr, DecidableEq

/-- The locals of one `shm_recv` call. -/
structure RecvCall where
  n : Nat
  nonblock : Bool
  spin : Nat
  deriving Repr, DecidableEq

/-- Where the sending party stands in `shm_send`. -/
inductive Sender where
  | idle
  | loop (call : SendCall)
  | inSendSome (call : SendCall)
  | bump (call : SendCall) (did : Nat)
  | wake (call : SendCall) (did : Nat)
  | ringFull (call : SendCall)
  deriving Repr, DecidableEq

/-- Where the receiving party stands in `shm_recv`. -/
inductive Receiver where
  | idle
  | loop (call : RecvCall)
  | inRecvSome (call : RecvCall)
  | testClosed (call : RecvCall)
  | testReadable (call : RecvCall)
  | testHangUp (call : RecvCall)
  | markClosed (call : RecvCall)
  | sample (call : RecvCall)
  | recheckReadable (call : RecvCall) (w : UInt32)
  | recheckClosed (call : RecvCall) (w : UInt32)
  | futexWait (call : RecvCall) (w : UInt32)
  | parked (call : RecvCall)
  deriving Repr, DecidableEq

/--
Where a party that ends the stream stands: `mark_closed`, `fetch_add` on the
wake counter and `FUTEX_WAKE` are its three steps.
-/
inductive Closer where
  | notStarted
  | marked
  | bumped
  | done
  deriving Repr, DecidableEq

/-- A finished `shm_recv` call: its length, its `MSG_PEEK` bit, its result. -/
structure RecvReturn where
  n : Nat
  peek : Bool
  result : RecvResult
  deriving Repr, DecidableEq

/--
One ring, its wake counter, and the four parties that use them.  `returns` is
the history of finished `shm_recv` calls.
-/
structure ShmChannel (capacity : Capacity) where
  system : RingSystem capacity
  wakeCount : UInt32
  senderNonblocking : Bool
  receiverNonblocking : Bool
  sender : Sender
  receiver : Receiver
  peerClose : Closer
  watchdog : Closer
  returns : List RecvReturn

namespace Receiver

/-- The length argument of the call in progress. -/
def request : Receiver → Nat
  | .idle => 0
  | .loop call => call.n
  | .inRecvSome call => call.n
  | .testClosed call => call.n
  | .testReadable call => call.n
  | .testHangUp call => call.n
  | .markClosed call => call.n
  | .sample call => call.n
  | .recheckReadable call _ => call.n
  | .recheckClosed call _ => call.n
  | .futexWait call _ => call.n
  | .parked call => call.n

end Receiver

namespace ShmChannel

variable {capacity : Capacity}

/-- The shared ring. -/
def ring (channel : ShmChannel capacity) : ShmRing capacity := channel.system.ring

/-- A freshly attached direction; the counters may have any starting value. -/
def initial (capacity : Capacity) (start : UInt64) (data : Nat → UInt8) (wakeCount : UInt32)
    (senderNonblocking receiverNonblocking : Bool) :
    ShmChannel capacity where
  system := RingSystem.initial capacity start data
  wakeCount := wakeCount
  senderNonblocking := senderNonblocking
  receiverNonblocking := receiverNonblocking
  sender := .idle
  receiver := .idle
  peerClose := .notStarted
  watchdog := .notStarted
  returns := []

/-- `FUTEX_WAKE`: a parked receiver returns from `futex_wait`. -/
def futexWake (channel : ShmChannel capacity) : ShmChannel capacity :=
  match channel.receiver with
  | .parked call => { channel with receiver := .loop { call with spin := 0 } }
  | _ => channel

/-- Enter `shm_send`; a zero length returns before the mutex is taken. -/
def shmSend? (channel : ShmChannel capacity) (buf : List UInt8) (flags : MsgFlags) :
    Option (ShmChannel capacity × Option SendResult) :=
  if buf.length = 0 then
    some (channel, some (.sent 0))
  else if channel.sender = .idle then
    let nonblock := channel.senderNonblocking || flags.dontWait
    some ({ channel with sender := .loop ⟨buf, nonblock, 0⟩ }, none)
  else
    none

/-- The sender's next step, with the result if the call returns. -/
def senderStep? (channel : ShmChannel capacity) :
    Option (ShmChannel capacity × Option SendResult) :=
  match channel.sender with
  | .idle => none
  | .loop call =>
    if call.total < call.buf.length then
      match channel.system.step?
          (.sendSome (call.buf.drop call.total)) with
      | none => none
      | some system => some ({ channel with system := system, sender := .inSendSome call }, none)
    else
      some ({ channel with sender := .idle }, some (.sent call.total))
  | .inSendSome call =>
    match channel.system.producerStep? with
    | none => none
    | some (system, none) => some ({ channel with system := system }, none)
    | some (system, some did) =>
      if did > 0 then
        some ({ channel with system := system, sender := .bump call did }, none)
      else
        some ({ channel with system := system, sender := .ringFull call }, none)
  | .bump call did =>
    some ({ channel with wakeCount := channel.wakeCount + 1, sender := .wake call did }, none)
  | .wake call did =>
    some ({ channel.futexWake with sender := .loop { call with total := call.total + did } }, none)
  | .ringFull call =>
    if call.nonblock then
      if call.total > 0 then
        some ({ channel with sender := .idle }, some (.sent call.total))
      else
        some ({ channel with sender := .idle }, some .again)
    else
      some ({ channel with sender := .loop call }, none)

/--
Enter `shm_recv`; a zero length and `MSG_PEEK` return before the mutex is
taken.
-/
def shmRecv? (channel : ShmChannel capacity) (n : Nat) (flags : MsgFlags) :
    Option (ShmChannel capacity × Option RecvResult) :=
  if n = 0 then
    some (channel, some .zero)
  else if flags.peek then
    some (channel, some .notSupported)
  else if channel.receiver = .idle then
    let nonblock := channel.receiverNonblocking || flags.dontWait
    some ({ channel with receiver := .loop ⟨n, nonblock, 0⟩ }, none)
  else
    none

/--
The ring was empty and not at its end: a non-blocking call gives up, a
blocking one goes on to look at the kernel socket.
-/
def foundEmpty (channel : ShmChannel capacity) (call : RecvCall) :
    ShmChannel capacity × Option RecvResult :=
  if call.nonblock then
    ({ channel with receiver := .idle }, some .again)
  else
    ({ channel with receiver := .testHangUp call }, none)

/--
The receiver's next step, with the result if the call returns.  `hungUp` is
the answer of `kernel_fd_hung_up` in case the step is that test.
-/
def receiverStep? (channel : ShmChannel capacity) (hungUp : Bool) :
    Option (ShmChannel capacity × Option RecvResult) :=
  match channel.receiver with
  | .idle => none
  | .loop call =>
    match channel.system.step? (.recvSome call.n) with
    | none => none
    | some system => some ({ channel with system := system, receiver := .inRecvSome call }, none)
  | .inRecvSome call =>
    match channel.system.consumerStep? with
    | none => none
    | some (system, none) => some ({ channel with system := system }, none)
    | some (system, some bytes) =>
      if bytes.length > 0 then
        some ({ channel with system := system, receiver := .idle }, some (.data bytes))
      else
        some ({ channel with system := system, receiver := .testClosed call }, none)
  | .testClosed call =>
    if channel.ring.peerClosed then
      some ({ channel with receiver := .testReadable call }, none)
    else
      some (channel.foundEmpty call)
  | .testReadable call =>
    if channel.ring.readable = 0 then
      some ({ channel with receiver := .idle }, some .zero)
    else
      some (channel.foundEmpty call)
  | .testHangUp call =>
    if hungUp then
      some ({ channel with receiver := .markClosed call }, none)
    else if call.spin < 100 then
      some ({ channel with receiver := .loop { call with spin := call.spin + 1 } }, none)
    else
      some ({ channel with receiver := .sample call }, none)
  | .markClosed call =>
    some
      ({ channel with
          system := { channel.system with ring := channel.ring.markClosed }
          receiver := .loop call }, none)
  | .sample call =>
    some ({ channel with receiver := .recheckReadable call channel.wakeCount }, none)
  | .recheckReadable call w =>
    if channel.ring.readable > 0 then
      some ({ channel with receiver := .loop { call with spin := 0 } }, none)
    else
      some ({ channel with receiver := .recheckClosed call w }, none)
  | .recheckClosed call w =>
    if channel.ring.peerClosed then
      some ({ channel with receiver := .loop { call with spin := 0 } }, none)
    else
      some ({ channel with receiver := .futexWait call w }, none)
  | .futexWait call w =>
    if channel.wakeCount = w then
      some ({ channel with receiver := .parked call }, none)
    else
      some ({ channel with receiver := .loop { call with spin := 0 } }, none)
  | .parked _ => none

/--
The next step of a closing party, given where it stands: the flag store, the
counter bump, the wake-up call.
-/
def closerStep? (channel : ShmChannel capacity) : Closer → Option (ShmChannel capacity × Closer)
  | .notStarted =>
    some
      ({ channel with system := { channel.system with ring := channel.ring.markClosed } }, .marked)
  | .marked => some ({ channel with wakeCount := channel.wakeCount + 1 }, .bumped)
  | .bumped => some (channel.futexWake, .done)
  | .done => none

/-- A step of the peer's `ShmSegment::close` on this direction. -/
def peerCloseStep? (channel : ShmChannel capacity) : Option (ShmChannel capacity) :=
  (channel.closerStep? channel.peerClose).map
    fun (next, position) => { next with peerClose := position }

/-- A step of the watchdog sweep that found the peer dead. -/
def watchdogStep? (channel : ShmChannel capacity) : Option (ShmChannel capacity) :=
  (channel.closerStep? channel.watchdog).map
    fun (next, position) => { next with watchdog := position }

/-- A parked `futex_wait` returns by itself: time-out, signal or spuriously. -/
def futexReturn? (channel : ShmChannel capacity) : Option (ShmChannel capacity) :=
  match channel.receiver with
  | .parked _ => some channel.futexWake
  | _ => none

end ShmChannel

/-- The moves of the parties on one direction. -/
inductive ChannelAction where
  | send (buf : List UInt8) (flags : MsgFlags)
  | senderStep
  | recv (n : Nat) (flags : MsgFlags)
  | receiverStep (hungUp : Bool)
  | futexReturn
  | peerCloseStep
  | watchdogStep
  deriving Repr, DecidableEq

namespace ShmChannel

variable {capacity : Capacity}

/-- Record a finished `shm_recv` call. -/
def record (channel : ShmChannel capacity) (n : Nat) (peek : Bool) :
    Option RecvResult → ShmChannel capacity
  | none => channel
  | some result => { channel with returns := channel.returns ++ [⟨n, peek, result⟩] }

/-- One step of any party. -/
def step? (channel : ShmChannel capacity) : ChannelAction → Option (ShmChannel capacity)
  | .send buf flags => (channel.shmSend? buf flags).map Prod.fst
  | .senderStep => channel.senderStep?.map Prod.fst
  | .recv n flags =>
    (channel.shmRecv? n flags).map fun (next, result) => next.record n flags.peek result
  | .receiverStep hungUp =>
    (channel.receiverStep? hungUp).map
      fun (next, result) =>
        next.record channel.receiver.request false result
  | .futexReturn => channel.futexReturn?
  | .peerCloseStep => channel.peerCloseStep?
  | .watchdogStep => channel.watchdogStep?

end ShmChannel

end SocksDirect
