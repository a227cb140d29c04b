import SocksDirect.ShmChannel

namespace SocksDirect

/-!
# The data calls on an upgraded connection

The hooks `send`, `write`, `sendto`, `sendmsg` and `recv`, `read`, `recvfrom`,
`recvmsg` of `src/lib/socket_api.cpp`, for one direction of a connection whose
two ends are both upgraded.  The lookup in the connection registry then succeeds
in every hook that makes one.  `sendto` and `recvfrom` make none and go to the
kernel socket, which is a queue of bytes of its own.

One thread sends and one thread receives; they and the closing parties
interleave.  `sent` and `received` collect the bytes that the send calls have
taken over and that the receive calls have returned.
-/

/-- The loop of `sendmsg` over its buffers. -/
structure SendmsgCall where
  iov : List (List UInt8)
  iovLen : Nat
  total : Nat
  flags : MsgFlags
  deriving Repr, DecidableEq

/-- The loop of `recvmsg` over its buffers; `filled` is what they contain. -/
structure RecvmsgCall where
  iov : List Nat
  iovLen : Nat
  filled : List UInt8
  flags : MsgFlags
  deriving Repr, DecidableEq

/-- One direction of an upgraded connection under all data calls. -/
structure SocketStream (capacity : Capacity) where
  channel : ShmChannel capacity
  kernel : List UInt8
  sendmsg : Option SendmsgCall
  recvmsg : Option RecvmsgCall
  recvfrom : Option Nat
  sent : List UInt8
  received : List UInt8

/-- The hooks that send; `taken` is how many bytes the kernel takes. -/
inductive SendHook where
  | send (buf : List UInt8) (flags : MsgFlags)
  | write (buf : List UInt8)
  | sendto (buf : List UInt8) (taken : Nat)
  | sendmsg (iov : List (List UInt8)) (controllen : Nat) (flags : MsgFlags)
  deriving Repr, DecidableEq

/--
The hooks that receive.  `dontWait` says that the kernel does not block the
call, because of `MSG_DONTWAIT` or of `O_NONBLOCK`.
-/
inductive RecvHook where
  | recv (n : Nat) (flags : MsgFlags)
  | read (n : Nat)
  | recvfrom (n : Nat) (dontWait : Bool)
  | recvmsg (iov : List Nat) (flags : MsgFlags)
  deriving Repr, DecidableEq

/-- The moves of the two threads and of the parties that end the stream. -/
inductive StreamAction where
  | sendHook (hook : SendHook)
  | senderStep
  | recvHook (hook : RecvHook)
  | receiverStep (hungUp : Bool)
  | futexReturn
  | peerCloseStep
  | watchdogStep
  deriving Repr, DecidableEq

/-- The bytes that an `shm_recv` call returns. -/
def RecvResult.bytes : RecvResult → List UInt8
  | .data bytes => bytes
  | _ => []

/-- What `sendmsg` does when `shm_send` returns; `none` when it returns too. -/
def SendmsgCall.afterSend (call : SendmsgCall) : SendResult → Option SendmsgCall
  | .again => none
  | .sent r =>
    if r < call.iovLen then none else some { call with total := call.total + r }

/--
What `recvmsg` does when `shm_recv` returns: the rest of the call, or the bytes
that it returns.
-/
def RecvmsgCall.afterRecv (call : RecvmsgCall) : RecvResult → Option RecvmsgCall × List UInt8
  | .data bytes =>
    if bytes.length < call.iovLen then
      (none, call.filled ++ bytes)
    else
      (some { call with filled := call.filled ++ bytes }, [])
  | .zero => (none, call.filled)
  | .again => (none, call.filled)
  | .notSupported => (none, call.filled)

namespace SocketStream

variable {capacity : Capacity}

/-- A freshly upgraded direction with nothing in the kernel socket. -/
def initial (capacity : Capacity) (start : UInt64) (data : Nat → UInt8) (wakeCount : UInt32)
    (senderNonblocking receiverNonblocking : Bool) :
    SocketStream capacity where
  channel := .initial capacity start data wakeCount senderNonblocking receiverNonblocking
  kernel := []
  sendmsg := none
  recvmsg := none
  recvfrom := none
  sent := []
  received := []

/-- The sending thread has no call in progress. -/
def SenderIdle (stream : SocketStream capacity) : Prop :=
  stream.channel.sender = .idle ∧ stream.sendmsg = none

/-- The receiving thread has no call in progress. -/
def ReceiverIdle (stream : SocketStream capacity) : Prop :=
  stream.channel.receiver = .idle ∧ stream.recvmsg = none ∧ stream.recvfrom = none

instance (stream : SocketStream capacity) : Decidable stream.SenderIdle :=
  inferInstanceAs (Decidable (_ ∧ _))

instance (stream : SocketStream capacity) : Decidable stream.ReceiverIdle :=
  inferInstanceAs (Decidable (_ ∧ _))

/-- The ring has moved on; what it accepted counts as sent. -/
def withChannel (stream : SocketStream capacity)
    (channel : ShmChannel capacity) : SocketStream capacity :=
  { stream with
    channel := channel
    sent := stream.sent ++ channel.system.accepted.drop stream.channel.system.accepted.length }

/-- The kernel socket hands out up to `n` bytes. -/
def kernelReceive (stream : SocketStream capacity) (n : Nat) : SocketStream capacity :=
  { stream with
    kernel := stream.kernel.drop n
    recvfrom := none
    received := stream.received ++ stream.kernel.take n }

/-- Enter a hook that sends. -/
def sendHook? (stream : SocketStream capacity) (hook : SendHook) : Option (SocketStream capacity) :=
  if stream.SenderIdle then
    match hook with
    | .send buf flags =>
      (stream.channel.shmSend? buf flags).map fun (channel, _) => stream.withChannel channel
    | .write buf =>
      (stream.channel.shmSend? buf ⟨false, false⟩).map
        fun (channel, _) => stream.withChannel channel
    | .sendto buf taken =>
      some
        { stream with
          kernel := stream.kernel ++ buf.take taken
          sent := stream.sent ++ buf.take taken }
    | .sendmsg iov controllen flags =>
      if controllen > 0 then
        some stream
      else
        some { stream with sendmsg := some ⟨iov, 0, 0, flags⟩ }
  else
    none

/-- The sending thread's next step. -/
def senderStep? (stream : SocketStream capacity) : Option (SocketStream capacity) :=
  match stream.sendmsg with
  | none => stream.channel.senderStep?.map fun (channel, _) => stream.withChannel channel
  | some call =>
    if stream.channel.sender = .idle then
      match call.iov with
      | [] => some { stream with sendmsg := none }
      | buf :: rest =>
        if buf.length = 0 then
          some { stream with sendmsg := some { call with iov := rest } }
        else
          (stream.channel.shmSend? buf call.flags).map
            fun (channel, _) =>
              { stream.withChannel channel with
                sendmsg := some { call with iov := rest, iovLen := buf.length } }
    else
      stream.channel.senderStep?.map
        fun (channel, result) =>
          { stream.withChannel channel with
            sendmsg :=
              match result with
              | none => some call
              | some result => call.afterSend result }

/-- A receive call has returned what `shm_recv` returned. -/
def returnRecv (stream : SocketStream capacity) (channel : ShmChannel capacity)
    (result : Option RecvResult) : SocketStream capacity :=
  { stream with
    channel := channel
    received :=
      match result with
      | none => stream.received
      | some result => stream.received ++ result.bytes }

/-- `recvmsg` goes on with what `shm_recv` returned, if it has returned. -/
def continueRecvmsg (stream : SocketStream capacity) (call : RecvmsgCall)
    (channel : ShmChannel capacity) :
    Option RecvResult → SocketStream capacity
  | none => { stream with channel := channel, recvmsg := some call }
  | some result =>
    let (rest, returned) := call.afterRecv result
    { stream with channel := channel, recvmsg := rest, received := stream.received ++ returned }

/-- Enter a hook that receives. -/
def recvHook? (stream : SocketStream capacity) (hook : RecvHook) : Option (SocketStream capacity) :=
  if stream.ReceiverIdle then
    match hook with
    | .recv n flags =>
      (stream.channel.shmRecv? n flags).map
        fun (channel, result) => stream.returnRecv (channel.record n flags.peek result) result
    | .read n =>
      (stream.channel.shmRecv? n ⟨false, false⟩).map
        fun (channel, result) => stream.returnRecv (channel.record n false result) result
    | .recvfrom n dontWait =>
      if stream.kernel ≠ [] then
        some (stream.kernelReceive n)
      else if n = 0 ∨ dontWait then some stream else some { stream with recvfrom := some n }
    | .recvmsg iov flags => some { stream with recvmsg := some ⟨iov, 0, [], flags⟩ }
  else
    none

/-- The receiving thread's next step. -/
def receiverStep? (stream : SocketStream capacity)
    (hungUp : Bool) : Option (SocketStream capacity) :=
  match stream.recvfrom, stream.recvmsg with
  | some n, _ => if stream.kernel = [] then none else some (stream.kernelReceive n)
  | none, none =>
    (stream.channel.receiverStep? hungUp).map
      fun (channel, result) =>
        stream.returnRecv (channel.record stream.channel.receiver.request false result) result
  | none, some call =>
    if stream.channel.receiver = .idle then
      match call.iov with
      | [] => some { stream with recvmsg := none, received := stream.received ++ call.filled }
      | len :: rest =>
        if len = 0 then
          some { stream with recvmsg := some { call with iov := rest } }
        else
          (stream.channel.shmRecv? len call.flags).map
            fun (channel, result) =>
              stream.continueRecvmsg
                { call with iov := rest, iovLen := len }
                (channel.record len call.flags.peek result) result
    else
      (stream.channel.receiverStep? hungUp).map
        fun (channel, result) =>
          stream.continueRecvmsg call
            (channel.record stream.channel.receiver.request false result)
            result

/-- One step of any party. -/
def step? (stream : SocketStream capacity) : StreamAction → Option (SocketStream capacity)
  | .sendHook hook => stream.sendHook? hook
  | .senderStep => stream.senderStep?
  | .recvHook hook => stream.recvHook? hook
  | .receiverStep hungUp => stream.receiverStep? hungUp
  | .futexReturn => (stream.channel.step? .futexReturn).map stream.withChannel
  | .peerCloseStep => (stream.channel.step? .peerCloseStep).map stream.withChannel
  | .watchdogStep => (stream.channel.step? .watchdogStep).map stream.withChannel

/-- The bytes that a `recvmsg` call in progress has put into its buffers. -/
def held (stream : SocketStream capacity) : List UInt8 :=
  (stream.recvmsg.map RecvmsgCall.filled).getD []

/-- The length of the buffer at which `recvmsg` looks next. -/
def nextBuffer? (stream : SocketStream capacity) : Option Nat :=
  stream.recvmsg.bind fun call => call.iov.head?

/-- The receiving thread sleeps in a receive call. -/
def Waiting (stream : SocketStream capacity) : Prop :=
  (∃ call, stream.channel.receiver = .parked call) ∨ stream.recvfrom ≠ none

end SocketStream

end SocksDirect
