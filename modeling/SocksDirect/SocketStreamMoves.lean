import SocksDirect.ShmEndOfFile
import SocksDirect.SocketStream

namespace SocksDirect

/-!
# What a step of the data calls can do

Every step of the data calls that stays off the kernel socket is a step of the
ring's direction, or it only moves the bookkeeping of `sendmsg` and `recvmsg`.
The bytes that the receive calls have returned, together with those that a
`recvmsg` in progress holds, grow exactly by what the ring hands out.
-/

namespace StreamAction

/-- The action is not one of the two hooks that go to the kernel socket. -/
def OnRing : StreamAction → Prop
  | .sendHook (.sendto _ _) => False
  | .recvHook (.recvfrom _ _) => False
  | _ => True

instance (action : StreamAction) : Decidable action.OnRing := by
  unfold OnRing
  split <;> infer_instance

end StreamAction

namespace ShmChannel

variable {capacity : Capacity} {channel next : ShmChannel capacity}

/-- A step of `shm_recv` takes from the ring exactly what it returns. -/
theorem ReceiverMove.received {result : Option RecvResult}
    (move : ReceiverMove channel next result) :
    next.system.received = channel.system.received ++ (result.map RecvResult.bytes).getD [] ∧
      next.system.accepted = channel.system.accepted := by
  cases move with
  | enter position started =>
    simp only [RingSystem.step?] at started
    split at started
    · cases started
      simp
    · cases started
  | access position move | nothing position move =>
    obtain ⟨received, accepted, _, _⟩ := consumerMove_received move
    simp [received, accepted]
  | data position nonempty move =>
    obtain ⟨received, accepted, _, _⟩ := consumerMove_received move
    simp [received, accepted, RecvResult.bytes]
  | _ => simp [RecvResult.bytes]

theorem ReceiverMove.idle_of_returned {result : RecvResult}
    (move : ReceiverMove channel next (some result)) :
    next.receiver = .idle := by
  cases move <;> rfl

private theorem producerMove_appends {system moved : RingSystem capacity} {returned : Option Nat}
    (move : RingSystem.ProducerMove system moved returned) :
    ∃ more, moved.accepted = system.accepted ++ more := by
  cases move with
  | publish inProgress finished => exact ⟨_, rfl⟩
  | _ => exact ⟨[], by simp⟩

private theorem CloserMove.accepted {position after : Closer}
    (move : CloserMove channel position next after) :
    next.system.accepted = channel.system.accepted := by
  cases move <;> simp

theorem SenderMove.accepted {result : Option SendResult} (move : SenderMove channel next result) :
    ∃ more, next.system.accepted = channel.system.accepted ++ more := by
  cases move with
  | enter position unfinished started =>
    simp only [RingSystem.step?] at started
    split at started
    · cases started
      exact ⟨[], by simp⟩
    · cases started
  | access position move | foundFull position move
  | published position positive move => exact producerMove_appends move
  | _ => exact ⟨[], by simp⟩

/-- The label is a move of the receiving party. -/
def ChannelReceives : ChannelAction → Prop
  | .recv _ _ => True
  | .receiverStep _ => True
  | _ => False

theorem otherParty_of_step {label : ChannelAction} (other : ¬ ChannelReceives label)
    (stepped : channel.step? label = some next) :
    OtherParty channel next ∧ ∃ more, next.system.accepted = channel.system.accepted ++ more := by
  cases step?_move stepped with
  | sendEmpty | sendCall => exact ⟨⟨rfl, rfl, rfl, id, .inl rfl⟩, [], by simp⟩
  | sender move => exact ⟨move.otherParty, move.accepted⟩
  | recvAtOnce value | recvCall position positive noPeek
  | receiver enabled move => exact absurd trivial other
  | futexReturn =>
    refine ⟨futexWake_otherParty ?_ ?_ rfl, [], ?_⟩
    all_goals simp
  | peerClose move | watchdog move =>
    refine ⟨move.otherParty rfl rfl rfl, [], ?_⟩
    simpa using move.accepted

end ShmChannel

namespace SocketStream

variable {capacity : Capacity}

/-- The receiver's position after a step of the receiving thread. -/
inductive ReceiverPosition
    (stream next : SocketStream capacity)
    (action : StreamAction) : Prop where
  | idle (position : next.channel.receiver = .idle)
  | entered {call : RecvCall} (wasIdle : stream.channel.receiver = .idle)
      (position : next.channel.receiver = .loop call) (positive : 0 < call.n)
      (ring : next.channel.ring = stream.channel.ring)
      (reason : next.held = [] ∨ next.held = stream.held ∧
            (∃ hungUp, action = .receiverStep hungUp) ∧ stream.nextBuffer? = some call.n)
  | running (move : stream.channel.ReceiverMove next.channel none) (held : next.held = stream.held)

/-- Everything one step of the data calls can do. -/
inductive StreamMove
    (stream next : SocketStream capacity)
    (action : StreamAction) : Prop where
  | kernel (channel : next.channel = stream.channel)
      (offRing : ¬ action.OnRing ∨ stream.recvfrom ≠ none)
  | bookkeeping (channel : next.channel = stream.channel) (sent : next.sent = stream.sent)
      (recvfrom : next.recvfrom = stream.recvfrom)
      (bytes : next.received ++ next.held = stream.received ++ stream.held)
      (held : next.held = [] ∨ next.held = stream.held)
  | otherParty {label : ChannelAction} (stepped : stream.channel.step? label = some next.channel)
      (other : ¬ ShmChannel.ChannelReceives label)
      (sent : next.sent = stream.sent ++
            next.channel.system.accepted.drop stream.channel.system.accepted.length)
      (recvfrom : next.recvfrom = stream.recvfrom) (received : next.received = stream.received)
      (held : next.held = stream.held)
  | receiver {label : ChannelAction} {more : List UInt8}
      (stepped : stream.channel.step? label = some next.channel)
      (ring : next.channel.system.received = stream.channel.system.received ++ more)
      (accepted : next.channel.system.accepted = stream.channel.system.accepted)
      (sent : next.sent = stream.sent) (recvfrom : next.recvfrom = stream.recvfrom)
      (bytes : next.received ++ next.held = stream.received ++ stream.held ++ more)
      (position : ReceiverPosition stream next action)

section Inversion

variable {stream next : SocketStream capacity}
variable {channel moved : ShmChannel capacity} {flags : MsgFlags}

private theorem step_of_shmSend {buf : List UInt8} {result : Option SendResult}
    (entered : channel.shmSend? buf flags = some (moved, result)) :
    channel.step? (.send buf flags) = some moved := by
  simp [ShmChannel.step?, entered]

private theorem step_of_senderStep {result : Option SendResult}
    (stepped : channel.senderStep? = some (moved, result)) :
    channel.step? .senderStep = some moved := by
  simp [ShmChannel.step?, stepped]

variable {result : Option RecvResult} {hungUp : Bool}

private theorem step_of_receiverStep (stepped : channel.receiverStep? hungUp = some (moved, result)) :
    channel.step? (.receiverStep hungUp) =
      some (moved.record channel.receiver.request false result) := by
  simp [ShmChannel.step?, stepped]

private theorem step_of_shmRecv {n : Nat}
    (entered : channel.shmRecv? n flags = some (moved, result)) :
    channel.step? (.recv n flags) = some (moved.record n flags.peek result) := by
  simp [ShmChannel.step?, entered]

private theorem shmRecv?_cases {n : Nat} (entered : channel.shmRecv? n flags = some (moved, result)) :
    (∃ value, result = some value ∧ value.bytes = [] ∧ moved = channel) ∨ ∃ call, result = none ∧
          channel.receiver = .idle ∧ 0 < n ∧ call.n = n ∧
          moved = { channel with receiver := .loop call } := by
  revert entered
  fun_cases ShmChannel.shmRecv? with rintro ⟨⟩
  | case1 | case2 => exact .inl ⟨_, rfl, rfl, rfl⟩
  | case3 nonzero noPeek idle => exact .inr ⟨_, rfl, idle, Nat.pos_of_ne_zero nonzero, rfl, rfl⟩

variable {action : StreamAction}

private theorem StreamMove.of_withChannel {label : ChannelAction} {sendmsg : Option SendmsgCall}
    (stepped : stream.channel.step? label = some channel)
    (other : ¬ ShmChannel.ChannelReceives label) :
    StreamMove stream
      { stream.withChannel channel with sendmsg := sendmsg }
      action :=
  .otherParty stepped other rfl rfl rfl rfl

/-- What a hook that sends can do. -/
private theorem sendHook?_move {hook : SendHook} (stepped : stream.sendHook? hook = some next) :
    StreamMove stream next (.sendHook hook) := by
  revert stepped
  fun_cases sendHook? with (intro stepped; try cases stepped)
  | case1 | case2 =>
    obtain ⟨⟨channel, result⟩, entered, rfl⟩ := Option.map_eq_some_iff.mp stepped
    exact .of_withChannel (step_of_shmSend entered) id
  | case3 => exact .kernel rfl (.inl id)
  | case4 | case5 => exact .bookkeeping rfl rfl rfl rfl (.inr rfl)

private theorem senderStep?_move (stepped : stream.senderStep? = some next) :
    StreamMove stream next .senderStep := by
  revert stepped
  fun_cases senderStep? with (intro stepped; try cases stepped)
  | case1 | case5 =>
    obtain ⟨⟨channel, result⟩, moved, rfl⟩ := Option.map_eq_some_iff.mp stepped
    exact .of_withChannel (step_of_senderStep moved) id
  | case2 | case3 => exact .bookkeeping rfl rfl rfl rfl (.inr rfl)
  | case4 =>
    obtain ⟨⟨channel, result⟩, entered, rfl⟩ := Option.map_eq_some_iff.mp stepped
    exact .of_withChannel (step_of_shmSend entered) id

private theorem recvCall_move {n : Nat} (idle : stream.ReceiverIdle)
    (entered : stream.channel.shmRecv? n flags = some (channel, result)) :
    StreamMove stream
      (stream.returnRecv (channel.record n flags.peek result) result)
      action := by
  obtain ⟨receiverIdle, noRecvmsg, -⟩ := idle
  have nothingHeld : stream.held = [] := by simp [held, noRecvmsg]
  have stepped := step_of_shmRecv entered
  rcases shmRecv?_cases entered with ⟨value, rfl, noBytes, rfl⟩ | ⟨call, rfl, -, positive, rfl, rfl⟩
  · refine .receiver stepped (List.append_nil _).symm rfl rfl rfl ?_ (.idle receiverIdle)
    simp [returnRecv, noBytes, held]
  · refine .receiver stepped (List.append_nil _).symm rfl rfl rfl ?_
      (.entered receiverIdle rfl positive rfl (.inl nothingHeld))
    simp [returnRecv, held]

/-- What a hook that receives can do. -/
private theorem recvHook?_move {hook : RecvHook} (stepped : stream.recvHook? hook = some next) :
    StreamMove stream next (.recvHook hook) := by
  revert stepped
  fun_cases recvHook? with (intro stepped; try cases stepped)
  | case1 idle | case2 idle =>
    obtain ⟨⟨channel, result⟩, entered, rfl⟩ := Option.map_eq_some_iff.mp stepped
    exact recvCall_move idle entered
  | case3 | case4 | case5 => exact .kernel rfl (.inl id)
  | case6 idle =>
    refine .bookkeeping rfl rfl rfl ?_ (.inl rfl)
    simp [held, idle.2.1]

private theorem recvStep_move (noRecvmsg : stream.recvmsg = none)
    (moved : stream.channel.receiverStep? hungUp = some (channel, result)) :
    StreamMove stream
      (stream.returnRecv (channel.record stream.channel.receiver.request false result) result)
      (.receiverStep hungUp) := by
  have stepped := step_of_receiverStep moved
  have move := ShmChannel.receiverStep?_move moved
  obtain ⟨received, accepted⟩ := move.received
  cases result with
  | none =>
    refine .receiver stepped received accepted rfl rfl ?_ (.running move rfl)
    simp [returnRecv, held]
  | some value =>
    refine .receiver stepped received accepted rfl rfl ?_ (.idle move.idle_of_returned)
    simp [returnRecv, held, noRecvmsg]

private theorem afterRecv_bytes (call : RecvmsgCall) (result : RecvResult) :
    (call.afterRecv result).2 ++
      ((call.afterRecv result).1.map RecvmsgCall.filled).getD [] = call.filled ++ result.bytes := by
  cases result with
  | data bytes =>
    simp only [RecvmsgCall.afterRecv, RecvResult.bytes]
    split <;> simp
  | _ => simp [RecvmsgCall.afterRecv, RecvResult.bytes]

/-- A step of `shm_recv` inside `recvmsg`. -/
private theorem recvmsgStep_move {call : RecvmsgCall} (inRecvmsg : stream.recvmsg = some call)
    (moved : stream.channel.receiverStep? hungUp = some (channel, result)) :
    StreamMove stream
      (stream.continueRecvmsg call
      (channel.record stream.channel.receiver.request false result)
      result)
      (.receiverStep hungUp) := by
  have stepped := step_of_receiverStep moved
  have move := ShmChannel.receiverStep?_move moved
  obtain ⟨received, accepted⟩ := move.received
  cases result with
  | none =>
    have held : (stream.continueRecvmsg call
          (channel.record stream.channel.receiver.request false none)
          none).held = stream.held := by
      simp [held, continueRecvmsg, inRecvmsg]
    refine .receiver stepped received accepted rfl rfl ?_ (.running move held)
    rw [held]
    simp [continueRecvmsg]
  | some value =>
    refine .receiver stepped received accepted rfl rfl ?_ (.idle move.idle_of_returned)
    have bytes := afterRecv_bytes call value
    simp only [continueRecvmsg, held, inRecvmsg, List.append_assoc,
      Option.map_some, Option.getD_some]
    rw [bytes]

/-- `recvmsg` enters `shm_recv` for its next buffer. -/
private theorem recvmsgEnter_move {call : RecvmsgCall} {len : Nat} {rest : List Nat}
    (idle : stream.channel.receiver = .idle) (inRecvmsg : stream.recvmsg = some call)
    (buffers : call.iov = len :: rest)
    (entered : stream.channel.shmRecv? len call.flags = some (channel, result)) :
    StreamMove stream
      (stream.continueRecvmsg { call with iov := rest, iovLen := len }
      (channel.record len call.flags.peek result) result)
      (.receiverStep hungUp) := by
  have stepped := step_of_shmRecv entered
  rcases shmRecv?_cases entered with
    ⟨value, rfl, noBytes, rfl⟩ | ⟨started, rfl, -, positive, rfl, rfl⟩
  · refine .receiver stepped (List.append_nil _).symm rfl rfl rfl ?_ (.idle idle)
    have bytes := afterRecv_bytes { call with iov := rest, iovLen := len } value
    rw [noBytes] at bytes
    simp only [continueRecvmsg, held, inRecvmsg, List.append_assoc]
    rw [bytes]
    rfl
  · have held : (stream.continueRecvmsg
          { call with iov := rest, iovLen := started.n }
          (({ stream.channel with receiver := .loop started } : ShmChannel capacity).record
            started.n call.flags.peek none)
          none).held = stream.held := by
      simp [held, continueRecvmsg, inRecvmsg]
    refine .receiver stepped (List.append_nil _).symm rfl rfl rfl ?_
      (.entered idle rfl positive rfl (.inr ⟨held, ⟨hungUp, rfl⟩, ?_⟩))
    · rw [held]
      simp [continueRecvmsg]
    · simp [nextBuffer?, inRecvmsg, buffers]

/-- What the receiving thread can do. -/
private theorem receiverStep?_move (stepped : stream.receiverStep? hungUp = some next) :
    StreamMove stream next (.receiverStep hungUp) := by
  revert stepped
  fun_cases receiverStep? with (intro stepped; try cases stepped)
  | case2 n inKernel => exact .kernel rfl (.inr (by simp [inKernel]))
  | case3 noRecvmsg =>
    obtain ⟨⟨channel, result⟩, moved, rfl⟩ := Option.map_eq_some_iff.mp stepped
    exact recvStep_move noRecvmsg moved
  | case4 call inRecvmsg =>
    refine .bookkeeping rfl rfl rfl ?_ (.inl rfl)
    simp [held, inRecvmsg]
  | case5 call inRecvmsg _ idle rest =>
    have held : { stream with recvmsg := some { call with iov := rest } }.held = stream.held := by
      simp [held, inRecvmsg]
    exact .bookkeeping rfl rfl rfl (by rw [held]) (.inr held)
  | case6 call inRecvmsg _ idle len rest buffers =>
    obtain ⟨⟨channel, result⟩, entered, rfl⟩ := Option.map_eq_some_iff.mp stepped
    exact recvmsgEnter_move idle inRecvmsg buffers entered
  | case7 call inRecvmsg =>
    obtain ⟨⟨channel, result⟩, moved, rfl⟩ := Option.map_eq_some_iff.mp stepped
    exact recvmsgStep_move inRecvmsg moved

theorem step?_move (stepped : stream.step? action = some next) : StreamMove stream next action := by
  cases action with
  | sendHook hook => exact sendHook?_move stepped
  | senderStep => exact senderStep?_move stepped
  | recvHook hook => exact recvHook?_move stepped
  | receiverStep hungUp => exact receiverStep?_move stepped
  | futexReturn | peerCloseStep | watchdogStep =>
    obtain ⟨channel, moved, rfl⟩ := Option.map_eq_some_iff.mp stepped
    exact .of_withChannel moved id

end Inversion

end SocketStream

end SocksDirect
