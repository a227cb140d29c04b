import SocksDirect.ShmChannel
import SocksDirect.ShmRingInvariant

namespace SocksDirect.ShmChannel

/-!
# What each party of a direction can do

One inversion lemma per party.  Every invariant of the direction is proved by
cases on these moves and never unfolds the step functions again.  The last part
projects a direction to its ring, so that the ring invariant is available in
every reachable state.
-/

variable {capacity : Capacity}

/-- Everything one step of `shm_send` can do. -/
inductive SenderMove
    (channel : ShmChannel capacity) :
    ShmChannel capacity → Option SendResult → Prop where
  | enter {call : SendCall} {system : RingSystem capacity} (position : channel.sender = .loop call)
      (unfinished : call.total < call.buf.length)
      (started : channel.system.step? (.sendSome (call.buf.drop call.total)) = some system) :
      SenderMove channel { channel with system := system, sender := .inSendSome call } none
  | finish {call : SendCall} (position : channel.sender = .loop call)
      (finished : call.buf.length ≤ call.total) :
      SenderMove channel { channel with sender := .idle } (some (.sent call.total))
  | access {call : SendCall} {system : RingSystem capacity}
      (position : channel.sender = .inSendSome call)
      (move : RingSystem.ProducerMove channel.system system none) :
      SenderMove channel { channel with system := system, sender := .inSendSome call } none
  | published {call : SendCall} {system : RingSystem capacity} {did : Nat}
      (position : channel.sender = .inSendSome call) (positive : 0 < did)
      (move : RingSystem.ProducerMove channel.system system (some did)) :
      SenderMove channel { channel with system := system, sender := .bump call did } none
  | foundFull {call : SendCall} {system : RingSystem capacity}
      (position : channel.sender = .inSendSome call)
      (move : RingSystem.ProducerMove channel.system system (some 0)) :
      SenderMove channel { channel with system := system, sender := .ringFull call } none
  | bump {call : SendCall} {did : Nat} (position : channel.sender = .bump call did) :
      SenderMove channel
        { channel with wakeCount := channel.wakeCount + 1, sender := .wake call did }
        none
  | wake {call : SendCall} {did : Nat} (position : channel.sender = .wake call did) :
      SenderMove channel
        { channel.futexWake with sender := .loop { call with total := call.total + did } }
        none
  | giveUp {call : SendCall} {result : SendResult} (position : channel.sender = .ringFull call)
      (nonblocking : call.nonblock = true)
      (value : result = if call.total > 0 then .sent call.total else .again) :
      SenderMove channel { channel with sender := .idle } (some result)
  | retry {call : SendCall} (position : channel.sender = .ringFull call)
      (blocking : call.nonblock = false) :
      SenderMove channel { channel with sender := .loop call } none

/-- Everything one step of `shm_recv` can do. -/
inductive ReceiverMove
    (channel : ShmChannel capacity) :
    ShmChannel capacity → Option RecvResult → Prop where
  | enter {call : RecvCall} {system : RingSystem capacity}
      (position : channel.receiver = .loop call)
      (started : channel.system.step? (.recvSome call.n) = some system) :
      ReceiverMove channel { channel with system := system, receiver := .inRecvSome call } none
  | access {call : RecvCall} {system : RingSystem capacity}
      (position : channel.receiver = .inRecvSome call)
      (move : RingSystem.ConsumerMove channel.system system none) :
      ReceiverMove channel { channel with system := system, receiver := .inRecvSome call } none
  | data {call : RecvCall} {system : RingSystem capacity} {bytes : List UInt8}
      (position : channel.receiver = .inRecvSome call) (nonempty : bytes ≠ [])
      (move : RingSystem.ConsumerMove channel.system system (some bytes)) :
      ReceiverMove channel { channel with system := system, receiver := .idle } (some (.data bytes))
  | nothing {call : RecvCall} {system : RingSystem capacity}
      (position : channel.receiver = .inRecvSome call)
      (move : RingSystem.ConsumerMove channel.system system (some [])) :
      ReceiverMove channel { channel with system := system, receiver := .testClosed call } none
  | closedSeen {call : RecvCall} (position : channel.receiver = .testClosed call)
      (closed : channel.ring.peerClosed = true) :
      ReceiverMove channel { channel with receiver := .testReadable call } none
  | endOfFile {call : RecvCall} (position : channel.receiver = .testReadable call)
      (drained : channel.ring.readable = 0) :
      ReceiverMove channel { channel with receiver := .idle } (some .zero)
  | giveUp {call : RecvCall}
      (position : channel.receiver = .testClosed call ∧ channel.ring.peerClosed = false ∨
          channel.receiver = .testReadable call ∧ channel.ring.readable ≠ 0)
      (nonblocking : call.nonblock = true) :
      ReceiverMove channel { channel with receiver := .idle } (some .again)
  | block {call : RecvCall}
      (position : channel.receiver = .testClosed call ∧ channel.ring.peerClosed = false ∨
          channel.receiver = .testReadable call ∧ channel.ring.readable ≠ 0)
      (blocking : call.nonblock = false) :
      ReceiverMove channel { channel with receiver := .testHangUp call } none
  | hungUp {call : RecvCall} (position : channel.receiver = .testHangUp call) :
      ReceiverMove channel { channel with receiver := .markClosed call } none
  | spin {call : RecvCall} (position : channel.receiver = .testHangUp call) : ReceiverMove channel
        { channel with receiver := .loop { call with spin := call.spin + 1 } }
        none
  | goQuiet {call : RecvCall} (position : channel.receiver = .testHangUp call) :
      ReceiverMove channel { channel with receiver := .sample call } none
  | markClosed {call : RecvCall} (position : channel.receiver = .markClosed call) :
      ReceiverMove channel
        { channel with
          system := { channel.system with ring := channel.ring.markClosed }
          receiver := .loop call }
        none
  | sample {call : RecvCall} (position : channel.receiver = .sample call) :
      ReceiverMove channel { channel with receiver := .recheckReadable call channel.wakeCount } none
  | dataAgain {call : RecvCall} {w : UInt32}
      (position : channel.receiver = .recheckReadable call w) :
      ReceiverMove channel { channel with receiver := .loop { call with spin := 0 } } none
  | stillEmpty {call : RecvCall} {w : UInt32}
      (position : channel.receiver = .recheckReadable call w)
      (drained : channel.ring.readable = 0) :
      ReceiverMove channel { channel with receiver := .recheckClosed call w } none
  | closedAgain {call : RecvCall} {w : UInt32}
      (position : channel.receiver = .recheckClosed call w) :
      ReceiverMove channel { channel with receiver := .loop { call with spin := 0 } } none
  | stillOpen {call : RecvCall} {w : UInt32} (position : channel.receiver = .recheckClosed call w)
      (isOpen : channel.ring.peerClosed = false) :
      ReceiverMove channel { channel with receiver := .futexWait call w } none
  | park {call : RecvCall} {w : UInt32} (position : channel.receiver = .futexWait call w)
      (unchanged : channel.wakeCount = w) :
      ReceiverMove channel { channel with receiver := .parked call } none
  | missed {call : RecvCall} {w : UInt32} (position : channel.receiver = .futexWait call w) :
      ReceiverMove channel { channel with receiver := .loop { call with spin := 0 } } none

variable {channel next : ShmChannel capacity}

/-- Every step of `shm_send` is one of the listed moves. -/
theorem senderStep?_move {result : Option SendResult}
    (accepted : channel.senderStep? = some (next, result)) :
    SenderMove channel next result := by
  revert accepted
  fun_cases senderStep? with rintro ⟨⟩
  | case3 call position unfinished system started => exact .enter position unfinished started
  | case4 call position finished => exact .finish position (Nat.le_of_not_lt finished)
  | case6 call position system stepped =>
    rw [position]
    exact .access position (RingSystem.producerStep?_move stepped)
  | case7 call position system did stepped positive =>
    exact .published position positive (RingSystem.producerStep?_move stepped)
  | case8 call position system did stepped notPositive =>
    obtain rfl := Nat.eq_zero_of_not_pos notPositive
    exact .foundFull position (RingSystem.producerStep?_move stepped)
  | case9 call did position => exact .bump position
  | case10 call did position => exact .wake position
  | case11 call position nonblocking started =>
    exact .giveUp position nonblocking (if_pos started).symm
  | case12 call position nonblocking notStarted =>
    exact .giveUp position nonblocking (if_neg notStarted).symm
  | case13 call position blocking => exact .retry position (Bool.eq_false_iff.mpr blocking)

/-- What the receiver does after it has found the ring empty. -/
private theorem foundEmpty_move {call : RecvCall}
    {result : Option RecvResult}
    (position : channel.receiver = .testClosed call ∧ channel.ring.peerClosed = false ∨
      channel.receiver = .testReadable call ∧ channel.ring.readable ≠ 0)
    (accepted : channel.foundEmpty call = (next, result)) :
    ReceiverMove channel next result := by
  revert accepted
  fun_cases foundEmpty with rintro ⟨⟩
  | case1 nonblocking => exact .giveUp position nonblocking
  | case2 blocking => exact .block position (Bool.eq_false_iff.mpr blocking)

/-- Every step of `shm_recv` is one of the listed moves. -/
theorem receiverStep?_move {hungUp : Bool}
    {result : Option RecvResult} (accepted : channel.receiverStep? hungUp = some (next, result)) :
    ReceiverMove channel next result := by
  revert accepted
  fun_cases receiverStep? with (intro accepted; try cases accepted)
  | case3 call position system started => exact .enter position started
  | case5 call position system stepped =>
    rw [position]
    exact .access position (RingSystem.consumerStep?_move stepped)
  | case6 call position system bytes stepped nonempty =>
    exact .data position (List.length_pos_iff.mp nonempty) (RingSystem.consumerStep?_move stepped)
  | case7 call position system bytes stepped isEmpty =>
    obtain rfl := List.length_eq_zero_iff.mp (Nat.eq_zero_of_not_pos isEmpty)
    exact .nothing position (RingSystem.consumerStep?_move stepped)
  | case8 call position closed => exact .closedSeen position closed
  | case9 call position notClosed =>
    exact foundEmpty_move (.inl ⟨position, Bool.eq_false_iff.mpr notClosed⟩)
      (Option.some.inj accepted)
  | case10 call position drained => exact .endOfFile position drained
  | case11 call position notDrained =>
    exact foundEmpty_move (.inr ⟨position, notDrained⟩) (Option.some.inj accepted)
  | case12 call position => exact .hungUp position
  | case13 call position => exact .spin position
  | case14 call position => exact .goQuiet position
  | case15 call position => exact .markClosed position
  | case16 call position => exact .sample position
  | case17 call w position => exact .dataAgain position
  | case18 call w position notReadable =>
    exact .stillEmpty position (Nat.eq_zero_of_not_pos notReadable)
  | case19 call w position => exact .closedAgain position
  | case20 call w position notClosed => exact .stillOpen position (Bool.eq_false_iff.mpr notClosed)
  | case21 call position => exact .park position rfl
  | case22 call w position => exact .missed position

/-- Everything one step of a closing party can do. -/
inductive CloserMove
    (channel : ShmChannel capacity) :
    Closer → ShmChannel capacity → Closer → Prop where
  | mark : CloserMove channel .notStarted
        { channel with system := { channel.system with ring := channel.ring.markClosed } }
        .marked
  | bump : CloserMove channel .marked { channel with wakeCount := channel.wakeCount + 1 } .bumped
  | wake : CloserMove channel .bumped channel.futexWake .done

/-- A step of a party that closes the ring is one of its moves. -/
theorem closerStep?_move {position after : Closer}
    (accepted : channel.closerStep? position = some (next, after)) :
    CloserMove channel position next after := by
  cases position <;>
    simp only [closerStep?, Option.some.injEq, Prod.mk.injEq, reduceCtorEq] at accepted
  all_goals obtain ⟨rfl, rfl⟩ := accepted
  · exact .mark
  · exact .bump
  · exact .wake

section FutexWake

variable (channel : ShmChannel capacity)

@[simp] theorem futexWake_system : channel.futexWake.system = channel.system := by
  unfold futexWake
  split <;> rfl

@[simp] theorem futexWake_wakeCount : channel.futexWake.wakeCount = channel.wakeCount := by
  unfold futexWake
  split <;> rfl

@[simp] theorem futexWake_sender : channel.futexWake.sender = channel.sender := by
  unfold futexWake
  split <;> rfl

@[simp] theorem futexWake_senderNonblocking :
    channel.futexWake.senderNonblocking = channel.senderNonblocking := by
  unfold futexWake
  split <;> rfl

@[simp] theorem futexWake_receiverNonblocking : channel.futexWake.receiverNonblocking =
      channel.receiverNonblocking := by
  unfold futexWake
  split <;> rfl

@[simp] theorem futexWake_peerClose : channel.futexWake.peerClose = channel.peerClose := by
  unfold futexWake
  split <;> rfl

@[simp] theorem futexWake_watchdog : channel.futexWake.watchdog = channel.watchdog := by
  unfold futexWake
  split <;> rfl

@[simp] theorem futexWake_returns : channel.futexWake.returns = channel.returns := by
  unfold futexWake
  split <;> rfl

/-- `FUTEX_WAKE` lets a parked receiver go on, and changes no other. -/
theorem futexWake_receiver_cases : channel.futexWake.receiver = channel.receiver ∨ ∃ call,
        channel.receiver = .parked call ∧
          channel.futexWake.receiver = .loop { call with spin := 0 } := by
  unfold futexWake
  split
  · rename_i call position
    exact .inr ⟨call, position, rfl⟩
  · exact .inl rfl

/-- Nobody is parked after `FUTEX_WAKE`. -/
theorem futexWake_not_parked (call : RecvCall) : channel.futexWake.receiver ≠ .parked call := by
  unfold futexWake
  split
  · simp
  · rename_i notParked
    exact fun parked => notParked call parked

end FutexWake

section RingInvariant

variable {start : UInt64} {channel next : ShmChannel capacity}

/-- The sender keeps the invariant of the ring. -/
theorem SenderMove.ringInvariant {result : Option SendResult}
    (move : SenderMove channel next result) (invariant : channel.system.Invariant start) :
    next.system.Invariant start := by
  cases move with
  | enter _ _ started => exact invariant.step started
  | access _ move | published _ _ move | foundFull _ move => exact invariant.producer_move move
  | wake => simpa using invariant
  | _ => exact invariant

/-- The receiver keeps the invariant of the ring. -/
theorem ReceiverMove.ringInvariant {result : Option RecvResult}
    (move : ReceiverMove channel next result) (invariant : channel.system.Invariant start) :
    next.system.Invariant start := by
  cases move with
  | enter _ started => exact invariant.step started
  | access _ move | data _ _ move | nothing _ move => exact invariant.consumer_move move
  | markClosed => exact invariant.markClosed
  | _ => exact invariant

/-- A closing party keeps the invariant of the ring. -/
theorem CloserMove.ringInvariant {position after : Closer}
    (move : CloserMove channel position next after) (invariant : channel.system.Invariant start) :
    next.system.Invariant start := by
  cases move with
  | mark => exact invariant.markClosed
  | bump => exact invariant
  | wake => simpa using invariant

end RingInvariant

/-- Everything one step of the direction can do. -/
inductive Move
    (channel : ShmChannel capacity) :
    ChannelAction → ShmChannel capacity → Prop where
  | sendEmpty {flags : MsgFlags} : Move channel (.send [] flags) channel
  | sendCall {buf : List UInt8} {flags : MsgFlags} (position : channel.sender = .idle)
      (nonempty : buf ≠ []) :
      Move channel (.send buf flags)
        { channel with sender := .loop ⟨buf, channel.senderNonblocking || flags.dontWait, 0⟩ }
  | sender {next : ShmChannel capacity} {result : Option SendResult}
      (move : SenderMove channel next result) :
      Move channel .senderStep next
  | recvAtOnce {n : Nat} {flags : MsgFlags} {result : RecvResult}
      (value : n = 0 ∧ result = .zero ∨ 0 < n ∧ flags.peek = true ∧ result = .notSupported) :
      Move channel (.recv n flags) (channel.record n flags.peek (some result))
  | recvCall {n : Nat} {flags : MsgFlags} (position : channel.receiver = .idle) (positive : 0 < n)
      (noPeek : flags.peek = false) :
      Move channel (.recv n flags)
        { channel with receiver := .loop ⟨n, channel.receiverNonblocking || flags.dontWait, 0⟩ }
  | receiver {hungUp : Bool} {next : ShmChannel capacity} {result : Option RecvResult}
      (enabled : channel.receiverStep? hungUp = some (next, result))
      (move : ReceiverMove channel next result) :
      Move channel (.receiverStep hungUp) (next.record channel.receiver.request false result)
  | futexReturn : Move channel .futexReturn channel.futexWake
  | peerClose {next : ShmChannel capacity} {after : Closer}
      (move : CloserMove channel channel.peerClose next after) :
      Move channel .peerCloseStep { next with peerClose := after }
  | watchdog {next : ShmChannel capacity} {after : Closer}
      (move : CloserMove channel channel.watchdog next after) :
      Move channel .watchdogStep { next with watchdog := after }

/-- Every step of the direction is one of the listed moves. -/
theorem step?_move {action : ChannelAction}
    (accepted : channel.step? action = some next) :
    Move channel action next := by
  cases action with
  | send buf flags =>
    simp only [step?] at accepted
    revert accepted
    fun_cases shmSend? with rintro ⟨⟩
    | case1 isEmpty =>
      obtain rfl := List.length_eq_zero_iff.mp isEmpty
      exact .sendEmpty
    | case2 notEmpty position =>
      exact .sendCall position fun isEmpty => notEmpty (by simp [isEmpty])
  | senderStep =>
    obtain ⟨⟨moved, result⟩, stepped, rfl⟩ := Option.map_eq_some_iff.mp accepted
    exact .sender (senderStep?_move stepped)
  | recv n flags =>
    simp only [step?] at accepted
    revert accepted
    fun_cases shmRecv? with rintro ⟨⟩
    | case1 zero => exact .recvAtOnce (.inl ⟨zero, rfl⟩)
    | case2 nonzero peek => exact .recvAtOnce (.inr ⟨Nat.pos_of_ne_zero nonzero, peek, rfl⟩)
    | case3 nonzero noPeek position =>
      exact .recvCall position (Nat.pos_of_ne_zero nonzero) (Bool.eq_false_iff.mpr noPeek)
  | receiverStep hungUp =>
    obtain ⟨⟨moved, result⟩, stepped, rfl⟩ := Option.map_eq_some_iff.mp accepted
    exact .receiver stepped (receiverStep?_move stepped)
  | futexReturn =>
    simp only [step?] at accepted
    revert accepted
    fun_cases futexReturn? with rintro ⟨⟩
    | case1 => exact .futexReturn
  | peerCloseStep =>
    obtain ⟨⟨moved, after⟩, stepped, rfl⟩ := Option.map_eq_some_iff.mp accepted
    exact .peerClose (closerStep?_move stepped)
  | watchdogStep =>
    obtain ⟨⟨moved, after⟩, stepped, rfl⟩ := Option.map_eq_some_iff.mp accepted
    exact .watchdog (closerStep?_move stepped)

@[simp] theorem record_system (channel : ShmChannel capacity) (n : Nat) (peek : Bool)
    (result : Option RecvResult) : (channel.record n peek result).system = channel.system := by
  cases result <;> rfl

/-- Every party keeps the invariant of the ring. -/
theorem Move.ringInvariant {start : UInt64}
    {action : ChannelAction} (move : Move channel action next)
    (invariant : channel.system.Invariant start) :
    next.system.Invariant start := by
  cases move with
  | sender move | peerClose move | watchdog move => exact move.ringInvariant invariant
  | receiver _ move => simpa using move.ringInvariant invariant
  | futexReturn => simpa using invariant
  | _ => exact invariant

end SocksDirect.ShmChannel
