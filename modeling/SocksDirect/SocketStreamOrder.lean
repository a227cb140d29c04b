import SocksDirect.MachineRun
import SocksDirect.ShmWakeup
import SocksDirect.SocketStreamMoves

namespace SocksDirect

open Machine

/-!
# One stream under all data calls

As long as no `sendto` and no `recvfrom` takes the kernel socket, the bytes that
the receive calls return are the bytes of the ring, and the ring keeps them in
order.  A receive call sleeps only when everything that was sent has been taken
from the ring.

`recvmsg` calls `shm_recv` once for each of its buffers and so may sleep with
bytes in the buffers before the current one.
-/

namespace RingSystem

variable {capacity : Capacity}

/-- The `recv_some` call in progress is going to return bytes. -/
def WillReturnData (start : UInt64) (system : RingSystem capacity) : Prop :=
  match system.consumer with
  | none => False
  | some (.loadTail len) => 0 < len ∧ system.received.length < system.accepted.length
  | some (.loadHead len t) =>
    0 < len ∧ ∃ published, t = UInt64.ofNat (start.toNat + published) ∧
          system.received.length < published ∧ published ≤ system.accepted.length
  | some (.copy _ n _) => 0 < n

/-- A step towards returned bytes stays on the way or returns some. -/
theorem WillReturnData.consumer_move {start : UInt64} {system next : RingSystem capacity}
    {returned : Option (List UInt8)} (willReturn : system.WillReturnData start)
    (invariant : system.Invariant start) (move : ConsumerMove system next returned) :
    returned = none ∧ next.WillReturnData start ∨ ∃ bytes, returned = some bytes ∧ bytes ≠ [] := by
  unfold WillReturnData at willReturn
  cases move with
  | @loadTail len inProgress =>
    simp only [inProgress] at willReturn
    exact .inl ⟨rfl, willReturn.1, _, invariant.tailValue, willReturn.2, Nat.le_refl _⟩
  | @empty len t inProgress noData =>
    simp only [inProgress] at willReturn
    obtain ⟨-, published, loaded, lower, upper⟩ := willReturn
    have bounded := invariant.bounded
    have small := kBufBytes_lt capacity
    rw [loaded, invariant.headValue, CircularWindow.toNat_ofNat_sub_ofNat (by omega) (by omega)]
      at noData
    omega
  | @loadHead len n t inProgress data amount =>
    simp only [inProgress] at willReturn
    refine .inl ⟨rfl, ?_⟩
    change 0 < n
    omega
  | fetch inProgress unfinished =>
    simp only [inProgress] at willReturn
    exact .inl ⟨rfl, willReturn⟩
  | @publish h n buf inProgress finished =>
    simp only [inProgress] at willReturn
    refine .inr ⟨buf, rfl, ?_⟩
    rintro rfl
    simp only [List.length_nil] at finished
    omega

/-- Newly accepted bytes do not stop a call on its way. -/
theorem WillReturnData.of_appended {start : UInt64} {system next : RingSystem capacity}
    {more : List UInt8} (willReturn : system.WillReturnData start)
    (consumer : next.consumer = system.consumer) (received : next.received = system.received)
    (accepted : next.accepted = system.accepted ++ more) :
    next.WillReturnData start := by
  unfold WillReturnData at willReturn ⊢
  rw [consumer, received, accepted, List.length_append]
  cases inProgress : system.consumer with
  | none => simp only [inProgress] at willReturn
  | some call =>
    cases call with
    | loadTail len =>
      simp only [inProgress] at willReturn ⊢
      exact ⟨willReturn.1, by omega⟩
    | loadHead len t =>
      simp only [inProgress] at willReturn ⊢
      obtain ⟨positive, published, loaded, lower, upper⟩ := willReturn
      exact ⟨positive, published, loaded, lower, by omega⟩
    | copy h n buf =>
      simp only [inProgress] at willReturn ⊢
      exact willReturn

end RingSystem

namespace ShmChannel

variable {capacity : Capacity} {start : UInt64} {channel next : ShmChannel capacity}

/-- The receive call in progress returns without sleeping. -/
def Lively (start : UInt64) (channel : ShmChannel capacity) : Prop :=
  match channel.receiver with
  | .idle => True
  | .loop call =>
    0 < call.n ∧ (channel.ring.peerClosed = true ∨
        channel.system.received.length < channel.system.accepted.length)
  | .inRecvSome call =>
    0 < call.n ∧ (channel.ring.peerClosed = true ∨ channel.system.WillReturnData start)
  | .futexWait _ _ => False
  | .parked _ => False
  | position => 0 < position.request ∧ channel.ring.peerClosed = true

/-- The steps of a call that returns without sleeping. -/
theorem Lively.receiverMove (lively : channel.Lively start)
    (invariant : channel.system.Invariant start) (move : ReceiverMove channel next none) :
    next.Lively start := by
  unfold Lively at lively
  cases move with
  | @enter call system position started =>
    simp only [position] at lively
    simp only [RingSystem.step?] at started
    split at started
    · cases started
      exact ⟨lively.1, lively.2.imp_right fun unread => ⟨lively.1, unread⟩⟩
    · cases started
  | access position move =>
    simp only [position] at lively
    obtain ⟨positive, outcome⟩ := lively
    have closed := (consumerMove_received move).2.2.1
    refine ⟨positive, ?_⟩
    rcases outcome with isClosed | willReturn
    · left
      simpa [ShmChannel.ring, ShmRing.peerClosed, closed] using isClosed
    · rcases willReturn.consumer_move invariant move with ⟨-, stays⟩ | ⟨bytes, absurdity, -⟩
      · exact .inr stays
      · cases absurdity
  | nothing position move =>
    simp only [position] at lively
    obtain ⟨positive, outcome⟩ := lively
    have closed := (consumerMove_received move).2.2.1
    refine ⟨positive, ?_⟩
    rcases outcome with isClosed | willReturn
    · simpa [ShmChannel.ring, ShmRing.peerClosed, closed] using isClosed
    · rcases willReturn.consumer_move invariant move with
        ⟨absurdity, -⟩ | ⟨bytes, returned, nonempty⟩
      · cases absurdity
      · cases returned
        exact absurd rfl nonempty
  | block position blocking =>
    rcases position with ⟨position, isOpen⟩ | ⟨position, -⟩
    · simp only [position] at lively
      rw [isOpen] at lively
      exact absurd lively.2 (by simp)
    · simp only [position] at lively
      exact lively
  | spin position | closedAgain position | dataAgain position =>
    simp only [position] at lively
    exact ⟨lively.1, .inl lively.2⟩
  | markClosed position =>
    simp only [position] at lively
    exact ⟨lively.1, .inl rfl⟩
  | stillOpen position isOpen =>
    simp only [position] at lively
    rw [isOpen] at lively
    exact absurd lively.2 (by simp)
  | park position unchanged | missed position => simp only [position] at lively
  | closedSeen position closed | hungUp position | goQuiet position
  | sample position | stillEmpty position drained =>
    simp only [position] at lively
    exact lively

/-- Other parties do not put the call to sleep. -/
theorem Lively.otherParty {more : List UInt8} (lively : channel.Lively start)
    (other : OtherParty channel next)
    (accepted : next.system.accepted = channel.system.accepted ++ more) :
    next.Lively start := by
  have sameReceiver : next.receiver = channel.receiver := by
    rcases other.receiver with same | ⟨call, _, parked, -⟩
    · exact same
    · unfold Lively at lively
      simp only [parked] at lively
  unfold Lively at lively ⊢
  rw [sameReceiver]
  cases position : channel.receiver with
  | idle => trivial
  | loop call =>
    simp only [position] at lively ⊢
    refine ⟨lively.1, lively.2.imp other.closed ?_⟩
    intro unread
    rw [other.received, accepted, List.length_append]
    omega
  | inRecvSome call =>
    simp only [position] at lively ⊢
    exact ⟨lively.1, lively.2.imp other.closed fun willReturn =>
      willReturn.of_appended other.consumer other.received accepted⟩
  | futexWait call w | parked call => simp only [position] at lively
  | testClosed call | testReadable call | testHangUp call
  | markClosed call | sample call | recheckReadable call w
  | recheckClosed call w =>
    simp only [position] at lively ⊢
    exact ⟨lively.1, other.closed lively.2⟩

end ShmChannel

namespace SocketStream

variable {capacity : Capacity} {start : UInt64} {stream next : SocketStream capacity}
variable {action : StreamAction}

/--
A `recvmsg` that holds bytes turns to a further buffer only while the ring has
more bytes or is closed.
-/
def ContinuesWithData (stream : SocketStream capacity) (action : StreamAction) : Prop :=
  (∃ hungUp, action = .receiverStep hungUp) → stream.channel.receiver = .idle → stream.held ≠ [] →
    (∃ len, 0 < len ∧ stream.nextBuffer? = some len) →
    0 < stream.channel.ring.readable ∨ stream.channel.ring.peerClosed = true

/-- Both ends of the stream are those of the ring. -/
structure RingInvariant
    (start : UInt64)
    (stream : SocketStream capacity) : Prop where
  channel : stream.channel.Invariant start
  offKernel : stream.recvfrom = none
  sent : stream.sent = stream.channel.system.accepted
  received : stream.received ++ stream.held = stream.channel.system.received

/-- A step that stays off the kernel socket keeps the stream on the ring. -/
theorem RingInvariant.step (small : capacity.kBufBytes + 3 < 2 ^ 32)
    (invariant : RingInvariant start stream) (onRing : action.OnRing)
    (stepped : stream.step? action = some next) :
    RingInvariant start next := by
  cases step?_move stepped with
  | kernel channel offRing =>
    rcases offRing with offRing | inKernel
    · exact absurd onRing offRing
    · exact absurd invariant.offKernel inKernel
  | bookkeeping channel sent recvfrom bytes held =>
    exact {
      channel := by
        rw [channel]
        exact invariant.channel
      offKernel := recvfrom.trans invariant.offKernel
      sent := by
        rw [sent, channel]
        exact invariant.sent
      received := by
        rw [bytes, channel]
        exact invariant.received }
  | otherParty moved other sent recvfrom received held =>
    obtain ⟨party, more, accepted⟩ := ShmChannel.otherParty_of_step other moved
    exact {
      channel := invariant.channel.step small moved
      offKernel := recvfrom.trans invariant.offKernel
      sent := by rw [sent, invariant.sent, accepted, List.drop_left]
      received := by
        rw [received, held, party.received]
        exact invariant.received }
  | receiver moved ring accepted sent recvfrom bytes position =>
    exact {
      channel := invariant.channel.step small moved
      offKernel := recvfrom.trans invariant.offKernel
      sent := by
        rw [sent, accepted]
        exact invariant.sent
      received := by rw [bytes, ring, invariant.received] }

/-- A `recvmsg` that holds bytes never sleeps. -/
structure LivelyInvariant
    (start : UInt64)
    (stream : SocketStream capacity) : Prop where
  ring : RingInvariant start stream
  lively : stream.held ≠ [] → stream.channel.Lively start

/-- A step keeps it if `recvmsg` continues only with data. -/
theorem LivelyInvariant.step (small : capacity.kBufBytes + 3 < 2 ^ 32)
    (invariant : LivelyInvariant start stream) (onRing : action.OnRing)
    (continues : stream.ContinuesWithData action) (stepped : stream.step? action = some next) :
    LivelyInvariant start next where
  ring := invariant.ring.step small onRing stepped
  lively := by
    intro holds
    have ringInvariant := invariant.ring.channel.1
    cases step?_move stepped with
    | kernel channel offRing =>
      rcases offRing with offRing | inKernel
      · exact absurd onRing offRing
      · exact absurd invariant.ring.offKernel inKernel
    | bookkeeping channel sent recvfrom bytes held =>
      rcases held with empty | same
      · exact absurd empty holds
      · rw [channel]
        exact invariant.lively (same ▸ holds)
    | otherParty moved other sent recvfrom received held =>
      obtain ⟨party, more, accepted⟩ := ShmChannel.otherParty_of_step other moved
      exact (invariant.lively (held ▸ holds)).otherParty party accepted
    | receiver moved ring accepted sent recvfrom bytes position =>
      cases position with
      | idle position =>
        unfold ShmChannel.Lively
        rw [position]
        trivial
      | running move held => exact (invariant.lively (held ▸ holds)).receiverMove ringInvariant move
      | @entered call wasIdle position positive sameRing reason =>
        rcases reason with empty | ⟨same, isStep, buffer⟩
        · exact absurd empty holds
        · have available := continues isStep wasIdle (same ▸ holds) ⟨call.n, positive, buffer⟩
          rw [← sameRing] at available
          unfold ShmChannel.Lively
          rw [position]
          refine ⟨positive, available.symm.imp_right ?_⟩
          intro readable
          have after := (invariant.ring.channel.step small moved).1
          have unconsumed := after.readable_eq
          rw [ShmChannel.ring] at readable
          omega

private theorem RingInvariant.initially (start : UInt64) (data : Nat → UInt8) (wakeCount : UInt32)
    (senderNonblocking receiverNonblocking : Bool) :
    RingInvariant start
      (initial capacity start data wakeCount senderNonblocking receiverNonblocking) where
  channel := ⟨RingSystem.Invariant.initial start data, trivial⟩
  offKernel := rfl
  sent := rfl
  received := rfl

theorem RingInvariant.waiting (invariant : RingInvariant start stream) (waiting : stream.Waiting) :
    stream.channel.sender.WakePending ∨ stream.sent = stream.received ++ stream.held := by
  rcases waiting with ⟨call, parked⟩ | inKernel
  · obtain ⟨ring, wakes⟩ := invariant.channel
    simp only [ShmChannel.WakeInvariant, parked] at wakes
    rw [invariant.sent, invariant.received]
    rcases Nat.lt_or_ge stream.channel.system.received.length
        stream.channel.system.accepted.length with unread | allRead
    · exact .inl (wakes.data unread)
    · exact .inr (ring.receivedPrefix.eq_of_length_le allRead).symm
  · exact absurd invariant.offKernel inKernel

/--
In every run without `sendto` and `recvfrom`, the bytes received are a prefix of
the bytes sent, and a receive call sleeps only when the sender is about to wake
it or when every sent byte has been returned or lies in the buffers of the
sleeping `recvmsg`.  If moreover `recvmsg` turns to further buffers only while
the ring has bytes or is closed, then every sent byte has been returned.
-/
theorem one_stream_on_ring
    (start : UInt64)
    (data : Nat → UInt8)
    (wakeCount : UInt32)
    (senderNonblocking receiverNonblocking : Bool)
    {actions : List StreamAction}
    {stream : SocketStream .shmSegmentRing}
    (reached :
      run? step?
          (initial .shmSegmentRing start data wakeCount senderNonblocking receiverNonblocking)
          actions =
        some stream)
    (onRing : ∀ action ∈ actions, action.OnRing) :
    stream.received <+: stream.sent ∧
      (stream.Waiting →
        stream.channel.sender.WakePending ∨ stream.sent = stream.received ++ stream.held) ∧
      (Along step? ContinuesWithData
          (initial .shmSegmentRing start data wakeCount senderNonblocking receiverNonblocking)
          actions →
        stream.Waiting →
        stream.channel.sender.WakePending ∨ stream.sent = stream.received) := by
  have along : Along step? (fun _ action => action.OnRing)
        (initial .shmSegmentRing start data wakeCount senderNonblocking receiverNonblocking)
        actions :=
    along_of_forall_mem onRing
  have initially : RingInvariant start
        (initial .shmSegmentRing start data wakeCount senderNonblocking receiverNonblocking) :=
    .initially start data wakeCount senderNonblocking receiverNonblocking
  have invariant : RingInvariant start stream :=
    invariant_along initially
      (fun invariant onRing stepped => invariant.step (by decide) onRing stepped)
      reached along
  refine ⟨?_, invariant.waiting, ?_⟩
  · rw [invariant.sent]
    refine List.IsPrefix.trans ?_ invariant.channel.1.receivedPrefix
    exact ⟨stream.held, invariant.received⟩
  · intro continues waiting
    have lively : LivelyInvariant start stream :=
      invariant_along
        (⟨initially, fun holds => absurd rfl holds⟩ : LivelyInvariant start _)
        (fun invariant conditions stepped =>
          invariant.step (by decide) conditions.1 conditions.2 stepped)
        reached (along.and continues)
    rcases invariant.waiting waiting with pending | taken
    · exact .inl pending
    · by_cases nothingHeld : stream.held = []
      · rw [nothingHeld, List.append_nil] at taken
        exact .inr taken
      · rcases waiting with ⟨call, parked⟩ | inKernel
        · have awake := lively.lively nothingHeld
          unfold ShmChannel.Lively at awake
          rw [parked] at awake
          exact absurd awake id
        · exact absurd invariant.offKernel inKernel

/-- `sendmsg` of two buffers, then `recvmsg` into two other ones. -/
def vectoredTrace : List StreamAction :=
  .sendHook (.sendmsg [[1, 2], [3]] 0 ⟨false, false⟩) ::
    List.replicate 20 .senderStep ++
      .recvHook (.recvmsg [2, 5] ⟨false, false⟩) :: List.replicate 13 (.receiverStep false)

/-- The bytes arrive in order. -/
theorem one_stream_on_ring_vectored :
    ∃ stream : SocketStream .shmSegmentRing,
      run? step? (initial .shmSegmentRing 0 (fun _ => 0) 0 false false) vectoredTrace =
        some stream ∧
      stream.received = [1, 2, 3] ∧
      stream.received <+: stream.sent := by
  obtain ⟨stream, reached, received⟩ :=
    exists_reached_of_check step?
      (initial .shmSegmentRing 0 (fun _ => 0) 0 false false)
      vectoredTrace (fun stream => stream.received = [1, 2, 3])
      (by decide +kernel)
  obtain ⟨inOrder, -⟩ := one_stream_on_ring 0 (fun _ => 0) 0 false false reached (by decide)
  exact ⟨stream, reached, received, inOrder⟩

/-- `send` of one byte, `sendto` of another one, and `recvfrom`. -/
def overtakingTrace : List StreamAction :=
  .sendHook (.send [1] ⟨false, false⟩) ::
    List.replicate 8 .senderStep ++ [.sendHook (.sendto [2] 1), .recvHook (.recvfrom 1 false)]

/-- `sendto` of one byte, and a blocking `recv` that spins and sleeps. -/
def unnoticedTrace : List StreamAction :=
  .sendHook (.sendto [7] 1) ::
    .recvHook (.recv 1 ⟨false, false⟩) ::
      ((List.replicate 101
          (List.replicate 5 (.receiverStep false))).flatten ++
        List.replicate 4 (.receiverStep false))

/--
`recvfrom` returns the byte of `sendto` before that of `send`; and `recv` sleeps
although `sendto` has sent a byte and no call is going to wake it.
-/
theorem two_streams_with_sendto :
    (∃ stream : SocketStream .shmSegmentRing,
      run? step? (initial .shmSegmentRing 0 (fun _ => 0) 0 false false) overtakingTrace =
        some stream ∧
      stream.sent = [1, 2] ∧
      stream.received = [2] ∧
      ¬ stream.received <+: stream.sent) ∧
      ∃ stream : SocketStream .shmSegmentRing,
        run? step? (initial .shmSegmentRing 0 (fun _ => 0) 0 false false) unnoticedTrace =
          some stream ∧
        stream.channel.receiver = .parked ⟨1, false, 100⟩ ∧
        stream.channel.sender = .idle ∧
        stream.sent = [7] ∧
        stream.received = [] :=
  ⟨exists_reached_of_check step?
      (initial .shmSegmentRing 0 (fun _ => 0) 0 false false)
      overtakingTrace
      (fun stream =>
        stream.sent = [1, 2] ∧ stream.received = [2] ∧ ¬ stream.received <+: stream.sent)
      (by decide +kernel), exists_reached_of_check step?
      (initial .shmSegmentRing 0 (fun _ => 0) 0 false false)
      unnoticedTrace
      (fun stream =>
        stream.channel.receiver = .parked ⟨1, false, 100⟩ ∧ stream.channel.sender = .idle ∧
          stream.sent = [7] ∧ stream.received = [])
      (by decide +kernel)⟩

end SocketStream

end SocksDirect
