import SocksDirect.ShmChannelMoves

namespace SocksDirect

/-!
# No lost wake-up on the receive path

The receiver samples the wake counter, looks at the data and at the closed flag
again, and parks only if the counter still has the sampled value.  Every party
that makes the ring readable or closed does so before it bumps the counter, and
bumps before it calls `FUTEX_WAKE`.

The invariant counts the bumps since the sample.  As long as the receiver does
not move, the sender can publish at most one capacity of bytes, and every bump
of the sender follows a publication of at least one byte, so the counter cannot
come back to the sampled value by wrapping around.
-/

namespace Sender

/-- Publications of the sender that are not yet followed by a bump. -/
def unbumped : Sender → Nat
  | .bump _ _ => 1
  | _ => 0

/-- The sender has published and has not yet executed its `FUTEX_WAKE`. -/
def WakePending : Sender → Prop
  | .bump _ _ => True
  | .wake _ _ => True
  | _ => False

theorem unbumped_le_one (sender : Sender) : sender.unbumped ≤ 1 := by
  cases sender <;> simp [unbumped]

end Sender

namespace Closer

/-- Counter bumps that a closing party has executed. -/
def bumps : Closer → Nat
  | .notStarted => 0
  | .marked => 0
  | .bumped => 1
  | .done => 1

/--
The party has marked the ring closed and has not yet executed its
`FUTEX_WAKE`.
-/
def WakePending : Closer → Prop
  | .marked => True
  | .bumped => True
  | _ => False

end Closer

namespace ShmChannel

variable {capacity : Capacity}

/--
The state of the wake counter since it was sampled as `w`: it has been bumped
`bumps` times, and `base` bytes had been accepted at the sample.
-/
structure Window
    (channel : ShmChannel capacity)
    (w : UInt32)
    (bumps base : Nat) : Prop where
  counter : channel.wakeCount = w + UInt32.ofNat bumps
  receivedLe : channel.system.received.length ≤ base
  baseLe : base ≤ channel.system.accepted.length
  budget : bumps + channel.sender.unbumped ≤
      channel.system.accepted.length - base + 1 + channel.peerClose.bumps + channel.watchdog.bumps

/-- Unread data has been announced on the counter, or is about to be. -/
def DataAnnounced (channel : ShmChannel capacity) (bumps : Nat) : Prop :=
  channel.system.received.length < channel.system.accepted.length →
    0 < bumps ∨ channel.sender.unbumped = 1

/-- The end of the stream has been announced, or is about to be. -/
def EndAnnounced (channel : ShmChannel capacity) (bumps : Nat) : Prop :=
  channel.ring.peerClosed = true →
    0 < bumps ∨ channel.peerClose = .marked ∨ channel.watchdog = .marked

/-- Whoever made the ring readable or closed still has to call `FUTEX_WAKE`. -/
structure WakeOutstanding
    (channel : ShmChannel capacity) : Prop where
  data :
    channel.system.received.length < channel.system.accepted.length → channel.sender.WakePending
  ending :
    channel.ring.peerClosed = true → channel.peerClose.WakePending ∨ channel.watchdog.WakePending

/-- What the receiver relies on from its sample to its return from the futex. -/
def WakeInvariant (channel : ShmChannel capacity) : Prop :=
  match channel.receiver with
  | .recheckReadable _ w => ∃ bumps base, channel.Window w bumps base
  | .recheckClosed _ w => ∃ bumps base, channel.Window w bumps base ∧ channel.DataAnnounced bumps
  | .futexWait _ w =>
    ∃ bumps base,
      channel.Window w bumps base ∧ channel.DataAnnounced bumps ∧ channel.EndAnnounced bumps
  | .parked _ => channel.WakeOutstanding
  | _ => True

/--
A step of another party that leaves the receiver alone.  `extra` is the number
of bumps it executes.
-/
structure Environment
    (channel next : ShmChannel capacity)
    (extra : Nat) : Prop where
  receiver : next.receiver = channel.receiver
  received : next.system.received = channel.system.received
  counter : next.wakeCount = channel.wakeCount + UInt32.ofNat extra
  acceptedLe : channel.system.accepted.length ≤ next.system.accepted.length
  budget : extra + next.sender.unbumped +
        (channel.system.accepted.length + channel.peerClose.bumps + channel.watchdog.bumps) ≤
      channel.sender.unbumped +
        (next.system.accepted.length +
          next.peerClose.bumps + next.watchdog.bumps)
  publishes : channel.system.accepted.length < next.system.accepted.length →
      next.sender.unbumped = 1 ∧ next.sender.WakePending
  announces : channel.sender.unbumped ≤ extra + next.sender.unbumped
  closes : next.ring.peerClosed = true → channel.ring.peerClosed = true ∨ next.peerClose = .marked ∨
        next.watchdog = .marked
  announcesEnd : channel.peerClose = .marked ∨ channel.watchdog = .marked →
      0 < extra ∨ next.peerClose = .marked ∨ next.watchdog = .marked
  keepsPending : ∀ {call}, channel.receiver = .parked call →
      (channel.sender.WakePending → next.sender.WakePending) ∧
        (channel.peerClose.WakePending → next.peerClose.WakePending) ∧
        (channel.watchdog.WakePending → next.watchdog.WakePending)

namespace Environment

variable {channel next : ShmChannel capacity} {extra bumps base : Nat} {w : UInt32}

section

variable (environment : Environment channel next extra)

include environment

theorem window (before : channel.Window w bumps base) : next.Window w (bumps + extra) base where
  counter := by
    rw [environment.counter, before.counter, UInt32.ofNat_add]
    grind
  receivedLe := by
    rw [environment.received]
    exact before.receivedLe
  baseLe := before.baseLe.trans environment.acceptedLe
  budget := by
    have budgetBefore := before.budget
    have budgetStep := environment.budget
    have baseLe := before.baseLe
    omega

theorem dataAnnounced (before : channel.DataAnnounced bumps) :
    next.DataAnnounced (bumps + extra) := by
  intro unread
  rw [environment.received] at unread
  rcases Nat.lt_or_ge channel.system.accepted.length
      next.system.accepted.length with published | notPublished
  · exact .inr (environment.publishes published).1
  · have announces := environment.announces
    rcases before (by omega) with bumped | notBumped
    · exact .inl (by omega)
    · by_cases stillUnbumped : next.sender.unbumped = 1
      · exact .inr stillUnbumped
      · have atMostOne := next.sender.unbumped_le_one
        exact .inl (by omega)

theorem endAnnounced (before : channel.EndAnnounced bumps) : next.EndAnnounced (bumps + extra) := by
  intro closed
  rcases environment.closes closed with already | justNow
  · rcases before already with bumped | marked
    · exact .inl (by omega)
    · rcases environment.announcesEnd marked with bumped | stillMarked
      · exact .inl (by omega)
      · exact .inr stillMarked
  · exact .inr justNow

/-- An outstanding wake-up call of a parked receiver stays outstanding. -/
theorem wakeOutstanding {call : RecvCall} (parked : channel.receiver = .parked call)
    (before : channel.WakeOutstanding) :
    next.WakeOutstanding where
  data := by
    intro unread
    rw [environment.received] at unread
    rcases Nat.lt_or_ge channel.system.accepted.length
        next.system.accepted.length with published | notPublished
    · exact (environment.publishes published).2
    · exact (environment.keepsPending parked).1 (before.data (by omega))
  ending := by
    intro closed
    have keeps := environment.keepsPending parked
    rcases environment.closes closed with already | marked | marked
    · exact (before.ending already).imp keeps.2.1 keeps.2.2
    · exact .inl (by simp [marked, Closer.WakePending])
    · exact .inr (by simp [marked, Closer.WakePending])

/-- Steps of other parties keep the invariant of the receiver. -/
theorem wakeInvariant (before : channel.WakeInvariant) : next.WakeInvariant := by
  unfold WakeInvariant at before ⊢
  rw [environment.receiver]
  cases position : channel.receiver with
  | recheckReadable call w =>
    simp only [position] at before
    obtain ⟨bumps, base, isWindow⟩ := before
    exact ⟨bumps + extra, base, environment.window isWindow⟩
  | recheckClosed call w =>
    simp only [position] at before
    obtain ⟨bumps, base, isWindow, announced⟩ := before
    exact ⟨bumps + extra, base, environment.window isWindow, environment.dataAnnounced announced⟩
  | futexWait call w =>
    simp only [position] at before
    obtain ⟨bumps, base, isWindow, announced, ended⟩ := before
    exact ⟨bumps + extra, base, environment.window isWindow, environment.dataAnnounced announced,
      environment.endAnnounced ended⟩
  | parked call =>
    simp only [position] at before
    exact environment.wakeOutstanding position before
  | _ => trivial

end

end Environment

section Moves

variable {start : UInt64} {channel next : ShmChannel capacity} {returned : Option Nat}

variable {system moved : RingSystem capacity}

private theorem producerMove_received
    (move : RingSystem.ProducerMove system moved returned) :
    moved.received = system.received := by
  cases move <;> rfl

private theorem producerMove_closed
    (move : RingSystem.ProducerMove system moved returned) :
    moved.ring.closed = system.ring.closed := by
  cases move <;> rfl

private theorem producerMove_accepted
    (invariant : system.Invariant start) (move : RingSystem.ProducerMove system moved returned) :
    moved.accepted.length = system.accepted.length + returned.getD 0 := by
  cases move with
  | @publish buf t n copied inProgress finished =>
    obtain ⟨_, withinBuf, _, _, _⟩ := invariant.producerReady inProgress
    simp [withinBuf]
  | _ => rfl

/-- A sender step without a bump accepts `count` bytes, to be announced if there are any. -/
private theorem environment_of_sender {system : RingSystem capacity} {sender : Sender} {count : Nat}
    (received : system.received = channel.system.received)
    (closed : system.ring.closed = channel.system.ring.closed)
    (accepted : system.accepted.length = channel.system.accepted.length + count)
    (quiet : channel.sender.unbumped = 0 ∧ ¬ channel.sender.WakePending)
    (published : 0 < count → sender.unbumped = 1 ∧ sender.WakePending)
    (unbumpedLe : sender.unbumped ≤ count) :
    Environment channel { channel with system := system, sender := sender } 0 where
  receiver := rfl
  received := received
  counter := by simp
  acceptedLe := by
    simp only
    omega
  budget := by
    simp only [quiet.1]
    omega
  publishes := by
    intro more
    exact published (by simp only at more; omega)
  announces := by simp [quiet.1]
  closes := by
    intro closedNow
    refine .inl ?_
    simpa [ShmChannel.ring, ShmRing.peerClosed, closed] using closedNow
  announcesEnd := .inr
  keepsPending := fun _ => ⟨fun pending => absurd pending quiet.2, id, id⟩

private theorem sendSome_started {buf : List UInt8}
    (started : system.step? (.sendSome buf) = some moved) :
    moved.received = system.received ∧ moved.ring = system.ring ∧
      moved.accepted = system.accepted := by
  simp only [RingSystem.step?] at started
  split at started
  · cases started
    exact ⟨rfl, rfl, rfl⟩
  · cases started

private theorem environment_of_bump {call : SendCall} {did : Nat}
    (position : channel.sender = .bump call did) :
    Environment channel
      { channel with wakeCount := channel.wakeCount + 1, sender := .wake call did } 1 where
  receiver := rfl
  received := rfl
  counter := rfl
  acceptedLe := Nat.le_refl _
  budget := by
    simp only [position, Sender.unbumped]
    omega
  publishes := fun more => absurd more (Nat.lt_irrefl _)
  announces := by simp [position, Sender.unbumped]
  closes := .inl
  announcesEnd := fun _ => .inl Nat.one_pos
  keepsPending := by simp [Sender.WakePending]

/-- A `FUTEX_WAKE` releases a parked receiver, or is not noticed. -/
private theorem wakeInvariant_of_futexWake (receiver : next.receiver = channel.futexWake.receiver)
    (environment : next.receiver = channel.receiver → (∀ call, channel.receiver ≠ .parked call) →
      Environment channel next 0)
    (before : channel.WakeInvariant) :
    next.WakeInvariant := by
  rcases channel.futexWake_receiver_cases with unchanged | ⟨call, parked, released⟩
  · refine (environment (receiver.trans unchanged) ?_).wakeInvariant before
    intro call parked
    exact channel.futexWake_not_parked call (unchanged.trans parked)
  · simp [WakeInvariant, receiver, released]

/-- Sender steps keep the invariant of the receiver. -/
theorem SenderMove.wakeInvariant {result : Option SendResult}
    (move : SenderMove channel next result) (ring : channel.system.Invariant start)
    (before : channel.WakeInvariant) :
    next.WakeInvariant := by
  cases move with
  | enter position unfinished started =>
    obtain ⟨received, sameRing, accepted⟩ := sendSome_started started
    exact (environment_of_sender received (by rw [sameRing])
      (by simp [accepted] : _ = _ + 0)
      (by simp [position, Sender.unbumped, Sender.WakePending])
      (by simp) (by simp [Sender.unbumped])).wakeInvariant before
  | access position move | foundFull position move =>
    exact (environment_of_sender (producerMove_received move)
      (producerMove_closed move) (producerMove_accepted ring move)
      (by simp [position, Sender.unbumped, Sender.WakePending])
      (by simp) (by simp [Sender.unbumped])).wakeInvariant before
  | published position positive move =>
    exact (environment_of_sender (producerMove_received move)
      (producerMove_closed move) (producerMove_accepted ring move)
      (by simp [position, Sender.unbumped, Sender.WakePending])
      (by simp [Sender.unbumped, Sender.WakePending])
      (by exact positive)).wakeInvariant before
  | bump position => exact (environment_of_bump position).wakeInvariant before
  | wake position =>
    refine wakeInvariant_of_futexWake rfl ?_ before
    intro unchanged notParked
    exact {
      receiver := unchanged
      received := by simp
      counter := by simp
      acceptedLe := by simp
      budget := by simp [position, Sender.unbumped]
      publishes := by simp
      announces := by simp [position, Sender.unbumped]
      closes := by
        intro closed
        exact .inl (by simpa [ShmChannel.ring] using closed)
      announcesEnd := by
        intro marked
        exact .inr (by simpa using marked)
      keepsPending := fun parked => absurd parked (notParked _) }
  | finish position _ | giveUp position _ _ | retry position _ =>
    exact (environment_of_sender rfl rfl (Nat.add_zero _).symm
      (by simp [position, Sender.unbumped, Sender.WakePending])
      (by simp) (by simp [Sender.unbumped])).wakeInvariant before

private theorem CloserMove.closers {position after : Closer}
    (move : CloserMove channel position next after) :
    next.peerClose = channel.peerClose ∧ next.watchdog = channel.watchdog := by
  cases move <;> simp

/-- Steps of both closing parties keep the invariant of the receiver. -/
theorem CloserMove.wakeInvariant {moved : ShmChannel capacity} {position after : Closer}
    (move : CloserMove channel position moved after) (receiver : next.receiver = moved.receiver)
    (system : next.system = moved.system) (wakeCount : next.wakeCount = moved.wakeCount)
    (sender : next.sender = moved.sender)
    (advances : channel.peerClose = position ∧ next.peerClose = after ∧
      next.watchdog = channel.watchdog ∨ channel.watchdog = position ∧ next.watchdog = after ∧
      next.peerClose = channel.peerClose)
    (before : channel.WakeInvariant) :
    next.WakeInvariant := by
  cases move with
  | mark =>
    have environment : Environment channel next 0 := {
      receiver := receiver
      received := by simp [system]
      counter := by simp [wakeCount]
      acceptedLe := by simp [system]
      budget := by
        rcases advances with ⟨was, now, other⟩ | ⟨was, now, other⟩ <;>
          simp [system, sender, was, now, other, Closer.bumps]
      publishes := by simp [system]
      announces := by simp [sender]
      closes := by
        intro _
        rcases advances with ⟨_, now, _⟩ | ⟨_, now, _⟩ <;> simp [now]
      announcesEnd := by
        intro _
        rcases advances with ⟨_, now, _⟩ | ⟨_, now, _⟩ <;> simp [now]
      keepsPending := by
        intro call parked
        rcases advances with ⟨was, now, other⟩ | ⟨was, now, other⟩ <;>
          simp [sender, was, now, other, Closer.WakePending] }
    exact environment.wakeInvariant before
  | bump =>
    have environment : Environment channel next 1 := {
      receiver := receiver
      received := by simp [system]
      counter := by simp [wakeCount]
      acceptedLe := by simp [system]
      budget := by
        rcases advances with ⟨was, now, other⟩ | ⟨was, now, other⟩ <;>
          simp only [system, sender, was, now, other, Closer.bumps] <;>
          omega
      publishes := by simp [system]
      announces := by simp [sender]
      closes := by
        intro closed
        exact .inl (by simpa [ShmChannel.ring, system] using closed)
      announcesEnd := fun _ => .inl Nat.one_pos
      keepsPending := by
        intro call parked
        rcases advances with ⟨was, now, other⟩ | ⟨was, now, other⟩ <;>
          simp [sender, was, now, other, Closer.WakePending] }
    exact environment.wakeInvariant before
  | wake =>
    refine wakeInvariant_of_futexWake receiver ?_ before
    intro unchanged notParked
    exact {
      receiver := unchanged
      received := by simp [system]
      counter := by simp [wakeCount]
      acceptedLe := by simp [system]
      budget := by
        rcases advances with ⟨was, now, other⟩ | ⟨was, now, other⟩ <;>
          simp [system, sender, was, now, other, Closer.bumps]
      publishes := by simp [system]
      announces := by simp [sender]
      closes := by
        intro closed
        exact .inl (by simpa [ShmChannel.ring, system] using closed)
      announcesEnd := by
        rcases advances with ⟨was, now, other⟩ | ⟨was, now, other⟩ <;>
          simp [was, now, other]
      keepsPending := fun parked => absurd parked (notParked _) }

private theorem Window.receiver {w : UInt32} {bumps base : Nat}
    (window : channel.Window w bumps base) (receiver : Receiver) :
    { channel with receiver := receiver }.Window w bumps base :=
  { window with }

private theorem Window.opened (ring : channel.system.Invariant start) :
    channel.Window channel.wakeCount 0 channel.system.accepted.length where
  counter := by simp
  receivedLe := ring.received_le_accepted
  baseLe := Nat.le_refl _
  budget := by
    have atMostOne := channel.sender.unbumped_le_one
    omega

section

variable (small : capacity.kBufBytes + 3 < 2 ^ 32)

include small

/-- Inside the window the sampled value means that nobody has bumped: no wrap. -/
private theorem Window.bumps_eq_zero {w : UInt32} {bumps base : Nat}
    (ring : channel.system.Invariant start) (window : channel.Window w bumps base)
    (unchanged : channel.wakeCount = w) :
    bumps = 0 := by
  have noBump : UInt32.ofNat bumps = 0 := by
    have counter := window.counter
    grind
  have wraps : bumps % 2 ^ 32 = 0 := by simpa using congrArg UInt32.toNat noBump
  have peerBumps : channel.peerClose.bumps ≤ 1 := by cases channel.peerClose <;> simp [Closer.bumps]
  have watchdogBumps : channel.watchdog.bumps ≤ 1 := by
    cases channel.watchdog <;> simp [Closer.bumps]
  have bounded := ring.bounded
  have receivedLe := window.receivedLe
  have budget := window.budget
  omega

/-- Steps of the receiver keep its invariant. -/
theorem ReceiverMove.wakeInvariant {result : Option RecvResult}
    (move : ReceiverMove channel next result) (ring : channel.system.Invariant start)
    (before : channel.WakeInvariant) :
    next.WakeInvariant := by
  cases move with
  | sample position => exact ⟨0, channel.system.accepted.length, (Window.opened ring).receiver _⟩
  | stillEmpty position drained =>
    simp only [WakeInvariant, position] at before
    obtain ⟨bumps, base, window⟩ := before
    refine ⟨bumps, base, window.receiver _, ?_⟩
    intro unread
    have unconsumed := ring.readable_eq
    rw [ShmChannel.ring] at drained
    simp only at unread
    omega
  | stillOpen position isOpen =>
    simp only [WakeInvariant, position] at before
    obtain ⟨bumps, base, window, announced⟩ := before
    refine ⟨bumps, base, window.receiver _, announced, ?_⟩
    intro closed
    exact absurd (isOpen.symm.trans closed) (by simp)
  | park position unchanged =>
    simp only [WakeInvariant, position] at before
    obtain ⟨bumps, base, window, announced, ended⟩ := before
    obtain rfl := window.bumps_eq_zero small ring unchanged
    refine { data := ?_, ending := ?_ }
    · intro unread
      rcases announced unread with bumped | notBumped
      · exact absurd bumped (Nat.lt_irrefl 0)
      · revert notBumped
        cases sender : channel.sender <;>
          simp [Sender.unbumped, Sender.WakePending]
    · intro closed
      rcases ended closed with bumped | marked | marked
      · exact absurd bumped (Nat.lt_irrefl 0)
      · exact .inl (by simp [marked, Closer.WakePending])
      · exact .inr (by simp [marked, Closer.WakePending])
  | _ => trivial

/-- Every step of the direction keeps the invariant of the receiver. -/
theorem Move.wakeInvariant {action : ChannelAction} (move : Move channel action next)
    (ring : channel.system.Invariant start) (before : channel.WakeInvariant) :
    next.WakeInvariant := by
  cases move with
  | sendEmpty => exact before
  | sendCall position nonempty =>
    exact (environment_of_sender rfl rfl (Nat.add_zero _).symm
      (by simp [position, Sender.unbumped, Sender.WakePending])
      (by simp) (by simp [Sender.unbumped])).wakeInvariant before
  | sender move => exact move.wakeInvariant ring before
  | @recvAtOnce n flags result value =>
    have environment : Environment channel (channel.record n flags.peek (some result)) 0 := {
      receiver := rfl
      received := rfl
      counter := (UInt32.add_zero _).symm
      acceptedLe := Nat.le_refl _
      budget := by simp [record]
      publishes := fun more => absurd more (Nat.lt_irrefl _)
      announces := by simp [record]
      closes := .inl
      announcesEnd := .inr
      keepsPending := fun _ => ⟨id, id, id⟩ }
    exact environment.wakeInvariant before
  | recvCall position positive noPeek => trivial
  | @receiver hungUp moved result enabled move =>
    cases result with
    | none => exact move.wakeInvariant small ring before
    | some result => cases move <;> trivial
  | futexReturn =>
    refine wakeInvariant_of_futexWake rfl ?_ before
    intro unchanged notParked
    exact {
      receiver := unchanged
      received := by simp
      counter := by simp
      acceptedLe := by simp
      budget := by simp
      publishes := by simp
      announces := by simp
      closes := by
        intro closed
        exact .inl (by simpa [ShmChannel.ring] using closed)
      announcesEnd := by simp
      keepsPending := fun parked => absurd parked (notParked _) }
  | peerClose move =>
    exact move.wakeInvariant rfl rfl rfl rfl (.inl ⟨rfl, rfl, move.closers.2⟩) before
  | watchdog move =>
    exact move.wakeInvariant rfl rfl rfl rfl (.inr ⟨rfl, rfl, move.closers.1⟩) before

end

end Moves

/-- The invariants of the ring and of its receiver together. -/
def Invariant (start : UInt64) (channel : ShmChannel capacity) : Prop :=
  channel.system.Invariant start ∧ channel.WakeInvariant

theorem Invariant.step (small : capacity.kBufBytes + 3 < 2 ^ 32) {start : UInt64}
    {channel next : ShmChannel capacity} {action : ChannelAction}
    (invariant : channel.Invariant start) (stepped : channel.step? action = some next) :
    next.Invariant start := by
  obtain ⟨ring, wakes⟩ := invariant
  have move := step?_move stepped
  exact ⟨move.ringInvariant ring, move.wakeInvariant small ring wakes⟩

theorem invariant_of_run
    (small : capacity.kBufBytes + 3 < 2 ^ 32)
    {start : UInt64}
    {data : Nat → UInt8}
    {wakeCount : UInt32}
    {senderNonblocking receiverNonblocking : Bool}
    {actions : List ChannelAction}
    {channel : ShmChannel capacity}
    (reached :
      Machine.run? step?
          (initial capacity start data wakeCount senderNonblocking receiverNonblocking) actions =
        some channel) :
    channel.Invariant start := by
  have initially : (initial capacity start data wakeCount senderNonblocking
        receiverNonblocking).Invariant start :=
    ⟨RingSystem.Invariant.initial start data, trivial⟩
  exact Machine.invariant_of_run initially
    (fun invariant stepped => invariant.step small stepped) reached

/--
No lost wake-up.  Whenever the receiver is parked on a ring that has data, the
sender that published it has yet to call `FUTEX_WAKE`; whenever it is parked on
a closed ring, the peer's `close` or the watchdog has marked the ring and has
yet to call `FUTEX_WAKE`.
-/
theorem parked_wake_pending
    (start : UInt64)
    (data : Nat → UInt8)
    (wakeCount : UInt32)
    (senderNonblocking receiverNonblocking : Bool)
    {actions : List ChannelAction}
    {channel : ShmChannel .shmSegmentRing}
    (reached :
      Machine.run? step?
          (initial .shmSegmentRing start data wakeCount senderNonblocking receiverNonblocking)
          actions =
        some channel)
    {call : RecvCall}
    (parked : channel.receiver = .parked call) :
    (0 < channel.ring.readable → channel.sender.WakePending) ∧
      (channel.ring.peerClosed = true →
        channel.peerClose.WakePending ∨ channel.watchdog.WakePending) := by
  obtain ⟨ring, wakes⟩ := invariant_of_run (by decide) reached
  simp only [WakeInvariant, parked] at wakes
  refine ⟨fun readable => wakes.data ?_, wakes.ending⟩
  have unconsumed := ring.readable_eq
  rw [ShmChannel.ring] at readable
  omega

/-- One failed round of `shm_recv` in its spinning phase. -/
private def spinRound : List ChannelAction := List.replicate 5 (.receiverStep false)

/--
A receiver spins a hundred times and parks; the sender then publishes a byte
and the peer marks the ring closed.
-/
def parkedTrace : List ChannelAction :=
  ChannelAction.recv 1 ⟨false, false⟩ ::
    ((List.replicate 101 spinRound).flatten ++
      List.replicate 4 (ChannelAction.receiverStep false) ++
      ChannelAction.send [7] ⟨false, false⟩ :: List.replicate 5 ChannelAction.senderStep ++
      [ChannelAction.peerCloseStep])

/-- The parked receiver of the trace has two wake-up calls outstanding. -/
theorem parked_wake_pending_at_publication :
    ∃ channel : ShmChannel .shmSegmentRing,
      Machine.run? step? (initial .shmSegmentRing 0 (fun _ => 0) (0 - 1) false false) parkedTrace =
        some channel ∧
      channel.receiver = .parked ⟨1, false, 100⟩ ∧
      channel.sender.WakePending ∧
      (channel.peerClose.WakePending ∨ channel.watchdog.WakePending) := by
  obtain ⟨channel, reached, parked, readable, closed⟩ :=
    Machine.exists_reached_of_check
      step? (initial .shmSegmentRing 0 (fun _ => 0) (0 - 1) false false)
      parkedTrace
      (fun channel =>
        channel.receiver = .parked ⟨1, false, 100⟩ ∧ 0 < channel.ring.readable ∧
          channel.ring.peerClosed = true)
      (by decide +kernel)
  obtain ⟨dataPending, endPending⟩ :=
    parked_wake_pending 0 (fun _ => 0) (0 - 1) false false reached parked
  exact ⟨channel, reached, parked, dataPending readable, endPending closed⟩

end ShmChannel

end SocksDirect
