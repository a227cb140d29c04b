import SocksDirect.ShmCalls

namespace SocksDirect

open Machine

/-!
# What an end learns of a peer that stops

An end of an upgraded connection sends through one ring and receives through
the other.  Two of its calls are followed here after the peer has stopped.

`shm_send` never looks at a closed flag.  The flags that a departing peer and
the watchdog set are those of the ring the survivor receives from.  A blocking
send of the survivor therefore returns exactly when the whole buffer fits.

The `shutdown` hook touches neither ring, so the other end learns of a half-close
only through what `poll` reports of the kernel socket in a blocking receive.
-/

variable {capacity : Capacity}

/-- The two directions of a connection as one of its ends uses them. -/
structure ConnectionEnd (capacity : Capacity) where
  outbound : ShmChannel capacity
  inbound : ShmChannel capacity

namespace ConnectionEnd

/--
The peer of this end is gone: both directions are in states that their parties
reach, the ring to receive from is marked closed, and no send is in progress.
-/
structure PeerGone (connection : ConnectionEnd capacity) : Prop where
  outbound : connection.outbound.Reachable
  inbound : connection.inbound.Reachable
  closed : connection.inbound.ring.peerClosed = true
  idle : connection.outbound.sender = .idle

theorem PeerGone.sendReady {connection : ConnectionEnd capacity} (gone : connection.PeerGone) :
    ∃ start, connection.outbound.SendReady start := by
  obtain ⟨start, invariant⟩ := gone.outbound.callInvariant
  exact ⟨start, invariant.sendReady gone.idle⟩

/--
A blocking send to a peer that is gone returns exactly when the buffer fits
into the free part of the ring.  No step of another party comes between the
steps of the call, since nobody consumes any more.
-/
theorem blocking_send_returns_iff_fits
    (connection : ConnectionEnd capacity)
    (gone : connection.PeerGone)
    (buf : List UInt8)
    (flags : MsgFlags)
    (blocking : (connection.outbound.senderNonblocking || flags.dontWait) = false) :
    (∃ final result, connection.outbound.SendReturns buf flags final result) ↔
      buf.length ≤ connection.outbound.ring.writable := by
  obtain ⟨start, ready⟩ := gone.sendReady
  constructor
  · rintro ⟨final, result, returns⟩
    by_contra short
    exact ready.not_returns blocking (by omega) final result returns
  · intro fits
    obtain ⟨final, returns, _, _⟩ := ready.returns_all flags fits
    exact ⟨final, _, returns⟩

/-- A fresh direction whose sender and receiver block. -/
private def freshDirection : ShmChannel .shmSegmentRing :=
  .initial .shmSegmentRing 0 (fun _ => 0) 0 false false

private theorem freshDirection_reachable : freshDirection.Reachable :=
  ⟨0, fun _ => 0, 0, false, false, [], rfl⟩

private theorem exists_closedDirection :
    ∃ inbound : ShmChannel .shmSegmentRing, inbound.Reachable ∧ inbound.ring.peerClosed = true := by
  obtain ⟨inbound, reached, closed⟩ :=
    exists_reached_of_check ShmChannel.step? freshDirection
      [.peerCloseStep, .peerCloseStep]
      (fun channel => channel.ring.peerClosed = true) (by decide +kernel)
  exact ⟨inbound, ⟨0, fun _ => 0, 0, false, false, _, reached⟩, closed⟩

/-- The first send to a peer that is gone returns for one byte. -/
theorem blocking_send_returns_one_byte :
    ∃ connection : ConnectionEnd .shmSegmentRing, connection.PeerGone ∧
      ∃ final result, connection.outbound.SendReturns [7] ⟨false, false⟩ final result := by
  obtain ⟨inbound, reachable, closed⟩ := exists_closedDirection
  have gone : (ConnectionEnd.mk freshDirection inbound).PeerGone :=
    ⟨freshDirection_reachable, reachable, closed, rfl⟩
  refine ⟨⟨freshDirection, inbound⟩, gone, ?_⟩
  exact
    (blocking_send_returns_iff_fits _ gone [7] ⟨false, false⟩ rfl).mpr
      (show 1 ≤ freshDirection.ring.writable by decide +kernel)

/--
A peer that is gone after it left the whole ring unread: the next blocking
send of a single byte does not return.
-/
theorem blocking_send_to_departed_peer_waits :
    ∃ connection : ConnectionEnd .shmSegmentRing, connection.PeerGone ∧
      connection.outbound.senderNonblocking = false ∧
      ∀ final result, ¬ connection.outbound.SendReturns [7] ⟨false, false⟩ final result := by
  obtain ⟨inbound, reachable, closed⟩ := exists_closedDirection
  obtain ⟨start, invariant⟩ := freshDirection_reachable.callInvariant
  have whole : (List.replicate (2 ^ 20) (7 : UInt8)).length = freshDirection.ring.writable := by
    rw [List.length_replicate]
    decide +kernel
  obtain ⟨full, returns, sends, ready⟩ :=
    (invariant.sendReady rfl).returns_all ⟨false, false⟩ (Nat.le_of_eq whole)
  have noRoom : full.ring.writable = 0 := by
    have rest := sends.writable_eq invariant.ring ready.invariant
    rw [whole] at rest
    exact rest.trans (Nat.sub_self _)
  obtain ⟨actions, reached⟩ := returns.exists_run
  refine ⟨⟨full, inbound⟩, ⟨freshDirection_reachable.run reached, reachable, closed, ready.sender⟩,
    sends.senderNonblocking, ?_⟩
  apply ready.not_returns
  · rw [sends.senderNonblocking]
    rfl
  · rw [noRoom]
    exact Nat.one_pos

end ConnectionEnd

/-- The argument of `shutdown`. -/
inductive ShutdownHow
  | shutRd
  | shutWr
  | shutRdwr
  deriving DecidableEq, Repr

/-- Which directions of its kernel socket an end has shut down. -/
structure SocketShutdown where
  rd : Bool
  wr : Bool
  deriving DecidableEq, Repr

/-- The kernel's `shutdown`, which returns 0 on a connected socket. -/
def SocketShutdown.shutdown (socket : SocketShutdown) : ShutdownHow → SocketShutdown
  | .shutRd => { socket with rd := true }
  | .shutWr => { socket with wr := true }
  | .shutRdwr => ⟨true, true⟩

/--
One direction of a connection together with the kernel sockets of its ends:
`first` sends through the ring and `second` receives from it.
-/
structure HalfCloseState (capacity : Capacity) where
  channel : ShmChannel capacity
  first : SocketShutdown
  second : SocketShutdown

namespace HalfCloseState

/--
What `kernel_fd_hung_up` finds at the second end while both sockets are open: both
directions are shut, the receiving one by this end or by the FIN of the other.
-/
def hungUp (state : HalfCloseState capacity) : Bool :=
  (state.second.rd || state.first.wr) && state.second.wr

/-- A step of one of the ends. -/
inductive Action
  | channel (action : ChannelAction)
  | shutdownFirst (how : ShutdownHow)
  | shutdownSecond (how : ShutdownHow)

/--
Whether the kernel may give the answer that an action carries: the receiver is
told what its socket's state is.
-/
def Answers (state : HalfCloseState capacity) : ChannelAction → Bool
  | .receiverStep answer => answer == state.hungUp
  | _ => true

/--
The step function.  `shutdown` passes through to the kernel and changes
nothing else.
-/
def step? (state : HalfCloseState capacity) : Action → Option (HalfCloseState capacity)
  | .channel action =>
    if state.Answers action then
      (state.channel.step? action).map fun channel => { state with channel := channel }
    else
      none
  | .shutdownFirst how => some { state with first := state.first.shutdown how }
  | .shutdownSecond how => some { state with second := state.second.shutdown how }

/-- A connection right after its upgrade. -/
def initial (capacity : Capacity) (start : UInt64) (data : Nat → UInt8) (wakeCount : UInt32)
    (senderNonblocking receiverNonblocking : Bool) :
    HalfCloseState capacity where
  channel := .initial capacity start data wakeCount senderNonblocking receiverNonblocking
  first := ⟨false, false⟩
  second := ⟨false, false⟩

variable {state next : HalfCloseState capacity}

theorem step?_channel {action : Action} (stepped : state.step? action = some next) :
    (∃ channelAction, state.channel.step? channelAction = some next.channel) ∨
      next.channel = state.channel := by
  cases action with
  | channel channelAction =>
    simp only [step?, Option.ite_none_right_eq_some, Option.map_eq_some_iff] at stepped
    obtain ⟨_, channel, moved, rfl⟩ := stepped
    exact .inl ⟨channelAction, moved⟩
  | shutdownFirst how | shutdownSecond how =>
    simp only [step?, Option.some.injEq] at stepped
    subst stepped
    exact .inr rfl

theorem channel_reachable_of_run {start : UInt64} {data : Nat → UInt8} {wakeCount : UInt32}
    {senderNonblocking receiverNonblocking : Bool} {actions : List Action}
    (reached : run? step?
      (initial capacity start data wakeCount senderNonblocking receiverNonblocking)
      actions = some state) :
    state.channel.Reachable := by
  refine @invariant_of_run _ _ step?
    (fun state => state.channel.Reachable) _ ?_ ?_ _ _ reached
  · exact ⟨start, data, wakeCount, senderNonblocking, receiverNonblocking, [], rfl⟩
  · intro state action next reachable stepped
    rcases step?_channel stepped with ⟨channelAction, moved⟩ | same
    · exact reachable.step channelAction moved
    · rw [same]
      exact reachable

/--
The first end has shut down its sending side and sends nothing more, and the
second end has received every byte.
-/
structure Drained (state : HalfCloseState capacity) : Prop where
  shut : state.first.wr = true
  sender : state.channel.sender = .idle
  receiver : state.channel.receiver = .idle
  empty : state.channel.ring.contents = []

theorem Drained.hungUp_eq (drained : state.Drained) : state.hungUp = state.second.wr := by
  rw [hungUp, drained.shut, Bool.or_true, Bool.true_and]

/-- On an empty ring 0 is returned at the closed flag or at a hang-up while blocking. -/
theorem recvReturns_zero_iff {start : UInt64} {channel : ShmChannel capacity} {n : Nat}
    {flags : MsgFlags} (ready : channel.RecvReady start) (positive : 0 < n)
    (noPeek : flags.peek = false) (empty : channel.ring.contents = []) (hungUp : Bool) :
    (∃ final, channel.RecvReturns hungUp n flags final .zero) ↔ channel.ring.peerClosed = true ∨
      (channel.receiverNonblocking || flags.dontWait) = false ∧ hungUp = true := by
  constructor
  · rintro ⟨final, returns⟩
    by_contra waits
    have isOpen : channel.ring.peerClosed = false := by
      simpa using fun closed => waits (.inl closed)
    cases blocking : channel.receiverNonblocking || flags.dontWait with
    | true =>
      obtain ⟨again, returnsAgain, _, _⟩ :=
        ready.returns_again positive noPeek empty isOpen blocking hungUp
      cases (returns.unique returnsAgain).2
    | false =>
      cases hungUp with
      | true => exact waits (.inr ⟨blocking, rfl⟩)
      | false => exact ready.not_returns positive noPeek empty isOpen blocking final .zero returns
  · intro ends
    obtain ⟨final, returns, _, _⟩ := ready.returns_zero positive noPeek empty ends
    exact ⟨final, returns⟩

/--
After the first end has shut down its sending side and the ring is drained,
the next receive of the second end returns 0 exactly if it asks for no byte,
or the ring has been marked closed, or it is a blocking receive of an end that
has shut down its own sending side.
-/
theorem recv_after_shutdown_returns_zero_iff
    {start : UInt64}
    {data : Nat → UInt8}
    {wakeCount : UInt32}
    {senderNonblocking receiverNonblocking : Bool}
    {actions : List Action}
    (reached :
      run? step? (initial capacity start data wakeCount senderNonblocking receiverNonblocking)
          actions =
        some state)
    (drained : state.Drained)
    (n : Nat)
    (flags : MsgFlags) :
    (∃ final, state.channel.RecvReturns state.hungUp n flags final .zero) ↔
      n = 0 ∨
      flags.peek = false ∧
      (state.channel.ring.peerClosed = true ∨
        (state.channel.receiverNonblocking || flags.dontWait) = false ∧ state.second.wr = true) := by
  obtain ⟨first, invariant⟩ := (channel_reachable_of_run reached).callInvariant
  have ready := invariant.recvReady drained.receiver
  rw [drained.hungUp_eq]
  rcases Nat.eq_zero_or_pos n with rfl | positive
  · exact ⟨fun _ => .inl rfl, fun _ => ⟨_, ShmChannel.recvReturns_no_byte _ _ _⟩⟩
  · cases peek : flags.peek with
    | true =>
      constructor
      · rintro ⟨final, returns⟩
        have refused := state.channel.recvReturns_peek state.second.wr positive peek
        cases (returns.unique refused).2
      · rintro (none | ⟨peeks, _⟩)
        · exact absurd none (Nat.ne_of_gt positive)
        · cases peeks
    | false =>
      rw [recvReturns_zero_iff ready positive peek drained.empty]
      constructor
      · intro ends
        exact .inr ⟨rfl, ends⟩
      · rintro (none | ⟨_, ends⟩)
        · exact absurd none (Nat.ne_of_gt positive)
        · exact ends

/-- The first end sends a byte and the second one receives it. -/
private def oneByteDelivered : List Action :=
  [Action.channel (ChannelAction.send [7] ⟨false, false⟩)] ++
    List.replicate 8 (Action.channel ChannelAction.senderStep) ++
    [Action.channel (ChannelAction.recv 1 ⟨false, false⟩)] ++
    List.replicate 5 (Action.channel (ChannelAction.receiverStep false))

/-- A connection of two blocking sockets right after its upgrade. -/
private def blockingConnection : HalfCloseState .shmSegmentRing :=
  initial .shmSegmentRing 0 (fun _ => 0) 0 false false

/--
Both ends shut down their sending side after a byte has been delivered: the
kernel reports the hang-up and the next blocking receive returns 0.
-/
theorem recv_returns_zero_after_both_shutdowns :
    ∃ state final,
      run? step? blockingConnection
          (oneByteDelivered ++ [.shutdownFirst .shutWr, .shutdownSecond .shutWr]) =
        some state ∧
      state.channel.RecvReturns state.hungUp 1 ⟨false, false⟩ final .zero := by
  obtain ⟨state, reached, shut, sender, receiver, empty, blocking, wr⟩ :=
    exists_reached_of_check step? blockingConnection
      (oneByteDelivered ++ [.shutdownFirst .shutWr, .shutdownSecond .shutWr])
      (fun state =>
        state.first.wr = true ∧ state.channel.sender = .idle ∧ state.channel.receiver = .idle ∧
          state.channel.ring.contents = [] ∧ state.channel.receiverNonblocking = false ∧
          state.second.wr = true)
      (by decide +kernel)
  have drained : state.Drained := ⟨shut, sender, receiver, empty⟩
  obtain ⟨final, returns⟩ :=
    (recv_after_shutdown_returns_zero_iff reached drained 1
      ⟨false, false⟩).mpr
      (.inr ⟨rfl, .inr ⟨by rw [blocking]; rfl, wr⟩⟩)
  exact ⟨state, final, reached, returns⟩

/--
Only the first end shuts down its sending side after a byte has been
delivered: the next blocking receive of the second end does not return.
-/
theorem recv_waits_after_shutdown :
    ∃ state,
      run? step? blockingConnection (oneByteDelivered ++ [.shutdownFirst .shutWr]) = some state ∧
      state.Drained ∧
      ∀ final result, ¬ state.channel.RecvReturns state.hungUp 1 ⟨false, false⟩ final result := by
  obtain ⟨state, reached, shut, sender, receiver, empty, blocking, isOpen, noHangUp⟩ :=
    exists_reached_of_check step? blockingConnection
      (oneByteDelivered ++ [.shutdownFirst .shutWr])
      (fun state =>
        state.first.wr = true ∧ state.channel.sender = .idle ∧ state.channel.receiver = .idle ∧
          state.channel.ring.contents = [] ∧ state.channel.receiverNonblocking = false ∧
          state.channel.ring.peerClosed = false ∧ state.hungUp = false)
      (by decide +kernel)
  refine ⟨state, reached, ⟨shut, sender, receiver, empty⟩, ?_⟩
  obtain ⟨start, invariant⟩ := (channel_reachable_of_run reached).callInvariant
  rw [noHangUp]
  exact (invariant.recvReady receiver).not_returns Nat.one_pos rfl empty
    isOpen (by rw [blocking]; rfl)

end HalfCloseState

end SocksDirect
