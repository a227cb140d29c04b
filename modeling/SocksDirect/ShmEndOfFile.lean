import SocksDirect.ShmChannelMoves

namespace SocksDirect

open Machine

/-!
# End of file never overtakes data

`shm_recv` returns 0 after three separate looks at the ring: `recv_some` found
nothing, the closed flag was set, and then `readable` was 0.  If nothing is
published after the flag is set, the last look is conclusive.  From then on the
direction stays drained, and every further call takes the same five steps to
the same result.
-/

namespace RecvReturn

/-- The bytes a finished `shm_recv` call handed to its caller. -/
def bytes (entry : RecvReturn) : List UInt8 :=
  match entry.result with
  | .data bytes => bytes
  | _ => []

/-- A call that could have returned data and returned 0. -/
def EndOfFile (entry : RecvReturn) : Prop := 0 < entry.n ∧ entry.result = .zero

end RecvReturn

namespace ShmChannel

variable {capacity : Capacity}

/-- All bytes that a history of `shm_recv` calls handed out, in order. -/
def returnedBytes (returns : List RecvReturn) : List UInt8 := returns.flatMap RecvReturn.bytes

/-- The peer publishes nothing after a `mark_closed`, whoever executed it. -/
def PublishesBeforeClose (channel : ShmChannel capacity) (action : ChannelAction) : Prop :=
  channel.ring.peerClosed = true → ∀ next, channel.step? action = some next →
      next.system.accepted = channel.system.accepted

instance (channel : ShmChannel capacity) (action : ChannelAction) :
    Decidable (channel.PublishesBeforeClose action) :=
  inferInstanceAs (Decidable (_ → ∀ next, _ = some next → _ = _))

/-- The positions of `shm_recv` on a drained and closed ring. -/
def AtEnd (channel : ShmChannel capacity) : Prop :=
  match channel.receiver, channel.system.consumer with
  | .idle, none => True
  | .loop _, none => True
  | .inRecvSome _, some (.loadTail _) => True
  | .inRecvSome _, some (.loadHead _ _) => True
  | .testClosed _, none => True
  | .testReadable _, none => True
  | _, _ => False

/-- How many steps of its own `shm_recv` still takes on such a ring. -/
def stepsToEnd (channel : ShmChannel capacity) : Nat :=
  match channel.receiver, channel.system.consumer with
  | .idle, _ => 0
  | .testReadable _, _ => 1
  | .testClosed _, _ => 2
  | .inRecvSome _, some (.loadHead _ _) => 3
  | .inRecvSome _, some (.loadTail _) => 4
  | _, _ => 5

/-- The ring is closed, drained, and `shm_recv` is on its way to return 0. -/
structure Ended (channel : ShmChannel capacity) : Prop where
  closed : channel.ring.peerClosed = true
  drained : channel.system.received = channel.system.accepted
  position : channel.AtEnd

/-- What `shm_recv` has established at each of its positions. -/
structure RecvInvariant (channel : ShmChannel capacity) : Prop where
  returned : returnedBytes channel.returns = channel.system.received
  consuming : channel.system.consumer ≠ none ↔ ∃ call, channel.receiver = .inRecvSome call
  closedSeen : ∀ {call}, channel.receiver = .testReadable call → channel.ring.peerClosed = true

/-- What the history of calls says once it contains an end of file. -/
structure EndInvariant (channel : ShmChannel capacity) : Prop where
  ended : ∀ entry ∈ channel.returns, entry.EndOfFile → channel.Ended
  complete : ∀ {earlier entry later}, channel.returns = earlier ++ entry :: later →
      entry.EndOfFile → returnedBytes earlier = channel.system.accepted
  final : ∀ {earlier entry later}, channel.returns = earlier ++ entry :: later → entry.EndOfFile →
      ∀ other ∈ later, 0 < other.n → other.peek = false → other.result = .zero

/--
A step of another party: it leaves the calls, the received bytes and the
consumer alone and can at most release a parked receiver.
-/
structure OtherParty
    (channel next : ShmChannel capacity) : Prop where
  returns : next.returns = channel.returns
  received : next.system.received = channel.system.received
  consumer : next.system.consumer = channel.system.consumer
  closed : channel.ring.peerClosed = true → next.ring.peerClosed = true
  receiver : next.receiver = channel.receiver ∨ ∃ call released, channel.receiver = .parked call ∧
          next.receiver = .loop released

section Others

variable {channel next : ShmChannel capacity}

theorem futexWake_otherParty (returns : next.returns = channel.returns)
    (system : next.system = channel.system)
    (receiver : next.receiver = channel.futexWake.receiver) :
    OtherParty channel next where
  returns := returns
  received := by rw [system]
  consumer := by rw [system]
  closed := by simp [ShmChannel.ring, system]
  receiver := by
    rw [receiver]
    exact channel.futexWake_receiver_cases.imp_right
      fun ⟨call, parked, released⟩ => ⟨call, _, parked, released⟩

theorem SenderMove.otherParty {result : Option SendResult} (move : SenderMove channel next result) :
    OtherParty channel next := by
  cases move with
  | enter position unfinished started =>
    simp only [RingSystem.step?] at started
    split at started
    · cases started
      exact ⟨rfl, rfl, rfl, id, .inl rfl⟩
    · cases started
  | access position move | published position positive move
  | foundFull position move => cases move <;> exact ⟨rfl, rfl, rfl, id, .inl rfl⟩
  | wake position => exact futexWake_otherParty (by simp) (by simp) rfl
  | _ => exact ⟨rfl, rfl, rfl, id, .inl rfl⟩

theorem CloserMove.otherParty {moved : ShmChannel capacity} {position after : Closer}
    (move : CloserMove channel position moved after) (returns : next.returns = moved.returns)
    (system : next.system = moved.system) (receiver : next.receiver = moved.receiver) :
    OtherParty channel next := by
  cases move with
  | mark =>
    refine ⟨returns, by rw [system], by rw [system], ?_, .inl receiver⟩
    intro _
    simp [ShmChannel.ring, system, ShmRing.peerClosed, ShmRing.markClosed]
  | bump =>
    refine ⟨returns, by rw [system], by rw [system], ?_, .inl receiver⟩
    simp [ShmChannel.ring, system]
  | wake => exact futexWake_otherParty (by simpa using returns) (by simpa using system) receiver

end Others

section Received

variable {channel next : ShmChannel capacity}

theorem consumerMove_received {system moved : RingSystem capacity} {returned : Option (List UInt8)}
    (move : RingSystem.ConsumerMove system moved returned) :
    moved.received = system.received ++ returned.getD [] ∧ moved.accepted = system.accepted ∧
      moved.ring.closed = system.ring.closed ∧ (moved.consumer = none ↔ returned ≠ none) := by
  cases move <;> simp

theorem RecvInvariant.otherParty (before : channel.RecvInvariant)
    (other : OtherParty channel next) :
    next.RecvInvariant where
  returned := by
    rw [other.returns, other.received]
    exact before.returned
  consuming := by
    rw [other.consumer, before.consuming]
    rcases other.receiver with same | ⟨call, released, parked, woken⟩
    · rw [same]
    · simp [parked, woken]
  closedSeen := by
    intro call position
    rcases other.receiver with same | ⟨_, released, _, woken⟩
    · exact other.closed (before.closedSeen (same.symm.trans position))
    · simp [woken] at position

private theorem RecvInvariant.moveTo (before : channel.RecvInvariant)
    (outside : ∀ call, channel.receiver ≠ .inRecvSome call) {receiver : Receiver}
    (outsideAfter : ∀ call, receiver ≠ .inRecvSome call)
    (closedSeen : ∀ {call}, receiver = .testReadable call → channel.ring.peerClosed = true) :
    { channel with receiver := receiver }.RecvInvariant where
  returned := before.returned
  consuming := by
    have same := before.consuming
    simp only [outside, exists_false, iff_false] at same
    simp only [outsideAfter, exists_false, iff_false]
    exact same
  closedSeen := closedSeen

private theorem RecvInvariant.record (before : channel.RecvInvariant) {n : Nat} {peek : Bool}
    {result : RecvResult} (noBytes : RecvReturn.bytes ⟨n, peek, result⟩ = []) :
    (channel.record n peek (some result)).RecvInvariant where
  returned := by
    simp only [ShmChannel.record, returnedBytes, List.flatMap_append,
      List.flatMap_singleton, noBytes, List.append_nil]
    exact before.returned
  consuming := before.consuming
  closedSeen := before.closedSeen

/-- Steps of `shm_recv` keep what it has established. -/
theorem RecvInvariant.receiverMove {result : Option RecvResult} (before : channel.RecvInvariant)
    (move : ReceiverMove channel next result) :
    (next.record channel.receiver.request false result).RecvInvariant := by
  cases move with
  | enter position started =>
    simp only [RingSystem.step?] at started
    split at started
    · cases started
      exact {
        returned := before.returned
        consuming := by simp [ShmChannel.record]
        closedSeen := by simp [ShmChannel.record] }
    · cases started
  | access _ move | nothing _ move =>
    obtain ⟨received, _, _, consumer⟩ := consumerMove_received move
    exact {
      returned := before.returned.trans (by simp [ShmChannel.record, received])
      consuming := by simp [ShmChannel.record, consumer]
      closedSeen := by simp [ShmChannel.record] }
  | data position nonempty move =>
    obtain ⟨received, _, _, consumer⟩ := consumerMove_received move
    exact {
      returned := by
        simp only [ShmChannel.record, returnedBytes, List.flatMap_append, List.flatMap_singleton,
          RecvReturn.bytes, received, Option.getD_some]
        exact congrArg (· ++ _) before.returned
      consuming := by simp [ShmChannel.record, consumer]
      closedSeen := by simp [ShmChannel.record] }
  | closedSeen position closed =>
    exact before.moveTo (by simp [position]) (by simp) (fun _ => closed)
  | endOfFile position drained =>
    exact (before.moveTo (by simp [position]) (by simp) (by simp)).record rfl
  | giveUp position nonblocking =>
    refine (before.moveTo ?_ (by simp) (by simp)).record rfl
    rcases position with ⟨position, _⟩ | ⟨position, _⟩ <;>
      simp [position]
  | block position blocking =>
    refine before.moveTo ?_ (by simp) (by simp)
    rcases position with ⟨position, _⟩ | ⟨position, _⟩ <;>
      simp [position]
  | @markClosed call position =>
    have moved : { channel with receiver := .loop call }.RecvInvariant :=
      before.moveTo (by simp [position]) (by simp) (by simp)
    exact {
      returned := moved.returned
      consuming := moved.consuming
      closedSeen := by simp [ShmChannel.record] }
  | hungUp position | spin position | goQuiet position
  | sample position | dataAgain position | stillEmpty position drained
  | closedAgain position | stillOpen position isOpen
  | park position unchanged | missed position =>
    exact before.moveTo (by simp [position]) (by simp) (by simp)

theorem Move.recvInvariant {action : ChannelAction} (move : Move channel action next)
    (before : channel.RecvInvariant) :
    next.RecvInvariant := by
  cases move with
  | sendEmpty => exact before
  | sendCall position nonempty => exact before.otherParty ⟨rfl, rfl, rfl, id, .inl rfl⟩
  | sender move => exact before.otherParty move.otherParty
  | recvAtOnce value =>
    refine before.record ?_
    rcases value with ⟨_, rfl⟩ | ⟨_, _, rfl⟩ <;> rfl
  | recvCall position positive noPeek =>
    exact before.moveTo (by simp [position]) (by simp) (by simp)
  | receiver enabled move => exact before.receiverMove move
  | futexReturn => exact before.otherParty (futexWake_otherParty (by simp) (by simp) rfl)
  | peerClose move | watchdog move => exact before.otherParty (move.otherParty rfl rfl rfl)

/-- A `shm_recv` call that is not parked can always take its next step. -/
theorem RecvInvariant.receiverStep_enabled (invariant : channel.RecvInvariant)
    (inCall : channel.receiver ≠ .idle) (running : ∀ call, channel.receiver ≠ .parked call)
    (hungUp : Bool) :
    ∃ next result, channel.receiverStep? hungUp = some (next, result) := by
  have consuming := invariant.consuming
  cases receiver : channel.receiver with
  | idle => exact absurd receiver inCall
  | parked call => exact absurd receiver (running call)
  | loop call =>
    have free : channel.system.consumer = none := by simpa [receiver] using consuming
    simp [receiverStep?, receiver, RingSystem.step?, free]
  | inRecvSome call =>
    obtain ⟨recvSome, inProgress⟩ := Option.ne_none_iff_exists'.mp (consuming.mpr ⟨call, receiver⟩)
    obtain ⟨⟨system, returned⟩, stepped⟩ := RingSystem.consumerStep?_enabled inProgress
    simp only [receiverStep?, receiver, stepped]
    cases returned with
    | none => exact ⟨_, _, rfl⟩
    | some bytes => by_cases nonempty : bytes.length > 0 <;> simp [nonempty]
  | _ =>
    simp only [receiverStep?, receiver]
    repeat' split
    all_goals exact ⟨_, _, rfl⟩

end Received

section EndOfFile

variable {start : UInt64} {channel next : ShmChannel capacity}

theorem Ended.snapshot_empty (ended : channel.Ended) (ring : channel.system.Invariant start)
    {len : Nat} {t : UInt64} (loaded : channel.system.consumer = some (.loadHead len t)) :
    (t - channel.system.ring.head).toNat = 0 := by
  obtain ⟨published, rfl, lower, upper⟩ := ring.consumerReady loaded
  have sameLength := congrArg List.length ended.drained
  have exact : published = channel.system.received.length := by omega
  rw [ring.headValue, exact]
  simp

theorem Ended.readable_eq_zero (ended : channel.Ended) (ring : channel.system.Invariant start) :
    channel.ring.readable = 0 := by
  rw [ShmChannel.ring, ring.readable_eq, ended.drained]
  exact Nat.sub_self _

theorem Ended.otherParty (ended : channel.Ended) (other : OtherParty channel next)
    (accepted : next.system.accepted = channel.system.accepted) :
    next.Ended where
  closed := other.closed ended.closed
  drained := by
    rw [other.received, accepted]
    exact ended.drained
  position := by
    have position := ended.position
    rcases other.receiver with same | ⟨call, released, parked, _⟩
    · simpa only [AtEnd, same, other.consumer] using position
    · simp [AtEnd, parked] at position

/-- On an ended direction `shm_recv` is on its way to the result 0. -/
theorem Ended.receiverMove {result : Option RecvResult} (ended : channel.Ended)
    (ring : channel.system.Invariant start) (move : ReceiverMove channel next result) :
    next.Ended ∧ next.stepsToEnd < channel.stepsToEnd ∧
      next.system.accepted = channel.system.accepted ∧ (result = none ∨ result = some .zero) := by
  have position := ended.position
  have readable := ended.readable_eq_zero ring
  cases move with
  | enter standing started =>
    simp only [RingSystem.step?] at started
    split at started
    · cases started
      refine ⟨⟨ended.closed, ended.drained, trivial⟩, ?_, rfl, .inl rfl⟩
      simp [stepsToEnd, standing]
    · cases started
  | access standing move =>
    cases move with
    | loadTail inProgress =>
      refine ⟨⟨ended.closed, ended.drained, trivial⟩, ?_, rfl, .inl rfl⟩
      simp [stepsToEnd, standing, inProgress]
    | loadHead inProgress data amount => exact absurd (ended.snapshot_empty ring inProgress) data
    | fetch inProgress unfinished => simp [AtEnd, standing, inProgress] at position
  | data standing nonempty move =>
    cases move with
    | empty inProgress noData => exact absurd rfl nonempty
    | publish inProgress finished => simp [AtEnd, standing, inProgress] at position
  | nothing standing move =>
    cases move with
    | empty inProgress noData =>
      refine ⟨⟨ended.closed, ended.drained, trivial⟩, ?_, rfl, .inl rfl⟩
      simp [stepsToEnd, standing, inProgress]
    | publish inProgress finished => simp [AtEnd, standing, inProgress] at position
  | closedSeen standing closed =>
    refine ⟨⟨closed, ended.drained, ?_⟩, ?_, rfl, .inl rfl⟩
    · cases consumer : channel.system.consumer <;>
        simp_all [AtEnd]
    · simp [stepsToEnd, standing]
  | endOfFile standing drained =>
    refine ⟨⟨ended.closed, ended.drained, ?_⟩, ?_, rfl, .inr rfl⟩
    · cases consumer : channel.system.consumer <;>
        simp_all [AtEnd]
    · simp [stepsToEnd, standing]
  | giveUp standing _ | block standing _ =>
    rcases standing with ⟨_, isOpen⟩ | ⟨_, notDrained⟩
    · exact absurd (isOpen.symm.trans ended.closed) (by simp)
    · exact absurd readable notDrained
  | hungUp standing | spin standing | goQuiet standing
  | markClosed standing
  | sample standing | dataAgain standing | stillEmpty standing _
  | closedAgain standing | stillOpen standing _
  | park standing _ | missed standing => simp [AtEnd, standing] at position

private theorem split_of_append_singleton {history earlier later : List RecvReturn}
    {last entry : RecvReturn} (split : history ++ [last] = earlier ++ entry :: later) :
    (later = [] ∧ entry = last ∧ earlier = history) ∨
      ∃ rest, later = rest ++ [last] ∧ history = earlier ++ entry :: rest := by
  rcases List.eq_nil_or_concat later with rfl | ⟨rest, final, rfl⟩
  · obtain ⟨rfl, same⟩ := List.append_inj' split rfl
    exact .inl ⟨rfl, (List.cons.inj same).1.symm, rfl⟩
  · rw [List.concat_eq_append, ← List.cons_append, ← List.append_assoc] at split
    obtain ⟨same, lastSame⟩ := List.append_inj' split rfl
    obtain rfl := (List.cons.inj lastSame).1
    exact .inr ⟨rest, List.concat_eq_append, same⟩

/-- A step that finishes no call keeps what the history says. -/
private theorem EndInvariant.keep (before : channel.EndInvariant)
    (returns : next.returns = channel.returns)
    (stays : channel.Ended → next.Ended ∧ next.system.accepted = channel.system.accepted) :
    next.EndInvariant where
  ended := by
    intro entry member endOfFile
    rw [returns] at member
    exact (stays (before.ended entry member endOfFile)).1
  complete := by
    intro earlier entry later split endOfFile
    rw [returns] at split
    have ended := before.ended entry (by simp [split]) endOfFile
    rw [(stays ended).2]
    exact before.complete split endOfFile
  final := by
    intro earlier entry later split
    rw [returns] at split
    exact before.final split

/-- A finished call extends the history by one entry. -/
private theorem EndInvariant.append (before : channel.EndInvariant) {last : RecvReturn}
    (returns : next.returns = channel.returns ++ [last])
    (stays : channel.Ended → next.Ended ∧ next.system.accepted = channel.system.accepted ∧
      (0 < last.n → last.peek = false → last.result = .zero))
    (ends : last.EndOfFile → next.Ended ∧ returnedBytes channel.returns = next.system.accepted) :
    next.EndInvariant where
  ended := by
    intro entry member endOfFile
    rw [returns, List.mem_append, List.mem_singleton] at member
    rcases member with old | rfl
    · exact (stays (before.ended entry old endOfFile)).1
    · exact (ends endOfFile).1
  complete := by
    intro earlier entry later split endOfFile
    rw [returns] at split
    rcases split_of_append_singleton split with ⟨rfl, rfl, rfl⟩ | ⟨rest, rfl, old⟩
    · exact (ends endOfFile).2
    · have ended := before.ended entry (by simp [old]) endOfFile
      rw [(stays ended).2.1]
      exact before.complete old endOfFile
  final := by
    intro earlier entry later split endOfFile other member positive noPeek
    rw [returns] at split
    rcases split_of_append_singleton split with ⟨rfl, rfl, rfl⟩ | ⟨rest, rfl, old⟩
    · cases member
    · rw [List.mem_append, List.mem_singleton] at member
      rcases member with inRest | rfl
      · exact before.final old endOfFile other inRest positive noPeek
      · have ended := before.ended entry (by simp [old]) endOfFile
        exact (stays ended).2.2 positive noPeek

/-- On a closed ring without readable bytes everything has been returned, for good. -/
private theorem RecvInvariant.conclusive (recv : channel.RecvInvariant)
    (ring : channel.system.Invariant start) {call : RecvCall}
    (position : channel.receiver = .testReadable call) (drained : channel.ring.readable = 0) :
    { channel with receiver := .idle }.Ended ∧
      returnedBytes channel.returns = channel.system.accepted := by
  have allReceived : channel.system.received = channel.system.accepted := by
    have ordered := ring.received_le_accepted
    rw [ShmChannel.ring, ring.readable_eq] at drained
    exact ring.receivedPrefix.eq_of_length (by omega)
  have outside : channel.system.consumer = none := by simpa [position] using recv.consuming
  refine ⟨⟨recv.closedSeen position, allReceived, ?_⟩, recv.returned.trans allReceived⟩
  simp [AtEnd, outside]

/-- Steps of `shm_recv` keep what the history says. -/
theorem EndInvariant.receiverMove {result : Option RecvResult} (before : channel.EndInvariant)
    (ring : channel.system.Invariant start) (recv : channel.RecvInvariant)
    (move : ReceiverMove channel next result) :
    (next.record channel.receiver.request false result).EndInvariant := by
  have stays (ended : channel.Ended) := ended.receiverMove ring move
  cases result with
  | none =>
    have sameReturns : next.returns = channel.returns := by cases move <;> rfl
    exact before.keep sameReturns (fun ended => ⟨(stays ended).1, (stays ended).2.2.1⟩)
  | some result =>
    have sameReturns : next.returns = channel.returns := by cases move <;> rfl
    refine before.append (congrArg (· ++ _) sameReturns) ?_ ?_
    · intro ended
      obtain ⟨next, _, accepted, value⟩ := stays ended
      exact ⟨⟨next.closed, next.drained, next.position⟩, accepted, fun _ _ => by simpa using value⟩
    · rintro ⟨_, isZero⟩
      cases isZero
      cases move with
      | endOfFile position drained =>
        obtain ⟨ended, complete⟩ := recv.conclusive ring position drained
        exact ⟨⟨ended.closed, ended.drained, ended.position⟩, complete⟩

/-- Every step keeps what the history says. -/
theorem Move.endInvariant {action : ChannelAction} (move : Move channel action next)
    (ring : channel.system.Invariant start) (recv : channel.RecvInvariant)
    (publishes : channel.ring.peerClosed = true → next.system.accepted = channel.system.accepted)
    (before : channel.EndInvariant) :
    next.EndInvariant := by
  have other (party : OtherParty channel next) : next.EndInvariant :=
    before.keep party.returns
      (fun ended => ⟨ended.otherParty party (publishes ended.closed), publishes ended.closed⟩)
  cases move with
  | sendEmpty => exact before
  | sendCall position nonempty => exact other ⟨rfl, rfl, rfl, id, .inl rfl⟩
  | sender move => exact other move.otherParty
  | recvAtOnce value =>
    refine before.append rfl ?_ ?_
    · intro ended
      refine ⟨⟨ended.closed, ended.drained, ended.position⟩, rfl, ?_⟩
      rcases value with ⟨zeroLength, rfl⟩ | ⟨_, peek, rfl⟩
      · intros
        rfl
      · intro _ noPeek
        exact absurd (peek.symm.trans noPeek) (by simp)
    · rintro ⟨positive, isZero⟩
      rcases value with ⟨zeroLength, rfl⟩ | ⟨_, _, rfl⟩
      · exact absurd zeroLength (Nat.ne_of_gt positive)
      · cases isZero
  | recvCall position positive noPeek =>
    refine before.keep rfl ?_
    intro ended
    refine ⟨⟨ended.closed, ended.drained, ?_⟩, rfl⟩
    have standing := ended.position
    cases consumer : channel.system.consumer <;>
      simp_all [AtEnd]
  | receiver enabled move => exact before.receiverMove ring recv move
  | futexReturn => exact other (futexWake_otherParty (by simp) (by simp) rfl)
  | peerClose move | watchdog move => exact other (move.otherParty rfl rfl rfl)

/-- No other party prolongs a call on an ended direction. -/
private theorem Ended.stepsToEnd_le (ended : channel.Ended) (ring : channel.system.Invariant start)
    {action : ChannelAction} (move : Move channel action next)
    (noCall : ∀ n flags, action ≠ .recv n flags) :
    next.stepsToEnd ≤ channel.stepsToEnd := by
  have other
      (party : OtherParty channel next) :
      next.stepsToEnd ≤ channel.stepsToEnd := by
    have standing := ended.position
    rcases party.receiver with same | ⟨call, released, parked, _⟩
    · simp [stepsToEnd, same, party.consumer]
    · simp [AtEnd, parked] at standing
  cases move with
  | sendEmpty => exact Nat.le_refl _
  | sendCall position nonempty => exact other ⟨rfl, rfl, rfl, id, .inl rfl⟩
  | sender move => exact other move.otherParty
  | recvAtOnce | recvCall => exact absurd rfl (noCall _ _)
  | @receiver hungUp moved result enabled move =>
    have shorter := (ended.receiverMove ring move).2.1
    cases result <;> exact Nat.le_of_lt shorter
  | futexReturn => exact other (futexWake_otherParty (by simp) (by simp) rfl)
  | peerClose move | watchdog move => exact other (move.otherParty rfl rfl rfl)

private theorem Ended.receiverStep_progress (ended : channel.Ended)
    (ring : channel.system.Invariant start) (recv : channel.RecvInvariant)
    (inCall : channel.receiver ≠ .idle) (hungUp : Bool) :
    ∃ next, channel.step? (.receiverStep hungUp) = some next ∧
      next.stepsToEnd < channel.stepsToEnd := by
  have running : ∀ call, channel.receiver ≠ .parked call := by
    intro call parked
    have standing := ended.position
    simp [AtEnd, parked] at standing
  obtain ⟨next, result, stepped⟩ := recv.receiverStep_enabled inCall running hungUp
  have shorter := (ended.receiverMove ring (receiverStep?_move stepped)).2.1
  refine ⟨next.record channel.receiver.request false result, ?_, ?_⟩
  · simp [step?, stepped]
  · cases result <;> exact shorter

end EndOfFile

/-- The invariants of a run in which nothing is published after a close. -/
structure EndOfFileInvariant
    (start : UInt64)
    (channel : ShmChannel capacity) : Prop where
  ring : channel.system.Invariant start
  recv : channel.RecvInvariant
  history : channel.EndInvariant

/-- The three invariants hold along every such run. -/
theorem endOfFileInvariant_of_run {start : UInt64} {data : Nat → UInt8} {wakeCount : UInt32}
    {senderNonblocking receiverNonblocking : Bool} {actions : List ChannelAction}
    {channel : ShmChannel capacity}
    (reached : run? step?
      (initial capacity start data wakeCount senderNonblocking receiverNonblocking)
      actions = some channel)
    (publishesBeforeClose : Along step? PublishesBeforeClose
      (initial capacity start data wakeCount senderNonblocking receiverNonblocking)
      actions) :
    channel.EndOfFileInvariant start := by
  have initially : (initial capacity start data wakeCount senderNonblocking
        receiverNonblocking).EndOfFileInvariant start := {
    ring := RingSystem.Invariant.initial start data
    recv := {
      returned := rfl
      consuming := by simp [initial, RingSystem.initial]
      closedSeen := by simp [initial] }
    history := {
      ended := by simp [initial]
      complete := by simp [initial]
      final := by simp [initial] } }
  refine invariant_along initially ?_ reached publishesBeforeClose
  intro state action next before publishes accepted
  have move := step?_move accepted
  exact {
    ring := move.ringInvariant before.ring
    recv := move.recvInvariant before.recv
    history :=
      move.endInvariant before.ring before.recv
        (fun closed => publishes closed next accepted)
        before.history }

/--
End of file never overtakes data.  When nothing is published after a
`mark_closed`, a `shm_recv` call returns 0 only after all bytes that are ever
published have been returned, and every later call returns 0: it is never
blocked, its own steps bring it closer to its end and no other step takes it
further away.
-/
theorem endOfFile_after_data
    (capacity : Capacity)
    (start : UInt64)
    (data : Nat → UInt8)
    (wakeCount : UInt32)
    (senderNonblocking receiverNonblocking : Bool)
    {actions : List ChannelAction}
    {channel : ShmChannel capacity}
    (reached :
      run? step? (initial capacity start data wakeCount senderNonblocking receiverNonblocking)
          actions =
        some channel)
    (publishesBeforeClose :
      Along step? PublishesBeforeClose
          (initial capacity start data wakeCount senderNonblocking receiverNonblocking) actions)
    {earlier later : List RecvReturn}
    {entry : RecvReturn}
    (history : channel.returns = earlier ++ entry :: later)
    (endOfFile : entry.EndOfFile) :
    returnedBytes earlier = channel.system.accepted ∧
      (∀ other ∈ later, 0 < other.n → other.peek = false → other.result = .zero) ∧
      (channel.receiver ≠ .idle →
        ∀ hungUp,
          ∃ next,
            channel.step? (.receiverStep hungUp) = some next ∧
            next.stepsToEnd < channel.stepsToEnd) ∧
      (∀ action next,
        channel.step? action = some next →
        (∀ n flags, action ≠ .recv n flags) →
        next.stepsToEnd ≤ channel.stepsToEnd) := by
  have invariant := endOfFileInvariant_of_run reached publishesBeforeClose
  have ended := invariant.history.ended entry (by simp [history]) endOfFile
  exact ⟨invariant.history.complete history endOfFile, invariant.history.final history endOfFile,
    fun inCall hungUp => ended.receiverStep_progress invariant.ring invariant.recv inCall hungUp,
    fun action next accepted noCall =>
      ended.stepsToEnd_le invariant.ring (step?_move accepted) noCall⟩

/--
Two bytes are published, the peer closes while the first `shm_recv` copies,
and three more calls follow.
-/
def closingTrace : List ChannelAction :=
  ChannelAction.send [7, 8] ⟨false, false⟩ ::
    (List.replicate 9 ChannelAction.senderStep ++
      ChannelAction.recv 1 ⟨false, false⟩ :: List.replicate 3 (ChannelAction.receiverStep false) ++
      ChannelAction.peerCloseStep :: List.replicate 2 (ChannelAction.receiverStep false) ++
      ChannelAction.recv 4 ⟨false, false⟩ :: List.replicate 5 (ChannelAction.receiverStep false) ++
      ChannelAction.recv 4 ⟨false, false⟩ :: List.replicate 5 (ChannelAction.receiverStep false) ++
      ChannelAction.recv 4 ⟨false, false⟩ :: List.replicate 5 (ChannelAction.receiverStep false))

/-- In the closing trace both bytes are returned before the first 0. -/
theorem endOfFile_after_data_at_close :
    ∃ channel : ShmChannel .shmSegmentRing,
      run? step? (initial .shmSegmentRing (0 - 1) (fun _ => 0) 0 false false) closingTrace =
        some channel ∧
      returnedBytes [⟨1, false, .data [7]⟩, ⟨4, false, .data [8]⟩] = channel.system.accepted := by
  obtain ⟨channel, reached, history⟩ :=
    exists_reached_of_check
      step? (initial .shmSegmentRing (0 - 1) (fun _ => 0) 0 false false)
      closingTrace
      (fun channel =>
        channel.returns = [⟨1, false, .data [7]⟩, ⟨4, false, .data [8]⟩] ++
            ⟨4, false, .zero⟩ :: [⟨4, false, .zero⟩])
      (by decide +kernel)
  exact ⟨channel, reached,
    (endOfFile_after_data _ _ _ _ _ _ reached (by decide +kernel) history ⟨by decide, rfl⟩).1⟩

end ShmChannel

end SocksDirect
