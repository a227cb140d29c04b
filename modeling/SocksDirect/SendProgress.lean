import SocksDirect.ShmCalls
import SocksDirect.SocketStreamMoves

namespace SocksDirect

open Machine

/-!
# A call of `shm_send` while other parties move

What a call of `shm_send` has published so far is a first part of its buffer, in
every state between its first and its last step, whatever the receiver and the
closing parties do meanwhile.  From this follows what the call returns.  A call
that finds room for the rest of its buffer returns if the others pause.
-/

variable {capacity : Capacity}

/-- How many bytes a send call reports as taken over. -/
def SendResult.count : SendResult → Nat
  | .sent total => total
  | .again => 0

/-- What a send of `length` bytes returns that finds `room` and does not wait. -/
def SendResult.ofRoom (length room : Nat) : SendResult :=
  if length ≤ room then
    .sent length
  else if 0 < room then .sent room else .again

/-- A copy that is in progress has something to copy. -/
def SendSome.HasWork : SendSome → Prop
  | .copy _ _ n _ => 0 < n
  | _ => True

namespace ShmChannel

/-- The action is a step of a party other than the sender. -/
def IsForeign : ChannelAction → Prop
  | .send _ _ => False
  | .senderStep => False
  | _ => True

instance : DecidablePred IsForeign
  | .send _ _ | .senderStep => .isFalse id
  | .recv _ _ | .receiverStep _ | .futexReturn | .peerCloseStep
  | .watchdogStep => .isTrue trivial

/-- Some party other than the sender takes a step. -/
def ForeignStep (channel next : ShmChannel capacity) : Prop :=
  ∃ action, IsForeign action ∧ channel.step? action = some next

/-- What such a step leaves alone. -/
structure SendSideKept (channel next : ShmChannel capacity) : Prop where
  sender : next.sender = channel.sender
  senderNonblocking : next.senderNonblocking = channel.senderNonblocking
  producer : next.system.producer = channel.system.producer
  accepted : next.system.accepted = channel.system.accepted
  received : channel.system.received.length ≤ next.system.received.length

theorem SendSideKept.refl (channel : ShmChannel capacity) : SendSideKept channel channel :=
  ⟨rfl, rfl, rfl, rfl, Nat.le_refl _⟩

section Foreign

variable {channel next : ShmChannel capacity}

theorem ReceiverMove.sendSideKept {result : Option RecvResult}
    (move : ReceiverMove channel next result) :
    SendSideKept channel next := by
  obtain ⟨producer, sender⟩ := move.sendingSide
  obtain ⟨received, accepted⟩ := move.received
  refine ⟨sender, ?_, producer, accepted, ?_⟩
  · cases move with
    | _ => rfl
  · rw [received, List.length_append]
    exact Nat.le_add_right _ _

theorem futexWake_sendSideKept (channel : ShmChannel capacity) :
    SendSideKept channel channel.futexWake := by
  refine ⟨?_, ?_, ?_, ?_, ?_⟩
  all_goals simp

theorem CloserMove.sendSideKept {position after : Closer}
    (move : CloserMove channel position next after) :
    SendSideKept channel next := by
  cases move with
  | mark | bump => exact ⟨rfl, rfl, rfl, rfl, Nat.le_refl _⟩
  | wake => exact futexWake_sendSideKept channel

theorem ForeignStep.sendSideKept (stepped : ForeignStep channel next) :
    SendSideKept channel next := by
  obtain ⟨action, foreign, step⟩ := stepped
  cases step?_move step with
  | sendEmpty | sendCall | sender => exact foreign.elim
  | recvAtOnce value | recvCall position positive noPeek =>
    exact ⟨rfl, rfl, rfl, rfl, Nat.le_refl _⟩
  | @receiver hungUp moved result enabled move =>
    have kept := move.sendSideKept
    cases result with
    | none | some value =>
      exact { kept with }
  | futexReturn => exact futexWake_sendSideKept channel
  | peerClose move | watchdog move =>
    have kept := move.sendSideKept
    exact { kept with }

end Foreign

/--
Where a call of `shm_send` stands: the sender's position, the producer's call
and how many bytes of the buffer have been published.
-/
inductive SendPhase
    (buf : List UInt8)
    (nonblock : Bool) :
    Sender → Option SendSome → Nat → Prop where
  | loop {sent : Nat} (within : sent ≤ buf.length) :
      SendPhase buf nonblock (.loop ⟨buf, nonblock, sent⟩) none sent
  | inSendSome {sent : Nat} {call : SendSome} (unfinished : sent < buf.length)
      (argument : call.buf = buf.drop sent) (work : call.HasWork) :
      SendPhase buf nonblock (.inSendSome ⟨buf, nonblock, sent⟩) (some call) sent
  | bump {total did : Nat} (within : total + did ≤ buf.length) :
      SendPhase buf nonblock (.bump ⟨buf, nonblock, total⟩ did) none (total + did)
  | wake {total did : Nat} (within : total + did ≤ buf.length) :
      SendPhase buf nonblock (.wake ⟨buf, nonblock, total⟩ did) none (total + did)
  | ringFull {sent : Nat} (unfinished : sent < buf.length) :
      SendPhase buf nonblock (.ringFull ⟨buf, nonblock, sent⟩) none sent

section Phases

variable {buf : List UInt8} {nonblock : Bool} {call : SendCall} {producer : Option SendSome}
variable {sent did : Nat}

theorem SendPhase.of_loop (phase : SendPhase buf nonblock (.loop call) producer sent) :
    call = ⟨buf, nonblock, sent⟩ ∧ producer = none ∧ sent ≤ buf.length := by
  cases phase with
  | loop within => exact ⟨rfl, rfl, within⟩

theorem SendPhase.of_inSendSome (phase : SendPhase buf nonblock (.inSendSome call) producer sent) :
    call = ⟨buf, nonblock, sent⟩ ∧ sent < buf.length ∧ ∃ work, producer = some work ∧
      work.buf = buf.drop sent ∧ work.HasWork := by
  cases phase with
  | inSendSome unfinished argument work => exact ⟨rfl, unfinished, _, rfl, argument, work⟩

theorem SendPhase.of_bump (phase : SendPhase buf nonblock (.bump call did) producer sent) :
    call.buf = buf ∧ call.nonblock = nonblock ∧ call.total + did = sent ∧ producer = none ∧
      sent ≤ buf.length := by
  cases phase with
  | bump within => exact ⟨rfl, rfl, rfl, rfl, within⟩

theorem SendPhase.of_wake (phase : SendPhase buf nonblock (.wake call did) producer sent) :
    call.buf = buf ∧ call.nonblock = nonblock ∧ call.total + did = sent ∧ producer = none ∧
      sent ≤ buf.length := by
  cases phase with
  | wake within => exact ⟨rfl, rfl, rfl, rfl, within⟩

theorem SendPhase.of_ringFull (phase : SendPhase buf nonblock (.ringFull call) producer sent) :
    call = ⟨buf, nonblock, sent⟩ ∧ producer = none ∧ sent < buf.length := by
  cases phase with
  | ringFull unfinished => exact ⟨rfl, rfl, unfinished⟩

end Phases

/--
A call of `shm_send` that began with the ring in state `before` and has published
`sent` bytes.  A full ring has taken at least what there was room for.
-/
structure SendProgress
    (before : RingSystem capacity)
    (buf : List UInt8)
    (nonblock : Bool)
    (sent : Nat)
    (channel : ShmChannel capacity) : Prop where
  phase : SendPhase buf nonblock channel.sender channel.system.producer sent
  accepted : channel.system.accepted = before.accepted ++ buf.take sent
  received : before.received.length ≤ channel.system.received.length
  full : ∀ call, channel.sender = .ringFull call →
      before.received.length + capacity.kBufBytes ≤ channel.system.accepted.length

/-- What a call of `shm_send` has done when it returns. -/
structure SendOutcome
    (before : RingSystem capacity)
    (buf : List UInt8)
    (nonblock : Bool)
    (final : ShmChannel capacity)
    (result : SendResult) : Prop where
  sender : final.sender = .idle
  producer : final.system.producer = none
  accepted : final.system.accepted = before.accepted ++ buf.take result.count
  received : before.received.length ≤ final.system.received.length
  value : result = .sent buf.length ∨ nonblock = true ∧ result.count < buf.length ∧
        (result = .again ∨ 0 < result.count) ∧
        before.received.length + capacity.kBufBytes ≤ final.system.accepted.length

section Progress

variable {start : UInt64} {before : RingSystem capacity} {buf : List UInt8} {nonblock : Bool}
variable {sent : Nat} {channel next : ShmChannel capacity}

theorem SendProgress.foreign (progress : SendProgress before buf nonblock sent channel)
    (kept : SendSideKept channel next) :
    SendProgress before buf nonblock sent next where
  phase := by
    rw [kept.sender, kept.producer]
    exact progress.phase
  accepted := kept.accepted.trans progress.accepted
  received := Nat.le_trans progress.received kept.received
  full := by
    intro call position
    rw [kept.sender] at position
    rw [kept.accepted]
    exact progress.full call position

variable {work : SendSome}

/-- `send_some` goes on with the same argument and has published nothing. -/
theorem producer_continues {system after : RingSystem capacity}
    (move : RingSystem.ProducerMove system after none) (inProgress : system.producer = some work)
    (argument : work.buf ≠ []) (hasWork : work.HasWork) :
    after.accepted = system.accepted ∧ after.received = system.received ∧ ∃ later,
      after.producer = some later ∧ later.buf = work.buf ∧ later.HasWork := by
  cases move with
  | loadTail loading =>
    rw [inProgress, Option.some.injEq] at loading
    subst loading
    exact ⟨rfl, rfl, _, rfl, rfl, trivial⟩
  | loadHead loading space amount =>
    rw [inProgress, Option.some.injEq] at loading
    subst loading
    refine ⟨rfl, rfl, _, rfl, rfl, ?_⟩
    have length := List.length_pos_iff.mpr argument
    simp only [SendSome.buf] at length
    simp only [SendSome.HasWork]
    omega
  | store copying unfinished =>
    rw [inProgress, Option.some.injEq] at copying
    subst copying
    exact ⟨rfl, rfl, _, rfl, rfl, hasWork⟩

/-- `send_some` has published some of its argument, or has found the ring full. -/
theorem producer_returns {system after : RingSystem capacity} {did : Nat}
    (invariant : system.Invariant start) (move : RingSystem.ProducerMove system after (some did))
    (inProgress : system.producer = some work) (hasWork : work.HasWork) :
    after.producer = none ∧ after.received = system.received ∧
      after.accepted = system.accepted ++ work.buf.take did ∧ did ≤ work.buf.length ∧
      (did = 0 → system.received.length + capacity.kBufBytes = system.accepted.length) := by
  cases move with
  | full loading noSpace =>
    have tail := invariant.producerReady loading
    have bounded := invariant.bounded
    have room := invariant.writable_eq
    rw [show _ = system.ring.tail from tail] at noSpace
    change system.ring.writable = 0 at noSpace
    refine ⟨rfl, rfl, by simp, Nat.zero_le _, fun _ => ?_⟩
    omega
  | publish copying finished =>
    have ready := invariant.producerReady copying
    rw [inProgress, Option.some.injEq] at copying
    subst copying
    refine ⟨rfl, rfl, rfl, ready.2.1, fun none => ?_⟩
    exact absurd none (Nat.ne_of_gt hasWork)

/-- A step of the call that does not end it. -/
theorem SendProgress.step (progress : SendProgress before buf nonblock sent channel)
    (invariant : channel.system.Invariant start)
    (stepped : channel.senderStep? = some (next, none)) :
    ∃ sent, SendProgress before buf nonblock sent next := by
  have phase := progress.phase
  have move := senderStep?_move stepped
  generalize ended : (none : Option SendResult) = result at move
  cases move with
  | enter position unfinished started =>
    rw [position] at phase
    obtain ⟨rfl, -, -⟩ := phase.of_loop
    simp only [RingSystem.step?, Option.ite_none_right_eq_some, Option.some.injEq] at started
    obtain ⟨-, rfl⟩ := started
    exact ⟨sent, .inSendSome unfinished rfl trivial, progress.accepted, progress.received, by simp⟩
  | finish position finished | giveUp position nonblocking value => cases ended
  | access position move =>
    rw [position] at phase
    obtain ⟨rfl, unfinished, work, inProgress, argument, hasWork⟩ := phase.of_inSendSome
    have rest : work.buf ≠ [] := by
      rw [argument]
      simpa using unfinished
    obtain ⟨accepted, received, later, producer, sameArgument,
      laterWork⟩ := producer_continues move inProgress rest hasWork
    refine ⟨sent, ?_, accepted.trans progress.accepted, ?_, by simp⟩
    · rw [producer]
      exact .inSendSome unfinished (sameArgument.trans argument) laterWork
    · rw [received]
      exact progress.received
  | @published _ _ did position positive move =>
    rw [position] at phase
    obtain ⟨rfl, unfinished, work, inProgress, argument, hasWork⟩ := phase.of_inSendSome
    obtain ⟨producer, received, accepted, within, -⟩ :=
      producer_returns invariant move inProgress hasWork
    rw [argument, List.length_drop] at within
    refine ⟨sent + did, ?_, ?_, ?_, by simp⟩
    · rw [producer]
      exact .bump (by omega)
    · rw [accepted, argument, progress.accepted, List.append_assoc, List.take_add]
    · rw [received]
      exact progress.received
  | foundFull position move =>
    rw [position] at phase
    obtain ⟨rfl, unfinished, work, inProgress, argument, hasWork⟩ := phase.of_inSendSome
    obtain ⟨producer, received, accepted, -, full⟩ :=
      producer_returns invariant move inProgress hasWork
    rw [List.take_zero, List.append_nil] at accepted
    refine ⟨sent, ?_, accepted.trans progress.accepted, ?_, ?_⟩
    · rw [producer]
      exact .ringFull unfinished
    · rw [received]
      exact progress.received
    · intro call _
      rw [accepted, ← full rfl]
      exact Nat.add_le_add_right progress.received _
  | @bump call did position =>
    rw [position] at phase
    obtain ⟨rfl, rfl, rfl, producer, within⟩ := phase.of_bump
    refine ⟨_, ?_, progress.accepted, progress.received, by simp⟩
    rw [producer]
    exact .wake within
  | @wake call did position =>
    rw [position] at phase
    obtain ⟨rfl, rfl, rfl, producer, within⟩ := phase.of_wake
    refine ⟨call.total + did, ?_, ?_, ?_, by simp⟩
    · rw [futexWake_system, producer]
      exact .loop within
    · rw [futexWake_system]
      exact progress.accepted
    · rw [futexWake_system]
      exact progress.received
  | retry position blocking =>
    rw [position] at phase
    obtain ⟨rfl, producer, unfinished⟩ := phase.of_ringFull
    refine ⟨sent, ?_, progress.accepted, progress.received, by simp⟩
    rw [producer]
    exact .loop (Nat.le_of_lt unfinished)

variable {result : SendResult}

/-- The step that ends the call. -/
theorem SendProgress.returned (progress : SendProgress before buf nonblock sent channel)
    (stepped : channel.senderStep? = some (next, some result)) :
    SendOutcome before buf nonblock next result := by
  have phase := progress.phase
  have move := senderStep?_move stepped
  generalize ended : some result = value at move
  cases move with
  | finish position finished =>
    cases ended
    rw [position] at phase
    obtain ⟨rfl, producer, within⟩ := phase.of_loop
    obtain rfl : sent = buf.length := Nat.le_antisymm within finished
    exact ⟨rfl, producer, progress.accepted, progress.received, .inl rfl⟩
  | giveUp position nonblocking value =>
    cases ended
    rw [position] at phase
    obtain ⟨rfl, producer, unfinished⟩ := phase.of_ringFull
    have full := progress.full _ position
    rcases Nat.eq_zero_or_pos sent with rfl | positive
    · obtain rfl : result = .again := by rw [value, if_neg (Nat.lt_irrefl 0)]
      exact ⟨rfl, producer, progress.accepted, progress.received,
        .inr ⟨nonblocking, unfinished, .inl rfl, full⟩⟩
    · obtain rfl : result = .sent sent := by rw [value, if_pos positive]
      exact ⟨rfl, producer, progress.accepted, progress.received,
        .inr ⟨nonblocking, unfinished, .inr positive, full⟩⟩
  | _ => cases ended

/-- `send_some` publishes something if it is alone and there is room. -/
theorem producer_alone {system : RingSystem capacity} (invariant : system.Invariant start)
    (inProgress : system.producer = some work) (argument : work.buf ≠ []) (hasWork : work.HasWork)
    (room : system.ring.writable ≠ 0) :
    ∃ after did, Returns RingSystem.producerStep? system after did ∧
      RingSystem.Appended system after (work.buf.take did) ∧ 0 < did ∧ did ≤ work.buf.length := by
  have length := List.length_pos_iff.mpr argument
  have copies
      {system : RingSystem capacity}
      {argument : List UInt8}
      {t : UInt64}
      (invariant : system.Invariant start)
      (loading : system.producer = some (.loadHead argument t))
      (length : 0 < argument.length)
      (room : system.ring.writable ≠ 0) :
      ∃ after did, Returns RingSystem.producerStep? system after did ∧
          RingSystem.Appended system after (argument.take did) ∧ 0 < did ∧
          did ≤ argument.length := by
    obtain rfl : t = system.ring.tail := invariant.producerReady loading
    have loadHead := RingSystem.ProducerMove.loadHead loading room rfl
    obtain ⟨after, returns, appended⟩ :=
      RingSystem.copy_alone
        (show
          { system with
            producer :=
              some
                (.copy argument system.ring.tail
                  (min argument.length system.ring.writable)
                  0) }.producer = some _
          from rfl)
    refine ⟨after, _, (returns_of_step loadHead.fires).mpr returns, { appended with }, ?_, ?_⟩
    · omega
    · exact Nat.min_le_left _ _
  cases work with
  | loadTail argument =>
    have loadTail := RingSystem.ProducerMove.loadTail inProgress
    obtain ⟨after, did, returns, appended, positive, within⟩ :=
      copies (invariant.producer_move loadTail) rfl length room
    exact ⟨after, did, (returns_of_step loadTail.fires).mpr
      returns, { appended with }, positive, within⟩
  | loadHead argument t => exact copies invariant inProgress length room
  | copy argument t n copied =>
    have ready := invariant.producerReady inProgress
    obtain ⟨after, returns, appended⟩ := RingSystem.copy_alone inProgress
    exact ⟨after, n, returns, appended, hasWork, ready.2.1⟩

theorem Sends.nothing (idle : channel.system.producer = none)
    (sameSystem : next.system = channel.system)
    (sameMode : next.senderNonblocking = channel.senderNonblocking) :
    Sends channel next [] := by
  refine ⟨⟨?_, ?_, ?_, ?_, ?_, ?_⟩, sameMode⟩
  · rw [sameSystem, List.append_nil]
  · rw [sameSystem]
  · rw [sameSystem, idle]
  · rw [sameSystem]
  · rw [sameSystem]
  · rw [sameSystem]

/-- With room and alone a blocking call comes to the head of its loop. -/
theorem SendProgress.passes_to_loop (progress : SendProgress before buf false sent channel)
    (invariant : channel.system.Invariant start)
    (fits : buf.length - sent ≤ channel.ring.writable) :
    ∃ next did, Passes senderStep? channel next ∧ Sends channel next ((buf.drop sent).take did) ∧
      next.sender = .loop ⟨buf, false, sent + did⟩ ∧ sent + did ≤ buf.length := by
  have phase := progress.phase
  cases position : channel.sender with
  | idle =>
    rw [position] at phase
    cases phase
  | loop call =>
    rw [position] at phase
    obtain ⟨rfl, producer, within⟩ := phase.of_loop
    exact ⟨channel, 0, .refl channel, .nothing producer rfl rfl, position, within⟩
  | ringFull call =>
    rw [position] at phase
    obtain ⟨rfl, producer, unfinished⟩ := phase.of_ringFull
    have retry := SenderMove.retry position rfl
    exact ⟨_, 0, .single retry.fires, .nothing producer rfl rfl, rfl, Nat.le_of_lt unfinished⟩
  | bump call did =>
    rw [position] at phase
    obtain ⟨rfl, blocking, rfl, producer, within⟩ := phase.of_bump
    have bump := SenderMove.bump position
    have wake : SenderMove
          { channel with wakeCount := channel.wakeCount + 1, sender := .wake call did }
          { futexWake
              { channel with wakeCount := channel.wakeCount + 1, sender := .wake call did } with
            sender := .loop { call with total := call.total + did } }
          none :=
      .wake rfl
    refine ⟨_, 0, (Passes.single wake.fires).head bump.fires,
      .nothing producer (futexWake_system _) (futexWake_senderNonblocking _), ?_, within⟩
    rw [← blocking]
    rfl
  | wake call did =>
    rw [position] at phase
    obtain ⟨rfl, blocking, rfl, producer, within⟩ := phase.of_wake
    have wake := SenderMove.wake position
    refine ⟨_, 0, .single wake.fires,
      .nothing producer (futexWake_system _) (futexWake_senderNonblocking _), ?_, within⟩
    rw [← blocking]
    rfl
  | inSendSome call =>
    rw [position] at phase
    obtain ⟨rfl, unfinished, work, inProgress, argument, hasWork⟩ := phase.of_inSendSome
    obtain ⟨system, did, returns, appended, positive, within⟩ :=
      producer_alone invariant inProgress
        (by rw [argument]; simpa using unfinished) hasWork
        (show channel.ring.writable ≠ 0 by omega)
    obtain ⟨last, passes, lastStep⟩ := returns_iff_exists_last.mp returns
    obtain ⟨next, passesOn, sameSystem, sameMode, standing⟩ :=
      publish_passes channel ⟨buf, false, sent⟩ lastStep positive
    have inside : Passes senderStep?
          { channel with system := channel.system, sender := .inSendSome ⟨buf, false, sent⟩ }
          { channel with system := last, sender := .inSendSome ⟨buf, false, sent⟩ } :=
      sendSome_passes passes
    rw [← position] at inside
    rw [argument] at appended within
    rw [List.length_drop] at within
    refine ⟨next, did, Passes.trans inside ?_, ⟨?_, sameMode⟩, standing, by omega⟩
    · rw [position]
      exact passesOn
    · rw [sameSystem]
      exact appended

/-- With room for the rest of its buffer and alone a blocking call returns. -/
theorem SendProgress.returns_alone (progress : SendProgress before buf false sent channel)
    (invariant : channel.system.Invariant start)
    (fits : buf.length - sent ≤ channel.ring.writable) :
    ∃ final, Returns senderStep? channel final (.sent buf.length) ∧
      Sends channel final (buf.drop sent) ∧ final.sender = .idle := by
  obtain ⟨next, did, passes, sends, standing, within⟩ := progress.passes_to_loop invariant fits
  have nextInvariant := passes_ringInvariant invariant passes
  have room := sends.writable_eq invariant nextInvariant
  rw [List.length_take, List.length_drop, Nat.min_eq_left (by omega)] at room
  obtain ⟨final, returns, rest, idle⟩ :=
    loop_returns_all sends.appended.producer standing within (by dsimp only; omega)
  have all := sends.trans rest
  rw [← List.drop_drop, List.take_append_drop] at all
  exact ⟨final, passes.returns_iff.mpr returns, all, idle⟩

theorem SendOutcome.blocking (outcome : SendOutcome before buf false next result) :
    result = .sent buf.length := by
  rcases outcome.value with all | ⟨nonblocking, _⟩
  · exact all
  · cases nonblocking

theorem SendOutcome.count_le (outcome : SendOutcome before buf nonblock next result) :
    result.count ≤ buf.length := by
  rcases outcome.value with rfl | ⟨_, less, _⟩
  · exact Nat.le_refl _
  · exact Nat.le_of_lt less

/-- The value that a call returns during which nothing is consumed. -/
theorem SendOutcome.unconsumed (outcome : SendOutcome before buf nonblock next result)
    (invariant : before.Invariant start) (nextInvariant : next.system.Invariant start)
    (unconsumed : next.system.received = before.received) :
    result = .ofRoom buf.length before.ring.writable := by
  have room := invariant.writable_eq
  have bounded := nextInvariant.bounded
  have length := congrArg List.length outcome.accepted
  rw [List.length_append, List.length_take, Nat.min_eq_left outcome.count_le] at length
  rw [unconsumed] at bounded
  unfold SendResult.ofRoom
  rcases outcome.value with rfl | ⟨_, less, count, full⟩
  · simp only [SendResult.count] at length
    rw [if_pos (by omega)]
  · have exact : result.count = before.ring.writable := by omega
    rw [if_neg (by omega)]
    cases result with
    | again =>
      simp only [SendResult.count] at exact
      rw [if_neg (by omega)]
    | sent total =>
      simp only [SendResult.count, reduceCtorEq, false_or] at exact count
      rw [← exact, if_pos count]

/-- The whole call `shm_send` while other parties move. -/
def SendReturnsAmid (channel : ShmChannel capacity) (buf : List UInt8) (flags : MsgFlags)
    (final : ShmChannel capacity) (result : SendResult) : Prop :=
  ∃ entered early, channel.shmSend? buf flags = some (entered, early) ∧
      match early with
      | some value => final = entered ∧ result = value
      | none => ReturnsAmid senderStep? ForeignStep entered final result

theorem SendReady.progress (ready : channel.SendReady start) (buf : List UInt8) (flags : MsgFlags) :
    SendProgress channel.system buf
      (channel.senderNonblocking || flags.dontWait) 0
      (channel.enterSend buf flags) where
  phase := by
    change SendPhase _ _ _ channel.system.producer 0
    rw [ready.producer]
    exact .loop (Nat.zero_le _)
  accepted := by
    rw [List.take_zero, List.append_nil]
    rfl
  received := Nat.le_refl _
  full := by
    intro call position
    cases position

/-- The call and the ring, in every state inside a call. -/
theorem SendProgress.passes (progress : SendProgress before buf nonblock sent channel)
    (invariant : channel.system.Invariant start)
    (passes : PassesAmid senderStep? ForeignStep channel next) :
    (∃ sent, SendProgress before buf nonblock sent next) ∧ next.system.Invariant start := by
  refine @PassesAmid.invariant _ _ _ _ _ _
    (fun channel : ShmChannel capacity =>
      (∃ sent, SendProgress before buf nonblock sent channel) ∧ channel.system.Invariant start)
    passes ?_ ?_ ⟨⟨sent, progress⟩, invariant⟩
  · rintro state after ⟨⟨published, now⟩, ring⟩ stepped
    exact ⟨now.step ring stepped, (senderStep?_move stepped).ringInvariant ring⟩
  · rintro state after ⟨⟨published, now⟩, ring⟩ foreign
    refine ⟨⟨published, now.foreign foreign.sendSideKept⟩, ?_⟩
    obtain ⟨action, _, stepped⟩ := foreign
    exact (step?_move stepped).ringInvariant ring

/-- What `shm_send` has done when it returns. -/
theorem SendReady.outcome {flags : MsgFlags} {final : ShmChannel capacity}
    (ready : channel.SendReady start) (returns : SendReturnsAmid channel buf flags final result) :
    SendOutcome channel.system buf
      (channel.senderNonblocking || flags.dontWait) final result ∧
      final.system.Invariant start := by
  obtain ⟨entered, early, enters, returned⟩ := returns
  by_cases empty : buf.length = 0
  · simp only [shmSend?, if_pos empty, Option.some.injEq, Prod.mk.injEq] at enters
    obtain ⟨rfl, rfl⟩ := enters
    obtain ⟨rfl, rfl⟩ := returned
    refine ⟨⟨ready.sender, ready.producer, ?_, Nat.le_refl _, .inl ?_⟩, ready.invariant⟩
    · simp [SendResult.count]
    · rw [empty]
  · simp only [shmSend?, if_neg empty, ready.sender, if_true,
      Option.some.injEq, Prod.mk.injEq] at enters
    obtain ⟨rfl, rfl⟩ := enters
    obtain ⟨last, passes, lastStep⟩ := returned
    obtain ⟨⟨sent, progress⟩, ring⟩ :=
      (ready.progress buf flags).passes
        (show (channel.enterSend buf flags).system.Invariant start from ready.invariant)
        passes
    exact ⟨progress.returned lastStep, (senderStep?_move lastStep).ringInvariant ring⟩

theorem SendReturns.amid {flags : MsgFlags} {final : ShmChannel capacity}
    (returns : SendReturns channel buf flags final result) :
    SendReturnsAmid channel buf flags final result := by
  obtain ⟨entered, early, enters, returned⟩ := returns
  refine ⟨entered, early, enters, ?_⟩
  cases early with
  | some value => exact returned
  | none => exact Returns.amid returned ForeignStep

/--
A call of `shm_send` in any state of a direction, whatever the other parties do
until it returns: the ring has taken over what the call reports, a first part of
the buffer in one piece.  A call that reports less than all does not block and
has used the room that the ring had at its beginning.
-/
theorem shmSend_reports_published
    (channel : ShmChannel capacity)
    (reachable : channel.Reachable)
    (idle : channel.sender = .idle)
    {flags : MsgFlags}
    {final : ShmChannel capacity}
    (returns : SendReturnsAmid channel buf flags final result) :
    final.sender = .idle ∧
      result.count ≤ buf.length ∧
      final.system.accepted = channel.system.accepted ++ buf.take result.count ∧
      (result = .sent buf.length ∨
        (channel.senderNonblocking || flags.dontWait) = true ∧
        channel.system.received.length + capacity.kBufBytes ≤ final.system.accepted.length) := by
  obtain ⟨start, invariant⟩ := reachable.callInvariant
  obtain ⟨outcome, -⟩ := (invariant.sendReady idle).outcome returns
  refine ⟨outcome.sender, outcome.count_le, outcome.accepted, ?_⟩
  exact outcome.value.imp_right fun ⟨nonblocking, _, _, full⟩ => ⟨nonblocking, full⟩

/-- A fresh direction of a connection. -/
def fresh : ShmChannel .shmSegmentRing := initial .shmSegmentRing 0 (fun _ => 0) 0 false false

/--
A non-blocking send of a byte more than the ring holds, with a `recv` that
begins after it: the bytes that find room are published and reported.
-/
theorem shmSend_reports_published_partial :
    ∃ final, SendReturnsAmid fresh (List.replicate 1048577 7) ⟨true, false⟩ final (.sent 1048576) ∧
      final.system.accepted = List.replicate 1048576 7 := by
  let receiving : ShmChannel .shmSegmentRing := fresh.enterRecv 1 ⟨false, false⟩
  have entersRecv (flags : MsgFlags) :
      (fresh.enterSend (List.replicate 1048577 7) flags).step? (.recv 1 ⟨false, false⟩) =
        some (receiving.enterSend (List.replicate 1048577 7) flags) :=
    rfl
  have reachable : Reachable receiving :=
    ⟨0, fun _ => 0, 0, false, false, [.recv 1 ⟨false, false⟩], rfl⟩
  obtain ⟨start, invariant⟩ := reachable.callInvariant
  have ready := invariant.sendReady rfl
  have room : receiving.ring.writable = 1048576 := by decide +kernel
  have sends : ∃ final, SendReturns receiving (List.replicate 1048577 7) ⟨true, false⟩ final
      (.sent 1048576) := by
    obtain ⟨final, returns, -⟩ := ready.returns_partial
      (show (receiving.senderNonblocking || MsgFlags.dontWait ⟨true, false⟩) = true from rfl)
      (show receiving.ring.writable < (List.replicate 1048577 (7 : UInt8)).length by
        rw [room, List.length_replicate]; decide)
    rw [room, if_pos (by decide)] at returns
    exact ⟨final, returns⟩
  obtain ⟨final, returns⟩ := sends
  obtain ⟨last, passes, lastStep⟩ :=
    ((ready.sendReturns_iff _ (by rw [List.length_replicate]; decide)).mp returns).amid ForeignStep
  have amid : SendReturnsAmid fresh (List.replicate 1048577 7) ⟨true, false⟩ final
      (.sent 1048576) := by
    refine ⟨fresh.enterSend (List.replicate 1048577 7) ⟨true, false⟩, none, ?_, last, ?_, lastStep⟩
    · rw [shmSend?, List.length_replicate]
      rfl
    · exact Relation.ReflTransGen.head
        (.inr ⟨.recv 1 ⟨false, false⟩, by decide, entersRecv _⟩) passes
  have published :=
    shmSend_reports_published fresh ⟨0, fun _ => 0, 0, false, false, [], rfl⟩ rfl amid
  refine ⟨final, amid, published.2.2.1.trans ?_⟩
  exact List.take_replicate

end Progress

end ShmChannel

end SocksDirect
