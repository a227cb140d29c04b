import SocksDirect.BufferEdges
import SocksDirect.SendProgress

namespace SocksDirect

open Machine

/-!
# `sendmsg` compared with one `send`

The hook `sendmsg` of `src/lib/socket_api.cpp` makes one call of `shm_send` for
every buffer that is not empty.  Here the value that it returns and the error
number that it leaves behind are modelled too, and both are compared with those
of a single `shm_send` of the concatenated buffers.

They differ in the error number: a call that has sent something and then finds
the ring full at the edge of a buffer returns a count with `errno` set.
-/

variable {capacity : Capacity}

/-- What `sendmsg` returns when the inner call has ended the loop. -/
def SendmsgCall.returned (call : SendmsgCall) : SendResult → SendResult
  | .again =>
    if call.total > 0 then .sent call.total else .again
  | .sent r => .sent (call.total + r)

/--
A thread in `sendmsg` on an upgraded descriptor, without control data.
`errnoAgain` says that `errno` has been set to `EAGAIN` during the call.
-/
structure SendmsgThread (capacity : Capacity) where
  channel : ShmChannel capacity
  call : SendmsgCall
  errnoAgain : Bool

namespace SendmsgThread

/-- The thread after the inner `shm_send` has returned. -/
def resume (call : SendmsgCall) (errnoAgain : Bool) (channel : ShmChannel capacity)
    (result : SendResult) :
    SendmsgThread capacity × Option SendResult :=
  let errnoAgain := errnoAgain || result = .again
  match call.afterSend result with
  | some call => (⟨channel, call, errnoAgain⟩, none)
  | none => (⟨channel, call, errnoAgain⟩, some (call.returned result))

/-- The thread's next step, with the value of `sendmsg` if it is the last. -/
def step? (thread : SendmsgThread capacity) : Option (SendmsgThread capacity × Option SendResult) :=
  if thread.channel.sender = .idle then
    match thread.call.iov with
    | [] => some (thread, some (.sent thread.call.total))
    | buf :: rest =>
      if buf.length = 0 then
        some ({ thread with call := { thread.call with iov := rest } }, none)
      else
        (thread.channel.shmSend? buf thread.call.flags).map
          fun (channel, _) =>
            ({ thread with
                channel := channel
                call := { thread.call with iov := rest, iovLen := buf.length } }, none)
  else
    match thread.channel.senderStep? with
    | none => none
    | some (channel, none) => some ({ thread with channel := channel }, none)
    | some (channel, some result) => some (resume thread.call thread.errnoAgain channel result)

/-- The hook is entered. -/
def enter (channel : ShmChannel capacity) (iov : List (List UInt8))
    (flags : MsgFlags) : SendmsgThread capacity where
  channel := channel
  call := ⟨iov, 0, 0, flags⟩
  errnoAgain := false

/-- A step of a party other than the sending thread. -/
def ForeignStep (thread next : SendmsgThread capacity) : Prop :=
  thread.channel.ForeignStep next.channel ∧ next.call = thread.call ∧
    next.errnoAgain = thread.errnoAgain

section Stream

private theorem withChannel_self (stream : SocketStream capacity) :
    stream.withChannel stream.channel = stream := by
  unfold SocketStream.withChannel
  rw [List.drop_length, List.append_nil]

end Stream

section Nested

variable {channel next : ShmChannel capacity} {thread : SendmsgThread capacity}

theorem sender_ne_idle (stepped : channel.senderStep? = some (next, none)) :
    next.sender ≠ .idle := by
  have move := ShmChannel.senderStep?_move stepped
  generalize ended : (none : Option SendResult) = result at move
  cases move with
  | finish position finished | giveUp position nonblocking value => cases ended
  | _ => simp

theorem nests (call : SendmsgCall) (errnoAgain : Bool) : Nests ShmChannel.senderStep? step?
      (fun channel : ShmChannel capacity => ⟨channel, call, errnoAgain⟩)
      (resume call errnoAgain)
      (fun channel => channel.sender ≠ .idle) where
  continues := by
    intro channel next inside stepped
    refine ⟨?_, sender_ne_idle stepped⟩
    simp only [step?, if_neg inside, stepped]
  returns := by
    intro channel next value inside stepped
    simp only [step?, if_neg inside, stepped]
  stops := by
    intro channel inside stepped
    simp only [step?, if_neg inside, stepped]

variable {start : UInt64} {buf : List UInt8} {rest : List (List UInt8)} {iovLen total : Nat}
variable {flags : MsgFlags} {errnoAgain : Bool}

theorem step?_finish (ready : channel.SendReady start) :
    step? ⟨channel, ⟨[], iovLen, total, flags⟩, errnoAgain⟩ =
      some (⟨channel, ⟨[], iovLen, total, flags⟩, errnoAgain⟩, some (.sent total)) := by
  simp only [step?, ready.sender, if_true]

theorem step?_skip (ready : channel.SendReady start) :
    step? ⟨channel, ⟨[] :: rest, iovLen, total, flags⟩, errnoAgain⟩ =
      some (⟨channel, ⟨rest, iovLen, total, flags⟩, errnoAgain⟩, none) := by
  simp only [step?, ready.sender, if_true, List.length_nil]

theorem step?_enter (ready : channel.SendReady start) (nonempty : buf.length ≠ 0) :
    step? ⟨channel, ⟨buf :: rest, iovLen, total, flags⟩, errnoAgain⟩ =
      some (⟨channel.enterSend buf flags, ⟨rest, buf.length, total, flags⟩, errnoAgain⟩, none) := by
  simp only [step?, ready.sender, if_true, if_neg nonempty,
    ShmChannel.shmSend?, Option.map_some, ShmChannel.enterSend]

variable {final : SendmsgThread capacity} {result : SendResult}

theorem returns_iff_resumes (ready : channel.SendReady start) (nonempty : buf.length ≠ 0) :
    Returns step?
      ⟨channel, ⟨buf :: rest, iovLen, total, flags⟩, errnoAgain⟩ final
      result ↔ ∃ middle value, channel.SendReturns buf flags middle value ∧ Resumes step?
      (resume ⟨rest, buf.length, total, flags⟩ errnoAgain middle value)
      final result := by
  have inside : (channel.enterSend buf flags).sender ≠ .idle := by simp [ShmChannel.enterSend]
  rw [returns_of_step (step?_enter ready nonempty), (nests _ errnoAgain).returns_iff inside]
  simp only [ready.sendReturns_iff flags nonempty]

theorem resume_all (call : SendmsgCall) (errnoAgain : Bool) (channel : ShmChannel capacity) :
    resume call errnoAgain channel (.sent call.iovLen) =
      (⟨channel, { call with total := call.total + call.iovLen }, errnoAgain⟩, none) := by
  simp [resume, SendmsgCall.afterSend]

theorem resume_short (call : SendmsgCall) (errnoAgain : Bool) (channel : ShmChannel capacity)
    {value : SendResult} (short : value.count < call.iovLen) :
    resume call errnoAgain channel value =
      (⟨channel, call, errnoAgain || value = .again⟩, some (call.returned value)) := by
  cases value with
  | again => rfl
  | sent total =>
    simp only [SendResult.count] at short
    simp [resume, SendmsgCall.afterSend, short]

/-- After a buffer that has been sent `sendmsg` goes on with the next ones. -/
theorem returns_iff_of_sent {middle : ShmChannel capacity} (ready : channel.SendReady start)
    (nonempty : buf.length ≠ 0) (sent : channel.SendReturns buf flags middle (.sent buf.length)) :
    Returns step?
      ⟨channel, ⟨buf :: rest, iovLen, total, flags⟩, errnoAgain⟩ final
      result ↔ Returns step?
      ⟨middle, ⟨rest, buf.length, total + buf.length, flags⟩, errnoAgain⟩ final result := by
  have goesOn := resume_all ⟨rest, buf.length, total, flags⟩ errnoAgain middle
  rw [returns_iff_resumes ready nonempty]
  constructor
  · rintro ⟨other, value, returns, resumes⟩
    obtain ⟨rfl, rfl⟩ := returns.unique sent
    rw [goesOn] at resumes
    exact resumes
  · intro returns
    refine ⟨middle, _, sent, ?_⟩
    rw [goesOn]
    exact returns

/-- After a buffer that has not been sent `sendmsg` returns. -/
theorem returns_iff_of_short {middle : ShmChannel capacity} {value : SendResult}
    (ready : channel.SendReady start) (nonempty : buf.length ≠ 0)
    (stopped : channel.SendReturns buf flags middle value) (short : value.count < buf.length) :
    Returns step?
      ⟨channel, ⟨buf :: rest, iovLen, total, flags⟩, errnoAgain⟩ final
      result ↔ final = ⟨middle, ⟨rest, buf.length, total, flags⟩, errnoAgain || value = .again⟩ ∧
      result = SendmsgCall.returned ⟨rest, buf.length, total, flags⟩ value := by
  have ends := resume_short ⟨rest, buf.length, total, flags⟩ errnoAgain middle short
  rw [returns_iff_resumes ready nonempty]
  constructor
  · rintro ⟨other, otherValue, returns, resumes⟩
    obtain ⟨rfl, rfl⟩ := returns.unique stopped
    rw [ends] at resumes
    exact resumes
  · intro values
    refine ⟨middle, value, stopped, ?_⟩
    rw [ends]
    exact values

end Nested

/-- Some first buffers have this length together. -/
def FillsAtEdge (iov : List (List UInt8)) (count : Nat) : Prop :=
  Buffers.EndsAtEdge (iov.map List.length) count

section Alone

variable {start : UInt64} {channel : ShmChannel capacity} {iov : List (List UInt8)}
variable {flags : MsgFlags}

/-- With enough room `sendmsg` publishes all buffers. -/
theorem returns_all (ready : channel.SendReady start)
    (fits : iov.flatten.length ≤ channel.ring.writable) (flags : MsgFlags) (iovLen total : Nat)
    (errnoAgain : Bool) :
    ∃ final, Returns step?
      ⟨channel, ⟨iov, iovLen, total, flags⟩, errnoAgain⟩ final
      (.sent (total + iov.flatten.length)) ∧ channel.Sends final.channel iov.flatten := by
  induction iov generalizing channel iovLen total with
  | nil => exact ⟨_, returns_of_last (step?_finish ready), .nothing ready.producer rfl rfl⟩
  | cons buf rest inductionHypothesis =>
    by_cases empty : buf.length = 0
    · obtain rfl := List.length_eq_zero_iff.mp empty
      obtain ⟨final, returns, sends⟩ := inductionHypothesis ready fits iovLen total
      exact ⟨final, (returns_of_step (step?_skip ready)).mpr returns, sends⟩
    · rw [List.flatten_cons, List.length_append] at fits
      obtain ⟨middle, sent, sendsFirst, readyMiddle⟩ :=
        ready.returns_all flags (Nat.le_of_add_right_le fits)
      have room := sendsFirst.writable_eq ready.invariant readyMiddle.invariant
      obtain ⟨final, returns, sendsRest⟩ :=
        inductionHypothesis readyMiddle (by omega) buf.length (total + buf.length)
      refine ⟨final, (returns_iff_of_sent ready empty sent).mpr ?_, sendsFirst.trans sendsRest⟩
      rw [List.flatten_cons, List.length_append, ← Nat.add_assoc]
      exact returns

/-- Without enough room a non-blocking `sendmsg` publishes what fits. -/
theorem returns_partial (ready : channel.SendReady start)
    (nonblocking : (channel.senderNonblocking || flags.dontWait) = true)
    (short : channel.ring.writable < iov.flatten.length) (iovLen total : Nat) (errnoAgain : Bool) :
    ∃ final, Returns step?
          ⟨channel, ⟨iov, iovLen, total, flags⟩, errnoAgain⟩ final
          (if total + channel.ring.writable > 0 then
            .sent (total + channel.ring.writable)
          else
            .again) ∧ channel.Sends final.channel (iov.flatten.take channel.ring.writable) := by
  induction iov generalizing channel iovLen total with
  | nil => exact absurd short (Nat.not_lt_zero _)
  | cons buf rest inductionHypothesis =>
    by_cases empty : buf.length = 0
    · obtain rfl := List.length_eq_zero_iff.mp empty
      obtain ⟨final, returns, sends⟩ := inductionHypothesis ready nonblocking short iovLen total
      exact ⟨final, (returns_of_step (step?_skip ready)).mpr returns, sends⟩
    · rw [List.flatten_cons, List.length_append] at short
      by_cases fits : buf.length ≤ channel.ring.writable
      · obtain ⟨middle, sent, sendsFirst, readyMiddle⟩ := ready.returns_all flags fits
        have room := sendsFirst.writable_eq ready.invariant readyMiddle.invariant
        obtain ⟨final, returns, sendsRest⟩ :=
          inductionHypothesis readyMiddle
            (by rw [sendsFirst.senderNonblocking]; exact nonblocking)
            (by omega) buf.length (total + buf.length)
        rw [room] at returns sendsRest
        rw [Nat.add_assoc, Nat.add_sub_cancel' fits] at returns
        refine ⟨final, (returns_iff_of_sent ready empty sent).mpr returns, ?_⟩
        have both := sendsFirst.trans sendsRest
        rw [List.flatten_cons, List.take_append, List.take_of_length_le fits]
        exact both
      · have tooShort := Nat.lt_of_not_le fits
        obtain ⟨middle, stopped, sends, readyMiddle⟩ := ready.returns_partial nonblocking tooShort
        refine ⟨_, (returns_iff_of_short ready empty stopped ?_).mpr ⟨rfl, ?_⟩, ?_⟩
        · split <;> simp only [SendResult.count] <;> omega
        · by_cases noRoom : channel.ring.writable = 0
          · simp [noRoom, SendmsgCall.returned]
          · have positive : channel.ring.writable > 0 := by omega
            rw [if_pos positive, if_pos (by omega)]
            rfl
        · rw [List.flatten_cons, List.take_append_of_le_length (Nat.le_of_lt tooShort)]
          exact sends

/-- Without enough room a blocking `sendmsg` does not return. -/
theorem not_returns (ready : channel.SendReady start)
    (blocking : (channel.senderNonblocking || flags.dontWait) = false)
    (short : channel.ring.writable < iov.flatten.length) (iovLen total : Nat) (errnoAgain : Bool)
    (final : SendmsgThread capacity) (result : SendResult) :
    ¬ Returns step?
      ⟨channel, ⟨iov, iovLen, total, flags⟩, errnoAgain⟩ final
      result := by
  induction iov generalizing channel iovLen total with
  | nil => exact absurd short (Nat.not_lt_zero _)
  | cons buf rest inductionHypothesis =>
    by_cases empty : buf.length = 0
    · obtain rfl := List.length_eq_zero_iff.mp empty
      rw [returns_of_step (step?_skip ready)]
      exact inductionHypothesis ready blocking short iovLen total
    · rw [List.flatten_cons, List.length_append] at short
      by_cases fits : buf.length ≤ channel.ring.writable
      · obtain ⟨middle, sent, sendsFirst, readyMiddle⟩ := ready.returns_all flags fits
        have room := sendsFirst.writable_eq ready.invariant readyMiddle.invariant
        rw [returns_iff_of_sent ready empty sent]
        exact inductionHypothesis readyMiddle
          (by rw [sendsFirst.senderNonblocking]; exact blocking)
          (by omega) buf.length (total + buf.length)
      · rw [returns_iff_resumes ready empty]
        rintro ⟨middle, value, returns, _⟩
        exact ready.not_returns blocking (Nat.lt_of_not_le fits) middle value returns

end Alone

/--
A call of `sendmsg` that began with the ring in state `before` and has sent the
buffers `done` of `iov`; it stands between two buffers or inside `shm_send`.
-/
inductive MsgProgress
    (before : RingSystem capacity)
    (iov : List (List UInt8))
    (nonblock : Bool)
    (thread : SendmsgThread capacity) : Prop where
  | between {done : List (List UInt8)} (sender : thread.channel.sender = .idle)
      (producer : thread.channel.system.producer = none)
      (mode : (thread.channel.senderNonblocking || thread.call.flags.dontWait) = nonblock)
      (split : iov = done ++ thread.call.iov) (errno : thread.errnoAgain = false)
      (total : thread.call.total = done.flatten.length)
      (accepted : thread.channel.system.accepted = before.accepted ++ done.flatten)
      (received : before.received.length ≤ thread.channel.system.received.length)
  | inside {done : List (List UInt8)} {buf : List UInt8} {sent : Nat} {inner : RingSystem capacity}
      (mode : (thread.channel.senderNonblocking || thread.call.flags.dontWait) = nonblock)
      (split : iov = done ++ buf :: thread.call.iov) (errno : thread.errnoAgain = false)
      (nonempty : buf ≠ []) (iovLen : thread.call.iovLen = buf.length)
      (total : thread.call.total = done.flatten.length)
      (accepted : inner.accepted = before.accepted ++ done.flatten)
      (received : before.received.length ≤ inner.received.length)
      (progress : ShmChannel.SendProgress inner buf nonblock sent thread.channel)

/--
What a call of `sendmsg` leaves behind: what one `shm_send` of all bytes may
leave, and `EAGAIN` in `errno` exactly if it sent some first buffers only.
-/
structure MsgOutcome
    (before : RingSystem capacity)
    (iov : List (List UInt8))
    (nonblock : Bool)
    (thread : SendmsgThread capacity)
    (result : SendResult) : Prop where
  sent : ShmChannel.SendOutcome before iov.flatten nonblock thread.channel result
  errno :
    thread.errnoAgain = true ↔ result.count < iov.flatten.length ∧ FillsAtEdge iov result.count

section Amid

variable {start : UInt64} {before : RingSystem capacity} {iov : List (List UInt8)} {nonblock : Bool}
variable {thread next : SendmsgThread capacity}

/-- Steps of the other parties do not concern the call. -/
theorem MsgProgress.foreign (progress : MsgProgress before iov nonblock thread)
    (stepped : ForeignStep thread next) :
    MsgProgress before iov nonblock next := by
  obtain ⟨foreign, sameCall, sameErrno⟩ := stepped
  have kept := foreign.sendSideKept
  cases progress with
  | between sender producer mode split errno total accepted received =>
    refine .between (kept.sender.trans sender)
      (kept.producer.trans producer) ?_ ?_ (sameErrno.trans errno) ?_
      (kept.accepted.trans accepted)
      (Nat.le_trans received kept.received)
    · rw [kept.senderNonblocking, sameCall]
      exact mode
    · rw [sameCall]
      exact split
    · rw [sameCall]
      exact total
  | inside mode split errno nonempty iovLen total accepted received inner =>
    refine .inside ?_ ?_ (sameErrno.trans errno) nonempty ?_ ?_ accepted
      received
      (inner.foreign kept)
    · rw [kept.senderNonblocking, sameCall]
      exact mode
    · rw [sameCall]
      exact split
    · rw [sameCall]
      exact iovLen
    · rw [sameCall]
      exact total

variable {channel : ShmChannel capacity} {inner : RingSystem capacity} {buf : List UInt8}

theorem sender_ne_idle_of_progress {sent : Nat}
    (progress : ShmChannel.SendProgress inner buf nonblock sent channel) :
    channel.sender ≠ .idle := by
  intro idle
  have phase := progress.phase
  rw [idle] at phase
  cases phase

variable {done : List (List UInt8)} {call : SendmsgCall}

/-- The inner call has sent its buffer and `sendmsg` goes on. -/
theorem goes_on_of_sent (mode : (channel.senderNonblocking || call.flags.dontWait) = nonblock)
    (split : iov = done ++ buf :: call.iov) (iovLen : call.iovLen = buf.length)
    (total : call.total = done.flatten.length)
    (accepted : inner.accepted = before.accepted ++ done.flatten)
    (received : before.received.length ≤ inner.received.length)
    (outcome : ShmChannel.SendOutcome inner buf nonblock channel (.sent buf.length)) :
    MsgProgress before iov nonblock
      ⟨channel, { call with total := call.total + call.iovLen }, false⟩ := by
  refine @MsgProgress.between _ _ _ _ _ (done ++ [buf]) outcome.sender
    outcome.producer mode ?_ rfl ?_ ?_
    (Nat.le_trans received outcome.received)
  · rw [split, List.append_assoc, List.singleton_append]
  · rw [total, iovLen, List.flatten_concat, List.length_append]
  · rw [outcome.accepted, accepted, SendResult.count, List.take_length,
      List.flatten_concat, List.append_assoc]

theorem count_returned (call : SendmsgCall) (value : SendResult) :
    (call.returned value).count = call.total + value.count := by
  cases value with
  | again =>
    rw [SendmsgCall.returned]
    split
    · rfl
    · omega
  | sent r => rfl

theorem count_lt_of_short {rest : List (List UInt8)} {count : Nat}
    (split : iov = done ++ buf :: rest) (short : count < buf.length) :
    done.flatten.length + count < iov.flatten.length := by
  rw [split, List.flatten_append, List.flatten_cons, List.length_append, List.length_append]
  omega

variable {value : SendResult}

theorem value_of_short (outcome : ShmChannel.SendOutcome inner buf nonblock channel value)
    (short : value.count < buf.length) :
    value = .again ∨ 0 < value.count := by
  rcases outcome.value with rfl | ⟨_, _, sent, _⟩
  · exact absurd short (Nat.lt_irrefl _)
  · exact sent

/-- The inner call has not sent its buffer: what has been sent in all. -/
theorem outcome_of_short (split : iov = done ++ buf :: call.iov)
    (total : call.total = done.flatten.length)
    (accepted : inner.accepted = before.accepted ++ done.flatten)
    (received : before.received.length ≤ inner.received.length)
    (outcome : ShmChannel.SendOutcome inner buf nonblock channel value)
    (nonblocking : nonblock = true) (short : value.count < buf.length)
    (full : inner.received.length + capacity.kBufBytes ≤ channel.system.accepted.length) :
    ShmChannel.SendOutcome before iov.flatten nonblock channel (call.returned value) := by
  have count := count_returned call value
  rw [total] at count
  refine ⟨outcome.sender, outcome.producer, ?_, Nat.le_trans received outcome.received,
    .inr ⟨nonblocking, ?_, ?_, ?_⟩⟩
  · rw [outcome.accepted, accepted, count, split, List.append_assoc,
      List.flatten_append, List.flatten_cons, List.take_length_add_append,
      List.take_append_of_le_length (Nat.le_of_lt short)]
  · rw [count]
    exact count_lt_of_short split short
  · cases value with
    | again =>
      rw [SendmsgCall.returned]
      split
      · rename_i positive
        exact .inr positive
      · exact .inl rfl
    | sent r =>
      refine .inr ?_
      rcases value_of_short outcome short with again | positive
      · cases again
      · exact Nat.lt_of_lt_of_le positive (Nat.le_add_left _ _)
  · exact Nat.le_trans (Nat.add_le_add_right received _) full

theorem errno_of_short (split : iov = done ++ buf :: call.iov)
    (total : call.total = done.flatten.length)
    (outcome : ShmChannel.SendOutcome inner buf nonblock channel value)
    (short : value.count < buf.length) :
    value = .again ↔ (call.returned value).count < iov.flatten.length ∧
      FillsAtEdge iov (call.returned value).count := by
  have lengths := Buffers.total_map_length done
  rw [count_returned, total, FillsAtEdge, split, List.map_append, List.map_cons, ← split, ← lengths]
  constructor
  · rintro rfl
    refine ⟨lengths ▸ count_lt_of_short split short, ?_⟩
    exact Buffers.endsAtEdge_append _ _
  · rintro ⟨_, ends⟩
    rcases value_of_short outcome short with again | positive
    · exact again
    · exact absurd ends (Buffers.not_endsAtEdge_inside positive short)

/-- A step keeps a call in progress, or ends it with the outcome of a send. -/
theorem MsgProgress.step {ended : Option SendResult}
    (progress : MsgProgress before iov nonblock thread)
    (invariant : thread.channel.system.Invariant start)
    (stepped : thread.step? = some (next, ended)) :
    match ended with
    | none => MsgProgress before iov nonblock next
    | some result =>
      MsgOutcome before iov nonblock next result := by
  cases progress with
  | between sender producer mode split errno total accepted received =>
    have ready : thread.channel.SendReady start := ⟨invariant, producer, sender⟩
    obtain ⟨channel, ⟨iov, iovLen, sum, flags⟩, errnoAgain⟩ := thread
    cases iov with
    | nil =>
      rw [step?_finish ready] at stepped
      cases stepped
      rw [List.append_nil] at split
      subst split total errno
      refine ⟨⟨sender, producer, ?_, received, .inl rfl⟩, ?_⟩
      · rw [SendResult.count, List.take_length]
        exact accepted
      · constructor
        · intro set
          cases set
        · rintro ⟨short, _⟩
          exact absurd short (Nat.lt_irrefl _)
    | cons buf rest =>
      by_cases empty : buf.length = 0
      · obtain rfl := List.length_eq_zero_iff.mp empty
        rw [step?_skip ready] at stepped
        cases stepped
        refine .between sender producer mode
          (split.trans (List.append_cons _ _ _)) errno ?_ ?_ received
        · rw [List.flatten_concat, List.append_nil]
          exact total
        · rw [List.flatten_concat, List.append_nil]
          exact accepted
      · rw [step?_enter ready empty] at stepped
        cases stepped
        have begun := ready.progress buf flags
        rw [show _ = nonblock from mode] at begun
        exact .inside mode split errno
          (fun none => empty (by rw [none]; rfl)) rfl total accepted
          received begun
  | inside mode split errno nonempty iovLen total accepted received inner =>
    have inCall := sender_ne_idle_of_progress inner
    obtain ⟨channel, call, errnoAgain⟩ := thread
    subst errno
    cases innerStep : channel.senderStep? with
    | none =>
      rw [(nests call false).stops inCall innerStep] at stepped
      cases stepped
    | some after =>
      obtain ⟨middle, returned⟩ := after
      have modes := (ShmChannel.senderStep?_move innerStep).sameModes
      cases returned with
      | none =>
        rw [((nests call false).continues inCall innerStep).1] at stepped
        cases stepped
        obtain ⟨later, innerNext⟩ := inner.step invariant innerStep
        refine .inside ?_ split rfl nonempty iovLen total accepted received innerNext
        rw [modes.1]
        exact mode
      | some value =>
        have outcome := inner.returned innerStep
        rw [(nests call false).returns inCall innerStep] at stepped
        rcases outcome.value with rfl | ⟨nonblocking, short, _, full⟩
        · rw [← iovLen, resume_all] at stepped
          cases stepped
          refine goes_on_of_sent ?_ split iovLen total accepted received outcome
          rw [modes.1]
          exact mode
        · rw [resume_short _ _ _ (iovLen ▸ short)] at stepped
          cases stepped
          refine ⟨outcome_of_short split total accepted received outcome nonblocking short full, ?_⟩
          rw [← errno_of_short split total outcome short, Bool.false_or, decide_eq_true_iff]

/-- A step of the thread keeps the invariant of the ring. -/
theorem step?_ringInvariant {ended : Option SendResult}
    (invariant : thread.channel.system.Invariant start)
    (stepped : thread.step? = some (next, ended)) :
    next.channel.system.Invariant start := by
  revert stepped
  fun_cases step? with (intro stepped; try cases stepped)
  | case1 | case2 => exact invariant
  | case3 idle buf rest buffers nonempty =>
    obtain ⟨⟨channel, early⟩, entered, same⟩ := Option.map_eq_some_iff.mp stepped
    cases same
    have step : thread.channel.step? (.send buf thread.call.flags) = some channel := by
      simp only [ShmChannel.step?, entered, Option.map_some]
    exact (ShmChannel.step?_move step).ringInvariant invariant
  | case5 busy channel inner => exact (ShmChannel.senderStep?_move inner).ringInvariant invariant
  | case6 busy channel result inner =>
    have same : next.channel = channel := by
      unfold resume at stepped
      split at stepped <;> cases stepped <;> rfl
    rw [same]
    exact (ShmChannel.senderStep?_move inner).ringInvariant invariant

theorem MsgProgress.passes (progress : MsgProgress before iov nonblock thread)
    (invariant : thread.channel.system.Invariant start)
    (passes : PassesAmid step? ForeignStep thread next) :
    MsgProgress before iov nonblock next ∧ next.channel.system.Invariant start := by
  refine @PassesAmid.invariant _ _ _ _ _ _
    (fun thread : SendmsgThread capacity =>
      MsgProgress before iov nonblock thread ∧ thread.channel.system.Invariant start)
    passes ?_ ?_ ⟨progress, invariant⟩
  · rintro state after ⟨now, ring⟩ stepped
    exact ⟨now.step ring stepped, step?_ringInvariant ring stepped⟩
  · rintro state after ⟨now, ring⟩ foreign
    refine ⟨now.foreign foreign, ?_⟩
    obtain ⟨⟨action, _, stepped⟩, _⟩ := foreign
    exact (ShmChannel.step?_move stepped).ringInvariant ring

/-- With room for the rest of its bytes and alone a blocking call returns. -/
theorem MsgProgress.returns_alone (progress : MsgProgress before iov false thread)
    (invariant : thread.channel.system.Invariant start)
    (fits : before.accepted.length + iov.flatten.length ≤
      thread.channel.system.accepted.length + thread.channel.ring.writable) :
    ∃ final, Returns step? thread final (.sent iov.flatten.length) := by
  cases progress with
  | between sender producer mode split errno total accepted received =>
    obtain ⟨channel, ⟨rest, iovLen, sum, flags⟩, errnoAgain⟩ := thread
    dsimp only at split total accepted fits
    subst total
    have lengths := congrArg (fun bufs => bufs.flatten.length) split
    simp only [List.flatten_append, List.length_append] at lengths
    rw [accepted, List.length_append] at fits
    obtain ⟨final, returns, _⟩ :=
      returns_all ⟨invariant, producer, sender⟩
        (show rest.flatten.length ≤ channel.ring.writable by omega)
        flags iovLen _ errnoAgain
    rw [← lengths] at returns
    exact ⟨final, returns⟩
  | @inside done buf sent ring mode split errno nonempty iovLen total accepted received inner =>
    obtain ⟨channel, ⟨rest, length, sum, flags⟩, errnoAgain⟩ := thread
    dsimp only at split total iovLen fits inner
    subst total iovLen
    have inCall := sender_ne_idle_of_progress inner
    have lengths := congrArg (fun bufs => bufs.flatten.length) split
    have published := congrArg List.length inner.accepted
    simp only [List.flatten_append, List.flatten_cons, List.length_append] at lengths
    rw [List.length_append, List.length_take, accepted, List.length_append] at published
    obtain ⟨middle, returns, sends, idle⟩ :=
      inner.returns_alone invariant (show buf.length - sent ≤ channel.ring.writable by omega)
    have readyMiddle := ShmChannel.SendReady.of_returns invariant returns sends idle
    have room := sends.writable_eq invariant readyMiddle.invariant
    rw [List.length_drop] at room
    obtain ⟨final, returnsRest, _⟩ :=
      returns_all readyMiddle
        (show rest.flatten.length ≤ middle.ring.writable by omega)
        flags buf.length (done.flatten.length + buf.length) errnoAgain
    rw [Nat.add_assoc, ← lengths] at returnsRest
    refine ⟨final, ((nests _ errnoAgain).returns_iff inCall).mpr ⟨middle, _, returns, ?_⟩⟩
    have goesOn := resume_all ⟨rest, buf.length, done.flatten.length, flags⟩ errnoAgain middle
    rw [goesOn]
    exact returnsRest

end Amid

/--
How `sendmsg` compares with one `shm_send` of all bytes, amid steps of the other
parties that consume nothing in non-blocking mode.
-/
structure AgreesWithSend
    (channel : ShmChannel capacity)
    (iov : List (List UInt8))
    (flags : MsgFlags) : Prop where
  /-- Alone, one of the calls returns exactly if the other does. -/
  returns_iff : (∃ final result, Returns step? (enter channel iov flags) final result) ↔
      ∃ final result, channel.SendReturns iov.flatten flags final result
  /-- Both return the same value and leave the same tail and contents. -/
  same : ∀ final result sendFinal sendResult,
      ReturnsAmid step? ForeignStep (enter channel iov flags) final result →
      channel.SendReturnsAmid iov.flatten flags sendFinal sendResult →
      ((channel.senderNonblocking || flags.dontWait) = true →
        final.channel.system.received = channel.system.received ∧
          sendFinal.system.received = channel.system.received) → result = sendResult ∧
        final.channel.ring.tail = sendFinal.ring.tail ∧
        (final.channel.system.received = sendFinal.system.received →
          final.channel.ring.contents = sendFinal.ring.contents)
  /-- The value is the number of bytes that have been appended. -/
  appended : ∀ final result, ReturnsAmid step? ForeignStep (enter channel iov flags) final result →
      result.count ≤ iov.flatten.length ∧
        final.channel.system.accepted = channel.system.accepted ++ iov.flatten.take result.count ∧
        final.channel.ring.tail = channel.ring.tail + UInt64.ofNat result.count
  /-- A blocking call returns as soon as there is room for what is left. -/
  completes : (channel.senderNonblocking || flags.dontWait) = false →
    ∀ thread, PassesAmid step? ForeignStep (enter channel iov flags) thread →
      channel.system.accepted.length + iov.flatten.length ≤
        thread.channel.system.accepted.length + thread.channel.ring.writable →
      ∃ final, Returns step? thread final (.sent iov.flatten.length)
  /-- `errno` is set exactly if the call sends some first buffers only. -/
  errno : ∀ final result, ReturnsAmid step? ForeignStep (enter channel iov flags) final result →
      (final.errnoAgain = true ↔ result.count < iov.flatten.length ∧ FillsAtEdge iov result.count)

section Compared

variable {start : UInt64} {channel : ShmChannel capacity} {iov : List (List UInt8)}
variable {flags : MsgFlags}

theorem enter_progress (ready : channel.SendReady start) (iov : List (List UInt8))
    (flags : MsgFlags) :
    MsgProgress channel.system iov
      (channel.senderNonblocking || flags.dontWait)
      (enter channel iov flags) :=
  @MsgProgress.between _ _ _ _ _ [] ready.sender ready.producer rfl rfl rfl
    rfl (List.append_nil _).symm (Nat.le_refl _)

theorem enter_outcome {final : SendmsgThread capacity} {result : SendResult}
    (ready : channel.SendReady start)
    (returns : ReturnsAmid step? ForeignStep (enter channel iov flags) final result) :
    MsgOutcome channel.system iov
      (channel.senderNonblocking || flags.dontWait) final result ∧
      final.channel.system.Invariant start := by
  obtain ⟨last, passes, lastStep⟩ := returns
  obtain ⟨progress, ring⟩ :=
    (enter_progress ready iov flags).passes
      (show (enter channel iov flags).channel.system.Invariant start from ready.invariant)
      passes
  exact ⟨progress.step ring lastStep, step?_ringInvariant ring lastStep⟩

/-- Alone, both calls return or neither does. -/
theorem returns_iff_send_returns (ready : channel.SendReady start) :
    (∃ final result, Returns step? (enter channel iov flags) final result) ↔
      ∃ final result, channel.SendReturns iov.flatten flags final result := by
  by_cases fits : iov.flatten.length ≤ channel.ring.writable
  · obtain ⟨final, returns, _⟩ := returns_all ready fits flags 0 0 false
    obtain ⟨sendFinal, sendReturns, _, _⟩ := ready.returns_all flags fits
    exact ⟨fun _ => ⟨sendFinal, _, sendReturns⟩, fun _ => ⟨final, _, returns⟩⟩
  · have short := Nat.lt_of_not_le fits
    cases mode : channel.senderNonblocking || flags.dontWait with
    | true =>
      obtain ⟨final, returns, _⟩ := returns_partial ready mode short 0 0 false
      obtain ⟨sendFinal, sendReturns, _, _⟩ := ready.returns_partial mode short
      exact ⟨fun _ => ⟨sendFinal, _, sendReturns⟩, fun _ => ⟨final, _, returns⟩⟩
    | false =>
      constructor
      · rintro ⟨final, result, returns⟩
        exact absurd returns (not_returns ready mode short 0 0 false final result)
      · rintro ⟨final, result, returns⟩
        exact absurd returns (ready.not_returns mode short final result)

/--
In every state of a direction, for every list of buffers and in both modes,
`sendmsg` agrees with one `shm_send` of the concatenated buffers in the value,
the bytes appended, the tail and the contents of the ring; `errno` is left at
`EAGAIN` exactly if the call stops at the edge of a buffer with bytes left to
send.
-/
theorem sendmsg_agrees_with_send
    (channel : ShmChannel capacity)
    (reachable : channel.Reachable)
    (idle : channel.sender = .idle)
    (iov : List (List UInt8))
    (flags : MsgFlags) :
    AgreesWithSend channel iov flags := by
  obtain ⟨start, invariant⟩ := reachable.callInvariant
  have ready := invariant.sendReady idle
  refine ⟨returns_iff_send_returns ready, ?_, ?_, ?_, ?_⟩
  · intro final result sendFinal sendResult returns sendReturns unconsumed
    obtain ⟨⟨outcome, _⟩, ring⟩ := enter_outcome ready returns
    obtain ⟨sendOutcome, sendRing⟩ := ready.outcome sendReturns
    have value : result = sendResult := by
      cases mode : channel.senderNonblocking || flags.dontWait with
      | true =>
        obtain ⟨kept, sendKept⟩ := unconsumed mode
        rw [outcome.unconsumed ready.invariant ring kept,
          sendOutcome.unconsumed ready.invariant sendRing sendKept]
      | false =>
        rw [mode] at outcome sendOutcome
        rw [outcome.blocking, sendOutcome.blocking]
    subst value
    have accepted := outcome.accepted.trans sendOutcome.accepted.symm
    refine ⟨rfl, ?_, ?_⟩
    · rw [ShmChannel.ring, ShmChannel.ring, ring.tailValue, sendRing.tailValue, accepted]
    · intro received
      rw [ShmChannel.ring, ShmChannel.ring, ring.contents_eq,
        sendRing.contents_eq, accepted, received]
  · intro final result returns
    obtain ⟨⟨outcome, _⟩, ring⟩ := enter_outcome ready returns
    refine ⟨outcome.count_le, outcome.accepted, ?_⟩
    rw [ShmChannel.ring, ShmChannel.ring, ring.tailValue,
      ready.invariant.tailValue, outcome.accepted, List.length_append,
      List.length_take, Nat.min_eq_left outcome.count_le, ← Nat.add_assoc, UInt64.ofNat_add]
  · intro mode thread passes fits
    obtain ⟨progress, ring⟩ :=
      (enter_progress ready iov flags).passes
        (show (enter channel iov flags).channel.system.Invariant start from ready.invariant)
        passes
    rw [mode] at progress
    exact progress.returns_alone ring fits
  · intro final result returns
    exact (enter_outcome ready returns).1.errno

end Compared

/-- A fresh direction whose sender does not block. -/
private def freshChannel : ShmChannel .shmSegmentRing :=
  .initial .shmSegmentRing 0 (fun _ => 0) 0 true false

private theorem freshChannel_reachable : freshChannel.Reachable :=
  ⟨0, fun _ => 0, 0, true, false, [], rfl⟩

/-- Three buffers of which one is empty, on a fresh direction. -/
theorem sendmsg_agrees_on_fresh_direction :
    ∃ final sendFinal,
      Returns step? (enter freshChannel [[7], [], [8]] ⟨false, false⟩) final (.sent 2) ∧
      freshChannel.SendReturns [7, 8] ⟨false, false⟩ sendFinal (.sent 2) ∧
      final.channel.ring.tail = sendFinal.ring.tail ∧
      final.channel.ring.contents = sendFinal.ring.contents := by
  have agrees :=
    sendmsg_agrees_with_send freshChannel freshChannel_reachable rfl [[7], [], [8]] ⟨false, false⟩
  obtain ⟨start, invariant⟩ := freshChannel_reachable.callInvariant
  have ready := invariant.sendReady rfl
  obtain ⟨final, returns, sends⟩ :=
    returns_all ready
      (show [[(7 : UInt8)], [], [8]].flatten.length ≤ freshChannel.ring.writable by decide +kernel)
      ⟨false, false⟩ 0 0 false
  obtain ⟨sendFinal, sendReturns, sendSends, _⟩ :=
    ready.returns_all ⟨false, false⟩
      (show [(7 : UInt8), 8].length ≤ freshChannel.ring.writable by decide +kernel)
  have received := sends.appended.received
  have sendReceived := sendSends.appended.received
  obtain ⟨_, tail, contents⟩ :=
    agrees.same final _ sendFinal _ (returns.amid ForeignStep)
      sendReturns.amid fun _ => ⟨received, sendReceived⟩
  exact ⟨final, sendFinal, returns, sendReturns, tail, contents (received.trans sendReceived.symm)⟩

/--
A ring with room for one byte: `sendmsg` of two buffers of one byte returns 1
with `errno` set to `EAGAIN`, while `shm_send` of the two bytes returns 1 without
touching `errno`.
-/
theorem errno_set_at_edge :
    ∃ (channel : ShmChannel .shmSegmentRing) (final : SendmsgThread .shmSegmentRing) (sendFinal : ShmChannel .shmSegmentRing),
      channel.Reachable ∧
      channel.sender = .idle ∧
      Returns step? (enter channel [[7], [8]] ⟨false, false⟩) final (.sent 1) ∧
      final.errnoAgain = true ∧
      channel.SendReturns [7, 8] ⟨false, false⟩ sendFinal (.sent 1) := by
  obtain ⟨start, invariant⟩ := freshChannel_reachable.callInvariant
  have length :
      (List.replicate (2 ^ 20 - 1) (7 : UInt8)).length = freshChannel.ring.writable - 1 := by
    rw [List.length_replicate]
    decide +kernel
  obtain ⟨channel, filled, sends, ready⟩ :=
    (invariant.sendReady rfl).returns_all ⟨false, false⟩ (by rw [length]; exact Nat.sub_le _ _)
  have room : channel.ring.writable = 1 := by
    have rest := sends.writable_eq invariant.ring ready.invariant
    rw [length] at rest
    exact rest.trans (by decide +kernel)
  have mode : (channel.senderNonblocking || (MsgFlags.mk false false).dontWait) = true := by
    rw [sends.senderNonblocking]
    rfl
  obtain ⟨actions, reached⟩ := filled.exists_run
  obtain ⟨final, returns, _⟩ :=
    returns_partial ready mode
      (show channel.ring.writable < [[(7 : UInt8)], [8]].flatten.length by rw [room]; decide)
      0 0 false
  obtain ⟨sendFinal, sendReturns, _, _⟩ :=
    ready.returns_partial mode
      (show channel.ring.writable < [(7 : UInt8), 8].length by rw [room]; decide)
  rw [room] at returns sendReturns
  obtain ⟨outcome, _⟩ := enter_outcome ready (returns.amid ForeignStep)
  exact ⟨channel, final, sendFinal, freshChannel_reachable.run reached,
    ready.sender, returns, outcome.errno.mpr ⟨by decide, 1, rfl⟩, sendReturns⟩

end SendmsgThread

end SocksDirect
