import SocksDirect.ShmEndOfFile
import SocksDirect.SoloRun

namespace SocksDirect

open Machine

/-!
# `shm_send` and `shm_recv` while no other party moves

The two loops of `src/lib/socket_api.cpp`, run by their own party alone.  What a
call returns then depends on the room or the bytes that the ring has when it is
made, on its mode, and for `shm_recv` on the closed flag and the kernel socket.

A call that waits is one that never returns.  The receiver's time-out in
`futex_wait` is a step of its own and does not end the call.
-/

variable {capacity : Capacity}

/-- The bytes between the two counters. -/
def ShmRing.contents (ring : ShmRing capacity) : List UInt8 :=
  (List.range ring.readable).map fun index =>
    ring.data ((ring.head + UInt64.ofNat index) &&& capacity.kMask).toNat

theorem ShmRing.length_contents (ring : ShmRing capacity) :
    ring.contents.length = ring.readable := by
  simp [ShmRing.contents]

namespace RingSystem

/-- Only the producer has moved, and it has published some bytes. -/
structure Appended
    (system next : RingSystem capacity)
    (bytes : List UInt8) : Prop where
  accepted : next.accepted = system.accepted ++ bytes
  received : next.received = system.received
  producer : next.producer = none
  consumer : next.consumer = system.consumer
  head : next.ring.head = system.ring.head
  closed : next.ring.closed = system.ring.closed

/-- Only the consumer has moved, and it has taken some bytes. -/
structure Consumed
    (system next : RingSystem capacity)
    (bytes : List UInt8) : Prop where
  received : next.received = system.received ++ bytes
  accepted : next.accepted = system.accepted
  producer : next.producer = system.producer
  consumer : next.consumer = none
  tail : next.ring.tail = system.ring.tail
  closed : next.ring.closed = system.ring.closed

section Contents

variable {start : UInt64} {system next : RingSystem capacity}

theorem Invariant.contents_eq (invariant : Invariant start system) :
    system.ring.contents = system.accepted.drop system.received.length := by
  have readable := invariant.readable_eq
  apply List.ext_getElem
  · simp [ShmRing.contents, readable]
  · intro index inContents inAccepted
    simp only [ShmRing.contents, List.getElem_map, List.getElem_range, List.getElem_drop]
    rw [invariant.headValue, ← UInt64.ofNat_add, toNat_and_kMask, Nat.add_assoc]
    apply invariant.stored (Nat.le_add_right _ _)
    exact List.getElem?_eq_getElem _

theorem Appended.writable_eq {bytes : List UInt8} (appended : Appended system next bytes)
    (invariant : Invariant start system) (nextInvariant : Invariant start next) :
    next.ring.writable = system.ring.writable - bytes.length := by
  rw [nextInvariant.writable_eq, invariant.writable_eq,
    appended.accepted, appended.received, List.length_append]
  omega

theorem Appended.trans {final : RingSystem capacity} {bytes more : List UInt8}
    (first : Appended system next bytes) (second : Appended next final more) :
    Appended system final (bytes ++ more) where
  accepted := by rw [second.accepted, first.accepted, List.append_assoc]
  received := second.received.trans first.received
  producer := second.producer
  consumer := second.consumer.trans first.consumer
  head := second.head.trans first.head
  closed := second.closed.trans first.closed

theorem Consumed.contents_eq {bytes : List UInt8} (consumed : Consumed system next bytes)
    (invariant : Invariant start system) (nextInvariant : Invariant start next) :
    next.ring.contents = system.ring.contents.drop bytes.length := by
  rw [nextInvariant.contents_eq, invariant.contents_eq,
    consumed.accepted, consumed.received, List.length_append, List.drop_drop]

end Contents

section Alone

variable {start : UInt64} {system next : RingSystem capacity}

private theorem smaller_eq_min (first second : Nat) :
    (if first < second then first else second) = min first second := by
  rw [Nat.min_def]
  split
  · rw [if_pos (by omega)]
  · split
    · omega
    · rfl

theorem ProducerMove.fires {returned : Option Nat} (move : ProducerMove system next returned) :
    system.producerStep? = some (next, returned) := by
  cases move with
  | loadTail inProgress => simp only [producerStep?, inProgress, ShmRing.sendSomeStep]
  | full inProgress noSpace => simp [producerStep?, inProgress, ShmRing.sendSomeStep, noSpace]
  | loadHead inProgress space amount =>
    simp only [producerStep?, inProgress, ShmRing.sendSomeStep,
      if_neg space, amount, smaller_eq_min]
  | store inProgress unfinished =>
    simp only [producerStep?, inProgress, ShmRing.sendSomeStep, if_pos unfinished]
  | publish inProgress finished =>
    simp only [producerStep?, inProgress, ShmRing.sendSomeStep,
      if_neg (Nat.not_lt.mpr finished), SendSome.buf]

theorem ConsumerMove.fires {returned : Option (List UInt8)}
    (move : ConsumerMove system next returned) :
    system.consumerStep? = some (next, returned) := by
  cases move with
  | loadTail inProgress => simp only [consumerStep?, inProgress, ShmRing.recvSomeStep]
  | empty inProgress noData => simp [consumerStep?, inProgress, ShmRing.recvSomeStep, noData]
  | loadHead inProgress data amount =>
    simp only [consumerStep?, inProgress, ShmRing.recvSomeStep, if_neg data, amount, smaller_eq_min]
  | fetch inProgress unfinished =>
    simp only [consumerStep?, inProgress, ShmRing.recvSomeStep, if_pos unfinished]
  | publish inProgress finished =>
    simp only [consumerStep?, inProgress, ShmRing.recvSomeStep, if_neg (Nat.not_lt.mpr finished)]

/-- The copy of `send_some` ends with the publication of its bytes. -/
theorem copy_alone {buf : List UInt8} {t : UInt64} {n copied : Nat}
    (inProgress : system.producer = some (.copy buf t n copied)) :
    ∃ next, Returns producerStep? system next n ∧ Appended system next (buf.take n) := by
  induction remaining : n - copied generalizing system copied with
  | zero =>
    have publish := ProducerMove.publish inProgress (by omega)
    exact ⟨_, returns_of_last publish.fires, rfl, rfl, rfl, rfl, rfl, rfl⟩
  | succ remaining inductionHypothesis =>
    have store := ProducerMove.store inProgress (by omega)
    obtain ⟨next, returns, appended⟩ :=
      inductionHypothesis
        (show
          { system with
            ring := system.ring.writeCell (ShmRing.copyCell capacity t n copied) (buf.getD copied 0)
            producer := some (.copy buf t n (copied + 1)) }.producer = some _
          from rfl)
        (by omega)
    exact ⟨next, (returns_of_step store.fires).mpr returns, { appended with }⟩

theorem step?_sendSome (idle : system.producer = none) (buf : List UInt8) :
    system.step? (.sendSome buf) = some { system with producer := some (.loadTail buf) } := by
  simp only [step?, idle, if_true]

theorem step?_recvSome (idle : system.consumer = none) (len : Nat) :
    system.step? (.recvSome len) = some { system with consumer := some (.loadTail len) } := by
  simp only [step?, idle, if_true]

/-- `send_some` publishes as many bytes as there is room for. -/
theorem sendSome_alone (idle : system.producer = none) (buf : List UInt8) : ∃ begun next,
      system.step? (.sendSome buf) = some begun ∧
      Returns producerStep? begun next (min buf.length system.ring.writable) ∧
      Appended system next (buf.take system.ring.writable) := by
  refine ⟨{ system with producer := some (.loadTail buf) }, ?_⟩
  have started := step?_sendSome idle buf
  have loadTail : ProducerMove
        { system with producer := some (.loadTail buf) }
        { system with producer := some (.loadHead buf system.ring.tail) }
        none :=
    .loadTail rfl
  by_cases noSpace : system.ring.writable = 0
  · have full : ProducerMove
          { system with producer := some (.loadHead buf system.ring.tail) }
          { system with producer := none } (some 0) :=
      .full rfl noSpace
    rw [noSpace, Nat.min_zero, List.take_zero]
    refine ⟨_, started, (returns_of_step loadTail.fires).mpr
      (returns_of_last full.fires), ?_⟩
    exact ⟨(List.append_nil _).symm, rfl, rfl, rfl, rfl, rfl⟩
  · have loadHead : ProducerMove
          { system with producer := some (.loadHead buf system.ring.tail) }
          { system with
            producer := some (.copy buf system.ring.tail (min buf.length system.ring.writable) 0) }
          none :=
      .loadHead rfl noSpace rfl
    obtain ⟨next, returns, appended⟩ :=
      copy_alone
        (show
          { system with
            producer :=
              some
                (.copy buf system.ring.tail
                  (min buf.length system.ring.writable)
                  0) }.producer = some _
          from rfl)
    refine ⟨next, started, ?_, ?_⟩
    · exact (returns_of_step loadTail.fires).mpr
        ((returns_of_step loadHead.fires).mpr returns)
    · rw [List.take_eq_take_min, Nat.min_comm]
      exact { appended with }

/-- The copy of `recv_some` ends with the bytes that it has to fetch. -/
theorem fetch_alone {h : UInt64} {n : Nat} {buf : List UInt8} (invariant : Invariant start system)
    (inProgress : system.consumer = some (.copy h n buf)) :
    ∃ next, Returns consumerStep? system next
      ((system.accepted.drop system.received.length).take n) ∧
      Consumed system next ((system.accepted.drop system.received.length).take n) := by
  induction remaining : n - buf.length generalizing system buf with
  | zero =>
    obtain ⟨-, -, within, bytes⟩ := invariant.consumerReady inProgress
    have complete : buf.length = n := by omega
    have publish := ConsumerMove.publish inProgress (by omega)
    rw [complete] at bytes
    rw [← bytes]
    exact ⟨_, returns_of_last publish.fires, rfl, rfl, rfl, rfl, rfl, rfl⟩
  | succ remaining inductionHypothesis =>
    have fetch := ConsumerMove.fetch inProgress (by omega)
    obtain ⟨next, returns, consumed⟩ :=
      inductionHypothesis (invariant.consumer_move fetch) rfl
        (by rw [List.length_append, List.length_singleton]; omega)
    exact ⟨next, (returns_of_step fetch.fires).mpr returns, { consumed with }⟩

/-- `recv_some` takes as many bytes as the ring has and the caller wants. -/
theorem recvSome_alone (invariant : Invariant start system) (idle : system.consumer = none)
    (len : Nat) :
    ∃ begun next, system.step? (.recvSome len) = some begun ∧
      Returns consumerStep? begun next (system.ring.contents.take len) ∧
      Consumed system next (system.ring.contents.take len) := by
  refine ⟨{ system with consumer := some (.loadTail len) }, ?_⟩
  have started := step?_recvSome idle len
  have loadTail : ConsumerMove
        { system with consumer := some (.loadTail len) }
        { system with consumer := some (.loadHead len system.ring.tail) }
        none :=
    .loadTail rfl
  have length := system.ring.length_contents
  by_cases noData : system.ring.readable = 0
  · have empty : ConsumerMove
          { system with consumer := some (.loadHead len system.ring.tail) }
          { system with consumer := none } (some []) :=
      .empty rfl noData
    rw [List.length_eq_zero_iff.mp (length.trans noData), List.take_nil]
    refine ⟨_, started, (returns_of_step loadTail.fires).mpr
      (returns_of_last empty.fires), ?_⟩
    exact ⟨(List.append_nil _).symm, rfl, rfl, rfl, rfl, rfl⟩
  · have loadHead : ConsumerMove
          { system with consumer := some (.loadHead len system.ring.tail) }
          { system with
            consumer := some (.copy system.ring.head (min len system.ring.readable) []) }
          none :=
      .loadHead rfl noData rfl
    have begun := invariant.step started
    obtain ⟨next, returns, consumed⟩ :=
      fetch_alone ((begun.consumer_move loadTail).consumer_move loadHead) rfl
    have wanted : (system.accepted.drop system.received.length).take
            (min len system.ring.readable) = system.ring.contents.take len := by
      rw [← invariant.contents_eq, ← length]
      exact List.take_eq_take_min.symm
    rw [wanted] at returns consumed
    refine ⟨next, started, ?_, ?_⟩
    · exact (returns_of_step loadTail.fires).mpr
        ((returns_of_step loadHead.fires).mpr returns)
    · exact { consumed with }

end Alone

end RingSystem

namespace ShmChannel

section Send

variable {start : UInt64} {channel next : ShmChannel capacity} {call : SendCall}

/-- The sender has published some bytes and nobody else has moved. -/
structure Sends
    (channel next : ShmChannel capacity)
    (bytes : List UInt8) : Prop where
  appended : RingSystem.Appended channel.system next.system bytes
  senderNonblocking : next.senderNonblocking = channel.senderNonblocking

theorem Sends.writable_eq {bytes : List UInt8} (sends : Sends channel next bytes)
    (invariant : channel.system.Invariant start) (nextInvariant : next.system.Invariant start) :
    next.ring.writable = channel.ring.writable - bytes.length :=
  sends.appended.writable_eq invariant nextInvariant

variable {final : ShmChannel capacity}

theorem Sends.trans {bytes more : List UInt8} (first : Sends channel next bytes)
    (second : Sends next final more) :
    Sends channel final (bytes ++ more) where
  appended := first.appended.trans second.appended
  senderNonblocking := second.senderNonblocking.trans first.senderNonblocking

/-- Every listed move of the sender is its next step. -/
theorem SenderMove.fires {result : Option SendResult} (move : SenderMove channel next result) :
    channel.senderStep? = some (next, result) := by
  cases move with
  | enter position unfinished started =>
    simp only [senderStep?, position, if_pos unfinished, started]
  | finish position finished => simp only [senderStep?, position, if_neg (Nat.not_lt.mpr finished)]
  | access position move => simp only [senderStep?, position, move.fires]
  | published position positive move =>
    simp only [senderStep?, position, move.fires, if_pos positive]
  | foundFull position move =>
    simp only [senderStep?, position, move.fires, Nat.lt_irrefl, if_false, gt_iff_lt]
  | bump position | wake position => simp only [senderStep?, position]
  | giveUp position nonblocking value =>
    simp only [senderStep?, position, nonblocking, if_true, value]
    split <;> rfl
  | retry position blocking =>
    simp only [senderStep?, position, blocking]
    rfl

theorem sendSome_passes {system after : RingSystem capacity}
    (passes : Passes RingSystem.producerStep? system after) :
    Passes senderStep?
      { channel with system := system, sender := .inSendSome call }
      { channel with system := after, sender := .inSendSome call } :=
  passes.lift
    (fun system => { channel with system := system, sender := .inSendSome call })
    fun step => (SenderMove.access rfl (RingSystem.producerStep?_move step)).fires

theorem passes_ringInvariant (invariant : channel.system.Invariant start)
    (passes : Passes senderStep? channel next) :
    next.system.Invariant start := by
  induction passes with
  | refl => exact invariant
  | tail _ step inductionHypothesis =>
    exact (senderStep?_move step).ringInvariant inductionHypothesis

/-- The sender announces what `send_some` has published and loops. -/
theorem publish_passes (channel : ShmChannel capacity) (call : SendCall)
    {last system : RingSystem capacity} {did : Nat}
    (lastStep : last.producerStep? = some (system, some did)) (positive : 0 < did) :
    ∃ next, Passes senderStep?
          { channel with system := last, sender := .inSendSome call }
          next ∧ next.system = system ∧ next.senderNonblocking = channel.senderNonblocking ∧
        next.sender = .loop { call with total := call.total + did } := by
  have published : SenderMove
        { channel with system := last, sender := .inSendSome call }
        { channel with system := system, sender := .bump call did }
        none :=
    .published rfl positive (RingSystem.producerStep?_move lastStep)
  have bump : SenderMove
        { channel with system := system, sender := .bump call did }
        { channel with
          system := system
          wakeCount := channel.wakeCount + 1
          sender := .wake call did }
        none :=
    .bump rfl
  have wake : SenderMove
        { channel with
          system := system
          wakeCount := channel.wakeCount + 1
          sender := .wake call did }
        { futexWake
            { channel with
              system := system
              wakeCount := channel.wakeCount + 1
              sender := .wake call did } with
          sender := .loop { call with total := call.total + did } }
        none :=
    .wake rfl
  exact ⟨_, ((Passes.single wake.fires).head bump.fires).head
    published.fires, futexWake_system _, futexWake_senderNonblocking _, rfl⟩

/-- One round of `shm_send`: `send_some` publishes what fits. -/
theorem round_passes (idle : channel.system.producer = none)
    (position : channel.sender = .loop call) (unfinished : call.total < call.buf.length) :
    ∃ next, Passes senderStep? channel next ∧
        Sends channel next ((call.buf.drop call.total).take channel.ring.writable) ∧ next.sender =
          if channel.ring.writable = 0 then
            .ringFull call
          else
            .loop
              { call with
                total :=
                  call.total + min (call.buf.length - call.total) channel.ring.writable } := by
  obtain ⟨begun, system, started, returns, appended⟩ :=
    RingSystem.sendSome_alone idle (call.buf.drop call.total)
  have enter := SenderMove.enter position unfinished started
  obtain ⟨last, passes, lastStep⟩ := returns_iff_exists_last.mp returns
  have inside : Passes senderStep? channel
        { channel with system := last, sender := .inSendSome call } :=
    (sendSome_passes passes).head enter.fires
  rw [List.length_drop] at lastStep
  change last.producerStep? =
    some (system, some (min (call.buf.length - call.total) channel.ring.writable))
    at lastStep
  by_cases noSpace : channel.ring.writable = 0
  · rw [noSpace, Nat.min_zero] at lastStep
    have full : SenderMove
          { channel with system := last, sender := .inSendSome call }
          { channel with system := system, sender := .ringFull call }
          none :=
      .foundFull rfl (RingSystem.producerStep?_move lastStep)
    rw [if_pos noSpace]
    exact ⟨_, inside.trans (.single full.fires), ⟨appended, rfl⟩, rfl⟩
  · have positive : 0 < min (call.buf.length - call.total) channel.ring.writable := by omega
    obtain ⟨next, passesOn, sameSystem, sameMode, standing⟩ :=
      publish_passes channel call lastStep positive
    rw [if_neg noSpace]
    refine ⟨next, inside.trans passesOn, ⟨?_, sameMode⟩, standing⟩
    rw [sameSystem]
    exact appended

/-- A ring without room in a blocking call that is not finished. -/
def Stuck (channel : ShmChannel capacity) : Prop :=
  ∃ call, call.nonblock = false ∧ call.total < call.buf.length ∧ channel.ring.writable = 0 ∧
      (channel.sender = .loop call ∧ channel.system.producer = none ∨
        channel.sender = .ringFull call ∧ channel.system.producer = none ∨
        channel.sender = .inSendSome call ∧
          ((∃ buf, channel.system.producer = some (.loadTail buf)) ∨
            ∃ buf, channel.system.producer = some (.loadHead buf channel.ring.tail)))

/-- A blocking sender that finds no room keeps looking for it. -/
theorem Stuck.step {result : Option SendResult} (stuck : channel.Stuck)
    (stepped : channel.senderStep? = some (next, result)) :
    result = none ∧ next.Stuck := by
  obtain ⟨call, blocking, unfinished, noSpace, phase⟩ := stuck
  rcases phase with ⟨position, idle⟩ | ⟨position, idle⟩ |
    ⟨position, ⟨buf, inProgress⟩ | ⟨buf, inProgress⟩⟩
  · have enter := SenderMove.enter position unfinished (RingSystem.step?_sendSome idle _)
    rw [enter.fires] at stepped
    cases stepped
    exact ⟨rfl, call, blocking, unfinished, noSpace, .inr (.inr ⟨rfl, .inl ⟨_, rfl⟩⟩)⟩
  · have retry := SenderMove.retry position blocking
    rw [retry.fires] at stepped
    cases stepped
    exact ⟨rfl, call, blocking, unfinished, noSpace, .inl ⟨rfl, idle⟩⟩
  · have access := SenderMove.access position (.loadTail inProgress)
    rw [access.fires] at stepped
    cases stepped
    exact ⟨rfl, call, blocking, unfinished, noSpace, .inr (.inr ⟨rfl, .inr ⟨buf, rfl⟩⟩)⟩
  · have full := SenderMove.foundFull position (.full inProgress noSpace)
    rw [full.fires] at stepped
    cases stepped
    exact ⟨rfl, call, blocking, unfinished, noSpace, .inr (.inl ⟨rfl, rfl⟩)⟩

/-- The loop of `shm_send` with room for the rest of the buffer. -/
theorem loop_returns_all (idle : channel.system.producer = none)
    (position : channel.sender = .loop call) (within : call.total ≤ call.buf.length)
    (fits : call.buf.length - call.total ≤ channel.ring.writable) :
    ∃ final, Returns senderStep? channel final
      (.sent call.buf.length) ∧ Sends channel final (call.buf.drop call.total) ∧
      final.sender = .idle := by
  rcases Nat.eq_or_lt_of_le within with finished | unfinished
  · have finish := SenderMove.finish position (Nat.le_of_eq finished.symm)
    rw [finished] at finish
    rw [finished, List.drop_length]
    exact ⟨_, returns_of_last finish.fires,
      ⟨⟨(List.append_nil _).symm, rfl, idle, rfl, rfl, rfl⟩, rfl⟩, rfl⟩
  · obtain ⟨next, passes, sends, afterwards⟩ := round_passes idle position unfinished
    have room : channel.ring.writable ≠ 0 := by omega
    rw [if_neg room, Nat.min_eq_left fits, Nat.add_sub_cancel' within] at afterwards
    rw [List.take_of_length_le (by rw [List.length_drop]; exact fits)] at sends
    have finish := SenderMove.finish afterwards (Nat.le_refl _)
    exact ⟨_, passes.returns_iff.mpr
      (returns_of_last finish.fires), ⟨sends.appended, sends.senderNonblocking⟩, rfl⟩

section

variable (invariant : channel.system.Invariant start) (idle : channel.system.producer = none)
variable (position : channel.sender = .loop call)

include invariant idle position

/-- The loop of `shm_send` fills a ring that is too small for the rest. -/
theorem fill_passes (short : channel.ring.writable < call.buf.length - call.total) : ∃ next,
      Passes senderStep? channel next ∧
        Sends channel next ((call.buf.drop call.total).take channel.ring.writable) ∧
        next.ring.writable = 0 ∧ next.sender = .loop
            { call with
              total := call.total + channel.ring.writable } := by
  by_cases noSpace : channel.ring.writable = 0
  · refine ⟨channel, .refl channel, ⟨?_, rfl⟩, noSpace, ?_⟩
    · rw [noSpace, List.take_zero]
      exact ⟨(List.append_nil _).symm, rfl, idle, rfl, rfl, rfl⟩
    · rw [noSpace, position]
      rfl
  · obtain ⟨next, passes, sends, afterwards⟩ := round_passes idle position (by omega)
    have nextInvariant := passes_ringInvariant invariant passes
    refine ⟨next, passes, sends, ?_, ?_⟩
    · rw [sends.writable_eq invariant nextInvariant, List.length_take, List.length_drop]
      omega
    · rw [afterwards, if_neg noSpace, Nat.min_eq_right (by omega)]

/-- A non-blocking `shm_send` returns how much of the rest has found room. -/
theorem loop_returns_partial (nonblocking : call.nonblock = true)
    (short : channel.ring.writable < call.buf.length - call.total) :
    ∃ final, Returns senderStep? channel final
          (if call.total + channel.ring.writable > 0 then
            .sent (call.total + channel.ring.writable)
          else
            .again) ∧ Sends channel final ((call.buf.drop call.total).take channel.ring.writable) ∧
        final.sender = .idle := by
  obtain ⟨filled, passes, sends, noSpace, standing⟩ := fill_passes invariant idle position short
  obtain ⟨full, passesFull, sendsNothing, atFull⟩ :=
    round_passes sends.appended.producer standing (by dsimp only; omega)
  rw [if_pos noSpace] at atFull
  rw [noSpace, List.take_zero] at sendsNothing
  have giveUp := SenderMove.giveUp atFull nonblocking rfl
  have both := sends.trans sendsNothing
  rw [List.append_nil] at both
  exact ⟨_, (passes.trans passesFull).returns_iff.mpr
    (returns_of_last giveUp.fires), ⟨both.appended, both.senderNonblocking⟩, rfl⟩

theorem loop_not_returns (blocking : call.nonblock = false)
    (short : channel.ring.writable < call.buf.length - call.total) (final : ShmChannel capacity)
    (result : SendResult) :
    ¬ Returns senderStep? channel final result := by
  obtain ⟨filled, passes, sends, noSpace, standing⟩ := fill_passes invariant idle position short
  rw [passes.returns_iff]
  refine not_returns_of_invariant (fun stuck stepped => Stuck.step stuck stepped) ?_
  refine ⟨{ call with total := call.total + channel.ring.writable },
    blocking, ?_, noSpace, .inl ⟨standing, sends.appended.producer⟩⟩
  dsimp only
  omega

end

/-- The whole call `shm_send`, run alone. -/
def SendReturns (channel : ShmChannel capacity) (buf : List UInt8) (flags : MsgFlags)
    (final : ShmChannel capacity) (result : SendResult) : Prop :=
  ∃ entered early, channel.shmSend? buf flags = some (entered, early) ∧
      match early with
      | some value => final = entered ∧ result = value
      | none => Returns senderStep? entered final result

theorem SendReturns.unique {buf : List UInt8} {flags : MsgFlags} {otherFinal : ShmChannel capacity}
    {result otherResult : SendResult} (returns : SendReturns channel buf flags final result)
    (other : SendReturns channel buf flags otherFinal otherResult) :
    final = otherFinal ∧ result = otherResult := by
  obtain ⟨entered, early, enters, returned⟩ := returns
  obtain ⟨otherEntered, otherEarly, otherEnters, otherReturned⟩ := other
  rw [enters] at otherEnters
  cases otherEnters
  cases early with
  | some value =>
    obtain ⟨rfl, rfl⟩ := returned
    obtain ⟨rfl, rfl⟩ := otherReturned
    exact ⟨rfl, rfl⟩
  | none => exact Returns.unique returned otherReturned

/-- What a sender without a call can rely on. -/
structure SendReady
    (start : UInt64)
    (channel : ShmChannel capacity) : Prop where
  invariant : channel.system.Invariant start
  producer : channel.system.producer = none
  sender : channel.sender = .idle

variable {buf : List UInt8} {flags : MsgFlags}

/-- The state in which the loop of `shm_send` begins. -/
def enterSend (channel : ShmChannel capacity) (buf : List UInt8)
    (flags : MsgFlags) : ShmChannel capacity :=
  { channel with sender := .loop ⟨buf, channel.senderNonblocking || flags.dontWait, 0⟩ }

theorem SendReady.sendReturns_iff (ready : channel.SendReady start) (flags : MsgFlags)
    (nonempty : buf.length ≠ 0) {result : SendResult} :
    SendReturns channel buf flags final result ↔ Returns senderStep? (channel.enterSend buf flags)
      final result := by
  have enters : channel.shmSend? buf flags = some (channel.enterSend buf flags, none) := by
    simp only [shmSend?, if_neg nonempty, ready.sender, if_true, enterSend]
  unfold SendReturns
  rw [enters]
  constructor
  · rintro ⟨entered, early, same, returns⟩
    cases same
    exact returns
  · intro returns
    exact ⟨_, none, rfl, returns⟩

theorem SendReady.of_returns {entered : ShmChannel capacity} {bytes : List UInt8}
    {result : SendResult} (invariant : entered.system.Invariant start)
    (returns : Returns senderStep? entered final result) (sends : Sends entered final bytes)
    (sender : final.sender = .idle) :
    final.SendReady start where
  invariant := by
    obtain ⟨last, passes, lastStep⟩ := returns_iff_exists_last.mp returns
    exact (senderStep?_move lastStep).ringInvariant (passes_ringInvariant invariant passes)
  producer := sends.appended.producer
  sender := sender

/-- A send that finds enough room publishes its buffer and returns. -/
theorem SendReady.returns_all (ready : channel.SendReady start) (flags : MsgFlags)
    (fits : buf.length ≤ channel.ring.writable) :
    ∃ final, SendReturns channel buf flags final (.sent buf.length) ∧ Sends channel final buf ∧
      final.SendReady start := by
  by_cases empty : buf.length = 0
  · obtain rfl := List.length_eq_zero_iff.mp empty
    refine ⟨channel, ⟨channel, some (.sent 0), rfl, rfl, rfl⟩, ?_, ready⟩
    exact ⟨⟨(List.append_nil _).symm, rfl, ready.producer, rfl, rfl, rfl⟩, rfl⟩
  · obtain ⟨final, returns, sends, sender⟩ :=
      loop_returns_all
        (show (channel.enterSend buf flags).system.producer = none from ready.producer)
        rfl (Nat.zero_le _) fits
    exact ⟨final, (ready.sendReturns_iff flags empty).mpr returns,
      ⟨sends.appended, sends.senderNonblocking⟩, .of_returns
        (show (channel.enterSend buf flags).system.Invariant start from ready.invariant)
        returns sends sender⟩

/-- A non-blocking send publishes what finds room and returns. -/
theorem SendReady.returns_partial (ready : channel.SendReady start)
    (nonblocking : (channel.senderNonblocking || flags.dontWait) = true)
    (short : channel.ring.writable < buf.length) :
    ∃ final, SendReturns channel buf flags final
          (if channel.ring.writable > 0 then
            .sent channel.ring.writable
          else
            .again) ∧ Sends channel final (buf.take channel.ring.writable) ∧
        final.SendReady start := by
  obtain ⟨final, returns, sends, sender⟩ :=
    loop_returns_partial
      (show (channel.enterSend buf flags).system.Invariant start from ready.invariant)
      ready.producer rfl nonblocking short
  refine ⟨final, (ready.sendReturns_iff flags (by omega)).mpr ?_,
    ⟨sends.appended, sends.senderNonblocking⟩, .of_returns
      (show (channel.enterSend buf flags).system.Invariant start from ready.invariant)
      returns sends sender⟩
  simp only [Nat.zero_add] at returns
  exact returns

theorem SendReady.not_returns (ready : channel.SendReady start)
    (blocking : (channel.senderNonblocking || flags.dontWait) = false)
    (short : channel.ring.writable < buf.length) (final : ShmChannel capacity)
    (result : SendResult) :
    ¬ SendReturns channel buf flags final result := by
  rw [ready.sendReturns_iff flags (by omega)]
  exact loop_not_returns
    (show (channel.enterSend buf flags).system.Invariant start from ready.invariant)
    ready.producer rfl blocking short final result

end Send

section Receive

variable {start : UInt64} {channel next : ShmChannel capacity} {call : RecvCall} {hungUp : Bool}

/--
The receiver's next step when nobody else moves.  A parked receiver returns from
`futex_wait` when the time is over.
-/
def receiverTurn? (hungUp : Bool) (channel : ShmChannel capacity) :
    Option (ShmChannel capacity × Option RecvResult) :=
  match channel.receiver with
  | .parked _ => channel.futexReturn?.map fun next => (next, none)
  | _ => channel.receiverStep? hungUp

/--
The receiver has taken some bytes and nobody else has moved.  A call that takes
bytes does not come to mark the ring closed.
-/
structure Receives
    (channel next : ShmChannel capacity)
    (bytes : List UInt8) : Prop where
  received : next.system.received = channel.system.received ++ bytes
  accepted : next.system.accepted = channel.system.accepted
  consumer : next.system.consumer = none
  closed : channel.ring.peerClosed = true → next.ring.peerClosed = true
  sameClosed : bytes ≠ [] → next.ring.peerClosed = channel.ring.peerClosed
  receiverNonblocking : next.receiverNonblocking = channel.receiverNonblocking

variable {bytes : List UInt8}

theorem Receives.contents_eq (receives : Receives channel next bytes)
    (invariant : channel.system.Invariant start) (nextInvariant : next.system.Invariant start) :
    next.ring.contents = channel.ring.contents.drop bytes.length := by
  rw [ring, ring, nextInvariant.contents_eq, invariant.contents_eq,
    receives.accepted, receives.received, List.length_append, List.drop_drop]

theorem recvSome_passes {system after : RingSystem capacity}
    (passes : Passes RingSystem.consumerStep? system after) :
    Passes (receiverTurn? hungUp)
      { channel with system := system, receiver := .inRecvSome call }
      { channel with system := after, receiver := .inRecvSome call } :=
  passes.lift
    (fun system => { channel with system := system, receiver := .inRecvSome call })
    fun step => by simp only [receiverTurn?, receiverStep?, step]

/-- The receiver keeps the ring invariant through its call. -/
theorem turns_ringInvariant (invariant : channel.system.Invariant start)
    (passes : Passes (receiverTurn? hungUp) channel next) :
    next.system.Invariant start := by
  induction passes with
  | refl => exact invariant
  | @tail middle next _ step inductionHypothesis =>
    unfold Continues receiverTurn? at step
    split at step
    · rename_i parked
      simp only [futexReturn?, parked, Option.map_some, Option.some.injEq, Prod.mk.injEq] at step
      rw [← step.1, futexWake_system]
      exact inductionHypothesis
    · exact (receiverStep?_move step).ringInvariant inductionHypothesis

section

variable (invariant : channel.system.Invariant start) (idle : channel.system.consumer = none)
variable (position : channel.receiver = .loop call)

include invariant idle position

/-- `recv_some` inside `shm_recv`, up to its last step. -/
theorem round_recv (hungUp : Bool) : ∃ last system, Passes (receiverTurn? hungUp) channel
      { channel with system := last, receiver := .inRecvSome call } ∧
      last.consumerStep? = some (system, some (channel.ring.contents.take call.n)) ∧
      RingSystem.Consumed channel.system system (channel.ring.contents.take call.n) ∧
      system.ring.peerClosed = channel.ring.peerClosed := by
  obtain ⟨begun, system, started, returns, consumed⟩ :=
    RingSystem.recvSome_alone invariant idle call.n
  obtain ⟨last, passes, lastStep⟩ := returns_iff_exists_last.mp returns
  have enter : channel.receiverTurn? hungUp =
        some ({ channel with system := begun, receiver := .inRecvSome call }, none) := by
    simp only [receiverTurn?, receiverStep?, position, started]
  refine ⟨last, system, (recvSome_passes passes).head enter, lastStep, consumed, ?_⟩
  rw [ShmRing.peerClosed, consumed.closed]
  rfl

/-- `shm_recv` returns what `recv_some` finds. -/
theorem loop_returns_data (data : channel.ring.contents.take call.n ≠ []) (hungUp : Bool) : ∃ final,
      Returns (receiverTurn? hungUp) channel final
      (.data (channel.ring.contents.take call.n)) ∧
      Receives channel final (channel.ring.contents.take call.n) ∧ final.receiver = .idle := by
  obtain ⟨last, system, passes, lastStep, consumed, sameClosed⟩ :=
    round_recv invariant idle position hungUp
  have positive : (channel.ring.contents.take call.n).length > 0 := List.length_pos_iff.mpr data
  refine ⟨{ channel with system := system, receiver := .idle },
    passes.returns_iff.mpr (returns_of_last ?_), ?_, rfl⟩
  · simp only [receiverTurn?, receiverStep?, lastStep, if_pos positive]
  · exact ⟨consumed.received, consumed.accepted, consumed.consumer,
      sameClosed.trans, fun _ => sameClosed, rfl⟩

variable (empty : channel.ring.contents = [])

include empty

/-- On an empty ring `shm_recv` goes on to the closed flag and has moved nothing. -/
theorem empty_passes (hungUp : Bool) : ∃ system, Passes (receiverTurn? hungUp) channel
      { channel with system := system, receiver := .testClosed call } ∧
      RingSystem.Consumed channel.system system [] ∧ system.Invariant start ∧
      system.ring.contents = [] ∧ system.ring.peerClosed = channel.ring.peerClosed := by
  obtain ⟨last, system, passes, lastStep, consumed, sameClosed⟩ :=
    round_recv invariant idle position hungUp
  rw [empty, List.take_nil] at lastStep consumed
  have passesOn : Passes (receiverTurn? hungUp) channel
      { channel with system := system, receiver := .testClosed call } :=
    passes.trans (.single (by simp [receiverTurn?, receiverStep?, lastStep]))
  have after : system.Invariant start := turns_ringInvariant invariant passesOn
  exact ⟨system, passesOn, consumed, after, (consumed.contents_eq invariant after).trans empty,
    sameClosed⟩

/-- On a ring that is empty and closed `shm_recv` returns 0. -/
theorem loop_returns_zero (closed : channel.ring.peerClosed = true) (hungUp : Bool) : ∃ final,
      Returns (receiverTurn? hungUp) channel final .zero ∧ Receives channel final [] ∧
      final.receiver = .idle := by
  obtain ⟨system, passes, consumed, -, drained, sameClosed⟩ :=
    empty_passes invariant idle position empty hungUp
  rw [closed] at sameClosed
  have noData : system.ring.readable = 0 := by
    rw [← system.ring.length_contents, drained]
    rfl
  have seen : receiverTurn? hungUp
          { channel with system := system, receiver := .testClosed call } =
        some ({ channel with system := system, receiver := .testReadable call }, none) := by
    simp [receiverTurn?, receiverStep?, ring, sameClosed]
  have last : receiverTurn? hungUp
          { channel with system := system, receiver := .testReadable call } =
        some ({ channel with system := system, receiver := .idle }, some .zero) := by
    simp [receiverTurn?, receiverStep?, ring, noData]
  exact ⟨_, (passes.trans (.single seen)).returns_iff.mpr
    (returns_of_last last), ⟨consumed.received, consumed.accepted, consumed.consumer,
      fun _ => sameClosed, fun some => absurd rfl some, rfl⟩, rfl⟩

variable (isOpen : channel.ring.peerClosed = false)

include isOpen

/-- On a ring that is empty and open a non-blocking `shm_recv` gives up. -/
theorem loop_returns_again (nonblocking : call.nonblock = true) (hungUp : Bool) : ∃ final,
      Returns (receiverTurn? hungUp) channel final .again ∧ Receives channel final [] ∧
      final.receiver = .idle := by
  obtain ⟨system, passes, consumed, -, -, sameClosed⟩ :=
    empty_passes invariant idle position empty hungUp
  have last : receiverTurn? hungUp
          { channel with system := system, receiver := .testClosed call } =
        some ({ channel with system := system, receiver := .idle }, some .again) := by
    simp [receiverTurn?, receiverStep?, ring, sameClosed.trans isOpen, foundEmpty, nonblocking]
  exact ⟨_, passes.returns_iff.mpr (returns_of_last last),
    ⟨consumed.received, consumed.accepted, consumed.consumer, sameClosed.trans,
      fun some => absurd rfl some, rfl⟩, rfl⟩

/-- A hung-up kernel socket makes a blocking `shm_recv` return 0. -/
theorem loop_returns_hungUp (blocking : call.nonblock = false) : ∃ final,
      Returns (receiverTurn? true) channel final .zero ∧ Receives channel final [] ∧
      final.receiver = .idle := by
  obtain ⟨system, passes, consumed, after, drained, sameClosed⟩ :=
    empty_passes invariant idle position empty true
  have blocked : receiverTurn? true
          { channel with system := system, receiver := .testClosed call } =
        some ({ channel with system := system, receiver := .testHangUp call }, none) := by
    simp [receiverTurn?, receiverStep?, ring, sameClosed.trans isOpen, foundEmpty, blocking]
  have seen : receiverTurn? true
          { channel with system := system, receiver := .testHangUp call } =
        some ({ channel with system := system, receiver := .markClosed call }, none) := by
    simp [receiverTurn?, receiverStep?]
  have marks : receiverTurn? true
          { channel with system := system, receiver := .markClosed call } = some
          ({ channel with
              system := { system with ring := system.ring.markClosed }
              receiver := .loop call }, none) := by
    simp [receiverTurn?, receiverStep?, ring]
  -- The loop starts again on a ring that is closed now.
  obtain ⟨final, returns, receives, receiver⟩ :=
    loop_returns_zero
      (show
        ({ channel with
            system := { system with ring := system.ring.markClosed }
            receiver := .loop call } :
          ShmChannel capacity).system.Invariant start
        from after.markClosed)
      consumed.consumer rfl (show system.ring.markClosed.contents = [] from drained) rfl true
  refine ⟨final, ?_, ⟨?_, receives.accepted.trans consumed.accepted, receives.consumer,
    fun _ => receives.closed rfl, fun some => absurd rfl some, receives.receiverNonblocking⟩, receiver⟩
  · exact (passes.trans (((Passes.single marks).head seen).head blocked)).returns_iff.mpr returns
  · rw [receives.received, List.append_nil]
    exact consumed.received

end

/-- The call of a receiver between its looks at the ring. -/
def waitingCall? : Receiver → Option RecvCall
  | .loop call | .testClosed call | .testHangUp call | .sample call => some call
  | .recheckReadable call _ | .recheckClosed call _ | .futexWait call _ => some call
  | .parked call => some call
  | _ => none

/-- A ring without data in a blocking call, and not at its end. -/
def Starved (channel : ShmChannel capacity) : Prop :=
  ∃ call, call.nonblock = false ∧ channel.ring.readable = 0 ∧ channel.ring.peerClosed = false ∧
      (waitingCall? channel.receiver = some call ∧ channel.system.consumer = none ∨
        channel.receiver = .inRecvSome call ∧
          ((∃ len, channel.system.consumer = some (.loadTail len)) ∨
            ∃ len, channel.system.consumer = some (.loadHead len channel.ring.tail)))

/-- A blocking receiver that finds nothing keeps looking. -/
theorem Starved.turn {result : Option RecvResult} (starved : channel.Starved)
    (turned : channel.receiverTurn? false = some (next, result)) :
    result = none ∧ next.Starved := by
  obtain ⟨call, blocking, noData, isOpen, phase⟩ := starved
  rcases phase with ⟨waiting, idle⟩ | ⟨position, ⟨len, inProgress⟩ | ⟨len, inProgress⟩⟩
  · unfold receiverTurn? at turned
    cases position : channel.receiver <;> rw [position] at waiting <;> cases waiting
    case inl.loop.refl =>
      simp only [position, receiverStep?, RingSystem.step?_recvSome idle] at turned
      cases turned
      exact ⟨rfl, call, blocking, noData, isOpen, .inr ⟨rfl, .inl ⟨_, rfl⟩⟩⟩
    case inl.testHangUp.refl =>
      simp only [position, receiverStep?, Bool.false_eq_true, if_false] at turned
      split at turned
      · cases turned
        exact ⟨rfl, { call with spin := call.spin + 1 }, blocking, noData, isOpen, .inl ⟨rfl, idle⟩⟩
      · cases turned
        exact ⟨rfl, call, blocking, noData, isOpen, .inl ⟨rfl, idle⟩⟩
    case inl.futexWait.refl =>
      simp only [position, receiverStep?] at turned
      split at turned
      · cases turned
        exact ⟨rfl, call, blocking, noData, isOpen, .inl ⟨rfl, idle⟩⟩
      · cases turned
        exact ⟨rfl, { call with spin := 0 }, blocking, noData, isOpen, .inl ⟨rfl, idle⟩⟩
    case inl.parked.refl =>
      simp only [position, futexReturn?, futexWake, Option.map_some] at turned
      cases turned
      exact ⟨rfl, { call with spin := 0 }, blocking, noData, isOpen, .inl ⟨rfl, idle⟩⟩
    -- The other tests find nothing and hand the call on as it is.
    all_goals
      simp only [position, receiverStep?, isOpen, noData, foundEmpty, blocking, gt_iff_lt,
        Nat.lt_irrefl, Bool.false_eq_true, if_false] at turned
      cases turned
      exact ⟨rfl, call, blocking, noData, isOpen, .inl ⟨rfl, idle⟩⟩
  · have access := RingSystem.ConsumerMove.loadTail inProgress
    simp only [receiverTurn?, receiverStep?, position, access.fires] at turned
    cases turned
    exact ⟨rfl, call, blocking, noData, isOpen, .inr ⟨rfl, .inr ⟨len, rfl⟩⟩⟩
  · have access := RingSystem.ConsumerMove.empty inProgress noData
    simp only [receiverTurn?, receiverStep?, position, access.fires, List.length_nil, gt_iff_lt,
      Nat.lt_irrefl, if_false] at turned
    cases turned
    exact ⟨rfl, call, blocking, noData, isOpen, .inl ⟨rfl, rfl⟩⟩

/-- The whole call `shm_recv`, run alone. -/
def RecvReturns (hungUp : Bool) (channel : ShmChannel capacity) (n : Nat) (flags : MsgFlags)
    (final : ShmChannel capacity) (result : RecvResult) : Prop :=
  ∃ entered early, channel.shmRecv? n flags = some (entered, early) ∧
      match early with
      | some value => final = entered ∧ result = value
      | none => Returns (receiverTurn? hungUp) entered final result

variable {result : RecvResult}

theorem RecvReturns.unique {n : Nat} {flags : MsgFlags} {final otherFinal : ShmChannel capacity}
    {otherResult : RecvResult} (returns : RecvReturns hungUp channel n flags final result)
    (other : RecvReturns hungUp channel n flags otherFinal otherResult) :
    final = otherFinal ∧ result = otherResult := by
  obtain ⟨entered, early, enters, returned⟩ := returns
  obtain ⟨otherEntered, otherEarly, otherEnters, otherReturned⟩ := other
  rw [enters] at otherEnters
  cases otherEnters
  cases early with
  | some value =>
    obtain ⟨rfl, rfl⟩ := returned
    obtain ⟨rfl, rfl⟩ := otherReturned
    exact ⟨rfl, rfl⟩
  | none => exact Returns.unique returned otherReturned

theorem recvReturns_no_byte (channel : ShmChannel capacity) (hungUp : Bool) (flags : MsgFlags) :
    RecvReturns hungUp channel 0 flags channel .zero :=
  ⟨channel, some .zero, rfl, rfl, rfl⟩

theorem recvReturns_peek (channel : ShmChannel capacity) (hungUp : Bool) {n : Nat}
    {flags : MsgFlags} (positive : 0 < n) (peek : flags.peek = true) :
    RecvReturns hungUp channel n flags channel .notSupported := by
  refine ⟨channel, some .notSupported, ?_, rfl, rfl⟩
  simp only [shmRecv?, if_neg (Nat.ne_of_gt positive), peek, if_true]

/-- What a receiver without a call can rely on. -/
structure RecvReady
    (start : UInt64)
    (channel : ShmChannel capacity) : Prop where
  invariant : channel.system.Invariant start
  consumer : channel.system.consumer = none
  receiver : channel.receiver = .idle

/-- The state in which the loop of `shm_recv` begins. -/
def enterRecv (channel : ShmChannel capacity) (n : Nat) (flags : MsgFlags) : ShmChannel capacity :=
  { channel with receiver := .loop ⟨n, channel.receiverNonblocking || flags.dontWait, 0⟩ }

variable {n : Nat} {flags : MsgFlags}

theorem RecvReady.recvReturns_iff (ready : channel.RecvReady start) (positive : 0 < n)
    (noPeek : flags.peek = false) {final : ShmChannel capacity} :
    RecvReturns hungUp channel n flags final result ↔
      Returns (receiverTurn? hungUp) (channel.enterRecv n flags)
      final result := by
  have enters : channel.shmRecv? n flags = some (channel.enterRecv n flags, none) := by
    simp only [shmRecv?, if_neg (Nat.ne_of_gt positive), noPeek,
      ready.receiver, if_true, enterRecv, Bool.false_eq_true, if_false]
  unfold RecvReturns
  rw [enters]
  constructor
  · rintro ⟨entered, early, same, returns⟩
    cases same
    exact returns
  · intro returns
    exact ⟨_, none, rfl, returns⟩

theorem RecvReady.of_returns {entered final : ShmChannel capacity}
    (invariant : entered.system.Invariant start)
    (returns : Returns (receiverTurn? hungUp) entered final result)
    (receives : Receives entered final bytes) (receiver : final.receiver = .idle) :
    final.RecvReady start where
  invariant := by
    obtain ⟨last, passes, lastStep⟩ := returns_iff_exists_last.mp returns
    have before := turns_ringInvariant invariant passes
    unfold receiverTurn? at lastStep
    split at lastStep
    · simp at lastStep
    · exact (receiverStep?_move lastStep).ringInvariant before
  consumer := receives.consumer
  receiver := receiver

section

variable (ready : channel.RecvReady start) (positive : 0 < n) (noPeek : flags.peek = false)

include ready positive noPeek

private theorem RecvReady.lift
    (returned : ∃ final, Returns (receiverTurn? hungUp) (channel.enterRecv n flags)
      final result ∧ Receives (channel.enterRecv n flags) final bytes ∧ final.receiver = .idle) :
    ∃ final, RecvReturns hungUp channel n flags final result ∧ Receives channel final bytes ∧
      final.RecvReady start := by
  obtain ⟨final, returns, receives, receiver⟩ := returned
  exact ⟨final, (ready.recvReturns_iff positive noPeek).mpr returns, { receives with }, .of_returns
      (show (channel.enterRecv n flags).system.Invariant start from ready.invariant)
      returns receives receiver⟩

theorem RecvReady.returns_data (data : channel.ring.contents ≠ []) (hungUp : Bool) : ∃ final,
      RecvReturns hungUp channel n flags final
      (.data (channel.ring.contents.take n)) ∧
      Receives channel final (channel.ring.contents.take n) ∧ final.RecvReady start := by
  apply ready.lift positive noPeek
  refine loop_returns_data
    (show (channel.enterRecv n flags).system.Invariant start from ready.invariant)
    ready.consumer rfl ?_ hungUp
  intro none
  rcases List.take_eq_nil_iff.mp none with zero | empty
  · exact absurd zero (Nat.ne_of_gt positive)
  · exact data empty

theorem RecvReady.returns_zero (empty : channel.ring.contents = [])
    (ends : channel.ring.peerClosed = true ∨
      (channel.receiverNonblocking || flags.dontWait) = false ∧ hungUp = true) :
    ∃ final, RecvReturns hungUp channel n flags final .zero ∧ Receives channel final [] ∧
      final.RecvReady start := by
  apply ready.lift positive noPeek
  have entered : (channel.enterRecv n flags).system.Invariant start := ready.invariant
  cases closed : channel.ring.peerClosed with
  | true => exact loop_returns_zero entered ready.consumer rfl empty closed hungUp
  | false =>
    rcases ends with isClosed | ⟨blocking, rfl⟩
    · rw [closed] at isClosed
      cases isClosed
    · exact loop_returns_hungUp entered ready.consumer rfl empty closed blocking

theorem RecvReady.returns_again (empty : channel.ring.contents = [])
    (isOpen : channel.ring.peerClosed = false)
    (nonblocking : (channel.receiverNonblocking || flags.dontWait) = true) (hungUp : Bool) :
    ∃ final, RecvReturns hungUp channel n flags final .again ∧ Receives channel final [] ∧
      final.RecvReady start := by
  apply ready.lift positive noPeek
  exact loop_returns_again
    (show (channel.enterRecv n flags).system.Invariant start from ready.invariant)
    ready.consumer rfl empty isOpen nonblocking hungUp

theorem RecvReady.not_returns (empty : channel.ring.contents = [])
    (isOpen : channel.ring.peerClosed = false)
    (blocking : (channel.receiverNonblocking || flags.dontWait) = false)
    (final : ShmChannel capacity) (result : RecvResult) :
    ¬ RecvReturns false channel n flags final result := by
  rw [ready.recvReturns_iff positive noPeek]
  refine not_returns_of_invariant (fun starved turned => Starved.turn starved turned) ?_
  have noData : channel.ring.readable = 0 := by
    rw [← channel.ring.length_contents, empty]
    rfl
  exact ⟨_, blocking, noData, isOpen, .inl ⟨rfl, ready.consumer⟩⟩

end

end Receive

section Reached

variable {start : UInt64} {channel next : ShmChannel capacity}

/-- The producer has a call in progress exactly inside `send_some`. -/
def Sending (channel : ShmChannel capacity) : Prop :=
  channel.system.producer ≠ none ↔ ∃ call, channel.sender = .inSendSome call

private theorem Sending.of_same (sending : channel.Sending)
    (producer : next.system.producer = channel.system.producer)
    (sender : next.sender = channel.sender) :
    next.Sending := by
  unfold Sending
  rw [producer, sender]
  exact sending

private theorem Sending.of_outside (sending : channel.Sending)
    (outside : ∀ call, channel.sender ≠ .inSendSome call)
    (producer : next.system.producer = channel.system.producer)
    (outsideAfter : ∀ call, next.sender ≠ .inSendSome call) :
    next.Sending := by
  unfold Sending at *
  simp only [outside, exists_false, iff_false] at sending
  simp only [outsideAfter, exists_false, iff_false]
  rw [producer]
  exact sending

theorem SenderMove.sending {result : Option SendResult} (move : SenderMove channel next result)
    (sending : channel.Sending) :
    next.Sending := by
  cases move with
  | enter position unfinished started =>
    simp only [RingSystem.step?, Option.ite_none_right_eq_some, Option.some.injEq] at started
    obtain ⟨-, rfl⟩ := started
    simp [Sending]
  | access _ move | published _ _ move | foundFull _ move => cases move <;> simp [Sending]
  | wake position => exact sending.of_outside (by simp [position]) (by simp) (by simp)
  | finish position _ | bump position | giveUp position _ _
  | retry position _ => exact sending.of_outside (by simp [position]) rfl (by simp)

theorem ReceiverMove.sendingSide {result : Option RecvResult}
    (move : ReceiverMove channel next result) :
    next.system.producer = channel.system.producer ∧ next.sender = channel.sender := by
  cases move with
  | enter position started =>
    simp only [RingSystem.step?, Option.ite_none_right_eq_some, Option.some.injEq] at started
    obtain ⟨-, rfl⟩ := started
    exact ⟨rfl, rfl⟩
  | access position move | data position _ move
  | nothing position move => cases move <;> exact ⟨rfl, rfl⟩
  | _ => exact ⟨rfl, rfl⟩

theorem CloserMove.sendingSide {position after : Closer}
    (move : CloserMove channel position next after) :
    next.system.producer = channel.system.producer ∧ next.sender = channel.sender := by
  cases move with
  | mark | bump => exact ⟨rfl, rfl⟩
  | wake => simp

variable {action : ChannelAction}

theorem Move.sending (move : Move channel action next) (sending : channel.Sending) :
    next.Sending := by
  cases move with
  | sendEmpty => exact sending
  | sendCall position nonempty => exact sending.of_outside (by simp [position]) rfl (by simp)
  | sender move => exact move.sending sending
  | recvAtOnce value | recvCall position positive noPeek => exact sending.of_same rfl rfl
  | @receiver hungUp moved result enabled move =>
    obtain ⟨producer, sender⟩ := move.sendingSide
    cases result <;> exact sending.of_same producer sender
  | futexReturn => exact sending.of_same (by simp) (by simp)
  | peerClose move | watchdog move =>
    obtain ⟨producer, sender⟩ := move.sendingSide
    exact sending.of_same producer sender

/-- What holds of the calls of both sides in every reachable state. -/
structure CallInvariant
    (start : UInt64)
    (channel : ShmChannel capacity) : Prop where
  ring : channel.system.Invariant start
  sending : channel.Sending
  recv : channel.RecvInvariant

theorem CallInvariant.initially (start : UInt64) (data : Nat → UInt8) (wakeCount : UInt32)
    (senderNonblocking receiverNonblocking : Bool) :
    CallInvariant start
      (initial capacity start data wakeCount senderNonblocking receiverNonblocking) where
  ring := RingSystem.Invariant.initial start data
  sending := by simp [Sending, initial, RingSystem.initial]
  recv := {
    returned := rfl
    consuming := by simp [initial, RingSystem.initial]
    closedSeen := by simp [initial] }

theorem CallInvariant.step (before : CallInvariant start channel)
    (stepped : channel.step? action = some next) :
    CallInvariant start next where
  ring := (step?_move stepped).ringInvariant before.ring
  sending := (step?_move stepped).sending before.sending
  recv := (step?_move stepped).recvInvariant before.recv

theorem CallInvariant.sendReady (invariant : CallInvariant start channel)
    (idle : channel.sender = .idle) :
    channel.SendReady start where
  invariant := invariant.ring
  producer := by
    have sending := invariant.sending
    simpa [Sending, idle] using sending
  sender := idle

theorem CallInvariant.recvReady (invariant : CallInvariant start channel)
    (idle : channel.receiver = .idle) :
    channel.RecvReady start where
  invariant := invariant.ring
  consumer := by
    have consuming := invariant.recv.consuming
    simpa [idle] using consuming
  receiver := idle

variable {actions : List ChannelAction}

theorem callInvariant_of_run {data : Nat → UInt8} {wakeCount : UInt32}
    {senderNonblocking receiverNonblocking : Bool}
    (reached : run? step?
      (initial capacity start data wakeCount senderNonblocking receiverNonblocking)
      actions = some channel) :
    CallInvariant start channel :=
  Machine.invariant_of_run
    (CallInvariant.initially start data wakeCount senderNonblocking receiverNonblocking)
    (fun before stepped => before.step stepped) reached

/-- Two states of a direction whose ends have the same modes. -/
def SameModes (channel next : ShmChannel capacity) : Prop :=
  next.senderNonblocking = channel.senderNonblocking ∧
    next.receiverNonblocking = channel.receiverNonblocking

theorem SenderMove.sameModes {result : Option SendResult} (move : SenderMove channel next result) :
    SameModes channel next := by
  cases move with
  | wake position =>
    exact ⟨futexWake_senderNonblocking channel, futexWake_receiverNonblocking channel⟩
  | _ => exact ⟨rfl, rfl⟩

theorem ReceiverMove.sameModes {result : Option RecvResult}
    (move : ReceiverMove channel next result) :
    SameModes channel next := by
  cases move with
  | _ => exact ⟨rfl, rfl⟩

theorem CloserMove.sameModes {position after : Closer}
    (move : CloserMove channel position next after) :
    SameModes channel next := by
  cases move with
  | wake => exact ⟨futexWake_senderNonblocking channel, futexWake_receiverNonblocking channel⟩
  | _ => exact ⟨rfl, rfl⟩

theorem Move.sameModes (move : Move channel action next) : SameModes channel next := by
  cases move with
  | sender move | peerClose move | watchdog move => exact move.sameModes
  | @receiver hungUp after result enabled move =>
    cases result with
    | none | some value => exact move.sameModes
  | futexReturn =>
    exact ⟨futexWake_senderNonblocking channel, futexWake_receiverNonblocking channel⟩
  | _ => exact ⟨rfl, rfl⟩

theorem sameModes_of_run (reached : run? step? channel actions = some next) :
    SameModes channel next := by
  refine Machine.invariant_of_run (show SameModes channel channel from ⟨rfl, rfl⟩) ?_ reached
  intro state action later before stepped
  have step := (step?_move stepped).sameModes
  exact ⟨step.1.trans before.1, step.2.trans before.2⟩

/-- A state that a direction can reach from a fresh one. -/
def Reachable (channel : ShmChannel capacity) : Prop :=
  ∃ start data wakeCount senderNonblocking receiverNonblocking actions, run? step?
        (initial capacity start data wakeCount senderNonblocking receiverNonblocking)
        actions = some channel

theorem Reachable.callInvariant (reachable : channel.Reachable) :
    ∃ start, CallInvariant start channel := by
  obtain ⟨start, data, wakeCount, senderNonblocking, receiverNonblocking,
    actions, reached⟩ := reachable
  exact ⟨start, callInvariant_of_run reached⟩

theorem Reachable.step (reachable : channel.Reachable) (action : ChannelAction)
    (stepped : channel.step? action = some next) :
    next.Reachable := by
  obtain ⟨start, data, wakeCount, senderNonblocking, receiverNonblocking,
    actions, reached⟩ := reachable
  refine ⟨start, data, wakeCount, senderNonblocking, receiverNonblocking, actions ++ [action], ?_⟩
  exact run?_append_singleton reached stepped

theorem Reachable.run (reachable : channel.Reachable)
    (reached : run? step? channel actions = some next) :
    next.Reachable :=
  Machine.invariant_of_run reachable (fun before stepped => before.step _ stepped) reached

/-- A send that runs alone is a run of the direction. -/
theorem SendReturns.exists_run {buf : List UInt8} {flags : MsgFlags} {final : ShmChannel capacity}
    {result : SendResult} (returns : SendReturns channel buf flags final result) :
    ∃ actions, run? step? channel actions = some final := by
  obtain ⟨entered, early, enters, returned⟩ := returns
  have entry : channel.step? (.send buf flags) = some entered := by
    simp only [step?, enters, Option.map_some]
  cases early with
  | some value =>
    rw [returned.1]
    exact ⟨[.send buf flags], run?_cons_eq_some.mpr ⟨entered, entry, rfl⟩⟩
  | none =>
    obtain ⟨count, reached⟩ := Returns.exists_run returned step? .senderStep fun _ => rfl
    exact ⟨.send buf flags :: List.replicate count .senderStep,
      run?_cons_eq_some.mpr ⟨entered, entry, reached⟩⟩

end Reached

end ShmChannel

end SocksDirect
