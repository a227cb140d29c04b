import SocksDirect.BufferEdges
import SocksDirect.ShmCalls
import SocksDirect.SocketStreamMoves

namespace SocksDirect

open Machine

/-!
# `recvmsg` compared with one `recv`

The hook `recvmsg` of `src/lib/socket_api.cpp` makes one call of `shm_recv` for
every buffer that is not empty, and goes on to the next buffer after a call that
has filled its own.  If the data ends there the next call of `shm_recv` finds an
empty ring, and a blocking call waits with bytes already received.

The thread runs alone here: nothing is sent during the call.
-/

variable {capacity : Capacity}

/-- The value of a `recvmsg` call that has received bytes, or has not. -/
def RecvmsgCall.valueOf (filled : List UInt8) (otherwise : RecvResult) : RecvResult :=
  if filled = [] then otherwise else .data filled

/-- What `recvmsg` returns when the inner call has ended the loop. -/
def RecvmsgCall.returned (call : RecvmsgCall) : RecvResult → RecvResult
  | .data bytes => .data (call.filled ++ bytes)
  | result => valueOf call.filled result

/--
A thread in `recvmsg` on an upgraded descriptor.  `buffers` are the contents of
the buffers that the call has looked at.
-/
structure RecvmsgThread (capacity : Capacity) where
  channel : ShmChannel capacity
  call : RecvmsgCall
  buffers : List (List UInt8)

namespace RecvmsgThread

/-- The thread after the inner `shm_recv` has returned. -/
def resume (call : RecvmsgCall) (buffers : List (List UInt8)) (channel : ShmChannel capacity)
    (result : RecvResult) :
    RecvmsgThread capacity × Option RecvResult :=
  let buffers :=
    match result with
    | .data bytes => buffers ++ [bytes]
    | _ => buffers
  match (call.afterRecv result).1 with
  | some call => (⟨channel, call, buffers⟩, none)
  | none => (⟨channel, call, buffers⟩, some (call.returned result))

/--
The thread's next step when nobody else moves, with the value of `recvmsg` if it
is the last.
-/
def turn? (hungUp : Bool) (thread : RecvmsgThread capacity) :
    Option (RecvmsgThread capacity × Option RecvResult) :=
  if thread.channel.receiver = .idle then
    match thread.call.iov with
    | [] => some (thread, some (RecvmsgCall.valueOf thread.call.filled .zero))
    | len :: rest =>
      if len = 0 then
        some (⟨thread.channel, { thread.call with iov := rest }, thread.buffers ++ [[]]⟩, none)
      else
        match thread.channel.shmRecv? len thread.call.flags with
        | none => none
        | some (channel, none) =>
          some (⟨channel, { thread.call with iov := rest, iovLen := len }, thread.buffers⟩, none)
        | some (channel, some result) =>
          some
            (resume { thread.call with iov := rest, iovLen := len } thread.buffers channel result)
  else
    match thread.channel.receiverTurn? hungUp with
    | none => none
    | some (channel, none) => some ({ thread with channel := channel }, none)
    | some (channel, some result) => some (resume thread.call thread.buffers channel result)

/-- The hook is entered. -/
def enter (channel : ShmChannel capacity) (iov : List Nat)
    (flags : MsgFlags) : RecvmsgThread capacity where
  channel := channel
  call := ⟨iov, 0, [], flags⟩
  buffers := []

/--
The buffers that a call has looked at, followed by buffers without bytes, are
those over which the bytes are spread.
-/
def Scattered (buffers : List (List UInt8)) (iov : List Nat) (bytes : List UInt8) : Prop :=
  ∃ untouched, buffers ++ List.replicate untouched [] = Buffers.scatter iov bytes

section Nested

variable {channel next : ShmChannel capacity} {hungUp : Bool}

theorem receiver_ne_idle (turned : channel.receiverTurn? hungUp = some (next, none)) :
    next.receiver ≠ .idle := by
  unfold ShmChannel.receiverTurn? at turned
  split at turned
  · rename_i call parked
    simp only [ShmChannel.futexReturn?, parked, ShmChannel.futexWake,
      Option.map_some, Option.some.injEq, Prod.mk.injEq] at turned
    rw [← turned.1]
    simp
  · have move := ShmChannel.receiverStep?_move turned
    generalize ended : (none : Option RecvResult) = result at move
    cases move with
    | data position nonempty move | endOfFile position drained
    | giveUp position nonblocking => cases ended
    | _ => simp

theorem nests (hungUp : Bool) (call : RecvmsgCall) (buffers : List (List UInt8)) :
    Nests (ShmChannel.receiverTurn? hungUp) (turn? hungUp)
      (fun channel : ShmChannel capacity => ⟨channel, call, buffers⟩)
      (resume call buffers)
      (fun channel => channel.receiver ≠ .idle) where
  continues := by
    intro channel next inside turned
    refine ⟨?_, receiver_ne_idle turned⟩
    simp only [turn?, if_neg inside, turned]
  returns := by
    intro channel next value inside turned
    simp only [turn?, if_neg inside, turned]
  stops := by
    intro channel inside turned
    simp only [turn?, if_neg inside, turned]

variable {start : UInt64} {len iovLen : Nat} {rest : List Nat} {filled : List UInt8}
variable {flags : MsgFlags} {buffers : List (List UInt8)}

section

variable (ready : channel.RecvReady start)

include ready

theorem turn?_finish : turn? hungUp ⟨channel, ⟨[], iovLen, filled, flags⟩, buffers⟩ = some
      (⟨channel, ⟨[], iovLen, filled, flags⟩, buffers⟩,
      some (RecvmsgCall.valueOf filled .zero)) := by
  simp only [turn?, ready.receiver, if_true]

theorem turn?_skip : turn? hungUp ⟨channel, ⟨0 :: rest, iovLen, filled, flags⟩, buffers⟩ =
      some (⟨channel, ⟨rest, iovLen, filled, flags⟩, buffers ++ [[]]⟩, none) := by
  simp only [turn?, ready.receiver, if_true]

theorem turn?_enter (positive : 0 < len) (noPeek : flags.peek = false) : turn? hungUp
      ⟨channel, ⟨len :: rest, iovLen, filled, flags⟩, buffers⟩ =
      some (⟨channel.enterRecv len flags, ⟨rest, len, filled, flags⟩, buffers⟩, none) := by
  simp only [turn?, ready.receiver, if_true,
    if_neg (Nat.ne_of_gt positive), ShmChannel.shmRecv?, noPeek,
    Bool.false_eq_true, if_false, ShmChannel.enterRecv]

theorem returns_iff_resumes {final : RecvmsgThread capacity} {result : RecvResult}
    (positive : 0 < len) (noPeek : flags.peek = false) :
    Returns (turn? hungUp)
      ⟨channel, ⟨len :: rest, iovLen, filled, flags⟩, buffers⟩ final
      result ↔ ∃ middle value, channel.RecvReturns hungUp len flags middle value ∧
      Resumes (turn? hungUp)
      (resume ⟨rest, len, filled, flags⟩ buffers middle value)
      final result := by
  have inside : (channel.enterRecv len flags).receiver ≠ .idle := by simp [ShmChannel.enterRecv]
  rw [returns_of_step (turn?_enter ready positive noPeek),
    (nests hungUp _ buffers).returns_iff inside]
  simp only [ready.recvReturns_iff positive noPeek]

theorem returns_iff_of_recvReturns {middle : ShmChannel capacity} {value : RecvResult}
    {final : RecvmsgThread capacity} {result : RecvResult} (positive : 0 < len)
    (noPeek : flags.peek = false) (returned : channel.RecvReturns hungUp len flags middle value) :
    Returns (turn? hungUp)
      ⟨channel, ⟨len :: rest, iovLen, filled, flags⟩, buffers⟩ final
      result ↔ Resumes (turn? hungUp)
      (resume ⟨rest, len, filled, flags⟩ buffers middle value)
      final result := by
  rw [returns_iff_resumes ready positive noPeek]
  constructor
  · rintro ⟨other, otherValue, returns, resumes⟩
    obtain ⟨rfl, rfl⟩ := returns.unique returned
    exact resumes
  · intro resumes
    exact ⟨middle, value, returned, resumes⟩

end

theorem resume_filled (call : RecvmsgCall) (buffers : List (List UInt8))
    (channel : ShmChannel capacity) {bytes : List UInt8} (full : call.iovLen ≤ bytes.length) :
    resume call buffers channel (.data bytes) =
      (⟨channel, { call with filled := call.filled ++ bytes }, buffers ++ [bytes]⟩, none) := by
  simp only [resume, RecvmsgCall.afterRecv, if_neg (Nat.not_lt.mpr full)]

theorem resume_short (call : RecvmsgCall) (buffers : List (List UInt8))
    (channel : ShmChannel capacity) {bytes : List UInt8} (short : bytes.length < call.iovLen) :
    resume call buffers channel (.data bytes) =
      (⟨channel, call, buffers ++ [bytes]⟩, some (.data (call.filled ++ bytes))) := by
  simp only [resume, RecvmsgCall.afterRecv, if_pos short, RecvmsgCall.returned]

end Nested

section Alone

variable {start : UInt64} {channel : ShmChannel capacity} {iov : List Nat} {flags : MsgFlags}
variable {hungUp : Bool}

section

variable (ready : channel.RecvReady start)

include ready

/-- A buffer for more bytes than the ring has. -/
theorem returns_of_short {len : Nat} {rest : List Nat} (noPeek : flags.peek = false)
    (data : channel.ring.contents ≠ []) (short : channel.ring.contents.length < len) (iovLen : Nat)
    (filled : List UInt8) (buffers : List (List UInt8)) :
    ∃ final, Returns (turn? hungUp)
      ⟨channel, ⟨len :: rest, iovLen, filled, flags⟩, buffers⟩ final
      (.data (filled ++ channel.ring.contents)) ∧
      final.buffers = buffers ++ [channel.ring.contents] ∧ final.channel.ring.contents = [] := by
  have positive : 0 < len := Nat.lt_of_le_of_lt (Nat.zero_le _) short
  obtain ⟨middle, returned, receives, readyMiddle⟩ := ready.returns_data positive noPeek data hungUp
  rw [List.take_of_length_le (Nat.le_of_lt short)] at returned receives
  refine ⟨⟨middle, ⟨rest, len, filled, flags⟩, buffers ++ [channel.ring.contents]⟩,
    (returns_iff_of_recvReturns ready positive noPeek returned).mpr ?_, rfl, ?_⟩
  · rw [resume_short _ _ _ short]
    exact ⟨rfl, rfl⟩
  · exact (receives.contents_eq ready.invariant readyMiddle.invariant).trans List.drop_length

/-- A buffer for which nothing comes any more. -/
theorem returns_of_ended {len : Nat} {rest : List Nat} (positive : 0 < len)
    (noPeek : flags.peek = false) (empty : channel.ring.contents = [])
    (ends : channel.ring.peerClosed = true ∨
      (channel.receiverNonblocking || flags.dontWait) = false ∧ hungUp = true)
    (iovLen : Nat) (filled : List UInt8) (buffers : List (List UInt8)) :
    ∃ final, Returns (turn? hungUp)
      ⟨channel, ⟨len :: rest, iovLen, filled, flags⟩, buffers⟩ final
      (RecvmsgCall.valueOf filled .zero) ∧ final.buffers = buffers ∧
      final.channel.ring.contents = [] := by
  obtain ⟨middle, returned, receives, readyMiddle⟩ := ready.returns_zero positive noPeek empty ends
  refine ⟨⟨middle, ⟨rest, len, filled, flags⟩, buffers⟩,
    (returns_iff_of_recvReturns ready positive noPeek returned).mpr ?_, rfl, ?_⟩
  · exact ⟨rfl, rfl⟩
  · rw [receives.contents_eq ready.invariant readyMiddle.invariant, empty, List.drop_nil]

/-- A buffer that the ring can fill. -/
theorem returns_iff_of_filled {len : Nat} (positive : 0 < len) (noPeek : flags.peek = false)
    (fits : len ≤ channel.ring.contents.length) (hungUp : Bool) (rest : List Nat) (iovLen : Nat)
    (filled : List UInt8) (buffers : List (List UInt8)) :
    ∃ middle, middle.RecvReady start ∧ middle.ring.contents = channel.ring.contents.drop len ∧
      middle.ring.peerClosed = channel.ring.peerClosed ∧
      middle.receiverNonblocking = channel.receiverNonblocking ∧ ∀ final result,
      Returns (turn? hungUp)
      ⟨channel, ⟨len :: rest, iovLen, filled, flags⟩, buffers⟩
      final result ↔ Returns (turn? hungUp)
      ⟨middle, ⟨rest, len, filled ++ channel.ring.contents.take len, flags⟩,
      buffers ++ [channel.ring.contents.take len]⟩
      final result := by
  have data : channel.ring.contents ≠ [] := by
    intro empty
    rw [empty, List.length_nil] at fits
    omega
  have length : (channel.ring.contents.take len).length = len := by
    rw [List.length_take, Nat.min_eq_left fits]
  have some : channel.ring.contents.take len ≠ [] := by
    intro none
    rw [none, List.length_nil] at length
    omega
  obtain ⟨middle, returned, receives, readyMiddle⟩ := ready.returns_data positive noPeek data hungUp
  refine ⟨middle, readyMiddle, ?_, receives.sameClosed some, receives.receiverNonblocking, ?_⟩
  · rw [receives.contents_eq ready.invariant readyMiddle.invariant, length]
  · intro final result
    rw [returns_iff_of_recvReturns ready positive noPeek returned,
      resume_filled _ _ _ (Nat.le_of_eq length.symm)]
    rfl

/-- `recvmsg` returns unless the data ends at an edge of an open stream. -/
theorem returns_scattered (noPeek : flags.peek = false)
    (blocking : (channel.receiverNonblocking || flags.dontWait) = false)
    (comes : channel.ring.peerClosed = true ∨ hungUp = true ∨
      ¬ (channel.ring.contents.length < Buffers.total iov ∧
      Buffers.EndsAtEdge iov channel.ring.contents.length))
    (iovLen : Nat) (filled : List UInt8) (buffers : List (List UInt8)) :
    ∃ final untouched, Returns (turn? hungUp)
      ⟨channel, ⟨iov, iovLen, filled, flags⟩, buffers⟩ final
      (RecvmsgCall.valueOf (filled ++ channel.ring.contents.take (Buffers.total iov)) .zero) ∧
      final.buffers ++ List.replicate untouched [] =
      buffers ++ Buffers.scatter iov channel.ring.contents ∧
      final.channel.ring.contents = channel.ring.contents.drop (Buffers.total iov) := by
  induction iov generalizing channel iovLen filled buffers with
  | nil =>
    rw [Buffers.total, List.take_zero, List.append_nil]
    exact ⟨_, 0, returns_of_last (turn?_finish ready), rfl, rfl⟩
  | cons len rest inductionHypothesis =>
    rcases Nat.eq_zero_or_pos len with rfl | positive
    · rw [Buffers.total, Nat.zero_add] at comes ⊢
      rw [Buffers.endsAtEdge_cons_zero] at comes
      obtain ⟨final, untouched, returns, spread, left⟩ :=
        inductionHypothesis ready blocking comes iovLen filled (buffers ++ [[]])
      refine ⟨final, untouched, (returns_of_step (turn?_skip ready)).mpr returns, ?_, left⟩
      rw [spread, Buffers.scatter, List.append_assoc]
      rfl
    · by_cases empty : channel.ring.contents = []
      · have ends : channel.ring.peerClosed = true ∨
              (channel.receiverNonblocking || flags.dontWait) = false ∧ hungUp = true := by
          rcases comes with closed | hangUp | notAtEdge
          · exact .inl closed
          · exact .inr ⟨blocking, hangUp⟩
          · refine absurd ⟨?_, 0, ?_⟩ notAtEdge
            · rw [empty, Buffers.total, List.length_nil]
              omega
            · rw [empty]
              rfl
        obtain ⟨final, returns, spread, left⟩ :=
          returns_of_ended ready positive noPeek empty ends iovLen filled buffers
        refine ⟨final, rest.length + 1, ?_, ?_, ?_⟩
        · rw [empty, List.take_nil, List.append_nil]
          exact returns
        · rw [spread, empty, Buffers.scatter_nil]
          rfl
        · rw [left, empty, List.drop_nil]
      · rcases Nat.lt_or_ge channel.ring.contents.length len with short | fits
        · obtain ⟨final, returns, spread, left⟩ :=
            returns_of_short ready noPeek empty short iovLen filled buffers
          have within : channel.ring.contents.length ≤ Buffers.total (len :: rest) := by
            rw [Buffers.total]
            omega
          refine ⟨final, rest.length, ?_, ?_, ?_⟩
          · rw [List.take_of_length_le within, RecvmsgCall.valueOf, if_neg (by simp [empty])]
            exact returns
          · rw [spread, Buffers.scatter, List.take_of_length_le (Nat.le_of_lt short),
              List.drop_of_length_le (Nat.le_of_lt short), Buffers.scatter_nil, List.append_assoc]
            rfl
          · rw [left, List.drop_of_length_le within]
        · obtain ⟨middle, readyMiddle, left, sameClosed, sameMode, iff⟩ :=
            returns_iff_of_filled ready positive noPeek fits hungUp rest iovLen filled buffers
          have comesMiddle : middle.ring.peerClosed = true ∨ hungUp = true ∨
                ¬ (middle.ring.contents.length < Buffers.total rest ∧
                  Buffers.EndsAtEdge rest middle.ring.contents.length) := by
            rw [sameClosed, left, List.length_drop, ← Buffers.endsAtEdge_cons positive fits]
            rw [Buffers.total] at comes
            refine comes.imp_right (Or.imp_right ?_)
            rintro notAtEdge ⟨short, edge⟩
            exact notAtEdge ⟨by omega, edge⟩
          obtain ⟨final, untouched, returns, spread, leftRest⟩ :=
            inductionHypothesis readyMiddle
              (by rw [sameMode]; exact blocking) comesMiddle len
              (filled ++ channel.ring.contents.take len)
              (buffers ++ [channel.ring.contents.take len])
          refine ⟨final, untouched, (iff final _).mpr ?_, ?_, ?_⟩
          · rw [Buffers.total, List.take_add, ← List.append_assoc, ← left]
            exact returns
          · rw [spread, left, Buffers.scatter, List.append_assoc]
            rfl
          · rw [leftRest, left, List.drop_drop, Buffers.total]

/-- A blocking `recvmsg` does not return if the data ends at an edge of an open stream. -/
theorem not_returns (noPeek : flags.peek = false)
    (blocking : (channel.receiverNonblocking || flags.dontWait) = false)
    (isOpen : channel.ring.peerClosed = false)
    (short : channel.ring.contents.length < Buffers.total iov)
    (edge : Buffers.EndsAtEdge iov channel.ring.contents.length) (iovLen : Nat)
    (filled : List UInt8) (buffers : List (List UInt8)) (final : RecvmsgThread capacity)
    (result : RecvResult) :
    ¬ Returns (turn? false)
      ⟨channel, ⟨iov, iovLen, filled, flags⟩, buffers⟩ final result := by
  induction iov generalizing channel iovLen filled buffers with
  | nil => exact absurd short (Nat.not_lt_zero _)
  | cons len rest inductionHypothesis =>
    rcases Nat.eq_zero_or_pos len with rfl | positive
    · rw [Buffers.total, Nat.zero_add] at short
      rw [Buffers.endsAtEdge_cons_zero] at edge
      rw [returns_of_step (turn?_skip ready)]
      exact inductionHypothesis ready blocking isOpen short edge iovLen filled (buffers ++ [[]])
    · rcases Nat.lt_or_ge channel.ring.contents.length len with unfilled | fits
      · rw [Buffers.endsAtEdge_cons_of_lt unfilled] at edge
        have empty := List.length_eq_zero_iff.mp edge
        rw [returns_iff_resumes ready positive noPeek]
        rintro ⟨middle, value, returned, _⟩
        exact ready.not_returns positive noPeek empty isOpen blocking middle value returned
      · obtain ⟨middle, readyMiddle, left, sameClosed, sameMode, iff⟩ :=
          returns_iff_of_filled ready positive noPeek fits false rest iovLen filled buffers
        rw [iff]
        rw [Buffers.total] at short
        rw [Buffers.endsAtEdge_cons positive fits] at edge
        refine inductionHypothesis readyMiddle ?_ ?_ ?_ ?_ len _ _
        · rw [sameMode]
          exact blocking
        · rw [sameClosed]
          exact isOpen
        · rw [left, List.length_drop]
          omega
        · rw [left, List.length_drop]
          exact edge

/-- `recvmsg` that only peeks is refused. -/
theorem returns_peek (peek : flags.peek = true) (positive : 0 < Buffers.total iov) (iovLen : Nat)
    (buffers : List (List UInt8)) :
    ∃ final, Returns (turn? hungUp)
      ⟨channel, ⟨iov, iovLen, [], flags⟩, buffers⟩ final
      .notSupported := by
  induction iov generalizing iovLen buffers with
  | nil => exact absurd positive (Nat.lt_irrefl 0)
  | cons len rest inductionHypothesis =>
    rcases Nat.eq_zero_or_pos len with rfl | some
    · rw [Buffers.total, Nat.zero_add] at positive
      obtain ⟨final, returns⟩ := inductionHypothesis positive iovLen (buffers ++ [[]])
      exact ⟨final, (returns_of_step (turn?_skip ready)).mpr returns⟩
    · refine ⟨⟨channel, ⟨rest, len, [], flags⟩, buffers⟩, returns_of_last ?_⟩
      simp [turn?, ready.receiver, Nat.ne_of_gt some,
        ShmChannel.shmRecv?, peek, resume, RecvmsgCall.afterRecv,
        RecvmsgCall.returned, RecvmsgCall.valueOf]

end

end Alone

/--
`recvmsg` returns what one `recv` for all buffers returns, with the bytes spread
over the buffers in order, and takes the same bytes out of the ring.
-/
def AgreesWithRecv (hungUp : Bool) (channel : ShmChannel capacity) (iov : List Nat)
    (flags : MsgFlags) : Prop :=
  ∃ bytes recvFinal final, channel.RecvReturns hungUp (Buffers.total iov) flags recvFinal
        (.data bytes) ∧ bytes.length = min (Buffers.total iov) channel.ring.readable ∧
      Returns (turn? hungUp) (enter channel iov flags) final (.data bytes) ∧
      Scattered final.buffers iov bytes ∧ final.channel.ring.contents = recvFinal.ring.contents

/--
In every state of a direction with at least one byte in the ring, a blocking
`recvmsg` agrees with one `recv` exactly if it does not peek, and the stream has
ended, or the bytes in the ring do not end at an edge before the last byte of
the buffers.  On a ring that is empty and closed it returns 0 exactly if it does
not peek.
-/
theorem recvmsg_agrees_with_recv_iff
    (channel : ShmChannel capacity)
    (reachable : channel.Reachable)
    (idle : channel.receiver = .idle)
    (iov : List Nat)
    (positive : 0 < Buffers.total iov)
    (flags : MsgFlags)
    (blocking : (channel.receiverNonblocking || flags.dontWait) = false)
    (hungUp : Bool) :
    (0 < channel.ring.readable →
      (AgreesWithRecv hungUp channel iov flags ↔
        flags.peek = false ∧
        (channel.ring.peerClosed = true ∨
          hungUp = true ∨
          ¬ (channel.ring.readable < Buffers.total iov ∧
             Buffers.EndsAtEdge iov channel.ring.readable)))) ∧
      (channel.ring.readable = 0 →
        channel.ring.peerClosed = true →
        ((∃ final, Returns (turn? hungUp) (enter channel iov flags) final .zero) ↔
          flags.peek = false)) := by
  obtain ⟨start, invariant⟩ := reachable.callInvariant
  have ready := invariant.recvReady idle
  have length := channel.ring.length_contents
  constructor
  · intro some
    have data : channel.ring.contents ≠ [] := by
      rw [← length] at some
      exact List.length_pos_iff.mp some
    constructor
    · rintro ⟨bytes, recvFinal, final, _, _, returns, _, _⟩
      cases peek : flags.peek with
      | true =>
        obtain ⟨refused, returnsRefused⟩ := returns_peek ready peek positive 0 []
        cases (returns.unique returnsRefused).2
      | false =>
        refine ⟨rfl, ?_⟩
        by_contra waits
        rw [not_or, not_or, not_not] at waits
        obtain ⟨isOpen, noHangUp, short, edge⟩ := waits
        rw [Bool.not_eq_true] at isOpen noHangUp
        rw [← length] at short edge
        subst noHangUp
        exact not_returns ready peek blocking isOpen short edge 0 [] [] final _ returns
    · rintro ⟨noPeek, comes⟩
      rw [← length] at comes
      obtain ⟨final, untouched, returns, spread, left⟩ :=
        returns_scattered ready noPeek blocking comes 0 [] []
      obtain ⟨recvFinal, recvReturns, receives, readyAfter⟩ :=
        ready.returns_data positive noPeek data hungUp
      have bytes : channel.ring.contents.take (Buffers.total iov) ≠ [] := by
        simp only [ne_eq, List.take_eq_nil_iff, not_or]
        exact ⟨Nat.ne_of_gt positive, data⟩
      rw [List.nil_append, RecvmsgCall.valueOf, if_neg bytes] at returns
      rw [List.nil_append] at spread
      refine ⟨_, recvFinal, final, recvReturns, ?_, returns, ⟨untouched, ?_⟩, ?_⟩
      · rw [List.length_take, length]
      · rw [spread, Buffers.scatter_take_total]
      · rw [left, receives.contents_eq ready.invariant readyAfter.invariant,
          List.length_take, List.drop_eq_drop_iff]
        omega
  · intro none closed
    have empty : channel.ring.contents = [] := List.length_eq_zero_iff.mp (length.trans none)
    constructor
    · rintro ⟨final, returns⟩
      by_contra peek
      obtain ⟨refused, returnsRefused⟩ :=
        returns_peek ready (Bool.eq_true_of_not_eq_false peek) positive 0 []
      cases (returns.unique returnsRefused).2
    · intro noPeek
      obtain ⟨final, untouched, returns, _, _⟩ :=
        returns_scattered ready noPeek blocking (.inl closed) 0 [] []
      rw [empty, List.take_nil] at returns
      exact ⟨final, returns⟩

private theorem exists_readable (n : Nat) (few : n = 1 ∨ n = 3) :
    ∃ channel : ShmChannel .shmSegmentRing,
      channel.Reachable ∧
      channel.receiver = .idle ∧
      channel.ring.readable = n ∧
      channel.ring.peerClosed = false ∧
      channel.receiverNonblocking = false := by
  obtain ⟨channel, reached, observed⟩ :=
    exists_reached_of_check ShmChannel.step?
      (.initial .shmSegmentRing 0 (fun _ => 0) 0 false false)
      (ChannelAction.send (List.replicate n 7) ⟨false, false⟩ ::
        List.replicate (n + 7) ChannelAction.senderStep)
      (fun channel =>
        channel.receiver = .idle ∧ channel.ring.readable = n ∧ channel.ring.peerClosed = false ∧
          channel.receiverNonblocking = false)
      (by rcases few with rfl | rfl <;> decide +kernel)
  exact ⟨channel, ⟨0, fun _ => 0, 0, false, false, _, reached⟩, observed⟩

/-- Three bytes fill the first of two buffers and a part of the second. -/
theorem recvmsg_agrees_on_short_data :
    ∃ channel : ShmChannel .shmSegmentRing, channel.ring.readable = 3 ∧
      AgreesWithRecv false channel [1, 4] ⟨false, false⟩ := by
  obtain ⟨channel, reachable, idle, three, isOpen, blocking⟩ := exists_readable 3 (.inr rfl)
  refine ⟨channel, three, ((recvmsg_agrees_with_recv_iff channel reachable idle [1, 4] (by decide)
      ⟨false, false⟩ (by rw [blocking]; rfl) false).1
      (by rw [three]; decide)).mpr ⟨rfl, .inr (.inr ?_)⟩⟩
  rintro ⟨_, edge⟩
  rw [three] at edge
  have inside : ¬ Buffers.EndsAtEdge ([1] ++ 4 :: []) (Buffers.total [1] + 2) :=
    Buffers.not_endsAtEdge_inside (by decide) (by decide)
  exact inside edge

/-- One byte and two buffers of one byte: `recvmsg` does not return. -/
theorem recvmsg_waits_at_edge :
    ∃ channel : ShmChannel .shmSegmentRing, channel.Reachable ∧
      channel.receiver = .idle ∧
      channel.receiverNonblocking = false ∧
      channel.ring.readable = 1 ∧
      ∀ final result, ¬ Returns (turn? false) (enter channel [1, 1] ⟨false, false⟩) final result := by
  obtain ⟨channel, reachable, idle, one, isOpen, blocking⟩ := exists_readable 1 (.inl rfl)
  obtain ⟨start, invariant⟩ := reachable.callInvariant
  have length := channel.ring.length_contents.trans one
  have edge : Buffers.EndsAtEdge [1, 1] channel.ring.contents.length := ⟨1, length.symm⟩
  refine ⟨channel, reachable, idle, blocking, one, ?_⟩
  exact not_returns (invariant.recvReady idle) rfl
    (by rw [blocking]; rfl) isOpen (by rw [length]; decide) edge 0 [] []

end RecvmsgThread

end SocksDirect
