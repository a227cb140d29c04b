import SocksDirect.BoundedStream
import SocksDirect.ShmRingInvariant

namespace SocksDirect.RingSystem

open Machine

/-!
# The byte ring is a bounded byte stream

The ring with its two parties refines a bounded queue with one caller: a `tail`
publication is a push of the accepted bytes, a `head` publication is a pop, and
every other access is invisible.
-/

variable {capacity : Capacity} {start : UInt64} {system next : RingSystem capacity}

/-- The abstract channel that a ring state stands for. -/
def toStream (system : RingSystem capacity) (invariant : Invariant start system) :
    BoundedStream UInt8 capacity.kBufBytes where
  sent := system.accepted
  delivered := system.received
  deliveredPrefix := invariant.receivedPrefix
  pendingBound := invariant.bounded

/-- The call that returns at an action, with what it returns. -/
def returned? (system : RingSystem capacity) : RingAction → Option (StreamCall UInt8)
  | .producerStep => do
    let call ← system.producer
    let (_, returned) ← system.producerStep?
    returned.map (.sent call.buf)
  | .consumerStep => do
    let (_, returned) ← system.consumerStep?
    returned.map .received
  | .sendSome _ | .recvSome _ | .markClosed => none

/-- The calls that return in a run, in the order in which they return. -/
def calls (system : RingSystem capacity) : List RingAction → List (StreamCall UInt8)
  | [] => []
  | action :: rest =>
    (system.returned? action).toList ++
      match system.step? action with
      | none => []
      | some next => next.calls rest

section

variable (invariant : Invariant start system)

include invariant

theorem length_pending_toStream : (system.toStream invariant).pending.length =
      system.ring.readable := by
  rw [BoundedStream.length_pending, invariant.readable_eq]
  rfl

/-- A producer step is invisible or is the call of the queue that it returns from. -/
theorem producer_move_refines {call : SendSome} {returned : Option Nat}
    (inProgress : system.producer = some call) (move : ProducerMove system next returned)
    (nextInvariant : Invariant start next) :
    run? (StreamCall.after? capacity.kBufBytes) (system.toStream invariant).pending
      (returned.map (.sent call.buf)).toList = some (next.toStream nextInvariant).pending := by
  cases move with
  | loadTail | loadHead | store => rfl
  | full =>
    -- A call that finds no room is a call of the queue that transfers nothing.
    have none_ : BoundedStream.Push (call.buf.take 0) (system.toStream invariant)
        (system.toStream invariant) := ⟨(List.append_nil _).symm, rfl⟩
    exact run?_cons_eq_some.mpr ⟨_, none_.after? (Nat.zero_le _), rfl⟩
  | @publish buf t n copied copying finished =>
    obtain ⟨_, within, _⟩ := invariant.producerReady copying
    cases inProgress.symm.trans copying
    have pushed : BoundedStream.Push (buf.take n) (system.toStream invariant)
        (toStream _ nextInvariant) := ⟨rfl, rfl⟩
    exact run?_cons_eq_some.mpr ⟨_, pushed.after? within, rfl⟩

/-- A consumer step is invisible or is the call of the queue that it returns from. -/
theorem consumer_move_refines {returned : Option (List UInt8)}
    (move : ConsumerMove system next returned) (nextInvariant : Invariant start next) :
    run? (StreamCall.after? capacity.kBufBytes) (system.toStream invariant).pending
      (returned.map .received).toList = some (next.toStream nextInvariant).pending := by
  cases move with
  | loadTail | loadHead | fetch => rfl
  | empty =>
    have none_ : BoundedStream.Pop 0 (system.toStream invariant) (system.toStream invariant) :=
      ⟨Nat.zero_le _, rfl, (List.append_nil _).symm⟩
    exact run?_cons_eq_some.mpr ⟨_, none_.after?, rfl⟩
  | @publish h n buf inProgress finished =>
    obtain ⟨_, available, within, bytes⟩ := invariant.consumerReady inProgress
    have popped : BoundedStream.Pop buf.length (system.toStream invariant)
        (toStream _ nextInvariant) := by
      refine ⟨?_, rfl, congrArg (system.received ++ ·) bytes⟩
      rw [BoundedStream.length_pending]
      change buf.length ≤ system.accepted.length - system.received.length
      omega
    have returned := popped.after?
    rw [show (system.toStream invariant).pending.take buf.length = buf from bytes.symm] at returned
    exact run?_cons_eq_some.mpr ⟨_, returned, rfl⟩

/-- The ring refines the bounded queue, step by step. -/
theorem step_refines {action : RingAction} (accepted : system.step? action = some next)
    (nextInvariant : Invariant start next) :
    run? (StreamCall.after? capacity.kBufBytes) (system.toStream invariant).pending
      (system.returned? action).toList = some (next.toStream nextInvariant).pending := by
  revert accepted
  fun_cases step? with (intro accepted; try cases accepted)
  | case1 | case4 | case7 => rfl
  | case3 =>
    obtain ⟨⟨moved, returned⟩, stepped, rfl⟩ := Option.map_eq_some_iff.mp accepted
    obtain ⟨call, inProgress⟩ : ∃ call, system.producer = some call :=
      Option.ne_none_iff_exists'.mp fun idle => by simp [producerStep?, idle] at stepped
    rw [returned?, inProgress, stepped]
    exact producer_move_refines invariant inProgress (producerStep?_move stepped) nextInvariant
  | case6 =>
    obtain ⟨⟨moved, returned⟩, stepped, rfl⟩ := Option.map_eq_some_iff.mp accepted
    rw [returned?, stepped]
    exact consumer_move_refines invariant (consumerStep?_move stepped) nextInvariant

theorem run_refines {actions : List RingAction} (accepted : run? step? system actions = some next)
    (nextInvariant : Invariant start next) :
    run? (StreamCall.after? capacity.kBufBytes) (system.toStream invariant).pending
      (system.calls actions) = some (next.toStream nextInvariant).pending := by
  induction actions generalizing system with
  | nil =>
    cases accepted
    rfl
  | cons action rest inductionHypothesis =>
    obtain ⟨middle, stepped, remaining⟩ := run?_cons_eq_some.mp accepted
    have middleInvariant : Invariant start middle := invariant.step stepped
    rw [calls, stepped]
    exact run?_append (step_refines invariant stepped middleInvariant)
      (inductionHypothesis middleInvariant remaining)

end

/--
The ring is a bounded queue, whatever the order in which the accesses of the
producer and of the consumer to shared memory alternate: taken one by one in the
order in which they return, its calls are calls of a queue with one caller.
-/
theorem calls_linearizable
    (capacity : Capacity)
    (start : UInt64)
    (data : Nat → UInt8)
    {actions : List RingAction}
    {system : RingSystem capacity}
    (reached : run? step? (initial capacity start data) actions = some system) :
    run? (StreamCall.after? capacity.kBufBytes) [] ((initial capacity start data).calls actions) =
      some (system.accepted.drop system.received.length) :=
  run_refines (Invariant.initial start data) reached (Invariant.of_run reached)

theorem position_of_holdsUnconsumed (invariant : Invariant start system) {cell : Nat}
    (holds : system.ring.HoldsUnconsumed cell) :
    ∃ position, system.received.length ≤ position ∧ position < system.accepted.length ∧
      (start.toNat + position) % capacity.kBufBytes = cell := by
  obtain ⟨index, inside, masked⟩ := holds
  rw [invariant.readable_eq] at inside
  rw [invariant.headValue, ← UInt64.ofNat_add, toNat_and_kMask, Nat.add_assoc] at masked
  exact ⟨system.received.length + index, by omega, by omega, masked⟩

/-- The producer's next store misses every unconsumed cell. -/
theorem storedCell?_ne_of_holdsUnconsumed (invariant : Invariant start system) {cell : Nat}
    (holds : system.ring.HoldsUnconsumed cell) :
    system.storedCell? ≠ some cell := by
  intro stored
  obtain ⟨position, unconsumed, published, rfl⟩ := position_of_holdsUnconsumed invariant holds
  unfold storedCell? at stored
  split at stored
  · rename_i buf t n copied inProgress
    split at stored
    · rename_i unfinished
      obtain ⟨_, _, _, fits, _⟩ := invariant.producerReady inProgress
      rw [invariant.copyCell_eq inProgress unfinished, Option.some.injEq] at stored
      have inside :
          system.accepted.length + copied < system.received.length + capacity.kBufBytes := by
        omega
      exact fresh_cell_ne start inside unconsumed published stored.symm
    · cases stored
  · cases stored

/-- A data cell changes only through the producer's store to it. -/
theorem data_eq_of_storedCell?_ne {action : RingAction} {cell : Nat}
    (missed : system.storedCell? ≠ some cell) (accepted : system.step? action = some next) :
    next.ring.data cell = system.ring.data cell := by
  revert accepted
  fun_cases step? with (intro accepted; try cases accepted)
  | case1 | case4 | case7 => rfl
  | case3 =>
    obtain ⟨⟨moved, returned⟩, stepped, rfl⟩ := Option.map_eq_some_iff.mp accepted
    cases producerStep?_move stepped with
    | loadTail | full | loadHead | publish => rfl
    | store inProgress unfinished =>
      simp only [storedCell?, inProgress, unfinished, ↓reduceIte,
        ne_eq, Option.some.injEq] at missed
      simp only [ShmRing.writeCell]
      rw [if_neg (Ne.symm missed)]
  | case6 =>
    obtain ⟨⟨moved, returned⟩, stepped, rfl⟩ := Option.map_eq_some_iff.mp accepted
    cases consumerStep?_move stepped <;> rfl

/--
Every interleaving of producer and consumer steps, from equal counters of any
value: the counters are at most one capacity apart, no step stores to a cell
that holds a published and unconsumed byte, the received bytes are an initial
part of the accepted bytes, and they are all of them whenever the counters
agree and no call is in progress.
-/
theorem byteStream_correct
    (capacity : Capacity)
    (start : UInt64)
    (data : Nat → UInt8)
    {actions : List RingAction}
    {system : RingSystem capacity}
    (reached : run? step? (initial capacity start data) actions = some system) :
    (system.ring.tail - system.ring.head).toNat ≤ capacity.kBufBytes ∧
      (∀ cell,
        system.ring.HoldsUnconsumed cell →
        system.storedCell? ≠ some cell ∧
        ∀ action next,
          system.step? action = some next → next.ring.data cell = system.ring.data cell) ∧
      system.received <+: system.accepted ∧
      (system.ring.head = system.ring.tail →
        system.producer = none →
        system.consumer = none →
        system.received = system.accepted) := by
  have invariant : Invariant start system := Invariant.of_run reached
  have pendingBytes := length_pending_toStream invariant
  refine ⟨?_, ?_, invariant.receivedPrefix, ?_⟩
  · have distance := invariant.readable_eq
    have bounded := invariant.bounded
    rw [ShmRing.readable] at distance
    omega
  · intro cell holds
    have missed := storedCell?_ne_of_holdsUnconsumed invariant holds
    exact ⟨missed, fun action next accepted => data_eq_of_storedCell?_ne missed accepted⟩
  · intro sameCounters _ _
    have nothingPending : (system.toStream invariant).pending = [] := by
      rw [← List.length_eq_zero_iff, pendingBytes, ShmRing.readable, sameCounters]
      simp
    exact (system.toStream invariant).delivered_eq_sent_iff.mpr nothingPending

/--
Three bytes through a four-cell ring whose counters start one below the wrap;
the first `recv_some` loads `tail` before the publication and finds nothing.
-/
def wrappingTrace : List RingAction :=
  [.sendSome [7, 8, 9], .producerStep, .producerStep, .producerStep,
    .recvSome 2, .consumerStep, .producerStep, .producerStep,
    .producerStep, .consumerStep, .recvSome 2, .consumerStep,
    .consumerStep, .consumerStep, .consumerStep, .consumerStep]

/-- The wrapping trace is accepted, and its end is a correct byte stream. -/
theorem byteStream_correct_at_wrap : ∃ system : RingSystem ⟨2, by decide⟩,
      run? step? (initial ⟨2, by decide⟩ (0 - 1) (fun _ => 0)) wrappingTrace = some system ∧
      system.received <+: system.accepted := by
  obtain ⟨system, reached⟩ :=
    Option.isSome_iff_exists.mp
      (show
        (run? step?
          (initial ⟨2, by decide⟩ (0 - 1) (fun _ => 0))
          wrappingTrace).isSome by decide)
  exact ⟨system, reached, (byteStream_correct _ _ _ reached).2.2.1⟩

/-- The wrapping trace is two calls that transfer bytes and one that finds none. -/
theorem calls_linearizable_at_wrap :
    (initial ⟨2, by decide⟩ (0 - 1) (fun _ => 0)).calls wrappingTrace =
      [.sent [7, 8, 9] 3, .received [], .received [7, 8]] ∧
    ∃ system : RingSystem ⟨2, by decide⟩,
      run? (StreamCall.after? 4) [] [.sent [7, 8, 9] 3, .received [], .received [7, 8]] =
        some (system.accepted.drop system.received.length) := by
  have returned : (initial ⟨2, by decide⟩ (0 - 1) (fun _ => 0)).calls wrappingTrace =
      [.sent [7, 8, 9] 3, .received [], .received [7, 8]] := by decide
  obtain ⟨system, reached⟩ := Option.isSome_iff_exists.mp
    (show (run? step? (initial ⟨2, by decide⟩ (0 - 1) (fun _ => 0)) wrappingTrace).isSome by decide)
  refine ⟨returned, system, ?_⟩
  rw [← returned]
  exact calls_linearizable _ _ _ reached

example : (run? step?
        (initial ⟨2, by decide⟩ (0 - 1) (fun _ => 0))
        wrappingTrace).map
      (fun system => (system.ring.tail, system.ring.head, system.accepted, system.received)) =
      some (2, 1, [7, 8, 9], [7, 8]) := by
  decide

end SocksDirect.RingSystem
