import SocksDirect.EpollHooks
import SocksDirect.ShmCalls

namespace SocksDirect

open Function Machine

/-!
# Readiness of upgraded descriptors

The poller thread of `src/lib/poll_api.cpp` against the two rings of every
connection and against `epoll_ctl` and `epoll_wait`.  A sweep takes a snapshot of
the connections that are watched, tests each inbound ring and writes to the
eventfd of those that are readable or closed.  The kernel reports the eventfd:
it is readable if its counter is not zero, and writable if the counter is below
2^64 - 2, whatever the rings are like.  `epoll_wait` reads the eventfds after it
has got the events.

The rings move by single accesses to shared memory.  `wantsOut` records where the
application last asked for `EPOLLOUT`, and `reports` the events of upgraded
descriptors with the state of the rings when the kernel returned them.
-/

/-- The next access publishes a number of bytes. -/
def SendSome.publishes (count : Nat) : SendSome → Bool
  | .copy _ _ n copied => n ≤ copied ∧ n = count
  | _ => false

/-- The next access gives back the cells of a number of bytes. -/
def RecvSome.takes (count : Nat) : RecvSome → Bool
  | .copy _ n buf => n ≤ buf.length ∧ n = count
  | _ => false

namespace RingSystem

variable {capacity : Capacity}

/-- The consumer has something to take, or is told the end. -/
def Ready (system : RingSystem capacity) : Prop :=
  system.ring.readable ≠ 0 ∨ system.ring.peerClosed = true

instance decidableReady (system : RingSystem capacity) : Decidable system.Ready :=
  inferInstanceAs (Decidable (_ ∨ _))

/-- The next access of the consumer takes the last bytes. -/
def Emptying (system : RingSystem capacity) : Prop :=
  system.consumer.any (·.takes system.ring.readable)

/-- The next access of the producer takes the last space. -/
def Filling (system : RingSystem capacity) : Prop :=
  system.producer.any (·.publishes system.ring.writable)

instance decidableEmptying (system : RingSystem capacity) : Decidable system.Emptying :=
  inferInstanceAs (Decidable (_ = true))

instance decidableFilling (system : RingSystem capacity) : Decidable system.Filling :=
  inferInstanceAs (Decidable (_ = true))

/-- What a step does to the two ends of the ring. -/
inductive EndsMove
    (system next : RingSystem capacity)
    (action : RingAction) : Prop where
  | neither : next.accepted.length = system.accepted.length →
      next.received.length = system.received.length → EndsMove system next action
  | sent {buf : List UInt8} {t : UInt64} {n copied : Nat} : action = .producerStep →
      system.producer = some (.copy buf t n copied) → n ≤ copied →
      next.accepted.length = system.accepted.length + n →
      next.received.length = system.received.length → EndsMove system next action
  | taken {h : UInt64} {n : Nat} {buf : List UInt8} : action = .consumerStep →
      system.consumer = some (.copy h n buf) → n ≤ buf.length →
      next.accepted.length = system.accepted.length →
      next.received.length = system.received.length + n → EndsMove system next action

section Moves

variable {start : UInt64} {system next : RingSystem capacity} {action : RingAction}

/-- A step moves an end when it publishes. -/
theorem endsMove_of_step (invariant : Invariant start system)
    (accepted : system.step? action = some next) :
    EndsMove system next action := by
  revert accepted
  fun_cases step? with (intro accepted; try cases accepted)
  | case1 | case4 | case7 => exact .neither rfl rfl
  | case3 =>
    obtain ⟨⟨moved, returned⟩, stepped, rfl⟩ := Option.map_eq_some_iff.mp accepted
    cases producerStep?_move stepped with
    | loadTail | full | loadHead | store => exact .neither rfl rfl
    | publish inProgress finished =>
      obtain ⟨_, within, _⟩ := invariant.producerReady inProgress
      refine .sent rfl inProgress finished ?_ rfl
      rw [List.length_append, List.length_take, Nat.min_eq_left within]
  | case6 =>
    obtain ⟨⟨moved, returned⟩, stepped, rfl⟩ := Option.map_eq_some_iff.mp accepted
    cases consumerStep?_move stepped with
    | loadTail | empty | loadHead | fetch => exact .neither rfl rfl
    | publish inProgress finished =>
      obtain ⟨_, _, within, _⟩ := invariant.consumerReady inProgress
      refine .taken rfl inProgress finished rfl ?_
      rw [List.length_append, Nat.le_antisymm within finished]

/-- A ring that is closed stays closed. -/
theorem peerClosed_of_step (accepted : system.step? action = some next)
    (closed : system.ring.peerClosed = true) :
    next.ring.peerClosed = true := by
  revert accepted
  fun_cases step? with (intro accepted; try cases accepted)
  | case1 | case4 => exact closed
  | case3 =>
    obtain ⟨⟨moved, returned⟩, stepped, rfl⟩ := Option.map_eq_some_iff.mp accepted
    cases producerStep?_move stepped with
    | loadTail | full | loadHead | store | publish => exact closed
  | case6 =>
    obtain ⟨⟨moved, returned⟩, stepped, rfl⟩ := Option.map_eq_some_iff.mp accepted
    cases consumerStep?_move stepped with
    | loadTail | empty | loadHead | fetch | publish => exact closed
  | case7 => rfl

/-- A ring stays ready unless the consumer takes the last bytes. -/
theorem Ready.step (ready : system.Ready) (invariant : Invariant start system)
    (accepted : system.step? action = some next)
    (leaves : action = .consumerStep → system.Emptying → system.ring.peerClosed = true) :
    next.Ready := by
  by_cases closed : system.ring.peerClosed = true
  · exact .inr (peerClosed_of_step accepted closed)
  · have hasBytes : system.ring.readable ≠ 0 := ready.resolve_right closed
    have nextInvariant := invariant.step accepted
    have before := invariant.readable_eq
    have after := nextInvariant.readable_eq
    have ordered := nextInvariant.received_le_accepted
    refine .inl ?_
    cases endsMove_of_step invariant accepted with
    | neither | sent => omega
    | @taken h n buf isConsumer inProgress finished sameAccepted more =>
      have notLast : n ≠ system.ring.readable := by
        intro last
        refine closed (leaves isConsumer ?_)
        unfold Emptying
        rw [inProgress]
        exact decide_eq_true ⟨finished, last⟩
      omega

/-- A ring keeps space unless the producer takes the last of it. -/
theorem writable_step (space : system.ring.writable ≠ 0) (invariant : Invariant start system)
    (accepted : system.step? action = some next)
    (leaves : action = .producerStep → ¬ system.Filling) :
    next.ring.writable ≠ 0 := by
  have nextInvariant := invariant.step accepted
  have before := invariant.writable_eq
  have after := nextInvariant.writable_eq
  have bounded := nextInvariant.bounded
  cases endsMove_of_step invariant accepted with
  | neither | taken => omega
  | @sent buf t n copied isProducer inProgress finished more same =>
    have notLast : n ≠ system.ring.writable := by
      intro last
      refine leaves isProducer ?_
      unfold Filling
      rw [inProgress]
      exact decide_eq_true ⟨finished, last⟩
    omega

end Moves

end RingSystem

/-- Where the poller thread stands in a sweep. -/
inductive PollerPhase where
  | idle
  | testing (snap : List Int32)
  | writing (fd : Int32) (snap : List Int32)
  deriving Repr, DecidableEq

/-- The poller is about to write to the eventfd of a connection. -/
def PollerPhase.writes (phase : PollerPhase) (fd : Int32) : Bool :=
  match phase with
  | .writing other _ => other = fd
  | _ => false

/-- An event that has been returned for an upgraded descriptor. -/
structure ReadinessReport where
  fd : Int32
  events : UInt32
  readable : Bool
  writable : Bool
  deriving Repr, DecidableEq

/-- The hooks with the rings of the connections and the poller thread. -/
structure EpollReadiness (capacity : Capacity) where
  hooks : EpollHooks
  inbound : Int32 → RingSystem capacity
  outbound : Int32 → RingSystem capacity
  poller : PollerPhase
  draining : List EpollEvent
  wantsOut : Finset (Int32 × Int32)
  reports : List ReadinessReport

/-- One step of the application, of the peer or of the poller. -/
inductive ReadinessAction where
  | ctl (epfd : Int32) (op : EpollOp) (fd : Int32) (ev : Option EpollEvent) (eventfdOk : Bool)
  | snapshot (order : List Int32)
  | test
  | write
  | inbound (fd : Int32) (action : RingAction)
  | outbound (fd : Int32) (action : RingAction)
  | collect (epfd : Int32) (ready : List (Int32 × UInt32))
  | drain
  deriving Repr, DecidableEq

namespace EpollReadiness

variable {capacity : Capacity}

/-- `EPOLLIN`. -/
def epollIn : UInt32 := 0x001

/-- `EPOLLOUT`. -/
def epollOut : UInt32 := 0x004

/-- The largest value to which a write of 1 can bring an eventfd. -/
def eventfdMax : Nat := 2 ^ 64 - 2

/-- The events of an eventfd. -/
def readiness (count : Nat) : UInt32 :=
  (if count ≠ 0 then epollIn else 0) ||| (if count < eventfdMax then epollOut else 0)

/-- Empty rings, no registrations, and some descriptors are upgraded. -/
def initial (capacity : Capacity) (upgraded : Int32 → Bool) (start : Int32 → UInt64)
    (data : Int32 → Nat → UInt8) : EpollReadiness capacity where
  hooks := .initial upgraded
  inbound := fun fd => .initial capacity (start fd) (data fd)
  outbound := fun fd => .initial capacity (start fd) (data fd)
  poller := .idle
  draining := []
  wantsOut := ∅
  reports := []

/-- The event asks for `EPOLLOUT`. -/
def asksOut (ev : Option EpollEvent) : Bool := ev.any fun event => event.events &&& epollOut ≠ 0

/-- The record of the application after a successful call. -/
def record (state : EpollReadiness capacity) (epfd : Int32) (op : EpollOp) (fd : Int32)
    (ev : Option EpollEvent) : Finset (Int32 × Int32) :=
  if op ≠ .del ∧ asksOut ev then
    insert (epfd, fd) state.wantsOut
  else
    state.wantsOut.erase (epfd, fd)

/-- `epoll_ctl`. -/
def ctl (state : EpollReadiness capacity) (epfd : Int32) (op : EpollOp) (fd : Int32)
    (ev : Option EpollEvent) (eventfdOk : Bool) : EpollReadiness capacity :=
  let (hooks, code) := state.hooks.epollCtl epfd op fd ev eventfdOk
  { state with
    hooks := hooks
    wantsOut :=
      if code = 0 then state.record epfd op fd ev else state.wantsOut }

/-- The counter of the eventfd of a connection. -/
def counter? (hooks : EpollHooks) (fd : Int32) : Option Nat :=
  match hooks.conns fd with
  | some (some id) => hooks.eventfds id
  | _ => none

/-- The write of 1 to the eventfd of a connection; it fails if it would block. -/
def notify (hooks : EpollHooks) (fd : Int32) : EpollHooks :=
  match hooks.conns fd with
  | some (some id) =>
    { hooks with
      eventfds :=
        update hooks.eventfds id
          ((hooks.eventfds id).map fun count => if count < eventfdMax then count + 1 else count) }
  | _ => hooks

/-- The event that the kernel returns for a descriptor. -/
def event? (state : EpollReadiness capacity) (epfd fd : Int32)
    (events : UInt32) : Option EpollEvent :=
  (state.hooks.registration? epfd fd).map fun registered =>
    { events :=
        match counter? state.hooks fd with
        | some count => registered.events &&& readiness count
        | none => events
      data := registered.data }

/-- What is recorded of an event for an upgraded descriptor. -/
def report? (state : EpollReadiness capacity) (epfd fd : Int32)
    (events : UInt32) : Option ReadinessReport :=
  if (state.hooks.conns fd).isSome then
    (state.event? epfd fd events).map fun event =>
      { fd := fd
        events := event.events
        readable := (state.inbound fd).Ready
        writable := (state.outbound fd).ring.writable ≠ 0 }
  else
    none

/-- The kernel returns events to `epoll_wait`. -/
def collect (state : EpollReadiness capacity) (epfd : Int32)
    (ready : List (Int32 × UInt32)) : EpollReadiness capacity :=
  { state with
    draining := state.draining ++ ready.filterMap fun (fd, events) => state.event? epfd fd events
    reports := state.reports ++ ready.filterMap fun (fd, events) => state.report? epfd fd events }

/-- One step. -/
def step? (state : EpollReadiness capacity) : ReadinessAction → Option (EpollReadiness capacity)
  | .ctl epfd op fd ev eventfdOk => some (state.ctl epfd op fd ev eventfdOk)
  | .snapshot order =>
    if state.poller = .idle ∧ order.toFinset = state.hooks.watched then
      some { state with poller := .testing order }
    else
      none
  | .test =>
    match state.poller with
    | .testing [] => some { state with poller := .idle }
    | .testing (fd :: snap) =>
      if (state.inbound fd).Ready then
        some { state with poller := .writing fd snap }
      else
        some { state with poller := .testing snap }
    | _ => none
  | .write =>
    match state.poller with
    | .writing fd snap =>
      some { state with hooks := notify state.hooks fd, poller := .testing snap }
    | _ => none
  | .inbound fd action =>
    ((state.inbound fd).step? action).map fun ring =>
      { state with inbound := update state.inbound fd ring }
  | .outbound fd action =>
    ((state.outbound fd).step? action).map fun ring =>
      { state with outbound := update state.outbound fd ring }
  | .collect epfd ready =>
    if ready.all fun entry =>
        (state.hooks.registration? epfd entry.1).isSome then
      some (state.collect epfd ready)
    else
      none
  | .drain =>
    match state.draining with
    | [] => none
    | event :: rest => some { state with hooks := state.hooks.drain event, draining := rest }

/--
`EPOLLIN` has been reported only when the inbound ring was readable or closed, and
`EPOLLOUT` only when the outbound ring had free space.
-/
def Sound (state : EpollReadiness capacity) : Prop :=
  ∀ report ∈ state.reports, (report.events &&& epollIn ≠ 0 → report.readable = true) ∧
      (report.events &&& epollOut ≠ 0 → report.writable = true)

/--
A `recv` takes the last bytes of an open ring only if the eventfd has not been
written for them and is not about to be.  A descriptor is registered for `EPOLLOUT`
only if its outbound ring has space, and a `send` takes the last space only if it
is not registered so.
-/
def Timely (state : EpollReadiness capacity) : ReadinessAction → Prop
  | .ctl _ op fd ev _ =>
    op ≠ .del → (state.hooks.conns fd).isSome → asksOut ev → (state.outbound fd).ring.writable ≠ 0
  | .inbound fd .consumerStep =>
    (state.inbound fd).Emptying → (state.inbound fd).ring.peerClosed = true ∨
      ((∀ count ∈ counter? state.hooks fd, count = 0) ∧ state.poller.writes fd = false)
  | .outbound fd .producerStep =>
    (state.outbound fd).Filling → (state.hooks.conns fd).isSome →
    ∀ entry ∈ state.wantsOut, entry.2 ≠ fd
  | _ => True

instance decidableTimely (state : EpollReadiness capacity) (action : ReadinessAction) :
    Decidable (state.Timely action) := by
  unfold Timely
  split <;>
    first
    | exact @instDecidableForall _ _ _ (@instDecidableForall _ _ _ Finset.decidableDforallFinset)
    | infer_instance

/-- What the steps keep as long as they are timely. -/
structure Invariant (state : EpollReadiness capacity) : Prop where
  owned : state.hooks.Owned
  inbound : ∀ fd, ∃ start, RingSystem.Invariant start (state.inbound fd)
  outbound : ∀ fd, ∃ start, RingSystem.Invariant start (state.outbound fd)
  counted : ∀ fd, ∀ count ∈ counter? state.hooks fd, count ≠ 0 → (state.inbound fd).Ready
  writing : ∀ fd, state.poller.writes fd = true → (state.inbound fd).Ready
  asked : ∀ epfd fd event, (state.hooks.conns fd).isSome →
      state.hooks.registration? epfd fd = some event → event.events &&& epollOut ≠ 0 →
      (epfd, fd) ∈ state.wantsOut
  space : ∀ entry ∈ state.wantsOut, (state.hooks.conns entry.2).isSome →
      (state.outbound entry.2).ring.writable ≠ 0
  sound : state.Sound

section Steps

variable {state next : EpollReadiness capacity} {fd : Int32} {hooks : EpollHooks}

theorem counter?_of_conn {id : Nat} (isConn : hooks.conns fd = some (some id)) :
    counter? hooks fd = hooks.eventfds id := by
  rw [counter?, isConn]

theorem exists_conn_of_counter? {count : Nat} (counted : counter? hooks fd = some count) :
    ∃ id, hooks.conns fd = some (some id) ∧ hooks.eventfds id = some count := by
  unfold counter? at counted
  split at counted
  · rename_i id isConn
    exact ⟨id, isConn, counted⟩
  · cases counted

theorem counter?_of_kept {after : EpollHooks} {count : Nat} (kept : EpollHooks.Kept hooks after)
    (counted : counter? after fd = some count) (nonzero : count ≠ 0) :
    counter? hooks fd = some count := by
  obtain ⟨id, isConn, value⟩ := exists_conn_of_counter? counted
  obtain ⟨before, earlier⟩ := kept.counter fd id count isConn value nonzero
  rw [counter?_of_conn before, earlier]

variable {ev : Option EpollEvent}

/-- The event with which the hook registers a descriptor asks for the same. -/
theorem asksOut_of_event? {event : EpollEvent} (registered : hooks.event? fd ev = some event)
    (asks : event.events &&& epollOut ≠ 0) :
    asksOut ev = true := by
  have sameEvents : event.events = (ev.map EpollEvent.events).getD 0 := by
    unfold EpollHooks.event? at registered
    cases isConn : hooks.conns fd with
    | none =>
      rw [isConn] at registered
      cases registered
      rfl
    | some notifyFd =>
      rw [isConn] at registered
      cases registered
      cases ev with
      | none | some _ => rfl
  rw [sameEvents] at asks
  cases ev with
  | none => exact absurd UInt32.zero_and asks
  | some original => exact decide_eq_true asks

variable {epfd : Int32}

/-- A registration is recorded by its last `epoll_ctl`. -/
theorem mem_record {op : EpollOp} {entry : Int32 × Int32} : entry ∈ state.record epfd op fd ev ↔
      (entry = (epfd, fd) ∧ op ≠ .del ∧ asksOut ev = true) ∨
      (entry ≠ (epfd, fd) ∧ entry ∈ state.wantsOut) := by
  unfold record
  split
  · rename_i asks
    rw [Finset.mem_insert]
    constructor
    · rintro (isEntry | old)
      · exact .inl ⟨isEntry, asks⟩
      · by_cases isEntry : entry = (epfd, fd)
        · exact .inl ⟨isEntry, asks⟩
        · exact .inr ⟨isEntry, old⟩
    · rintro (⟨isEntry, _⟩ | ⟨_, old⟩)
      · exact .inl isEntry
      · exact .inr old
  · rename_i asksNot
    rw [Finset.mem_erase]
    constructor
    · exact .inr
    · rintro (⟨_, asks⟩ | kept)
      · exact absurd asks asksNot
      · exact kept

theorem mem_record_of_ne {op : EpollOp} {entry : Int32 × Int32} (different : entry ≠ (epfd, fd))
    (member : entry ∈ state.wantsOut) :
    entry ∈ state.record epfd op fd ev :=
  mem_record.mpr (.inr ⟨different, member⟩)

/-- The hooks keep their owners, and what is asked for has been recorded. -/
theorem Invariant.withHooks {draining : List EpollEvent} {wantsOut : Finset (Int32 × Int32)}
    (invariant : state.Invariant) (kept : EpollHooks.Kept state.hooks hooks)
    (asked : ∀ epfd fd event, (state.hooks.conns fd).isSome →
        hooks.registration? epfd fd = some event → event.events &&& epollOut ≠ 0 →
        (epfd, fd) ∈ wantsOut)
    (space : ∀ entry ∈ wantsOut, (state.hooks.conns entry.2).isSome →
        (state.outbound entry.2).ring.writable ≠ 0) :
    { state with
      hooks := hooks
      draining := draining
      wantsOut := wantsOut }.Invariant := by
  refine ⟨kept.owned, invariant.inbound, invariant.outbound, ?_,
    invariant.writing, ?_, ?_, invariant.sound⟩
  · intro fd count counted nonzero
    exact invariant.counted fd count (counter?_of_kept kept counted nonzero) nonzero
  · intro epfd fd event upgraded
    rw [kept.upgraded] at upgraded
    exact asked epfd fd event upgraded
  · intro entry member upgraded
    rw [kept.upgraded] at upgraded
    exact space entry member upgraded

/-- `epoll_ctl`. -/
theorem Invariant.ctl {op : EpollOp} {eventfdOk : Bool} (invariant : state.Invariant)
    (timely : state.Timely (.ctl epfd op fd ev eventfdOk)) :
    (state.ctl epfd op fd ev eventfdOk).Invariant := by
  have effect := EpollHooks.ctlEffect_epollCtl invariant.owned epfd op fd ev eventfdOk
  unfold EpollReadiness.ctl
  generalize state.hooks.epollCtl epfd op fd ev eventfdOk = result at effect ⊢
  cases effect with
  | @lost hooks code kept registered fails =>
    have isDelete : code = 0 → op = .del ∧ hooks.registration? epfd fd = none := by
      intro succeeded
      refine fails.resolve_left ?_
      rw [succeeded]
      decide
    refine invariant.withHooks kept ?_ ?_
    · intro otherEpfd other event upgraded found asks
      have before := invariant.asked otherEpfd other event upgraded
        (registered otherEpfd other event found) asks
      split
      · rename_i succeeded
        obtain ⟨isDel, removed⟩ := isDelete succeeded
        refine mem_record_of_ne ?_ before
        intro same
        cases same
        cases removed.symm.trans found
      · exact before
    · intro entry member upgraded
      refine invariant.space entry ?_ upgraded
      split at member
      · rename_i succeeded
        rcases mem_record.mp member with ⟨_, notDel, _⟩ | ⟨_, old⟩
        · exact absurd (isDelete succeeded).1 notDel
        · exact old
      · exact member
  | @gained hooks event kept notDel isEvent registered =>
    refine invariant.withHooks kept ?_ ?_
    · intro otherEpfd other found upgraded isFound asks
      rw [registered] at isFound
      split at isFound
      · rename_i same
        cases isFound
        refine mem_record.mpr (.inl ⟨?_, notDel, ?_⟩)
        · rw [same.1, same.2]
        · exact asksOut_of_event? isEvent asks
      · rename_i apart
        refine mem_record_of_ne ?_ (invariant.asked otherEpfd other found upgraded isFound asks)
        intro same
        cases same
        exact apart ⟨rfl, rfl⟩
    · intro entry member upgraded
      rcases mem_record.mp member with ⟨rfl, _, asks⟩ | ⟨_, old⟩
      · exact timely notDel upgraded asks
      · exact invariant.space entry old upgraded

theorem ne_zero_of_epollIn {mask : UInt32} {count : Nat}
    (reported : mask &&& readiness count &&& epollIn ≠ 0) :
    count ≠ 0 := by
  rintro rfl
  refine reported ?_
  have noIn : readiness 0 &&& epollIn = 0 := by decide
  rw [UInt32.and_assoc, noIn, UInt32.and_zero]

theorem asked_of_epollOut {mask events : UInt32} (reported : mask &&& events &&& epollOut ≠ 0) :
    mask &&& epollOut ≠ 0 := by
  intro unasked
  refine reported ?_
  rw [UInt32.and_assoc, UInt32.and_comm events, ← UInt32.and_assoc, unasked, UInt32.zero_and]

/-- The event that the kernel returns for a connection. -/
theorem event?_of_conn {events : UInt32} {event : EpollEvent} (owned : state.hooks.Owned)
    (upgraded : (state.hooks.conns fd).isSome) (returned : state.event? epfd fd events = some event) :
    ∃ registered count, state.hooks.registration? epfd fd = some registered ∧
      counter? state.hooks fd = some count ∧
      event.events = registered.events &&& readiness count := by
  obtain ⟨registered, found, rfl⟩ := Option.map_eq_some_iff.mp returned
  obtain ⟨notifyFd, isConn⟩ := Option.isSome_iff_exists.mp upgraded
  cases notifyFd with
  | none =>
    rw [EpollHooks.registration?, EpollHooks.target?_of_conn isConn] at found
    cases found
  | some id =>
    obtain ⟨count, isOpen⟩ := Option.isSome_iff_exists.mp (owned.isOpen fd id isConn).2
    have counted : counter? state.hooks fd = some count := by rw [counter?_of_conn isConn, isOpen]
    refine ⟨registered, count, found, counted, ?_⟩
    rw [counted]

/-- The kernel returns events. -/
theorem Invariant.collect (invariant : state.Invariant) (epfd : Int32)
    (ready : List (Int32 × UInt32)) : (state.collect epfd ready).Invariant := by
  refine { invariant with sound := ?_ }
  intro report member
  rcases List.mem_append.mp member with old | isNew
  · exact invariant.sound report old
  · obtain ⟨⟨fd, events⟩, _, reported⟩ := List.mem_filterMap.mp isNew
    obtain ⟨upgraded, reported⟩ := Option.ite_none_right_eq_some.mp reported
    obtain ⟨event, returned, rfl⟩ := Option.map_eq_some_iff.mp reported
    obtain ⟨registered, count, found, counted, sameEvents⟩ :=
      event?_of_conn invariant.owned upgraded returned
    rw [sameEvents]
    constructor
    · intro reportsIn
      exact decide_eq_true (invariant.counted fd count counted (ne_zero_of_epollIn reportsIn))
    · intro reportsOut
      have asks := asked_of_epollOut reportsOut
      have member := invariant.asked epfd fd registered upgraded found asks
      have space := invariant.space (epfd, fd) member upgraded
      exact decide_eq_true space

theorem Invariant.drain (invariant : state.Invariant) (event : EpollEvent)
    (rest : List EpollEvent) :
    { state with
      hooks := state.hooks.drain event
      draining := rest }.Invariant := by
  obtain ⟨kept, registered⟩ := EpollHooks.kept_drain invariant.owned event
  refine invariant.withHooks kept ?_ invariant.space
  intro epfd fd found upgraded isFound asks
  exact invariant.asked epfd fd found upgraded ((registered epfd fd).symm.trans isFound) asks

/-- A write to the eventfd of a connection changes its counter only. -/
theorem notify_eq (hooks : EpollHooks) (fd : Int32) : ∃ eventfds,
      notify hooks fd = { hooks with eventfds := eventfds } ∧
      (∀ id, (eventfds id).isSome = (hooks.eventfds id).isSome) ∧
      ∀ id, hooks.conns fd ≠ some (some id) → eventfds id = hooks.eventfds id := by
  unfold notify
  split
  · rename_i id isConn
    refine ⟨_, rfl, ?_, ?_⟩
    · intro other
      by_cases same : other = id
      · subst same
        simp
      · simp [same]
    · intro other different
      refine update_of_ne ?_ ..
      rintro rfl
      exact different isConn
  · exact ⟨_, rfl, fun _ => rfl, fun _ _ => rfl⟩

section

variable (invariant : state.Invariant)

include invariant

/-- The poller writes to the eventfd of a connection. -/
theorem Invariant.notify {snap : List Int32} (isWriting : state.poller = .writing fd snap) :
    { state with
      hooks := notify state.hooks fd
      poller := .testing snap }.Invariant := by
  have ready : (state.inbound fd).Ready := by
    refine invariant.writing fd ?_
    rw [isWriting]
    exact decide_eq_true rfl
  obtain ⟨eventfds, written, isOpen, others⟩ := notify_eq state.hooks fd
  rw [written]
  refine ⟨⟨?_, invariant.owned.unique, invariant.owned.owner⟩,
    invariant.inbound, invariant.outbound, ?_, nofun, invariant.asked,
    invariant.space, invariant.sound⟩
  · intro other id isConn
    obtain ⟨created, wasOpen⟩ := invariant.owned.isOpen other id isConn
    exact ⟨created, (isOpen id).trans wasOpen⟩
  · intro other count counted nonzero
    by_cases same : other = fd
    · rw [same]
      exact ready
    · obtain ⟨id, isConn, value⟩ := exists_conn_of_counter? counted
      have notWritten : state.hooks.conns fd ≠ some (some id) := by
        intro isFd
        exact same (invariant.owned.unique fd other id isFd isConn)
      refine invariant.counted other count ?_ nonzero
      have before : state.hooks.eventfds id = some count := (others id notWritten).symm.trans value
      have unchanged : counter? state.hooks other = state.hooks.eventfds id :=
        counter?_of_conn isConn
      exact unchanged.trans before

theorem Invariant.withPoller {poller : PollerPhase}
    (writing : ∀ fd, poller.writes fd = true → (state.inbound fd).Ready) :
    { state with poller := poller }.Invariant :=
  { invariant with writing := writing }

/-- An access to an inbound ring. -/
theorem Invariant.inboundStep {action : RingAction} {ring : RingSystem capacity}
    (timely : state.Timely (.inbound fd action))
    (moved : (state.inbound fd).step? action = some ring) :
    { state with
      inbound := update state.inbound fd ring }.Invariant := by
  obtain ⟨start, ringInvariant⟩ := invariant.inbound fd
  have stays
      (ready : (state.inbound fd).Ready)
      (pending : (∃ count ∈ counter? state.hooks fd, count ≠ 0) ∨ state.poller.writes fd = true) :
      ring.Ready := by
    refine ready.step ringInvariant moved ?_
    rintro rfl emptying
    rcases timely emptying with closed | ⟨unwritten, notWriting⟩
    · exact closed
    · rcases pending with ⟨count, counted, nonzero⟩ | isWriting
      · exact absurd (unwritten count counted) nonzero
      · rw [notWriting] at isWriting
        cases isWriting
  refine ⟨invariant.owned, ?_, invariant.outbound, ?_, ?_,
    invariant.asked, invariant.space, invariant.sound⟩
  · refine (forall_update_iff _ fun _ system =>
      ∃ start, RingSystem.Invariant start system).mpr ⟨?_, ?_⟩
    · exact ⟨start, ringInvariant.step moved⟩
    · intro other _
      exact invariant.inbound other
  · refine (forall_update_iff state.inbound fun other system =>
      ∀ count ∈ counter? state.hooks other, count ≠ 0 → system.Ready).mpr ⟨?_, ?_⟩
    · intro count counted nonzero
      exact stays (invariant.counted fd count counted nonzero) (.inl ⟨count, counted, nonzero⟩)
    · intro other _
      exact invariant.counted other
  · refine (forall_update_iff state.inbound fun other system =>
      state.poller.writes other = true → system.Ready).mpr ⟨?_, ?_⟩
    · intro isWriting
      exact stays (invariant.writing fd isWriting) (.inr isWriting)
    · intro other _
      exact invariant.writing other

/-- An access to an outbound ring. -/
theorem Invariant.outboundStep {action : RingAction} {ring : RingSystem capacity}
    (timely : state.Timely (.outbound fd action))
    (moved : (state.outbound fd).step? action = some ring) :
    { state with
      outbound := update state.outbound fd ring }.Invariant := by
  obtain ⟨start, ringInvariant⟩ := invariant.outbound fd
  refine ⟨invariant.owned, invariant.inbound, ?_, invariant.counted,
    invariant.writing, invariant.asked, ?_, invariant.sound⟩
  · refine (forall_update_iff _ fun _ system =>
      ∃ start, RingSystem.Invariant start system).mpr ⟨?_, ?_⟩
    · exact ⟨start, ringInvariant.step moved⟩
    · intro other _
      exact invariant.outbound other
  · intro entry member upgraded
    have space := invariant.space entry member upgraded
    by_cases same : entry.2 = fd
    · rw [same] at space upgraded
      have kept : ring.ring.writable ≠ 0 := by
        refine RingSystem.writable_step space ringInvariant moved ?_
        rintro rfl filling
        exact timely filling upgraded entry member same
      simpa [same] using kept
    · simpa [same] using space

/-- A timely step keeps the invariant. -/
theorem Invariant.step {action : ReadinessAction} (timely : state.Timely action)
    (stepped : state.step? action = some next) :
    next.Invariant := by
  revert stepped
  fun_cases step? with (intro stepped; try cases stepped)
  | case1 => exact invariant.ctl timely
  | case2 | case4 | case6 => exact invariant.withPoller nofun
  | case5 fd snap _ ready =>
    refine invariant.withPoller ?_
    intro other isWriting
    rw [← of_decide_eq_true isWriting]
    exact ready
  | case8 fd snap isWriting => exact invariant.notify isWriting
  | case10 =>
    obtain ⟨ring, moved, rfl⟩ := Option.map_eq_some_iff.mp stepped
    exact invariant.inboundStep timely moved
  | case11 =>
    obtain ⟨ring, moved, rfl⟩ := Option.map_eq_some_iff.mp stepped
    exact invariant.outboundStep timely moved
  | case12 epfd ready => exact invariant.collect epfd ready
  | case15 event rest => exact invariant.drain event rest

end

end Steps

theorem invariant_initial (capacity : Capacity) (upgraded : Int32 → Bool) (start : Int32 → UInt64)
    (data : Int32 → Nat → UInt8) : (initial capacity upgraded start data).Invariant where
  owned := EpollHooks.owned_initial upgraded
  inbound := fun fd => ⟨start fd, .initial (start fd) (data fd)⟩
  outbound := fun fd => ⟨start fd, .initial (start fd) (data fd)⟩
  counted := by
    intro fd count counted nonzero
    obtain ⟨id, _, value⟩ := exists_conn_of_counter? counted
    cases value
  writing := nofun
  asked := by
    intro epfd fd event _ registered
    obtain ⟨target, _, found⟩ := Option.bind_eq_some_iff.mp registered
    cases found
  space := nofun
  sound := nofun

/--
Every report is sound in every run whose steps are timely: each `recv` that empties
an open ring finds the eventfd unwritten, and no descriptor is registered for
`EPOLLOUT` while its outbound ring is full.
-/
theorem reports_sound_of_timely
    (capacity : Capacity)
    (upgraded : Int32 → Bool)
    (start : Int32 → UInt64)
    (data : Int32 → Nat → UInt8)
    (actions : List ReadinessAction)
    (timely : Along step? Timely (initial capacity upgraded start data) actions)
    (state : EpollReadiness capacity)
    (reached : ReachedBy step? (initial capacity upgraded start data) actions state) :
    state.Sound := by
  obtain ⟨earlier, later, rfl, toState⟩ := reached
  have invariant : state.Invariant :=
    invariant_along (invariant_initial capacity upgraded start data)
      (fun before now stepped => Invariant.step before now stepped)
      toState timely.left
  exact invariant.sound

/-- Descriptor 7 is upgraded. -/
def oneConn (capacity : Capacity) : EpollReadiness capacity :=
  initial capacity (· = 7) (fun _ => 0) (fun _ _ => 0)

/-- A call of `send_some` for one byte. -/
def sendByte (byte : UInt8) : List RingAction :=
  [.sendSome [byte], .producerStep, .producerStep, .producerStep, .producerStep]

/-- A call of `recv_some` for one byte. -/
def recvByte : List RingAction :=
  [.recvSome 1, .consumerStep, .consumerStep, .consumerStep, .consumerStep]

/--
The peer sends a byte and the poller writes to the eventfd.  `epoll_wait` reports the
byte and reads the eventfd, and then the application takes the byte.
-/
def byteReported : List ReadinessAction :=
  List.flatten
    [[.ctl 3 .add 7 (some ⟨epollIn, 7⟩) true], (sendByte 65).map (.inbound 7),
      [.snapshot [7], .test, .write, .test, .collect 3 [(7, 0)], .drain], recvByte.map (.inbound 7)]

/-- The byte is still in the ring when it is reported. -/
theorem report_sound_of_byte :
    ∃ final : EpollReadiness .shmSegmentRing, run? step? (oneConn _) byteReported = some final ∧
      final.reports = [⟨7, epollIn, true, true⟩] ∧
      final.Sound := by
  obtain ⟨final, reached, reported⟩ :=
    exists_reached_of_check step? (oneConn .shmSegmentRing)
      byteReported
      (fun state => state.reports = [⟨7, epollIn, true, true⟩])
      (by decide +kernel)
  refine ⟨final, reached, reported, ?_⟩
  exact reports_sound_of_timely .shmSegmentRing (· = 7) (fun _ => 0)
    (fun _ _ => 0) byteReported (by decide +kernel) final
    ⟨byteReported, [], (List.append_nil _).symm, reached⟩

/--
The application takes the byte after the poller has written to the eventfd and before
`epoll_wait` gets the events.
-/
def byteTaken : List ReadinessAction :=
  List.flatten
    [[.ctl 3 .add 7 (some ⟨epollIn, 7⟩) true], (sendByte 65).map (.inbound 7),
      [.snapshot [7], .test, .write], recvByte.map (.inbound 7), [.collect 3 [(7, 0)]]]

/-- The steps of the outbound ring are steps of the whole. -/
theorem run?_outbound {state : EpollReadiness capacity} {fd : Int32} {actions : List RingAction}
    {ring : RingSystem capacity}
    (ran : run? RingSystem.step? (state.outbound fd) actions = some ring) :
    run? step? state (actions.map (.outbound fd)) =
      some { state with outbound := update state.outbound fd ring } := by
  induction actions generalizing state with
  | nil =>
    cases ran
    rw [update_eq_self]
    rfl
  | cons action rest inductionHypothesis =>
    obtain ⟨next, stepped, remaining⟩ := run?_cons_eq_some.mp ran
    have later := inductionHypothesis
      (show run? RingSystem.step?
          ({ state with outbound := update state.outbound fd next }.outbound fd) rest = _ by
        simpa using remaining)
    rw [update_idem] at later
    exact run?_cons_eq_some.mpr ⟨_, by rw [step?, stepped]; rfl, later⟩

/-- A `send_some` of as many bytes as the ring holds leaves no room. -/
theorem exists_run_full (capacity : Capacity) :
    ∃ actions full,
      run? RingSystem.step? (.initial capacity 0 fun _ => 0) actions = some full ∧
      full.ring.writable = 0 := by
  have start := @RingSystem.Invariant.initial capacity 0 fun _ => 0
  obtain ⟨begun, full, begins, returns, appended⟩ :=
    @RingSystem.sendSome_alone capacity (.initial capacity 0 fun _ => 0) rfl
      (List.replicate capacity.kBufBytes 65)
  obtain ⟨count, sent⟩ := returns.exists_run RingSystem.step? .producerStep fun _ => rfl
  have reached := run?_cons_eq_some.mpr ⟨begun, begins, sent⟩
  refine ⟨_, full, reached, ?_⟩
  rw [(RingSystem.Invariant.of_run reached).writable_eq, appended.accepted, appended.received,
    start.writable_eq]
  simp [RingSystem.initial]

/-- Descriptor 7 after the application has asked for space. -/
def spaceAsked : EpollReadiness .shmSegmentRing :=
  (oneConn _).ctl 3 .add 7 (some ⟨epollOut, 7⟩) true

/-- `EPOLLOUT` is reported whatever the outbound ring holds. -/
theorem exists_report_spaceAsked (outbound : Int32 → RingSystem .shmSegmentRing) :
    ∃ final, run? step? { oneConn .shmSegmentRing with outbound := outbound }
        [.ctl 3 .add 7 (some ⟨epollOut, 7⟩) true, .collect 3 [(7, 0)]] = some final ∧
      final.reports = [⟨7, epollOut, false, (outbound 7).ring.writable ≠ 0⟩] := by
  have upgraded : (spaceAsked.hooks.conns 7).isSome = true := by decide +kernel
  have event : spaceAsked.event? 3 7 0 = some ⟨epollOut, 7⟩ := by decide +kernel
  have empty : ¬ (spaceAsked.inbound 7).Ready := by decide +kernel
  have report : report? { spaceAsked with outbound := outbound } 3 7 0 =
      some ⟨7, epollOut, false, (outbound 7).ring.writable ≠ 0⟩ := by
    rw [report?, if_pos upgraded,
      show event? { spaceAsked with outbound := outbound } 3 7 0 = _ from event]
    simp [empty]
  refine ⟨collect { spaceAsked with outbound := outbound } 3 [(7, 0)], rfl, ?_⟩
  simp [collect, report]
  rfl

/-- `EPOLLIN` for an empty open ring, and `EPOLLOUT` for a full one. -/
theorem reports_unsound :
    (∃ final : EpollReadiness .shmSegmentRing,
      run? step? (oneConn _) byteTaken = some final ∧
      final.reports = [⟨7, epollIn, false, true⟩] ∧
      ¬ final.Sound) ∧
    ∃ (filling : List RingAction) (final : EpollReadiness .shmSegmentRing),
      run? step? (oneConn _)
          (filling.map (.outbound 7) ++
            [.ctl 3 .add 7 (some ⟨epollOut, 7⟩) true, .collect 3 [(7, 0)]]) =
        some final ∧
      final.reports = [⟨7, epollOut, false, false⟩] ∧
      ¬ final.Sound := by
  constructor
  · obtain ⟨final, reached, reported⟩ :=
      exists_reached_of_check step? (oneConn .shmSegmentRing)
        byteTaken
        (fun state => state.reports = [⟨7, epollIn, false, true⟩])
        (by decide +kernel)
    refine ⟨final, reached, reported, ?_⟩
    unfold Sound
    rw [reported]
    decide
  · obtain ⟨filling, ring, sent, noRoom⟩ := exists_run_full .shmSegmentRing
    obtain ⟨final, collected, reported⟩ :=
      exists_report_spaceAsked (update (oneConn _).outbound 7 ring)
    rw [update_self, noRoom] at reported
    have filled := @run?_outbound _ (oneConn .shmSegmentRing) 7 _ _ sent
    refine ⟨filling, final, run?_append filled collected, reported, ?_⟩
    unfold Sound
    rw [reported]
    decide

end EpollReadiness

end SocksDirect
