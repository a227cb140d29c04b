import Mathlib.Algebra.Group.Nat.Defs
import Mathlib.Data.Finset.Insert
import Mathlib.Logic.Function.Basic
import SocksDirect.InterestSets
import SocksDirect.MachineRun
import SocksDirect.UpgradedFd

namespace SocksDirect

open Function

/-!
# The epoll hooks

`epoll_ctl`, `epoll_wait` and the map of `ShmPoller` in `src/lib/poll_api.cpp`
over any number of epoll sets and descriptors.  For a descriptor with a connection
in the registry `epoll_ctl` registers an eventfd of the connection instead; it
creates the eventfd when it is first needed and closes it on `EPOLL_CTL_DEL`.

The eventfds are numbered in the order of their creation: while one is open its
descriptor is none of the application's, and when it is closed it leaves all sets.
A connection of the registry has an open segment.
-/

/-- `epoll_event`. -/
structure EpollEvent where
  events : UInt32
  data : UInt64
  deriving Repr, DecidableEq

namespace EpollEvent

/-- `data.fd`, the low half of `data`. -/
def dataFd (data : UInt64) : Int32 := data.toUInt32.toInt32

/-- The assignment to `data.fd`; the high half stays. -/
def setDataFd (data : UInt64) (fd : Int32) : UInt64 :=
  UInt64.ofNat (data.toNat / 2 ^ 32 * 2 ^ 32 + fd.toUInt32.toNat)

/-- The descriptor replaces the low half of the data. -/
theorem toNat_setDataFd (data : UInt64) (fd : Int32) :
    (setDataFd data fd).toNat = data.toNat / 2 ^ 32 * 2 ^ 32 + fd.toUInt32.toNat := by
  have high := data.toNat_lt
  have low := fd.toUInt32.toNat_lt
  rw [setDataFd, UInt64.toNat_ofNat', Nat.mod_eq_of_lt]
  omega

/-- Data that already names the descriptor is left as it is. -/
theorem setDataFd_eq_self_iff (data : UInt64) (fd : Int32) :
    setDataFd data fd = data ↔ dataFd data = fd := by
  have sameLow : dataFd data = fd ↔ data.toNat % 2 ^ 32 = fd.toUInt32.toNat := by
    have sameWord : dataFd data = fd ↔ data.toUInt32 = fd.toUInt32 :=
      ⟨fun same => congrArg Int32.toUInt32 same, fun same => congrArg UInt32.toInt32 same⟩
    rw [sameWord, ← UInt32.toNat_inj, UInt64.toNat_toUInt32]
  rw [sameLow, ← UInt64.toNat_inj, toNat_setDataFd]
  omega

end EpollEvent

/-- What the kernel watches: a descriptor of the application, or an eventfd. -/
inductive Watched where
  | descriptor (fd : Int32)
  | notify (id : Nat)
  deriving Repr, DecidableEq

/--
The epoll sets of the kernel, `notify_fd` of every connection in the registry, the
keys of `ShmPoller::watched_`, and the counters of the open eventfds.
-/
structure EpollHooks where
  sets : InterestSets Int32 Watched EpollEvent
  conns : Int32 → Option (Option Nat)
  watched : Finset Int32
  eventfds : Nat → Option Nat
  created : Nat

namespace EpollHooks

/-- No descriptor is registered, and some are upgraded. -/
def initial (upgraded : Int32 → Bool) : EpollHooks where
  sets := .empty
  conns := fun fd => if upgraded fd then some none else none
  watched := ∅
  eventfds := fun _ => none
  created := 0

/-- The `epoll_ctl` of the kernel, if it succeeds. -/
def realEpollCtl? (state : EpollHooks) (epfd : Int32) (op : EpollOp) (target : Watched)
    (ev : Option EpollEvent) : Option EpollHooks :=
  let sets? :=
    match op, ev with
    | .add, some event => state.sets.add? epfd target event
    | .mod, some event => state.sets.modify? epfd target event
    | .add, none | .mod, none => none
    | .del, _ => state.sets.delete? epfd target
  sets?.map fun sets => { state with sets := sets }

/-- What a call of the kernel returns. -/
def attempt (state : EpollHooks) (outcome : Option EpollHooks) : EpollHooks × Int32 :=
  match outcome with
  | some next => (next, 0)
  | none => (state, -1)

/-- `notify_fd` of a connection is set. -/
def setNotify (state : EpollHooks) (fd : Int32) (notifyFd : Option Nat) : EpollHooks :=
  { state with conns := update state.conns fd (some notifyFd) }

/-- An eventfd is created for a connection. -/
def createNotify (state : EpollHooks) (fd : Int32) : EpollHooks :=
  { state.setNotify fd (some state.created) with
    eventfds := update state.eventfds state.created (some 0)
    created := state.created + 1 }

/-- The eventfd of a connection, which is created if there is none. -/
def ensureNotify? (state : EpollHooks) (fd : Int32) (notifyFd : Option Nat)
    (eventfdOk : Bool) : Option (EpollHooks × Nat) :=
  match notifyFd with
  | some id => some (state, id)
  | none =>
    if eventfdOk then some (state.createNotify fd, state.created) else none

/-- `ShmPoller::watch`. -/
def watch (state : EpollHooks) (fd : Int32) : EpollHooks :=
  { state with watched := insert fd state.watched }

/-- `ShmPoller::unwatch`. -/
def unwatch (state : EpollHooks) (fd : Int32) : EpollHooks :=
  { state with watched := state.watched.erase fd }

/-- The eventfd of a connection is closed. -/
def closeNotify (state : EpollHooks) (fd : Int32) (id : Nat) : EpollHooks :=
  { state.setNotify fd none with
    sets := state.sets.close (.notify id)
    eventfds := update state.eventfds id none }

/-- The event that is registered for the eventfd of a connection. -/
def substitute (fd : Int32) (ev : Option EpollEvent) : EpollEvent :=
  match ev with
  | some event => { event with data := EpollEvent.setDataFd event.data fd }
  | none => { events := 0, data := 0 }

/-- `epoll_ctl`; `eventfdOk` says whether `eventfd` succeeds. -/
def epollCtl (state : EpollHooks) (epfd : Int32) (op : EpollOp) (fd : Int32)
    (ev : Option EpollEvent) (eventfdOk : Bool) : EpollHooks × Int32 :=
  match state.conns fd with
  | none => state.attempt (state.realEpollCtl? epfd op (.descriptor fd) ev)
  | some notifyFd =>
    if op = .del then
      match notifyFd with
      | some id =>
        let deleted := state.attempt (state.realEpollCtl? epfd .del (.notify id) none)
        ((deleted.1.unwatch fd).closeNotify fd id, deleted.2)
      | none => state.attempt (state.realEpollCtl? epfd op (.descriptor fd) ev)
    else
      match state.ensureNotify? fd notifyFd eventfdOk with
      | none => (state, -1)
      | some (prepared, id) =>
        (prepared.watch fd).attempt
          ((prepared.watch fd).realEpollCtl? epfd op (.notify id) (some (substitute fd ev)))

/-- What the kernel watches for a descriptor of the application. -/
def target? (state : EpollHooks) (fd : Int32) : Option Watched :=
  match state.conns fd with
  | none => some (.descriptor fd)
  | some notifyFd => notifyFd.map .notify

/-- The event with which a descriptor is registered in a set. -/
def registration? (state : EpollHooks) (epfd fd : Int32) : Option EpollEvent :=
  (state.target? fd).bind (state.sets.entry epfd)

/-- The eventfd of an event is read in `epoll_wait`. -/
def drain (state : EpollHooks) (event : EpollEvent) : EpollHooks :=
  match state.conns (EpollEvent.dataFd event.data) with
  | some (some id) =>
    { state with
      eventfds := update state.eventfds id ((state.eventfds id).map fun _ => 0) }
  | _ => state

/-- Whatever is in a set is watched for one descriptor, and its eventfd is open. -/
structure Owned (state : EpollHooks) : Prop where
  isOpen :
    ∀ fd id, state.conns fd = some (some id) → id < state.created ∧ (state.eventfds id).isSome
  unique :
    ∀ fd other id, state.conns fd = some (some id) → state.conns other = some (some id) → other = fd
  owner : ∀ epfd target event, state.sets.entry epfd target = some event →
      ∃ fd, state.target? fd = some target

section Targets

variable {state next : EpollHooks} {epfd fd : Int32} {op : EpollOp} {ev : Option EpollEvent}

/-- A descriptor without a connection is watched itself. -/
theorem target?_of_ordinary (ordinary : state.conns fd = none) :
    state.target? fd = some (.descriptor fd) := by
  rw [target?, ordinary]

/-- A descriptor with a connection is watched through its eventfd. -/
theorem target?_of_conn {notifyFd : Option Nat} (isConn : state.conns fd = some notifyFd) :
    state.target? fd = notifyFd.map .notify := by
  rw [target?, isConn]

theorem target?_congr (same : next.conns fd = state.conns fd) :
    next.target? fd = state.target? fd := by
  rw [target?, target?, same]

/-- An eventfd is watched for the connections that have it. -/
theorem target?_eq_notify {id : Nat} :
    state.target? fd = some (.notify id) ↔ state.conns fd = some (some id) := by
  unfold target?
  cases state.conns fd with
  | none | some => simp

theorem target?_eq_descriptor
    {other : Int32} :
    state.target? fd = some (.descriptor other) ↔ state.conns fd = none ∧ fd = other := by
  unfold target?
  cases state.conns fd with
  | none | some => simp

variable {target : Watched}

/-- What is watched belongs to one descriptor. -/
theorem Owned.eq_of_target {other : Int32} (owned : state.Owned)
    (isTarget : state.target? fd = some target) (otherTarget : state.target? other = some target) :
    other = fd := by
  cases target with
  | descriptor watchedFd =>
    rw [(target?_eq_descriptor.mp isTarget).2, (target?_eq_descriptor.mp otherTarget).2]
  | notify id =>
    exact owned.unique fd other id (target?_eq_notify.mp isTarget)
      (target?_eq_notify.mp otherTarget)

/-- A success of the kernel writes one registration. -/
theorem realEpollCtl?_eq_some (succeeded : state.realEpollCtl? epfd op target ev = some next) :
    ∃ event, next = { state with sets := state.sets.write epfd target event } ∧
      (op = .del ∧ event = none ∨ op ≠ .del ∧ ev = event ∧ ev.isSome) := by
  obtain ⟨sets, changed, rfl⟩ := Option.map_eq_some_iff.mp succeeded
  cases op with
  | add =>
    cases ev with
    | none => cases changed
    | some event =>
      obtain ⟨_, written⟩ := Option.ite_none_left_eq_some.mp changed
      cases written
      exact ⟨some event, rfl, .inr ⟨nofun, rfl, rfl⟩⟩
  | mod =>
    cases ev with
    | none => cases changed
    | some event =>
      obtain ⟨_, written⟩ := Option.ite_none_right_eq_some.mp changed
      cases written
      exact ⟨some event, rfl, .inr ⟨nofun, rfl, rfl⟩⟩
  | del =>
    obtain ⟨_, written⟩ := Option.ite_none_right_eq_some.mp changed
    cases written
    exact ⟨none, rfl, .inl ⟨rfl, rfl⟩⟩

/-- The kernel accepts a call that fits the entry of the set. -/
theorem realEpollCtl?_of_guard {event : EpollEvent}
    (guard : op = .add ↔ state.sets.entry epfd target = none) :
    state.realEpollCtl? epfd op target (some event) = some
        { state with
          sets := state.sets.write epfd target (if op = .del then none else some event) } := by
  cases op with
  | add => simp [realEpollCtl?, InterestSets.add?, guard.mp rfl]
  | mod =>
    have present : (state.sets.entry epfd target).isSome :=
      Option.isSome_iff_ne_none.mpr fun absent => by cases guard.mpr absent
    simp [realEpollCtl?, InterestSets.modify?, present]
  | del =>
    have present : (state.sets.entry epfd target).isSome :=
      Option.isSome_iff_ne_none.mpr fun absent => by cases guard.mpr absent
    simp [realEpollCtl?, InterestSets.delete?, present]

/-- A write of one entry leaves the other registrations alone. -/
theorem registration?_write_of_ne {epfd otherEpfd other : Int32}
    (apart : ¬ (otherEpfd = epfd ∧ state.target? other = some target))
    (event : Option EpollEvent) :
    { state with sets := state.sets.write epfd target event }.registration? otherEpfd other =
      state.registration? otherEpfd other := by
  change (state.target? other).bind ((state.sets.write epfd target event).entry otherEpfd) = _
  rw [registration?]
  cases otherTarget : state.target? other with
  | none => rfl
  | some watchedTarget =>
    rw [Option.bind_some, Option.bind_some, InterestSets.entry_write_of_ne]
    rintro ⟨rfl, rfl⟩
    exact apart ⟨rfl, otherTarget⟩

/-- A registration is written for the target of a descriptor. -/
theorem Owned.registration?_write
    (owned : state.Owned)
    (isTarget : state.target? fd = some target)
    (epfd : Int32)
    (event : Option EpollEvent)
    (otherEpfd other : Int32) :
    { state with sets := state.sets.write epfd target event }.registration? otherEpfd other =
      if otherEpfd = epfd ∧ other = fd then event else state.registration? otherEpfd other := by
  split
  · rename_i same
    change (state.target? other).bind ((state.sets.write epfd target event).entry otherEpfd) = _
    rw [same.1, same.2, isTarget, Option.bind_some, InterestSets.entry_write_self]
  · rename_i apart
    refine registration?_write_of_ne ?_ event
    exact fun same => apart ⟨same.1, owned.eq_of_target isTarget same.2⟩

/-- An entry that no descriptor owns is no registration. -/
theorem registration?_write_of_not_target
    (noTarget : ∀ other, state.target? other ≠ some target)
    (epfd : Int32)
    (event : Option EpollEvent)
    (otherEpfd other : Int32) :
    { state with sets := state.sets.write epfd target event }.registration? otherEpfd other =
      state.registration? otherEpfd other :=
  registration?_write_of_ne (fun same => noTarget other same.2) event

/-- An entry for something owned keeps the ownership. -/
theorem Owned.write {event : Option EpollEvent} (owned : state.Owned)
    (hasOwner : event.isSome → ∃ fd, state.target? fd = some target) (epfd : Int32) :
    { state with sets := state.sets.write epfd target event }.Owned := by
  refine ⟨owned.isOpen, owned.unique, ?_⟩
  intro otherEpfd otherTarget registered found
  by_cases same : otherEpfd = epfd ∧ otherTarget = target
  · rw [same.1, same.2, InterestSets.entry_write_self] at found
    rw [same.2]
    exact hasOwner (by rw [found]; rfl)
  · rw [InterestSets.entry_write_of_ne same] at found
    exact owned.owner otherEpfd otherTarget registered found

/-- Every entry of a set is some descriptor's registration. -/
theorem Owned.exists_registration
    {event : EpollEvent}
    (owned : state.Owned)
    (found : state.sets.entry epfd target = some event) :
    ∃ fd, state.target? fd = some target ∧
      state.registration? epfd fd = some event := by
  obtain ⟨fd, isTarget⟩ := owned.owner epfd target event found
  refine ⟨fd, isTarget, ?_⟩
  rw [registration?, isTarget]
  exact found

/-- The next eventfd is in no set. -/
theorem Owned.entry_created (owned : state.Owned) (epfd : Int32) :
    state.sets.entry epfd (.notify state.created) = none := by
  cases found : state.sets.entry epfd (.notify state.created) with
  | none => rfl
  | some event =>
    obtain ⟨fd, isTarget⟩ := owned.owner epfd _ event found
    have isConn := target?_eq_notify.mp isTarget
    exact absurd (owned.isOpen fd _ isConn).1 (Nat.lt_irrefl _)

end Targets

/-- What every call keeps: the owners, who is upgraded, and no counter is made up. -/
structure Kept (state next : EpollHooks) : Prop where
  owned : next.Owned
  upgraded : ∀ fd, (next.conns fd).isSome = (state.conns fd).isSome
  counter : ∀ fd id count, next.conns fd = some (some id) → next.eventfds id = some count →
      count ≠ 0 → state.conns fd = some (some id) ∧ state.eventfds id = some count

/-- The eventfd of a connection has been looked up or created. -/
structure Prepared
    (state prepared : EpollHooks)
    (fd : Int32)
    (id : Nat) : Prop where
  kept : Kept state prepared
  watched : prepared.watched = state.watched
  isConn : prepared.conns fd = some (some id)
  registration : ∀ epfd other, prepared.registration? epfd other = state.registration? epfd other

section Calls

variable {state next : EpollHooks} {epfd fd : Int32} {op : EpollOp} {ev : Option EpollEvent}

@[simp] theorem conns_setNotify_self (state : EpollHooks) (fd : Int32) (notifyFd : Option Nat) :
    (state.setNotify fd notifyFd).conns fd = some notifyFd :=
  update_self ..

variable {other : Int32}

theorem conns_setNotify_of_ne
    (different : other ≠ fd)
    (state : EpollHooks)
    (notifyFd : Option Nat) :
    (state.setNotify fd notifyFd).conns other = state.conns other :=
  update_of_ne different ..

variable {id : Nat}

/-- Only the other connections still have an eventfd. -/
theorem conn_of_setNotify_none (isOther : (state.setNotify fd none).conns other = some (some id)) :
    other ≠ fd ∧ state.conns other = some (some id) := by
  by_cases same : other = fd
  · rw [same, conns_setNotify_self] at isOther
    cases isOther
  · rw [conns_setNotify_of_ne same] at isOther
    exact ⟨same, isOther⟩

@[simp] theorem conns_createNotify_self (state : EpollHooks) (fd : Int32) :
    (state.createNotify fd).conns fd = some (some state.created) :=
  conns_setNotify_self ..

theorem conns_createNotify_of_ne (different : other ≠ fd) (state : EpollHooks) :
    (state.createNotify fd).conns other = state.conns other :=
  conns_setNotify_of_ne different ..

@[simp] theorem eventfds_createNotify_self (state : EpollHooks) (fd : Int32) :
    (state.createNotify fd).eventfds state.created = some 0 :=
  update_self ..

theorem eventfds_createNotify_of_ne (different : id ≠ state.created) (fd : Int32) :
    (state.createNotify fd).eventfds id = state.eventfds id :=
  update_of_ne different ..

@[simp] theorem conns_closeNotify_self (state : EpollHooks) (fd : Int32) (id : Nat) :
    (state.closeNotify fd id).conns fd = some none :=
  conns_setNotify_self ..

theorem conns_closeNotify_of_ne
    (different : other ≠ fd)
    (state : EpollHooks)
    (id : Nat) :
    (state.closeNotify fd id).conns other = state.conns other :=
  conns_setNotify_of_ne different ..

theorem eventfds_closeNotify_of_ne
    {other : Nat}
    (different : other ≠ id)
    (state : EpollHooks)
    (fd : Int32) :
    (state.closeNotify fd id).eventfds other = state.eventfds other :=
  update_of_ne different ..

/-- The new eventfd is that of its connection, the others are older. -/
theorem conn_of_createNotify (owned : state.Owned)
    (isOther : (state.createNotify fd).conns other = some (some id)) :
    other = fd ∧ id = state.created ∨
      other ≠ fd ∧ id < state.created ∧ state.conns other = some (some id) := by
  by_cases same : other = fd
  · rw [same, conns_createNotify_self] at isOther
    cases isOther
    exact .inl ⟨same, rfl⟩
  · rw [conns_createNotify_of_ne same] at isOther
    exact .inr ⟨same, (owned.isOpen other id isOther).1, isOther⟩

/-- An eventfd is created. -/
theorem Owned.createNotify (owned : state.Owned) (isConn : state.conns fd = some none) :
    (state.createNotify fd).Owned := by
  refine ⟨?_, ?_, ?_⟩
  · intro other id isOther
    rcases conn_of_createNotify owned isOther with ⟨_, rfl⟩ | ⟨_, earlier, before⟩
    · exact ⟨Nat.lt_succ_self _, by simp⟩
    · refine ⟨Nat.lt_succ_of_lt earlier, ?_⟩
      rw [eventfds_createNotify_of_ne earlier.ne]
      exact (owned.isOpen other id before).2
  · intro first second id isFirst isSecond
    rcases conn_of_createNotify owned isFirst with ⟨isFd, isNew⟩ | ⟨_, earlier, before⟩
    · rcases conn_of_createNotify owned isSecond with ⟨alsoFd, _⟩ | ⟨_, earlier, _⟩
      · rw [isFd, alsoFd]
      · exact absurd isNew earlier.ne
    · rcases conn_of_createNotify owned isSecond with ⟨_, isNew⟩ | ⟨_, _, secondBefore⟩
      · exact absurd isNew earlier.ne
      · exact owned.unique first second id before secondBefore
  · intro epfd target event registered
    obtain ⟨other, isTarget⟩ := owned.owner epfd target event registered
    have different : other ≠ fd := by
      rintro rfl
      rw [target?_of_conn isConn] at isTarget
      cases isTarget
    refine ⟨other, ?_⟩
    rw [target?_congr (conns_createNotify_of_ne different state)]
    exact isTarget

/-- An eventfd is created, which is in no set and has not been written. -/
theorem prepared_create (owned : state.Owned) (isConn : state.conns fd = some none) :
    Prepared state (state.createNotify fd) fd state.created := by
  refine ⟨⟨owned.createNotify isConn, ?_, ?_⟩, rfl, conns_createNotify_self .., ?_⟩
  · intro other
    by_cases same : other = fd
    · rw [same, conns_createNotify_self, isConn]
      rfl
    · rw [conns_createNotify_of_ne same]
  · intro other id count isOther counted nonzero
    rcases conn_of_createNotify owned isOther with ⟨_, rfl⟩ | ⟨_, earlier, before⟩
    · rw [eventfds_createNotify_self] at counted
      cases counted
      exact absurd rfl nonzero
    · rw [eventfds_createNotify_of_ne earlier.ne] at counted
      exact ⟨before, counted⟩
  · intro epfd other
    by_cases same : other = fd
    · rw [same, registration?, registration?, target?_of_conn isConn,
        target?_of_conn (conns_createNotify_self ..)]
      exact owned.entry_created epfd
    · rw [registration?, registration?, target?_congr (conns_createNotify_of_ne same state)]
      rfl

theorem Kept.refl (owned : state.Owned) : Kept state state :=
  ⟨owned, fun _ => rfl, fun _ _ _ isConn counted _ => ⟨isConn, counted⟩⟩

/-- The map of the poller does not matter for the ownership. -/
theorem Owned.withWatched (owned : state.Owned) (watched : Finset Int32) :
    { state with watched := watched }.Owned :=
  { owned with }

theorem Kept.withWatched (kept : Kept state next) (watched : Finset Int32) :
    Kept state { next with watched := watched } :=
  ⟨kept.owned.withWatched watched, kept.upgraded, kept.counter⟩

/-- `ensure_notify` finds the eventfd or creates it. -/
theorem prepared_of_ensureNotify?
    {notifyFd : Option Nat}
    {eventfdOk : Bool}
    {prepared : EpollHooks}
    (owned : state.Owned)
    (isConn : state.conns fd = some notifyFd)
    (ensured : state.ensureNotify? fd notifyFd eventfdOk = some (prepared, id)) :
    Prepared state prepared fd id := by
  cases notifyFd with
  | some known =>
    cases ensured
    exact ⟨.refl owned, rfl, isConn, fun _ _ => rfl⟩
  | none =>
    obtain ⟨_, created⟩ := Option.ite_none_right_eq_some.mp ensured
    cases created
    exact prepared_create owned isConn

/-- The eventfd of a connection is closed. -/
theorem Owned.closeNotify (owned : state.Owned) (isConn : state.conns fd = some (some id)) :
    (state.closeNotify fd id).Owned := by
  refine ⟨?_, ?_, ?_⟩
  · intro other otherId isOther
    obtain ⟨apart, before⟩ := conn_of_setNotify_none isOther
    obtain ⟨created, isOpen⟩ := owned.isOpen other otherId before
    have different : otherId ≠ id := by
      rintro rfl
      exact apart (owned.unique fd other otherId isConn before)
    refine ⟨created, ?_⟩
    rw [eventfds_closeNotify_of_ne different]
    exact isOpen
  · intro first second otherId isFirst isSecond
    exact owned.unique first second otherId
      (conn_of_setNotify_none isFirst).2
      (conn_of_setNotify_none isSecond).2
  · intro epfd target event registered
    have different : target ≠ .notify id := by
      rintro rfl
      simp [EpollHooks.closeNotify] at registered
    have earlier : state.sets.entry epfd target = some event := by
      rw [← registered]
      exact (InterestSets.entry_close_of_ne different _ _).symm
    obtain ⟨other, isTarget⟩ := owned.owner epfd target event earlier
    have apart : other ≠ fd := by
      rintro rfl
      rw [target?_eq_notify.mpr isConn] at isTarget
      cases isTarget
      exact different rfl
    refine ⟨other, ?_⟩
    rw [target?_congr (conns_closeNotify_of_ne apart state id)]
    exact isTarget

/-- The registrations after the eventfd of a connection has been closed. -/
theorem Owned.registration?_closeNotify (owned : state.Owned)
    (isConn : state.conns fd = some (some id)) (otherEpfd other : Int32) :
    (state.closeNotify fd id).registration? otherEpfd other = if other = fd then
        none
      else
        state.registration? otherEpfd other := by
  split
  · rename_i same
    rw [same, registration?, target?_of_conn (conns_closeNotify_self ..)]
    rfl
  · rename_i different
    rw [registration?, registration?, target?_congr (conns_closeNotify_of_ne different state id)]
    cases isTarget : state.target? other with
    | none => rfl
    | some target =>
      refine InterestSets.entry_close_of_ne ?_ _ _
      rintro rfl
      exact different (owned.eq_of_target (target?_eq_notify.mpr isConn) isTarget)

/-- The eventfd of a connection is closed. -/
theorem Kept.closeNotify (kept : Kept state next) (isConn : next.conns fd = some (some id)) :
    Kept state (next.closeNotify fd id) := by
  refine ⟨kept.owned.closeNotify isConn, ?_, ?_⟩
  · intro other
    rw [← kept.upgraded other]
    by_cases same : other = fd
    · rw [same, conns_closeNotify_self, isConn]
      rfl
    · rw [conns_closeNotify_of_ne same]
  · intro other otherId count isOther counted nonzero
    obtain ⟨apart, before⟩ := conn_of_setNotify_none isOther
    have different : otherId ≠ id := by
      rintro rfl
      exact apart (kept.owned.unique fd other otherId isConn before)
    rw [eventfds_closeNotify_of_ne different] at counted
    exact kept.counter other otherId count before counted nonzero

/-- The event with which the hook registers a descriptor. -/
def event? (state : EpollHooks) (fd : Int32) (ev : Option EpollEvent) : Option EpollEvent :=
  match state.conns fd with
  | none => ev
  | some _ => some (substitute fd ev)

/-- What a call does to the registrations. -/
inductive CtlEffect
    (state : EpollHooks)
    (epfd : Int32)
    (op : EpollOp)
    (fd : Int32)
    (ev : Option EpollEvent) : EpollHooks × Int32 → Prop where
  | lost {next : EpollHooks} {code : Int32} : Kept state next → (∀ otherEpfd other event,
        next.registration? otherEpfd other = some event →
        state.registration? otherEpfd other = some event) →
      (code = -1 ∨ op = .del ∧ next.registration? epfd fd = none) →
      CtlEffect state epfd op fd ev (next, code)
  | gained {next : EpollHooks} {event : EpollEvent} : Kept state next → op ≠ .del →
      state.event? fd ev = some event → (∀ otherEpfd other, next.registration? otherEpfd other =
          if otherEpfd = epfd ∧ other = fd then
            some event
          else
            state.registration? otherEpfd other) → CtlEffect state epfd op fd ev (next, 0)

/-- A call of the kernel for an ordinary descriptor. -/
theorem ctlEffect_of_ordinary (owned : state.Owned) (ordinary : state.conns fd = none) :
    CtlEffect state epfd op fd ev
      (state.attempt (state.realEpollCtl? epfd op (.descriptor fd) ev)) := by
  have isTarget := target?_of_ordinary ordinary
  cases outcome : state.realEpollCtl? epfd op (.descriptor fd) ev with
  | none => exact .lost (.refl owned) (fun _ _ _ same => same) (.inl rfl)
  | some next =>
    obtain ⟨event, rfl, kind⟩ := realEpollCtl?_eq_some outcome
    have kept : Kept state
        { state with sets := state.sets.write epfd (.descriptor fd) event } :=
      ⟨owned.write (fun _ => ⟨fd, isTarget⟩) epfd, fun _ => rfl,
        fun _ _ _ isConn counted _ => ⟨isConn, counted⟩⟩
    have written := owned.registration?_write isTarget epfd event
    rcases kind with ⟨isDel, rfl⟩ | ⟨notDel, rfl, given⟩
    · refine .lost kept ?_ (.inr ⟨isDel, ?_⟩)
      · intro otherEpfd other found registered
        rw [written] at registered
        split at registered
        · cases registered
        · exact registered
      · rw [written, if_pos ⟨rfl, rfl⟩]
    · obtain ⟨event, rfl⟩ := Option.isSome_iff_exists.mp given
      exact .gained kept notDel (by rw [event?, ordinary]) written

/-- A call of the kernel for the eventfd of a connection. -/
theorem ctlEffect_of_prepared {notifyFd : Option Nat} {prepared : EpollHooks}
    (isPrepared : Prepared state prepared fd id) (isConn : state.conns fd = some notifyFd)
    (notDel : op ≠ .del) :
    CtlEffect state epfd op fd ev
      ((prepared.watch fd).attempt
      ((prepared.watch fd).realEpollCtl? epfd op (.notify id) (some (substitute fd ev)))) := by
  have kept : Kept state (prepared.watch fd) := isPrepared.kept.withWatched _
  have isTarget : (prepared.watch fd).target? fd = some (.notify id) :=
    target?_eq_notify.mpr isPrepared.isConn
  have registered := isPrepared.registration
  cases outcome :
      (prepared.watch fd).realEpollCtl? epfd op (.notify id) (some (substitute fd ev)) with
  | none =>
    refine .lost kept ?_ (.inl rfl)
    intro otherEpfd other event found
    rw [← registered]
    exact found
  | some next =>
    obtain ⟨event, rfl, kind⟩ := realEpollCtl?_eq_some outcome
    have written := kept.owned.registration?_write isTarget epfd event
    rcases kind with ⟨isDel, _⟩ | ⟨_, rfl, _⟩
    · exact absurd isDel notDel
    · refine .gained ⟨kept.owned.write (fun _ => ⟨fd, isTarget⟩) epfd,
        kept.upgraded, kept.counter⟩ notDel (by rw [event?, isConn]) ?_
      intro otherEpfd other
      rw [written, ← registered]
      rfl

/-- The first step of `EPOLL_CTL_DEL` for a connection with an eventfd. -/
theorem kept_delete (owned : state.Owned) (isConn : state.conns fd = some (some id)) :
    let deleted := state.attempt (state.realEpollCtl? epfd .del (.notify id) none)
    Kept state deleted.1 ∧ deleted.1.conns = state.conns ∧ ∀ otherEpfd other, other ≠ fd →
        deleted.1.registration? otherEpfd other = state.registration? otherEpfd other := by
  cases outcome : state.realEpollCtl? epfd .del (.notify id) none with
  | none => exact ⟨.refl owned, rfl, fun _ _ _ => rfl⟩
  | some next =>
    obtain ⟨event, rfl, _⟩ := realEpollCtl?_eq_some outcome
    have isTarget := target?_eq_notify.mpr isConn
    refine ⟨⟨owned.write (fun _ => ⟨fd, isTarget⟩) epfd, fun _ => rfl,
      fun _ _ _ isConn counted _ => ⟨isConn, counted⟩⟩, rfl, ?_⟩
    intro otherEpfd other different
    change EpollHooks.registration?
      { state with sets := state.sets.write epfd (.notify id) event } _ _ = _
    rw [owned.registration?_write isTarget, if_neg]
    exact fun same => different same.2

/-- `EPOLL_CTL_DEL` for a connection with an eventfd. -/
theorem ctlEffect_of_delete (owned : state.Owned) (isConn : state.conns fd = some (some id))
    (isDel : op = .del) :
    let deleted := state.attempt (state.realEpollCtl? epfd .del (.notify id) none)
    CtlEffect state epfd op fd ev ((deleted.1.unwatch fd).closeNotify fd id, deleted.2) := by
  intro deleted
  obtain ⟨kept, sameConns, registered⟩ := @kept_delete state epfd fd id owned isConn
  have unwatched : Kept state (deleted.1.unwatch fd) := kept.withWatched _
  have stillConn : (deleted.1.unwatch fd).conns fd = some (some id) :=
    (congrFun sameConns fd).trans isConn
  have closed := unwatched.owned.registration?_closeNotify stillConn
  refine .lost (unwatched.closeNotify stillConn) ?_ (.inr ⟨isDel, ?_⟩)
  · intro otherEpfd other event found
    rw [closed] at found
    split at found
    · cases found
    · rename_i different
      rw [← registered otherEpfd other different]
      exact found
  · rw [closed, if_pos rfl]

/-- `EPOLL_CTL_DEL` for a connection without an eventfd. -/
theorem ctlEffect_of_delete_descriptor (owned : state.Owned) (isConn : state.conns fd = some none)
    (isDel : op = .del) :
    CtlEffect state epfd op fd ev
      (state.attempt (state.realEpollCtl? epfd op (.descriptor fd) ev)) := by
  cases outcome : state.realEpollCtl? epfd op (.descriptor fd) ev with
  | none => exact .lost (.refl owned) (fun _ _ _ same => same) (.inl rfl)
  | some next =>
    obtain ⟨event, rfl, kind⟩ := realEpollCtl?_eq_some outcome
    have removed : event = none := by
      rcases kind with ⟨_, removed⟩ | ⟨notDel, _⟩
      · exact removed
      · exact absurd isDel notDel
    subst removed
    have noTarget : ∀ other, state.target? other ≠ some (.descriptor fd) := by
      intro other isTarget
      obtain ⟨ordinary, rfl⟩ := target?_eq_descriptor.mp isTarget
      cases isConn.symm.trans ordinary
    refine .lost ⟨owned.write (by rintro ⟨⟩) epfd, fun _ => rfl,
      fun _ _ _ isConn counted _ => ⟨isConn, counted⟩⟩ ?_
      (.inr ⟨isDel, ?_⟩)
    · intro otherEpfd other found registered
      rw [registration?_write_of_not_target noTarget] at registered
      exact registered
    · rw [registration?_write_of_not_target noTarget, registration?, target?_of_conn isConn]
      rfl

/-- At first no set has an entry. -/
theorem owned_initial (upgraded : Int32 → Bool) : (initial upgraded).Owned := by
  have noEventfd {fd : Int32} {id : Nat} : (initial upgraded).conns fd ≠ some (some id) := by
    unfold initial
    dsimp only
    split <;> simp
  exact ⟨fun _ _ isConn => absurd isConn noEventfd,
    fun _ _ _ isConn => absurd isConn noEventfd, nofun⟩

/-- Reading an eventfd in `epoll_wait` resets its counter. -/
theorem kept_drain (owned : state.Owned) (event : EpollEvent) : Kept state (state.drain event) ∧
      ∀ epfd fd, (state.drain event).registration? epfd fd = state.registration? epfd fd := by
  unfold drain
  split
  · rename_i id isConn
    have eventfds
        {other count : Nat}
        (counted : update state.eventfds id ((state.eventfds id).map fun _ => 0) other = some count)
        (nonzero : count ≠ 0) :
        state.eventfds other = some count := by
      by_cases same : other = id
      · rw [same, update_self] at counted
        obtain ⟨_, _, isZero⟩ := Option.map_eq_some_iff.mp counted
        exact absurd isZero.symm nonzero
      · rw [update_of_ne same] at counted
        exact counted
    refine ⟨⟨⟨?_, owned.unique, owned.owner⟩, fun _ => rfl, ?_⟩, fun _ _ => rfl⟩
    · intro fd other isOther
      obtain ⟨created, isOpen⟩ := owned.isOpen fd other isOther
      refine ⟨created, ?_⟩
      by_cases same : other = id
      · subst same
        simpa using isOpen
      · simpa [same] using isOpen
    · intro fd other count isOther counted nonzero
      exact ⟨isOther, eventfds counted nonzero⟩
  · exact ⟨.refl owned, fun _ _ => rfl⟩

theorem Kept.trans
    {last : EpollHooks}
    (first : Kept state next)
    (second : Kept next last) :
    Kept state last := by
  refine ⟨second.owned, ?_, ?_⟩
  · intro fd
    rw [second.upgraded, first.upgraded]
  · intro fd id count isConn counted nonzero
    obtain ⟨before, earlier⟩ := second.counter fd id count isConn counted nonzero
    exact first.counter fd id count before earlier nonzero

/-- Reading eventfds leaves all registrations alone. -/
theorem kept_drains (owned : state.Owned) (events : List EpollEvent) :
    Kept state (events.foldl drain state) ∧ ∀ epfd fd,
      (events.foldl drain state).registration? epfd fd = state.registration? epfd fd := by
  induction events generalizing state with
  | nil => exact ⟨.refl owned, fun _ _ => rfl⟩
  | cons event rest inductionHypothesis =>
    obtain ⟨kept, same⟩ := kept_drain owned event
    obtain ⟨keptRest, sameRest⟩ := inductionHypothesis kept.owned
    refine ⟨kept.trans keptRest, ?_⟩
    intro epfd fd
    exact (sameRest epfd fd).trans (same epfd fd)

/-- Every call of `epoll_ctl` registers one descriptor, or registers none. -/
theorem ctlEffect_epollCtl
    (owned : state.Owned)
    (epfd : Int32)
    (op : EpollOp)
    (fd : Int32)
    (ev : Option EpollEvent)
    (eventfdOk : Bool) :
    CtlEffect state epfd op fd ev (state.epollCtl epfd op fd ev eventfdOk) := by
  unfold epollCtl
  cases isConn : state.conns fd with
  | none => exact ctlEffect_of_ordinary owned isConn
  | some notifyFd =>
    dsimp only
    by_cases isDel : op = .del
    · rw [if_pos isDel]
      cases notifyFd with
      | none => exact ctlEffect_of_delete_descriptor owned isConn isDel
      | some id => exact ctlEffect_of_delete owned isConn isDel
    · rw [if_neg isDel]
      cases ensured : state.ensureNotify? fd notifyFd eventfdOk with
      | none => exact .lost (.refl owned) (fun _ _ _ same => same) (.inl rfl)
      | some found =>
        exact ctlEffect_of_prepared (prepared_of_ensureNotify? owned isConn ensured) isConn isDel

end Calls

end EpollHooks

end SocksDirect
