import SocksDirect.EpollHooks

namespace SocksDirect

open Machine

/-!
# Registrations of upgraded descriptors

Runs of `accept` and `connect` that upgrade a descriptor and of `epoll_ctl` on any
number of sets, by an application that adds a descriptor to a set only if it is
not in it, and modifies or deletes it only if it is.  One eventfd stands for the
connection in all sets.  The first `EPOLL_CTL_DEL` closes it for all of them, and a
descriptor that was registered before its upgrade stays with the kernel.

Kernel calls do not run out of memory.  `registered` is the application's own
record, and `codes` what `epoll_ctl` has returned.
-/

/-- The hooks with the sets in which the application has registered descriptors. -/
structure EpollSets where
  hooks : EpollHooks
  registered : Finset (Int32 × Int32)
  codes : List Int32

/-- One call. -/
inductive EpollSetCall where
  | upgrade (fd : Int32)
  | ctl (epfd : Int32) (op : EpollOp) (fd : Int32) (event : EpollEvent)
  deriving Repr, DecidableEq

namespace EpollSets

/-- No descriptor is upgraded and none is registered. -/
def initial : EpollSets where
  hooks := .initial fun _ => false
  registered := ∅
  codes := []

/-- `maybe_upgrade_to_shm` installs a connection. -/
def upgrade (state : EpollSets) (fd : Int32) : EpollSets :=
  { state with hooks := state.hooks.setNotify fd none }

/-- What the application has registered after a call. -/
def record (state : EpollSets) (epfd : Int32) (op : EpollOp)
    (fd : Int32) : Finset (Int32 × Int32) :=
  if op = .del then state.registered.erase (epfd, fd) else insert (epfd, fd) state.registered

/-- `epoll_ctl`. -/
def ctl (state : EpollSets) (epfd : Int32) (op : EpollOp) (fd : Int32)
    (event : EpollEvent) : EpollSets :=
  let (hooks, code) := state.hooks.epollCtl epfd op fd (some event) true
  { hooks := hooks, registered := state.record epfd op fd, codes := state.codes ++ [code] }

/-- One call of an application that keeps to its record. -/
def step? (state : EpollSets) : EpollSetCall → Option EpollSets
  | .upgrade fd =>
    if state.hooks.conns fd = none then some (state.upgrade fd) else none
  | .ctl epfd op fd event =>
    if op = .add ↔ (epfd, fd) ∉ state.registered then some (state.ctl epfd op fd event) else none

/--
All calls have succeeded, ordinary descriptors are watched where they are
registered, and a connection that is registered somewhere has an open eventfd in
just these sets, which the poller watches.
-/
structure Independent (state : EpollSets) : Prop where
  succeeded : ∀ code ∈ state.codes, code = 0
  ordinary : ∀ fd, state.hooks.conns fd = none →
      ∀ epfd, (state.hooks.sets.entry epfd (.descriptor fd)).isSome ↔ (epfd, fd) ∈ state.registered
  upgraded : ∀ fd, (state.hooks.conns fd).isSome → (∃ epfd, (epfd, fd) ∈ state.registered) → ∃ id,
        state.hooks.conns fd = some (some id) ∧ (state.hooks.eventfds id).isSome ∧ (∀ epfd,
            (state.hooks.sets.entry epfd (.notify id)).isSome ↔ (epfd, fd) ∈ state.registered) ∧
          fd ∈ state.hooks.watched

/--
A descriptor is upgraded while it is in no set, and an upgraded descriptor is
deleted from the only set in which it is.
-/
def OneSet (state : EpollSets) : EpollSetCall → Prop
  | .upgrade fd => ∀ entry ∈ state.registered, entry.2 ≠ fd
  | .ctl epfd op fd _ =>
    op = .del → (state.hooks.conns fd).isSome →
    ∀ entry ∈ state.registered, entry.2 = fd → entry.1 = epfd

/-- The condition on a call can be evaluated. -/
instance decidableOneSet (state : EpollSets) : ∀ call, Decidable (state.OneSet call)
  | .upgrade _ => Finset.decidableDforallFinset
  | .ctl _ _ _ _ =>
    @instDecidableForall _ _ _ (@instDecidableForall _ _ _ Finset.decidableDforallFinset)

/-- The registrations of the hooks are those of the application. -/
structure Invariant (state : EpollSets) : Prop where
  owned : state.hooks.Owned
  succeeded : ∀ code ∈ state.codes, code = 0
  same : ∀ epfd fd, (state.hooks.registration? epfd fd).isSome ↔ (epfd, fd) ∈ state.registered
  watched : ∀ fd, (state.hooks.conns fd).isSome → (∃ epfd, (epfd, fd) ∈ state.registered) →
      fd ∈ state.hooks.watched

section Steps

variable {state next : EpollSets}

/-- The invariant says what the application may expect. -/
theorem Invariant.independent (invariant : state.Invariant) : state.Independent := by
  refine ⟨invariant.succeeded, ?_, ?_⟩
  · intro fd ordinary epfd
    rw [← invariant.same, EpollHooks.registration?, EpollHooks.target?_of_ordinary ordinary]
    rfl
  · rintro fd upgraded ⟨epfd, member⟩
    have isWatched := invariant.watched fd upgraded ⟨epfd, member⟩
    obtain ⟨notifyFd, isConn⟩ := Option.isSome_iff_exists.mp upgraded
    have registered := (invariant.same epfd fd).mpr member
    rw [EpollHooks.registration?, EpollHooks.target?_of_conn isConn] at registered
    cases notifyFd with
    | none => cases registered
    | some id =>
      refine ⟨id, isConn, (invariant.owned.isOpen fd id isConn).2, ?_, isWatched⟩
      intro other
      rw [← invariant.same, EpollHooks.registration?, EpollHooks.target?_of_conn isConn]
      rfl

theorem mem_record
    {epfd fd otherEpfd other : Int32}
    {op : EpollOp} :
    (otherEpfd, other) ∈ state.record epfd op fd ↔
      if otherEpfd = epfd ∧ other = fd then op ≠ .del
      else (otherEpfd, other) ∈ state.registered := by
  fun_cases record with
  | case1 isDel =>
    split
    case isTrue isEntry => simp [isEntry, isDel]
    case isFalse apart => simp [apart]
  | case2 notDel =>
    split
    case isTrue isEntry => simp [isEntry, notDel]
    case isFalse apart => simp [apart]

theorem mem_record_of_ne
    {epfd fd otherEpfd other : Int32}
    {op : EpollOp}
    (different : other ≠ fd) :
    (otherEpfd, other) ∈ state.record epfd op fd ↔ (otherEpfd, other) ∈ state.registered := by
  rw [mem_record, if_neg fun both => different both.2]

section

variable (invariant : state.Invariant)

include invariant

theorem Invariant.succeeded_append : ∀ code ∈ state.codes ++ [0], code = 0 := by
  intro code member
  rcases List.mem_append.mp member with old | isNew
  · exact invariant.succeeded code old
  · exact List.mem_singleton.mp isNew

variable {epfd fd : Int32}

theorem Invariant.realEpollCtl? {hooks : EpollHooks} {op : EpollOp}
    {target : Watched} (isTarget : hooks.target? fd = some target)
    (sameRegistration : hooks.registration? epfd fd = state.hooks.registration? epfd fd)
    (guard : op = .add ↔ (epfd, fd) ∉ state.registered) (event : EpollEvent) :
    hooks.realEpollCtl? epfd op target (some event) = some
        { hooks with
          sets := hooks.sets.write epfd target (if op = .del then none else some event) } := by
  have isEntry : hooks.registration? epfd fd = hooks.sets.entry epfd target := by
    rw [EpollHooks.registration?, isTarget]
    rfl
  refine EpollHooks.realEpollCtl?_of_guard ?_
  rw [guard, ← invariant.same, ← sameRegistration, isEntry, Option.not_isSome_iff_eq_none]

/-- A call for an ordinary descriptor. -/
theorem Invariant.ctl_ordinary {op : EpollOp}
    (ordinary : state.hooks.conns fd = none) (guard : op = .add ↔ (epfd, fd) ∉ state.registered)
    (event : EpollEvent) : (state.ctl epfd op fd event).Invariant := by
  have isTarget := EpollHooks.target?_of_ordinary ordinary
  have accepted := invariant.realEpollCtl? isTarget rfl guard event
  have called : state.hooks.epollCtl epfd op fd (some event) true = ({ state.hooks with
            sets :=
              state.hooks.sets.write epfd (.descriptor fd)
                (if op = .del then none else some event) }, 0) := by
    rw [EpollHooks.epollCtl, ordinary]
    rw [accepted]
    rfl
  have written :=
    invariant.owned.registration?_write isTarget epfd (if op = .del then none else some event)
  unfold EpollSets.ctl
  rw [called]
  refine ⟨invariant.owned.write (fun _ => ⟨fd, isTarget⟩) epfd, invariant.succeeded_append, ?_, ?_⟩
  · intro otherEpfd other
    rw [written, mem_record]
    split
    · by_cases isDel : op = .del
      · simp [isDel]
      · simp [isDel]
    · exact invariant.same otherEpfd other
  · rintro other upgraded ⟨otherEpfd, member⟩
    rw [mem_record] at member
    split at member
    · rename_i isEntry
      rw [isEntry.2, ordinary] at upgraded
      cases upgraded
    · exact invariant.watched other upgraded ⟨otherEpfd, member⟩

/-- `EPOLL_CTL_ADD` or `EPOLL_CTL_MOD` for a connection. -/
theorem Invariant.ctl_register {op : EpollOp} {notifyFd : Option Nat}
    (isConn : state.hooks.conns fd = some notifyFd) (notDel : op ≠ .del)
    (guard : op = .add ↔ (epfd, fd) ∉ state.registered) (event : EpollEvent) :
    (state.ctl epfd op fd event).Invariant := by
  obtain ⟨⟨prepared, id⟩, ensured⟩ :
      ∃ found, state.hooks.ensureNotify? fd notifyFd true = some found := by
    cases notifyFd with
    | none | some => exact ⟨_, rfl⟩
  have isPrepared := EpollHooks.prepared_of_ensureNotify? invariant.owned isConn ensured
  have owned : (prepared.watch fd).Owned := isPrepared.kept.owned.withWatched _
  have isTarget : (prepared.watch fd).target? fd = some (.notify id) :=
    EpollHooks.target?_eq_notify.mpr isPrepared.isConn
  have accepted :=
    invariant.realEpollCtl? isTarget (isPrepared.registration epfd fd) guard
      (EpollHooks.substitute fd (some event))
  have called : state.hooks.epollCtl epfd op fd (some event) true = ({ prepared.watch fd with
            sets :=
              (prepared.watch fd).sets.write epfd (.notify id)
                (if op = .del then
                  none
                else
                  some (EpollHooks.substitute fd (some event))) }, 0) := by
    rw [EpollHooks.epollCtl, isConn]
    dsimp only
    rw [if_neg notDel, ensured]
    dsimp only
    rw [accepted]
    rfl
  have written :=
    owned.registration?_write isTarget epfd
      (if op = .del then none else some (EpollHooks.substitute fd (some event)))
  unfold EpollSets.ctl
  rw [called]
  refine ⟨owned.write (fun _ => ⟨fd, isTarget⟩) epfd, invariant.succeeded_append, ?_, ?_⟩
  · intro otherEpfd other
    rw [written, mem_record]
    split
    · simp [notDel]
    · rw [← invariant.same, ← isPrepared.registration]
      rfl
  · rintro other upgraded ⟨otherEpfd, member⟩
    change other ∈ insert fd prepared.watched
    rw [Finset.mem_insert, isPrepared.watched]
    by_cases isFd : other = fd
    · exact .inl isFd
    · rw [mem_record_of_ne isFd] at member
      refine .inr (invariant.watched other ?_ ⟨otherEpfd, member⟩)
      rw [← isPrepared.kept.upgraded]
      exact upgraded

theorem Invariant.exists_notify (upgraded : (state.hooks.conns fd).isSome)
    (member : (epfd, fd) ∈ state.registered) :
    ∃ id, state.hooks.conns fd = some (some id) := by
  obtain ⟨id, isConn, _⟩ := invariant.independent.upgraded fd upgraded ⟨epfd, member⟩
  exact ⟨id, isConn⟩

theorem Invariant.epollCtl_delete {id : Nat}
    (isConn : state.hooks.conns fd = some (some id)) (member : (epfd, fd) ∈ state.registered)
    (event : EpollEvent) :
    state.hooks.epollCtl epfd .del fd (some event) true = ((EpollHooks.unwatch
      { state.hooks with sets := state.hooks.sets.write epfd (.notify id) none }
      fd).closeNotify fd id, 0) := by
  have isTarget := EpollHooks.target?_eq_notify.mpr isConn
  have guard : EpollOp.del = .add ↔ (epfd, fd) ∉ state.registered :=
    iff_of_false nofun fun absent => absent member
  have accepted : state.hooks.realEpollCtl? epfd .del (.notify id) none = _ :=
    invariant.realEpollCtl? isTarget rfl guard event
  rw [EpollHooks.epollCtl, isConn]
  dsimp only
  rw [if_pos rfl, accepted]
  rfl

/-- `EPOLL_CTL_DEL` for a connection in its only set. -/
theorem Invariant.ctl_delete {id : Nat}
    (isConn : state.hooks.conns fd = some (some id)) (member : (epfd, fd) ∈ state.registered)
    (only : ∀ entry ∈ state.registered, entry.2 = fd → entry.1 = epfd) (event : EpollEvent) :
    (state.ctl epfd .del fd event).Invariant := by
  have isTarget := EpollHooks.target?_eq_notify.mpr isConn
  have written := invariant.owned.registration?_write isTarget epfd none
  have called := invariant.epollCtl_delete isConn member event
  have owned : { state.hooks with sets := state.hooks.sets.write epfd (.notify id) none }.Owned :=
    invariant.owned.write (by rintro ⟨⟩) epfd
  generalize isDeleted :
      ({ state.hooks with sets := state.hooks.sets.write epfd (.notify id) none } :
        EpollHooks) = deleted
    at owned written called
  have sameConns : deleted.conns = state.hooks.conns := by rw [← isDeleted]
  have sameWatched : deleted.watched = state.hooks.watched := by rw [← isDeleted]
  have unwatched : (deleted.unwatch fd).Owned := owned.withWatched _
  have stillConn : (deleted.unwatch fd).conns fd = some (some id) :=
    (congrFun sameConns fd).trans isConn
  have closed := unwatched.registration?_closeNotify stillConn
  have onlyHere
      {otherEpfd : Int32}
      (inRecord : (otherEpfd, fd) ∈ state.record epfd .del fd) :
      False := by
    rw [mem_record] at inRecord
    split at inRecord
    · exact inRecord rfl
    · rename_i apart
      exact apart ⟨only _ inRecord rfl, rfl⟩
  unfold EpollSets.ctl
  rw [called]
  refine ⟨unwatched.closeNotify stillConn, invariant.succeeded_append, ?_, ?_⟩
  · intro otherEpfd other
    rw [closed]
    split
    · rename_i isFd
      subst isFd
      exact iff_of_false nofun onlyHere
    · rename_i different
      rw [mem_record_of_ne different, ← invariant.same]
      change (deleted.registration? otherEpfd other).isSome ↔ _
      rw [written, if_neg fun both => different both.2]
  · rintro other upgraded ⟨otherEpfd, inRecord⟩
    have different : other ≠ fd := by
      rintro rfl
      exact onlyHere inRecord
    change other ∈ deleted.watched.erase fd
    rw [Finset.mem_erase, sameWatched]
    rw [mem_record_of_ne different] at inRecord
    refine ⟨different, invariant.watched other ?_ ⟨otherEpfd, inRecord⟩⟩
    have sameConn :
        ((deleted.unwatch fd).closeNotify fd id).conns other = state.hooks.conns other :=
      (EpollHooks.conns_setNotify_of_ne different _ _).trans (congrFun sameConns other)
    rw [← sameConn]
    exact upgraded

/-- An ordinary descriptor in no set is upgraded. -/
theorem Invariant.upgrade {fd : Int32} (unregistered : ∀ entry ∈ state.registered, entry.2 ≠ fd) :
    (state.upgrade fd).Invariant := by
  have self : (state.upgrade fd).hooks.conns fd = some none := EpollHooks.conns_setNotify_self ..
  have others
      {other : Int32}
      (different : other ≠ fd) :
      (state.upgrade fd).hooks.conns other = state.hooks.conns other :=
    EpollHooks.conns_setNotify_of_ne different ..
  refine ⟨⟨?_, ?_, ?_⟩, invariant.succeeded, ?_, ?_⟩
  · intro other id isConn
    exact invariant.owned.isOpen other id (EpollHooks.conn_of_setNotify_none isConn).2
  · intro first second id isFirst isSecond
    exact invariant.owned.unique first second id
      (EpollHooks.conn_of_setNotify_none isFirst).2
      (EpollHooks.conn_of_setNotify_none isSecond).2
  · intro epfd target event found
    obtain ⟨other, isTarget, registered⟩ := invariant.owned.exists_registration found
    have member : (epfd, other) ∈ state.registered := by
      rw [← invariant.same, registered]
      rfl
    refine ⟨other, ?_⟩
    rw [EpollHooks.target?_congr (others (unregistered _ member))]
    exact isTarget
  · intro epfd other
    change _ ↔ (epfd, other) ∈ state.registered
    by_cases isFd : other = fd
    · rw [isFd, EpollHooks.registration?, EpollHooks.target?_of_conn self]
      refine iff_of_false ?_ fun member => unregistered _ member rfl
      rintro ⟨⟩
    · rw [← invariant.same, EpollHooks.registration?, EpollHooks.target?_congr (others isFd)]
      rfl
  · rintro other upgraded ⟨epfd, member⟩
    have different : other ≠ fd := unregistered _ member
    rw [others different] at upgraded
    exact invariant.watched other upgraded ⟨epfd, member⟩

/-- A call keeps the invariant if the descriptor is in one set. -/
theorem Invariant.step {call : EpollSetCall} (stepped : state.step? call = some next)
    (oneSet : state.OneSet call) :
    next.Invariant := by
  cases call with
  | upgrade fd =>
    obtain ⟨_, upgraded⟩ := Option.ite_none_right_eq_some.mp stepped
    cases upgraded
    exact invariant.upgrade oneSet
  | ctl epfd op fd event =>
    obtain ⟨guard, called⟩ := Option.ite_none_right_eq_some.mp stepped
    cases called
    cases isConn : state.hooks.conns fd with
    | none => exact invariant.ctl_ordinary isConn guard event
    | some notifyFd =>
      by_cases isDel : op = .del
      · subst isDel
        have upgraded : (state.hooks.conns fd).isSome := by
          rw [isConn]
          rfl
        have member : (epfd, fd) ∈ state.registered := by
          by_contra absent
          cases guard.mpr absent
        obtain ⟨id, hasNotify⟩ := invariant.exists_notify upgraded member
        exact invariant.ctl_delete hasNotify member (oneSet rfl upgraded) event
      · exact invariant.ctl_register isConn isDel guard event

end

theorem Independent.notify_ne_none {epfd fd : Int32} (independent : state.Independent)
    (member : (epfd, fd) ∈ state.registered) :
    state.hooks.conns fd ≠ some none := by
  intro isConn
  have upgraded : (state.hooks.conns fd).isSome := by
    rw [isConn]
    rfl
  obtain ⟨id, hasNotify, _⟩ := independent.upgraded fd upgraded ⟨epfd, member⟩
  cases isConn.symm.trans hasNotify

/-- A call that does not meet the condition loses registrations. -/
theorem Invariant.oneSet_of_independent {call : EpollSetCall} (invariant : state.Invariant)
    (stepped : state.step? call = some next) (independent : next.Independent) :
    state.OneSet call := by
  cases call with
  | upgrade fd =>
    obtain ⟨_, upgraded⟩ := Option.ite_none_right_eq_some.mp stepped
    cases upgraded
    rintro ⟨epfd, other⟩ member rfl
    exact independent.notify_ne_none member (EpollHooks.conns_setNotify_self ..)
  | ctl epfd op fd event =>
    obtain ⟨guard, called⟩ := Option.ite_none_right_eq_some.mp stepped
    cases called
    rintro rfl upgraded ⟨otherEpfd, other⟩ member rfl
    by_contra different
    have present : (epfd, other) ∈ state.registered := by
      by_contra absent
      cases guard.mpr absent
    obtain ⟨id, isConn⟩ := invariant.exists_notify upgraded present
    have called := invariant.epollCtl_delete isConn present event
    have inRecord : (otherEpfd, other) ∈ (state.ctl epfd .del other event).registered := by
      change (otherEpfd, other) ∈ state.record epfd .del other
      rw [mem_record, if_neg fun both => different both.1]
      exact member
    refine independent.notify_ne_none inRecord ?_
    unfold EpollSets.ctl
    rw [called]
    exact EpollHooks.conns_setNotify_self ..

end Steps

theorem invariant_initial : initial.Invariant where
  owned := EpollHooks.owned_initial _
  succeeded := nofun
  same := fun _ _ => iff_of_false nofun (Finset.notMem_empty _)
  watched := fun _ upgraded => by cases upgraded

/--
All calls of a run succeed and leave every descriptor watched in exactly its sets
if and only if no descriptor is upgraded while it is in a set and no upgraded
descriptor is deleted from one of several sets.
-/
theorem independent_iff_one_set
    (calls : List EpollSetCall)
    (final : EpollSets)
    (accepted : run? step? initial calls = some final) :
    (∀ state, ReachedBy step? initial calls state → state.Independent) ↔
      Along step? OneSet initial calls := by
  refine @forall_reachedBy_iff_along_of_kept _ _ step? OneSet
    Invariant Independent (fun invariant => invariant.independent) ?_ ?_
    initial final invariant_initial calls accepted
  · intro state call next invariant stepped
    constructor
    · intro independent
      exact invariant.oneSet_of_independent stepped independent
    · intro oneSet
      exact (invariant.step stepped oneSet).independent
  · intro state call next invariant stepped oneSet
    exact invariant.step stepped oneSet

/-- A descriptor is upgraded, added to two sets and deleted from the first. -/
def deletedFromOne : List EpollSetCall :=
  [.upgrade 7, .ctl 3 .add 7 ⟨1, 7⟩, .ctl 4 .add 7 ⟨1, 7⟩, .ctl 3 .del 7 ⟨0, 0⟩]

/-- One set at a time, with a modification and an ordinary descriptor. -/
def oneAfterTheOther : List EpollSetCall :=
  [.upgrade 7, .ctl 3 .add 7 ⟨1, 7⟩, .ctl 3 .add 5 ⟨1, 5⟩,
    .ctl 4 .add 5 ⟨1, 5⟩, .ctl 3 .mod 7 ⟨5, 7⟩, .ctl 3 .del 7 ⟨0, 0⟩,
    .ctl 4 .add 7 ⟨1, 7⟩, .ctl 3 .del 5 ⟨0, 0⟩]

/-- A descriptor that is in one set at a time. -/
theorem independent_in_one_set :
    ∃ final, run? step? initial oneAfterTheOther = some final ∧
      final.registered = {(4, 5), (4, 7)} ∧
      final.Independent := by
  obtain ⟨final, reached, registered⟩ :=
    exists_reached_of_check step? initial oneAfterTheOther
      (fun state => state.registered = {(4, 5), (4, 7)})
      (by decide +kernel)
  have allIndependent :=
    (independent_iff_one_set oneAfterTheOther final reached).mpr (by decide +kernel)
  exact ⟨final, reached, registered,
    allIndependent final ⟨_, [], (List.append_nil _).symm, reached⟩⟩

/--
The eventfd has been closed for the second set too.  A descriptor that was in a set
before its upgrade has no eventfd at all, and it cannot be modified.
-/
theorem registration_lost :
    (∃ final,
      run? step? initial deletedFromOne = some final ∧
      (4, 7) ∈ final.registered ∧
      final.hooks.sets.entry 4 (.notify 0) = none ∧
      7 ∉ final.hooks.watched ∧
      ¬ final.Independent) ∧
      ∃ final,
        run? step? initial [.ctl 3 .add 7 ⟨1, 7⟩, .upgrade 7, .ctl 3 .mod 7 ⟨1, 7⟩] = some final ∧
        final.codes = [0, -1] ∧
        ¬ final.Independent := by
  constructor
  · obtain ⟨final, reached, registered, closed, deleted, unwatched⟩ :=
      exists_reached_of_check step? initial deletedFromOne
        (fun state =>
          (4, 7) ∈ state.registered ∧ state.hooks.conns 7 = some none ∧
            state.hooks.sets.entry 4 (.notify 0) = none ∧ 7 ∉ state.hooks.watched)
        (by decide +kernel)
    refine ⟨final, reached, registered, deleted, unwatched, ?_⟩
    intro independent
    exact independent.notify_ne_none registered closed
  · obtain ⟨final, reached, returned⟩ :=
      exists_reached_of_check step? initial
        [.ctl 3 .add 7 ⟨1, 7⟩, .upgrade 7, .ctl 3 .mod 7 ⟨1, 7⟩]
        (fun state => state.codes = [0, -1])
        (by decide +kernel)
    refine ⟨final, reached, returned, ?_⟩
    intro independent
    have failed : -1 ∈ final.codes := by
      rw [returned]
      decide
    exact absurd (independent.succeeded _ failed) (by decide)

end EpollSets

end SocksDirect
