import SocksDirect.EpollHooks

namespace SocksDirect

open Machine

/-!
# The user data of epoll events

Runs of `epoll_ctl` and `epoll_wait` (or `epoll_pwait`, whose hook is the same) over
upgraded and ordinary descriptors.  The comment in `epoll_ctl` promises to restore
the user data in `epoll_wait`, but the hook writes the descriptor over its low half
and `epoll_wait` returns what the kernel has.

`given` records the data of the last successful `EPOLL_CTL_ADD` or `EPOLL_CTL_MOD`
of a descriptor in a set, and `reports` what `epoll_wait` has returned.
-/

/-- One event that `epoll_wait` has returned, with the data given for it. -/
structure EpollReport where
  epfd : Int32
  fd : Int32
  data : UInt64
  given : Option UInt64
  deriving Repr, DecidableEq

/-- The hooks with the record of what the application has given and got. -/
structure EpollCalls where
  hooks : EpollHooks
  given : Int32 → Int32 → Option UInt64
  reports : List EpollReport

/-- One call; for `epoll_wait` the descriptors that are ready, with their events. -/
inductive EpollCall where
  | ctl (epfd : Int32) (op : EpollOp) (fd : Int32) (ev : Option EpollEvent) (eventfdOk : Bool)
  | wait (epfd : Int32) (ready : List (Int32 × UInt32))
  deriving Repr, DecidableEq

namespace EpollCalls

/-- No descriptor is registered, and some are upgraded. -/
def initial (upgraded : Int32 → Bool) : EpollCalls where
  hooks := .initial upgraded
  given := fun _ _ => none
  reports := []

/-- The data that a successful call leaves behind. -/
def givenBy (op : EpollOp) (ev : Option EpollEvent) : Option UInt64 :=
  if op = .del then none else ev.map EpollEvent.data

/-- `epoll_ctl`. -/
def ctl (state : EpollCalls) (epfd : Int32) (op : EpollOp) (fd : Int32) (ev : Option EpollEvent)
    (eventfdOk : Bool) : EpollCalls :=
  let (hooks, code) := state.hooks.epollCtl epfd op fd ev eventfdOk
  { state with
    hooks := hooks
    given := fun otherEpfd other =>
      if code = 0 ∧ otherEpfd = epfd ∧ other = fd then
        givenBy op ev
      else
        state.given otherEpfd other }

/-- The events that the kernel returns for the descriptors that are ready. -/
def collect (state : EpollCalls) (epfd : Int32)
    (ready : List (Int32 × UInt32)) : List (Int32 × EpollEvent) :=
  ready.filterMap fun (fd, events) =>
    (state.hooks.registration? epfd fd).map fun event =>
      (fd, { events := events, data := event.data })

/-- `epoll_wait`. -/
def wait (state : EpollCalls) (epfd : Int32) (ready : List (Int32 × UInt32)) : EpollCalls :=
  let collected := state.collect epfd ready
  { state with
    hooks := (collected.map Prod.snd).foldl EpollHooks.drain state.hooks
    reports := state.reports ++
      collected.map fun (fd, event) =>
        { epfd := epfd, fd := fd, data := event.data, given := state.given epfd fd } }

/-- One call. -/
def step? (state : EpollCalls) : EpollCall → Option EpollCalls
  | .ctl epfd op fd ev eventfdOk => some (state.ctl epfd op fd ev eventfdOk)
  | .wait epfd ready =>
    if ready.all fun entry =>
        (state.hooks.registration? epfd entry.1).isSome then
      some (state.wait epfd ready)
    else
      none

/-- Every event has been returned with the data given for it. -/
def DataReturned (state : EpollCalls) : Prop :=
  ∀ report ∈ state.reports, ∀ data ∈ report.given, report.data = data

/-- The upgraded descriptors that are returned stand in the low half of their data. -/
def DataIsFd (state : EpollCalls) : EpollCall → Prop
  | .ctl _ _ _ _ _ => True
  | .wait epfd ready =>
    ∀ entry ∈ ready, (state.hooks.conns entry.1).isSome →
      ∀ data ∈ state.given epfd entry.1, EpollEvent.dataFd data = entry.1

/-- The condition on a call can be evaluated. -/
instance decidableDataIsFd (state : EpollCalls) : ∀ call, Decidable (state.DataIsFd call)
  | .ctl _ _ _ _ _ => .isTrue trivial
  | .wait _ ready =>
    @List.decidableBAll _ _
      (fun _ => @instDecidableForall _ _ _ (Option.decidableForallMem _))
      ready

/-- What the kernel has for a descriptor in place of the data given. -/
def stored (hooks : EpollHooks) (fd : Int32) (data : UInt64) : UInt64 :=
  if (hooks.conns fd).isSome then EpollEvent.setDataFd data fd else data

/-- Every registration has the data given for it, as the hook stores it. -/
structure Invariant (state : EpollCalls) : Prop where
  owned : state.hooks.Owned
  data : ∀ epfd fd event, state.hooks.registration? epfd fd = some event →
      ∀ data ∈ state.given epfd fd, event.data = stored state.hooks fd data

section Steps

variable {state next : EpollCalls}

theorem stored_congr {hooks after : EpollHooks} (kept : EpollHooks.Kept hooks after) (fd : Int32)
    (data : UInt64) :
    stored after fd data = stored hooks fd data := by
  unfold stored
  rw [kept.upgraded fd]

theorem data_of_event? {hooks : EpollHooks} {fd : Int32} {ev : Option EpollEvent}
    {event : EpollEvent} (registered : hooks.event? fd ev = some event) :
    ∀ data ∈ ev.map EpollEvent.data, event.data = stored hooks fd data := by
  intro data isGiven
  obtain ⟨original, rfl, rfl⟩ := Option.map_eq_some_iff.mp isGiven
  unfold EpollHooks.event? at registered
  unfold stored
  cases isConn : hooks.conns fd with
  | none | some =>
    rw [isConn] at registered
    cases registered
    rfl

/-- `epoll_ctl` keeps the invariant. -/
theorem Invariant.ctl (invariant : state.Invariant) (epfd : Int32) (op : EpollOp) (fd : Int32)
    (ev : Option EpollEvent) (eventfdOk : Bool) :
    (state.ctl epfd op fd ev eventfdOk).Invariant := by
  have effect := EpollHooks.ctlEffect_epollCtl invariant.owned epfd op fd ev eventfdOk
  unfold EpollCalls.ctl
  generalize state.hooks.epollCtl epfd op fd ev eventfdOk = result at effect ⊢
  cases effect with
  | @lost hooks code kept registered fails =>
    refine ⟨kept.owned, ?_⟩
    intro otherEpfd other event found data isGiven
    rw [stored_congr kept]
    dsimp only at isGiven
    split at isGiven
    · rename_i same
      have isDel : op = .del := by
        rcases fails with failed | ⟨isDel, _⟩
        · rw [failed] at same
          cases same.1
        · exact isDel
      rw [givenBy, if_pos isDel] at isGiven
      cases isGiven
    · exact invariant.data otherEpfd other event
        (registered otherEpfd other event found) data isGiven
  | @gained hooks event kept notDel isEvent registered =>
    refine ⟨kept.owned, ?_⟩
    intro otherEpfd other found isFound data isGiven
    rw [stored_congr kept]
    dsimp only at isFound isGiven
    rw [registered] at isFound
    by_cases same : otherEpfd = epfd ∧ other = fd
    · rw [if_pos same] at isFound
      rw [if_pos ⟨rfl, same⟩, givenBy, if_neg notDel] at isGiven
      cases isFound
      rw [same.2]
      exact data_of_event? isEvent data isGiven
    · rw [if_neg same] at isFound
      rw [if_neg fun both => same both.2] at isGiven
      exact invariant.data otherEpfd other found isFound data isGiven

theorem Invariant.wait (invariant : state.Invariant) (epfd : Int32)
    (ready : List (Int32 × UInt32)) : (state.wait epfd ready).Invariant := by
  obtain ⟨kept, registered⟩ :=
    EpollHooks.kept_drains invariant.owned ((state.collect epfd ready).map Prod.snd)
  refine ⟨kept.owned, ?_⟩
  intro otherEpfd fd event found data isGiven
  have before := invariant.data otherEpfd fd event
    ((registered otherEpfd fd).symm.trans found) data isGiven
  exact before.trans (stored_congr kept fd data).symm

theorem Invariant.step {call : EpollCall} (invariant : state.Invariant)
    (stepped : state.step? call = some next) :
    next.Invariant := by
  cases call with
  | ctl epfd op fd ev eventfdOk =>
    cases stepped
    exact invariant.ctl epfd op fd ev eventfdOk
  | wait epfd ready =>
    obtain ⟨_, waited⟩ := Option.ite_none_right_eq_some.mp stepped
    cases waited
    exact invariant.wait epfd ready

theorem stored_eq_iff (hooks : EpollHooks) (fd : Int32) (data : UInt64) :
    stored hooks fd data = data ↔ ((hooks.conns fd).isSome → EpollEvent.dataFd data = fd) := by
  unfold stored
  split
  · rename_i upgraded
    rw [EpollEvent.setDataFd_eq_self_iff]
    simp [upgraded]
  · rename_i ordinary
    simp [ordinary]

theorem mem_reports_wait {epfd : Int32} {ready : List (Int32 × UInt32)} {report : EpollReport} :
    report ∈ (state.wait epfd ready).reports ↔ report ∈ state.reports ∨ ∃ entry ∈ ready, ∃ event,
            state.hooks.registration? epfd entry.1 = some event ∧ report =
                { epfd := epfd
                  fd := entry.1
                  data := event.data
                  given := state.given epfd entry.1 } := by
  simp only [wait, collect, List.mem_append, List.mem_map,
    List.mem_filterMap, Option.map_eq_some_iff]
  refine or_congr Iff.rfl ⟨?_, ?_⟩
  · rintro ⟨_, ⟨entry, member, event, found, rfl⟩, rfl⟩
    exact ⟨entry, member, event, found, rfl⟩
  · rintro ⟨entry, member, event, found, rfl⟩
    exact ⟨_, ⟨entry, member, event, found, rfl⟩, rfl⟩

/-- `epoll_wait` returns the data given exactly if they were stored unchanged. -/
theorem dataReturned_wait {epfd : Int32} {ready : List (Int32 × UInt32)}
    (invariant : state.Invariant) (good : state.DataReturned)
    (registered : ∀ entry ∈ ready, (state.hooks.registration? epfd entry.1).isSome) :
    (state.wait epfd ready).DataReturned ↔ state.DataIsFd (.wait epfd ready) := by
  constructor
  · intro returned entry member upgraded data isGiven
    obtain ⟨event, found⟩ := Option.isSome_iff_exists.mp (registered entry member)
    have unchanged : event.data = data :=
      returned _ (mem_reports_wait.mpr (.inr ⟨entry, member, event, found, rfl⟩)) data isGiven
    have isStored := invariant.data epfd entry.1 event found data isGiven
    exact (stored_eq_iff _ _ _).mp (isStored.symm.trans unchanged) upgraded
  · intro isFd report member data isGiven
    rcases mem_reports_wait.mp member with old | ⟨entry, isReady, event, found, rfl⟩
    · exact good report old data isGiven
    · have isStored := invariant.data epfd entry.1 event found data isGiven
      refine isStored.trans ((stored_eq_iff _ _ _).mpr ?_)
      intro upgraded
      exact isFd entry isReady upgraded data isGiven

theorem dataReturned_step {call : EpollCall} (invariant : state.Invariant)
    (good : state.DataReturned) (stepped : state.step? call = some next) :
    next.DataReturned ↔ state.DataIsFd call := by
  cases call with
  | ctl epfd op fd ev eventfdOk =>
    cases stepped
    exact iff_of_true good trivial
  | wait epfd ready =>
    obtain ⟨registered, waited⟩ := Option.ite_none_right_eq_some.mp stepped
    cases waited
    exact dataReturned_wait invariant good (List.all_eq_true.mp registered)

end Steps

theorem invariant_initial (upgraded : Int32 → Bool) : (initial upgraded).Invariant := by
  refine ⟨EpollHooks.owned_initial upgraded, ?_⟩
  intro epfd fd event found data isGiven
  cases isGiven

/--
`epoll_wait` returns every event with the data given for it in all states of a run
exactly if every upgraded descriptor that is returned stands in the low half of
the data that were given for it.
-/
theorem data_returned_iff_data_is_fd
    (upgraded : Int32 → Bool)
    (calls : List EpollCall)
    (final : EpollCalls)
    (accepted : run? step? (initial upgraded) calls = some final) :
    (∀ state, ReachedBy step? (initial upgraded) calls state → state.DataReturned) ↔
      Along step? DataIsFd (initial upgraded) calls := by
  refine forall_reachedBy_iff_along_of_invariant ?_ ?_
    (invariant_initial upgraded) nofun accepted
  · intro state call next invariant stepped
    exact invariant.step stepped
  · intro state call next invariant good stepped
    exact dataReturned_step invariant good stepped

/-- An ordinary descriptor 4 and an upgraded one 7, with the given data for 7. -/
def twoDescriptors (data : UInt64) : List EpollCall :=
  [.ctl 3 .add 4 (some ⟨1, 0xdeadbeef00001234⟩) true, .ctl 3 .add 7 (some ⟨1, data⟩) true,
    .wait 3 [(4, 1), (7, 1)]]

/-- Data that end in the descriptor are returned. -/
theorem data_returned_with_fd :
    ∃ final, run? step? (initial (· = 7)) (twoDescriptors 7) = some final ∧
      final.reports.map EpollReport.data = [0xdeadbeef00001234, 7] ∧
      final.DataReturned := by
  obtain ⟨final, reached, data⟩ :=
    exists_reached_of_check step? (initial (· = 7))
      (twoDescriptors 7)
      (fun state => state.reports.map EpollReport.data = [0xdeadbeef00001234, 7])
      (by decide +kernel)
  have allReturned :=
    (data_returned_iff_data_is_fd (· = 7) (twoDescriptors 7) final reached).mpr (by decide +kernel)
  exact ⟨final, reached, data, allReturned final ⟨_, [], (List.append_nil _).symm, reached⟩⟩

/--
In every run: whatever the kernel watches in a set stands for one descriptor of
the application, and the eventfd of a connection is open and no other's.
-/
theorem watched_for_one_descriptor
    (upgraded : Int32 → Bool)
    {calls : List EpollCall}
    {final : EpollCalls}
    (accepted : run? step? (initial upgraded) calls = some final) :
    (∀ epfd target event,
      final.hooks.sets.entry epfd target = some event →
      ∃! fd, final.hooks.target? fd = some target) ∧
      ∀ fd id,
        final.hooks.conns fd = some (some id) →
        (final.hooks.eventfds id).isSome ∧
        ∀ other, final.hooks.conns other = some (some id) → other = fd := by
  have owned : final.hooks.Owned :=
    (invariant_of_run (invariant_initial upgraded)
      (fun invariant stepped => invariant.step stepped) accepted).owned
  refine ⟨?_, ?_⟩
  · intro epfd target event entered
    obtain ⟨fd, isTarget⟩ := owned.owner epfd target event entered
    exact ⟨fd, isTarget, fun other otherTarget => owned.eq_of_target isTarget otherTarget⟩
  · intro fd id isConn
    exact ⟨(owned.isOpen fd id isConn).2, fun other same => owned.unique fd other id isConn same⟩

/--
What the set holds for the upgraded descriptor is held for it alone, and its
eventfd is open and no other descriptor's.
-/
theorem watched_for_one_descriptor_upgraded :
    ∃ final, run? step? (initial (· = 7)) (twoDescriptors 7) = some final ∧
      (∃! fd, final.hooks.target? fd = final.hooks.target? 7) ∧
      (final.hooks.eventfds 0).isSome ∧
      ∀ other, final.hooks.conns other = some (some 0) → other = 7 := by
  obtain ⟨final, reached, isConn, isTarget, entered⟩ :=
    exists_reached_of_check step? (initial (· = 7)) (twoDescriptors 7)
      (fun state =>
        state.hooks.conns 7 = some (some 0) ∧ state.hooks.target? 7 = some (.notify 0) ∧
          state.hooks.sets.entry 3 (.notify 0) = some ⟨1, 7⟩)
      (by decide +kernel)
  obtain ⟨single, own⟩ := watched_for_one_descriptor (· = 7) reached
  refine ⟨final, reached, ?_, own 7 0 isConn⟩
  rw [isTarget]
  exact single 3 _ _ entered

/-- A pointer is returned with the descriptor in its low half. -/
theorem data_not_returned_for_pointer :
    ∃ final, run? step? (initial (· = 7)) (twoDescriptors 0x00007f12345678a0) = some final ∧
      final.reports = [⟨3, 4, 0xdeadbeef00001234, some 0xdeadbeef00001234⟩,
      ⟨3, 7, 0x00007f1200000007, some 0x00007f12345678a0⟩] ∧ ¬ final.DataReturned := by
  obtain ⟨final, reached, returned⟩ :=
    exists_reached_of_check step? (initial (· = 7))
      (twoDescriptors 0x00007f12345678a0)
      (fun state =>
        state.reports = [⟨3, 4, 0xdeadbeef00001234, some 0xdeadbeef00001234⟩,
            ⟨3, 7, 0x00007f1200000007, some 0x00007f12345678a0⟩])
      (by decide +kernel)
  refine ⟨final, reached, returned, ?_⟩
  intro allReturned
  have isReport : ⟨3, 7, 0x00007f1200000007, some 0x00007f12345678a0⟩ ∈
        final.reports := by
    rw [returned]
    decide
  exact absurd (allReturned _ isReport _ rfl) (by decide)

end EpollCalls

end SocksDirect
