import SocksDirect.MonitorLoop

namespace SocksDirect.MonitorLoop

open Machine

/-!
# One round of the event loop

Between two calls of `poll` the scan visits every entry that `poll` has filled in,
although closed connections leave the vector behind its position and new ones are
appended to it.  What the scan still has in front of it are the entries that it
has not visited, followed by new ones without events.
-/

section Ready

variable (controlFd signalFd : Int)

/-- The control connections among some entries that have an event. -/
def readyFds (entries : List PollFd) : List Int :=
  (entries.filter fun entry =>
    entry.revents ≠ 0 ∧ entry.fd ≠ controlFd ∧ entry.fd ≠ signalFd).map
    PollFd.fd

variable {controlFd signalFd}

theorem readyFds_append (entries others : List PollFd) :
    readyFds controlFd signalFd (entries ++ others) = readyFds controlFd signalFd entries ++
      readyFds controlFd signalFd others := by
  rw [readyFds, List.filter_append, List.map_append]
  rfl

theorem readyFds_singleton_of_not {entry : PollFd}
    (notReady : ¬ (entry.revents ≠ 0 ∧ entry.fd ≠ controlFd ∧ entry.fd ≠ signalFd)) :
    readyFds controlFd signalFd [entry] = [] := by
  rw [readyFds, List.filter_cons_of_neg]
  · rfl
  · simpa using notReady

theorem readyFds_singleton {entry : PollFd}
    (ready : entry.revents ≠ 0 ∧ entry.fd ≠ controlFd ∧ entry.fd ≠ signalFd) :
    readyFds controlFd signalFd [entry] = [entry.fd] := by
  rw [readyFds, List.filter_cons_of_pos]
  · rfl
  · simpa using ready

end Ready

/--
The scan at `index`: of the entries that `poll` has filled in, some have been
visited, `current` is being visited, and the others stand behind it.
-/
inductive Scan
    (polled : List PollFd)
    (state : MonitorLoop)
    (index : Nat)
    (current : List PollFd) : Prop where
  | mk {visited kept todo fresh : List PollFd} : polled = visited ++ current ++ todo →
      state.polls = kept ++ (current ++ todo ++ fresh) → kept.length = index →
      (∀ entry ∈ fresh, entry.revents = 0) →
      state.drained = readyFds state.controlFd state.signalFd (visited ++ current) →
      Scan polled state index current

/-- The state of a round in which `poll` has returned `polled`. -/
structure Round
    (polled : List PollFd)
    (state : MonitorLoop) : Prop where
  front : (polled.map PollFd.fd).take 2 = [state.controlFd, state.signalFd]
  nodup : (polled.map PollFd.fd).Nodup
  scanning : ∀ index, state.phase = .scanning index → Scan polled state index []
  entry : ∀ index, state.position? = some index → ∃ entry, Scan polled state index [entry] ∧
          (∀ fd, state.conn? = some fd → entry.fd = fd) ∧
          (state.phase = .accepting index → entry.fd = state.controlFd)
  complete : state.phase = .polling ∨ state.phase = .stopped →
    state.drained = readyFds state.controlFd state.signalFd polled
  fresh : ∀ fd ∈ state.accepted, fd ∉ polled.map PollFd.fd

section Steps

variable {world : DaemonWorld} {polled : List PollFd} {state next : MonitorLoop} {index : Nat}

theorem Scan.leave {entry : PollFd} {phase : LoopPhase} (scan : Scan polled state index [entry]) :
    Scan polled { state with phase := phase } (index + 1) [] := by
  obtain @⟨visited, kept, todo, fresh, split, polls, position, noEvent, drained⟩ := scan
  refine @Scan.mk _ _ _ _ (visited ++ [entry]) (kept ++ [entry]) todo fresh ?_ ?_ ?_ noEvent ?_
  · rw [split, List.append_nil]
  · rw [polls]
    simp
  · rw [List.length_append, position]
    rfl
  · rw [List.append_nil]
    exact drained

theorem Scan.of_sameTable {current : List PollFd} (scan : Scan polled state index current)
    (same : SameTable state next) :
    Scan polled next index current := by
  obtain ⟨split, polls, position, noEvent, drained⟩ := scan
  refine .mk split (same.polls.trans polls) position noEvent ?_
  rw [same.drained, same.controlFd, same.signalFd]
  exact drained

theorem getElem?_scan {kept rest : List PollFd} (polls : state.polls = kept ++ rest)
    (position : kept.length = index) :
    state.polls[index]? = rest.head? := by
  rw [polls, List.getElem?_append_right (Nat.le_of_eq position),
    position, Nat.sub_self, List.head?_eq_getElem?]

/-- A connection is dropped at the position of the scan. -/
theorem Scan.drop {entry : PollFd} (scan : Scan polled state index [entry])
    (nodup : state.pollFds.Nodup) :
    Scan polled (state.dropConn index entry.fd) index [] := by
  obtain @⟨visited, kept, todo, fresh, split, polls, position, noEvent, drained⟩ := scan
  refine @Scan.mk _ _ _ _ (visited ++ [entry]) kept todo fresh ?_ ?_ position noEvent ?_
  · rw [split, List.append_nil]
  · change state.polls.eraseP _ = _
    have absent : ∀ other ∈ kept, ¬ decide (other.fd = entry.fd) = true := by
      intro other member same
      rw [pollFds, polls, List.map_append, List.nodup_append] at nodup
      refine nodup.2.2 other.fd (List.mem_map_of_mem member) entry.fd ?_ (of_decide_eq_true same)
      exact List.mem_map_of_mem (by simp)
    rw [polls, List.eraseP_append_right _ absent, List.cons_append,
      List.cons_append, List.eraseP_cons_of_pos (by simp)]
  · rw [List.append_nil]
    exact drained

/-- What the scan finds at its position. -/
inductive Ahead
    (polled : List PollFd)
    (state : MonitorLoop)
    (index : Nat) : Prop where
  | finished : state.polls[index]? = none →
      state.drained = readyFds state.controlFd state.signalFd polled → Ahead polled state index
  | late {entry : PollFd} : state.polls[index]? = some entry → entry.revents = 0 →
      (∀ phase, Scan polled { state with phase := phase } (index + 1) []) → Ahead polled state index
  | reached {entry : PollFd} : state.polls[index]? = some entry →
      (∀ phase drained, drained = state.drained ++ readyFds state.controlFd state.signalFd [entry] →
        Scan polled { state with phase := phase, drained := drained } index [entry]) →
      Ahead polled state index

/-- The entries that `poll` has filled in come first, then the new ones. -/
theorem Scan.ahead (scan : Scan polled state index []) : Ahead polled state index := by
  obtain @⟨visited, kept, todo, fresh, split, polls, position, noEvent, drained⟩ := scan
  rw [List.append_nil] at split drained
  have found := getElem?_scan polls position
  cases todo with
  | nil =>
    rw [List.append_nil] at split
    subst split
    cases fresh with
    | nil => exact .finished found drained
    | cons entry others =>
      refine .late found (noEvent entry List.mem_cons_self) ?_
      intro phase
      refine @Scan.mk _ _ _ _ polled (kept ++ [entry]) [] others ?_ ?_ ?_ ?_ ?_
      · simp
      · rw [polls]
        simp
      · rw [List.length_append, position]
        rfl
      · intro late member
        exact noEvent late (List.mem_cons_of_mem _ member)
      · rw [List.append_nil]
        exact drained
  | cons entry others =>
    refine .reached found ?_
    intro phase after read
    refine @Scan.mk _ _ _ _ visited kept others fresh ?_ ?_ position noEvent ?_
    · rw [split, List.append_assoc, List.singleton_append]
    · rw [polls]
      simp
    · rw [readyFds_append, ← drained]
      exact read

/-- The head of the scan. -/
theorem Round.visit (round : Round polled state) (phase : state.phase = .scanning index) :
    Round polled (state.visit index) := by
  unfold MonitorLoop.visit
  cases (round.scanning index phase).ahead with
  | finished found drained =>
    rw [found]
    cases state.running with
    | true | false => exact ⟨round.front, round.nodup, nofun, nofun, fun _ => drained, round.fresh⟩
  | late found quiet scan =>
    rw [found]
    dsimp only
    rw [if_pos quiet]
    refine ⟨round.front, round.nodup, ?_, nofun, nofun, round.fresh⟩
    intro other isScanning
    cases isScanning
    exact scan _
  | @reached entry found scan =>
    rw [found]
    dsimp only
    have skip
        (notReady : ¬ (entry.revents ≠ 0 ∧ entry.fd ≠ state.controlFd ∧ entry.fd ≠ state.signalFd))
        (phase : LoopPhase) :
        Scan polled { state with phase := phase } index [entry] := by
      refine scan phase state.drained ?_
      rw [readyFds_singleton_of_not notReady, List.append_nil]
    split
    · rename_i quiet
      have skipped := skip (fun ready => ready.1 quiet) state.phase
      refine ⟨round.front, round.nodup, ?_, nofun, nofun, round.fresh⟩
      intro other isScanning
      cases isScanning
      exact skipped.leave
    · rename_i hasEvent
      split
      · rename_i isControl
        have skipped := skip fun ready => ready.2.1 isControl
        refine ⟨round.front, round.nodup, nofun, ?_, nofun, round.fresh⟩
        intro other isEntry
        cases isEntry
        exact ⟨entry, skipped _, nofun, fun _ => isControl⟩
      · rename_i notControl
        split
        · rename_i isSignal
          have skipped := skip fun ready => ready.2.2 isSignal
          refine ⟨round.front, round.nodup, nofun, ?_, nofun, round.fresh⟩
          intro other isEntry
          cases isEntry
          exact ⟨entry, skipped _, nofun, nofun⟩
        · rename_i notSignal
          have ready := readyFds_singleton ⟨hasEvent, notControl, notSignal⟩
          refine ⟨round.front, round.nodup, nofun, ?_, nofun, round.fresh⟩
          intro other isEntry
          cases isEntry
          refine ⟨entry, scan _ _ (by rw [ready]), ?_, nofun⟩
          intro fd isConn
          cases isConn
          rfl

/-- A client that is accepted is none of those that `poll` has looked at. -/
theorem Round.addConn {fd : Int} (round : Round polled state)
    (phase : state.phase = .accepting index) (listed : state.Listed) (absent : fd ∉ state.ctlConns)
    (notControl : fd ≠ state.controlFd) (notSignal : fd ≠ state.signalFd) :
    Round polled (state.addConn fd) := by
  have entered : state.position? = some index := by rw [position?, phase]
  obtain ⟨entry, scan, isConn, isControl⟩ := round.entry index entered
  obtain @⟨visited, kept, todo, fresh, split, polls, position, noEvent, drained⟩ := scan
  have first : visited = [] := by
    cases visited with
    | nil => rfl
    | cons earlier others =>
      have nodup := round.nodup
      have front := round.front
      rw [split] at nodup front
      simp only [List.cons_append, List.map_cons, List.take_succ_cons,
        List.cons.injEq] at nodup front
      have twice : earlier.fd ∈ (others ++ [entry] ++ todo).map PollFd.fd := by
        rw [front.1, ← isControl phase]
        exact List.mem_map_of_mem (by simp)
      exact absurd twice (List.nodup_cons.mp nodup).1
  have notPolled : fd ∉ polled.map PollFd.fd := by
    intro member
    have listedFd : fd ∈ state.pollFds := by
      rw [split, first] at member
      rw [pollFds, polls]
      simp only [List.nil_append, List.map_append, List.mem_append] at member ⊢
      exact .inr (.inl member)
    exact absent (listed.mem_conns listedFd notControl notSignal)
  refine ⟨round.front, round.nodup, ?_, ?_, ?_, ?_⟩
  · intro other isScanning
    cases phase.symm.trans isScanning
  · intro other isEntry
    cases entered.symm.trans isEntry
    refine ⟨entry, ?_, isConn, isControl⟩
    refine @Scan.mk _ _ _ _ visited kept todo (fresh ++ [⟨fd, 0⟩]) split ?_ position ?_ drained
    · change state.polls ++ [_] = _
      rw [polls]
      simp
    · intro late member
      rcases List.mem_append.mp member with old | isNew
      · exact noEvent late old
      · rw [List.mem_singleton.mp isNew]
  · rintro (isPolling | isStopped)
    · cases phase.symm.trans isPolling
    · cases phase.symm.trans isStopped
  · intro other member
    rcases List.mem_append.mp member with old | isNew
    · exact round.fresh other old
    · rw [List.mem_singleton.mp isNew]
      exact notPolled

variable {action : LoopAction}

/-- A step of the round behind `poll`. -/
theorem Round.step (round : Round polled state) (invariant : state.Invariant)
    (notPolling : state.phase ≠ .polling) (stepped : state.step? world action = some next) :
    Round polled next := by
  cases effect_of_step invariant.conn stepped with
  | poll _ phase _ => exact absurd phase notPolling
  | visit index phase same =>
    subst same
    exact round.visit phase
  | stay index entered stays sameConn sameLoop same =>
    obtain ⟨entry, scan, isConn, isControl⟩ := round.entry index entered
    refine ⟨?_, round.nodup, ?_, ?_, ?_, ?_⟩
    · rw [same.controlFd, same.signalFd]
      exact round.front
    · intro other isScanning
      rw [position?, isScanning] at stays
      cases stays
    · intro other isEntry
      cases stays.symm.trans isEntry
      refine ⟨entry, scan.of_sameTable same, ?_, ?_⟩
      · intro fd conn
        exact isConn fd (sameConn.symm.trans conn)
      · intro isAccepting
        rw [same.controlFd]
        exact isControl (sameLoop isAccepting)
    · rintro (isPolling | isStopped)
      · rw [position?, isPolling] at stays
        cases stays
      · rw [position?, isStopped] at stays
        cases stays
    · rw [same.accepted]
      exact round.fresh
  | leave index entered same =>
    subst same
    obtain ⟨entry, scan, _, _⟩ := round.entry index entered
    refine ⟨round.front, round.nodup, ?_, ?_, ?_, round.fresh⟩
    · intro other isScanning
      cases isScanning
      exact scan.leave
    · intro other isEntry
      cases isEntry
    · rintro (isPolling | isStopped)
      · cases isPolling
      · cases isStopped
  | addConn index fd phase absent notControl notSignal same =>
    subst same
    exact round.addConn phase invariant.listed absent notControl notSignal
  | drop index fd before entered conn same isDropped =>
    subst isDropped
    obtain ⟨entry, scan, isConn, _⟩ := round.entry index entered
    obtain rfl := isConn fd conn
    have listed := invariant.listed.of_sameTable same
    refine ⟨?_, round.nodup, ?_, ?_, ?_, ?_⟩
    · change _ = [before.controlFd, before.signalFd]
      rw [same.controlFd, same.signalFd]
      exact round.front
    · intro other isScanning
      cases isScanning
      exact (scan.of_sameTable same).drop listed.nodup
    · intro other isEntry
      cases isEntry
    · rintro (isPolling | isStopped)
      · cases isPolling
      · cases isStopped
    · intro other member
      change other ∈ before.accepted at member
      rw [same.accepted] at member
      exact round.fresh other member

theorem ne_polling_of_step (stepped : state.step? world action = some next)
    (notPoll : ∀ outcome, action ≠ .poll outcome) :
    state.phase ≠ .polling := by
  intro phase
  unfold step? at stepped
  rw [phase] at stepped
  cases action with
  | poll outcome => exact notPoll outcome rfl
  | next | accept4 _ | readSignal _ | read _ | serve _ => cases stepped

/-- The rest of a round, by induction over its steps. -/
theorem Round.run {body : List LoopAction} {final : MonitorLoop} (round : Round polled state)
    (invariant : state.Invariant) (noPoll : ∀ outcome, LoopAction.poll outcome ∉ body)
    (accepted : run? (step? world) state body = some final) :
    Round polled final ∧ final.Invariant := by
  induction body generalizing state with
  | nil =>
    cases accepted
    exact ⟨round, invariant⟩
  | cons action rest inductionHypothesis =>
    obtain ⟨next, stepped, remaining⟩ := run?_cons_eq_some.mp accepted
    have notPolling : state.phase ≠ .polling := by
      refine ne_polling_of_step stepped ?_
      rintro outcome rfl
      exact noPoll outcome List.mem_cons_self
    refine inductionHypothesis (round.step invariant notPolling stepped)
      (invariant.step stepped) ?_ remaining
    intro outcome member
    exact noPoll outcome (List.mem_cons_of_mem _ member)

/-- A step keeps the gauge at the number of connections. -/
theorem GaugeExact.step (gauge : state.GaugeExact) (invariant : state.Invariant)
    (stepped : state.step? world action = some next) :
    next.GaugeExact := by
  cases effect_of_step invariant.conn stepped with
  | poll outcome _ same =>
    subst same
    cases outcome with
    | eintr | failed | ready _ => exact gauge
  | visit index _ same =>
    obtain ⟨phase, drained, changed⟩ := visit_eq state index
    rw [same, changed]
    exact gauge
  | stay _ _ _ _ _ same =>
    unfold GaugeExact size
    rw [same.ctlActive, same.keys.length_eq]
    exact gauge
  | leave _ _ same =>
    subst same
    exact gauge
  | addConn _ _ _ _ _ _ same | drop _ _ _ _ _ _ same =>
    subst same
    rfl

end Steps

/-- The connections behind the first two entries whose `revents` is not zero. -/
def ready (state : MonitorLoop) (revents : Nat → UInt16) : List Int :=
  (((state.polled (.ready revents)).polls.drop 2).filter fun entry =>
    entry.revents ≠ 0).map PollFd.fd

section Rounds

variable {world : DaemonWorld} {start final : MonitorLoop} {revents : Nat → UInt16}

/-- What the scan drains is what `poll` reports behind the first two entries. -/
theorem Listed.readyFds_eq (listed : start.Listed) (revents : Nat → UInt16) :
    readyFds start.controlFd start.signalFd
      (start.polled (.ready revents)).polls = start.ready revents := by
  have fds := pollFds_polled start (.ready revents)
  rw [listed.front, pollFds] at fds
  unfold ready
  generalize (start.polled (.ready revents)).polls = polled at fds ⊢
  obtain ⟨first, behindFirst, rfl, isControl, fds⟩ := List.map_eq_cons_iff.mp fds
  obtain ⟨second, rest, rfl, isSignal, behind⟩ := List.map_eq_cons_iff.mp fds
  have others : ∀ entry ∈ rest, (decide (entry.revents ≠ 0 ∧ entry.fd ≠ start.controlFd ∧
          entry.fd ≠ start.signalFd)) = decide (entry.revents ≠ 0) := by
    intro entry member
    have isConn : entry.fd ∈ start.ctlConns := by
      refine listed.conns.mem_iff.mp ?_
      rw [← behind]
      exact List.mem_map_of_mem member
    simp [listed.ne_of_mem isConn]
  rw [readyFds, List.filter_cons_of_neg (by simp [isControl]),
    List.filter_cons_of_neg (by simp [isSignal]), List.filter_congr others]
  rfl

theorem ready_sublist (start : MonitorLoop) (revents : Nat → UInt16) :
    (start.ready revents).Sublist ((start.polled (.ready revents)).polls.map PollFd.fd) :=
  (List.filter_sublist.trans (List.drop_sublist 2 _)).map _

theorem Listed.round (listed : start.Listed) (revents : Nat → UInt16) :
    Round (start.polled (.ready revents)).polls (start.polled (.ready revents)) := by
  have fds := pollFds_polled start (.ready revents)
  refine ⟨?_, ?_, ?_, nofun, nofun, nofun⟩
  · change (start.polled (.ready revents)).pollFds.take 2 = _
    rw [fds, listed.front]
    rfl
  · change (start.polled (.ready revents)).pollFds.Nodup
    rw [fds]
    exact listed.nodup
  · intro index isScanning
    cases isScanning
    refine @Scan.mk _ _ _ _ [] [] (start.polled (.ready revents)).polls [] rfl ?_ rfl nofun rfl
    rw [List.nil_append, List.nil_append, List.append_nil]

theorem Listed.invariant (listed : start.Listed) (polling : start.phase = .polling) :
    start.Invariant := by
  refine ⟨listed, ?_⟩
  intro fd conn
  rw [conn?, polling] at conn
  cases conn

theorem listed_initial (daemon : Daemon) {controlFd signalFd : Int} (apart : controlFd ≠ signalFd) :
    (initial daemon controlFd signalFd).Listed :=
  ⟨rfl, List.Perm.refl _, apart, List.not_mem_nil, List.not_mem_nil⟩

theorem Invariant.run {actions : List LoopAction} (invariant : start.Invariant)
    (accepted : run? (step? world) start actions = some final) :
    final.Invariant ∧ (start.GaugeExact → final.GaugeExact) := by
  induction actions generalizing start with
  | nil =>
    cases accepted
    exact ⟨invariant, id⟩
  | cons action rest inductionHypothesis =>
    obtain ⟨next, stepped, remaining⟩ := run?_cons_eq_some.mp accepted
    obtain ⟨kept, gauge⟩ := inductionHypothesis (invariant.step stepped) remaining
    exact ⟨kept, fun before => gauge (before.step invariant stepped)⟩

/--
A round that starts with `polls` listing the table: every control connection with
an event is drained once, in the order of `polls`, and no other descriptor is
drained, in particular none that is accepted in the round.  At its end `polls`
lists the table again, and the gauge still shows the number of connections.  Every
state that the monitor reaches is one from which a round may start so.
-/
theorem round_drains_ready_once
    (world : DaemonWorld) :
    (∀ start final revents body,
      start.phase = .polling →
      start.Listed →
      run? (step? world) start (.poll (.ready revents) :: body) = some final →
      (∀ outcome, LoopAction.poll outcome ∉ body) →
      final.phase = .polling ∨ final.phase = .stopped →
      final.drained = start.ready revents ∧
      final.drained.Nodup ∧
      (∀ fd ∈ final.accepted, fd ∉ final.drained) ∧
      final.Listed ∧
      (start.GaugeExact → final.GaugeExact)) ∧
      ∀ daemon controlFd signalFd history state,
        controlFd ≠ signalFd →
        run? (step? world) (initial daemon controlFd signalFd) history = some state →
        state.Listed ∧ state.GaugeExact := by
  refine ⟨?_, ?_⟩
  · intro start final revents body polling listed accepted noPoll ended
    have invariant := listed.invariant polling
    obtain ⟨kept, gauge⟩ := invariant.run accepted
    obtain ⟨next, stepped, remaining⟩ := run?_cons_eq_some.mp accepted
    have isPolled : next = start.polled (.ready revents) := by
      unfold step? at stepped
      rw [polling] at stepped
      exact (Option.some.inj stepped).symm
    subst isPolled
    obtain ⟨round, _⟩ := (listed.round revents).run (invariant.step stepped) noPoll remaining
    have sameFront : [final.controlFd, final.signalFd] = [start.controlFd, start.signalFd] :=
      round.front.symm.trans (listed.round revents).front
    rw [List.cons.injEq, List.cons.injEq] at sameFront
    obtain ⟨sameControl, sameSignal, _⟩ := sameFront
    have drained : final.drained = start.ready revents := by
      rw [round.complete ended, sameControl, sameSignal, listed.readyFds_eq revents]
    refine ⟨drained, ?_, ?_, kept.listed, gauge⟩
    · rw [drained]
      exact round.nodup.sublist (ready_sublist start revents)
    · intro fd isNew member
      refine round.fresh fd isNew ?_
      rw [drained] at member
      exact (ready_sublist start revents).subset member
  · intro daemon controlFd signalFd history state apart accepted
    have listed := listed_initial daemon apart
    obtain ⟨kept, gauge⟩ := (listed.invariant rfl).run accepted
    exact ⟨kept.listed, gauge rfl⟩

/-- The control socket and the connection 7 have an event. -/
def controlAndConn (index : Nat) : UInt16 := if index = 1 then 0 else 1

/-- A client is accepted as 9, and the connection 7 is at its end. -/
def newAndClosed : List LoopAction :=
  [.next, .accept4 (.client 9 false), .accept4 .again, .next, .next,
    .read .endOfStream, .next, .next]

/-- The connection is drained and closed, and the new client is left for later. -/
theorem round_with_new_client :
    ∃ final,
      run? (step? DaemonWorld.quiet) ((initial Daemon.started 3 4).addConn 7)
          (.poll (.ready controlAndConn) :: newAndClosed) =
        some final ∧
      final.accepted = [9] ∧
      final.drained = ((initial Daemon.started 3 4).addConn 7).ready controlAndConn ∧
      final.Listed ∧
      final.GaugeExact := by
  obtain ⟨final, reached, ended, accepted⟩ :=
    exists_reached_of_check (step? DaemonWorld.quiet)
      ((initial Daemon.started 3 4).addConn 7)
      (.poll (.ready controlAndConn) :: newAndClosed)
      (fun state => state.phase = .polling ∧ state.accepted = [9])
      (by decide)
  have listed : ((initial Daemon.started 3 4).addConn 7).Listed :=
    (listed_initial Daemon.started (by decide)).addConn List.not_mem_nil (by decide) (by decide)
  have noPoll : ∀ outcome, LoopAction.poll outcome ∉ newAndClosed := by simp [newAndClosed]
  obtain ⟨drained, _, _, kept, gauge⟩ :=
    (round_drains_ready_once DaemonWorld.quiet).1 _ final controlAndConn
      newAndClosed rfl listed reached noPoll (.inl ended)
  exact ⟨final, reached, accepted, drained, kept, gauge rfl⟩

end Rounds

end SocksDirect.MonitorLoop
