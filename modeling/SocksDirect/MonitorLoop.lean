import Mathlib.Data.List.AList
import SocksDirect.CtlAuthority
import SocksDirect.CtlConnection

namespace SocksDirect

open Function

/-!
# The event loop of the monitor

The loop of `main` in `src/monitor/main.cpp` with `drain_ctl_conn` and
`close_ctl_conn`: `poll`, the scan over `polls` with its accept loop and its
signals, and for every other descriptor the reads, the lines and the answers.
Every system call is one step, and the action says what the call returns.

`drained` and `accepted` list the descriptors that have been drained and accepted
since the last `poll`, and `answers` all responses that have been written; the
source does not keep them.
-/

open ByteText MonitorIpc

/-- `pollfd`; every entry asks for `POLLIN`. -/
structure PollFd where
  fd : Int
  revents : UInt16
  deriving Repr, DecidableEq

/-- Where the loop stands; `index` is the position in `polls`. -/
inductive LoopPhase where
  | polling
  | scanning (index : Nat)
  | accepting (index : Nat)
  | signalled (index : Nat)
  | reading (index : Nat) (fd : Int)
  | cutting (index : Nat) (fd : Int)
  | stopped
  deriving Repr, DecidableEq

/-- `poll` returns, with `revents` for every position. -/
inductive PollOutcome where
  | eintr
  | failed
  | ready (revents : Nat → UInt16)

/--
`accept4` returns.  While the monitor is draining, `written` says whether
`write_all` delivers the refusal.
-/
inductive AcceptOutcome where
  | client (fd : Int) (written : Bool)
  | eintr
  | again
  | failed
  deriving Repr, DecidableEq

/-- `read` of the signal descriptor; `SIGHUP` reads the configuration again. -/
inductive SignalOutcome where
  | terminate
  | hangUp (seen : RequestWorld)
  | pipe
  | nothing

/-- `read` of a control connection. -/
inductive ReadOutcome where
  | chunk (bytes : Text)
  | eintr
  | again
  | endOfStream
  | failed
  deriving Repr, DecidableEq

/-- One step of the loop. -/
inductive LoopAction where
  | poll (outcome : PollOutcome)
  | next
  | accept4 (outcome : AcceptOutcome)
  | readSignal (outcome : SignalOutcome)
  | read (outcome : ReadOutcome)
  | serve (written : Bool)

/-- `Daemon` with its connections, and the locals of the loop. -/
structure MonitorLoop where
  daemon : Daemon
  controlFd : Int
  signalFd : Int
  ctlConns : AList fun _ : Int => Text
  polls : List PollFd
  running : Bool
  phase : LoopPhase
  drained : List Int
  accepted : List Int
  answers : List CtlResponse

namespace MonitorLoop

/-- Before the first `poll`. -/
def initial (daemon : Daemon) (controlFd signalFd : Int) : MonitorLoop where
  daemon := { daemon with ctlConns := 0, ctlActive := 0, ctlErrors := 0 }
  controlFd := controlFd
  signalFd := signalFd
  ctlConns := ∅
  polls := [⟨controlFd, 0⟩, ⟨signalFd, 0⟩]
  running := true
  phase := .polling
  drained := []
  accepted := []
  answers := []

/-- The number of connections. -/
def size (state : MonitorLoop) : Nat := state.ctlConns.keys.length

/-- The connections change, and `m_ctl_active` is set to their number. -/
def withConns (state : MonitorLoop) (conns : AList fun _ : Int => Text) : MonitorLoop :=
  { state with
    ctlConns := conns
    daemon := { state.daemon with ctlConns := conns.keys.length, ctlActive := conns.keys.length } }

/-- `close_ctl_conn`. -/
def closeCtlConn (state : MonitorLoop) (fd : Int) : MonitorLoop :=
  { state.withConns (state.ctlConns.erase fd) with
    polls := state.polls.eraseP fun entry => entry.fd = fd }

/-- The loop closes a connection and goes on with the entry behind it. -/
def dropConn (state : MonitorLoop) (index : Nat) (fd : Int) : MonitorLoop :=
  { state.closeCtlConn fd with phase := .scanning index }

/-- The buffer of a connection. -/
def bufOf (state : MonitorLoop) (fd : Int) : Text := (state.ctlConns.lookup fd).getD []

/-- The buffer of a connection changes. -/
def setBuf (state : MonitorLoop) (fd : Int) (buf : Text) : MonitorLoop :=
  { state with ctlConns := state.ctlConns.insert fd buf }

/-- `poll`, behind the loop that clears `revents`. -/
def polled (state : MonitorLoop) : PollOutcome → MonitorLoop
  | .eintr => { state with polls := state.polls.map fun entry => { entry with revents := 0 } }
  | .failed =>
    { state with
      polls := state.polls.map fun entry => { entry with revents := 0 }
      phase := .stopped }
  | .ready revents =>
    { state with
      polls := state.polls.mapIdx fun index entry => { entry with revents := revents index }
      phase := .scanning 0
      drained := []
      accepted := [] }

/-- The head of the scan over `polls`. -/
def visit (state : MonitorLoop) (index : Nat) : MonitorLoop :=
  match state.polls[index]? with
  | none => { state with phase := if state.running then .polling else .stopped }
  | some entry =>
    if entry.revents = 0 then
      { state with phase := .scanning (index + 1) }
    else if entry.fd = state.controlFd then
      { state with phase := .accepting index }
    else if entry.fd = state.signalFd then
      { state with phase := .signalled index }
    else
      { state with phase := .reading index entry.fd, drained := state.drained ++ [entry.fd] }

/-- A client is entered into the table and into `polls`. -/
def addConn (state : MonitorLoop) (fd : Int) : MonitorLoop :=
  { state.withConns (state.ctlConns.insert fd []) with
    polls := state.polls ++ [⟨fd, 0⟩]
    accepted := state.accepted ++ [fd] }

/-- A client is refused. -/
def refuse (state : MonitorLoop) (written : Bool) : MonitorLoop :=
  if written then
    { state with answers := state.answers ++ [Daemon.errorResponse (ascii "draining")] }
  else
    state

/-- One `accept4`; the descriptor is one that is not open. -/
def accept? (state : MonitorLoop) (index : Nat) : AcceptOutcome → Option MonitorLoop
  | .client fd written =>
    if fd ∈ state.ctlConns ∨ fd = state.controlFd ∨ fd = state.signalFd then
      none
    else if state.daemon.draining then some (state.refuse written) else some (state.addConn fd)
  | .eintr => some state
  | .again => some { state with phase := .scanning (index + 1) }
  | .failed => some { state with phase := .scanning (index + 1) }

/-- One `read` of the signal descriptor. -/
def signal (state : MonitorLoop) (index : Nat) : SignalOutcome → MonitorLoop
  | .terminate => { state with running := false }
  | .hangUp seen => { state with daemon := (state.daemon.opReload seen).1 }
  | .pipe => state
  | .nothing => { state with phase := .scanning (index + 1) }

/-- One `read` of a connection. -/
def read? (state : MonitorLoop) (index : Nat) (fd : Int) : ReadOutcome → Option MonitorLoop
  | .chunk bytes =>
    if bytes = [] ∨ CtlConnection.chunkLimit < bytes.length then
      none
    else
      let buf := state.bufOf fd ++ bytes
      if buf.length > CtlConnection.bufLimit then
        some ((state.setBuf fd buf).dropConn index fd)
      else
        some { state.setBuf fd buf with phase := .cutting index fd }
  | .eintr => some state
  | .again => some { state with phase := .scanning (index + 1) }
  | .endOfStream => some (state.dropConn index fd)
  | .failed => some (state.dropConn index fd)

/-- One round of the line loop; `written` says whether `write_all` succeeds. -/
def serve (world : DaemonWorld) (state : MonitorLoop) (index : Nat) (fd : Int)
    (written : Bool) : MonitorLoop :=
  match nextLine? (state.bufOf fd) with
  | none => { state with phase := .reading index fd }
  | some (line, rest) =>
    let served := state.daemon.serveLine world line
    let after := { state.setBuf fd rest with daemon := served.1 }
    if written then
      { after with answers := after.answers ++ [served.2] }
    else
      after.dropConn index fd

/-- One step of the loop. -/
def step? (world : DaemonWorld) (state : MonitorLoop) (action : LoopAction) : Option MonitorLoop :=
  match state.phase, action with
  | .polling, .poll outcome => some (state.polled outcome)
  | .scanning index, .next => some (state.visit index)
  | .accepting index, .accept4 outcome => state.accept? index outcome
  | .signalled index, .readSignal outcome => some (state.signal index outcome)
  | .reading index fd, .read outcome => state.read? index fd outcome
  | .cutting index fd, .serve written => some (state.serve world index fd written)
  | _, _ => none

/-- The descriptors of `polls`. -/
def pollFds (state : MonitorLoop) : List Int := state.polls.map PollFd.fd

/--
`polls` holds the control socket, the signal descriptor and, behind them, exactly
the descriptors of the table, each once.
-/
structure Listed (state : MonitorLoop) : Prop where
  front : state.pollFds = state.controlFd :: state.signalFd :: state.pollFds.drop 2
  conns : (state.pollFds.drop 2).Perm state.ctlConns.keys
  apart : state.controlFd ≠ state.signalFd
  controlFd : state.controlFd ∉ state.ctlConns
  signalFd : state.signalFd ∉ state.ctlConns

/-- The gauge `m_ctl_active` shows the number of connections. -/
def GaugeExact (state : MonitorLoop) : Prop := state.daemon.ctlActive = state.size

section Tables

variable {state next : MonitorLoop}

theorem Listed.nodup (listed : state.Listed) : state.pollFds.Nodup := by
  have notListed {fd : Int} (absent : fd ∉ state.ctlConns) : fd ∉ state.pollFds.drop 2 := by
    intro member
    exact absent (listed.conns.mem_iff.mp member)
  rw [listed.front, List.nodup_cons, List.nodup_cons, List.mem_cons, not_or]
  exact ⟨⟨listed.apart, notListed listed.controlFd⟩, notListed listed.signalFd,
    listed.conns.nodup_iff.mpr state.ctlConns.keys_nodup⟩

theorem Listed.mem_conns {fd : Int} (listed : state.Listed) (member : fd ∈ state.pollFds)
    (notControl : fd ≠ state.controlFd) (notSignal : fd ≠ state.signalFd) :
    fd ∈ state.ctlConns := by
  rw [listed.front, List.mem_cons, List.mem_cons] at member
  rcases member with isControl | isSignal | inside
  · exact absurd isControl notControl
  · exact absurd isSignal notSignal
  · exact listed.conns.mem_iff.mp inside

/-- A change that concerns neither `polls` nor the keys of the table. -/
theorem Listed.congr (listed : state.Listed) (fds : next.pollFds = state.pollFds)
    (keys : next.ctlConns.keys.Perm state.ctlConns.keys)
    (sameControl : next.controlFd = state.controlFd) (sameSignal : next.signalFd = state.signalFd) :
    next.Listed := by
  have absent {fd : Int} (before : fd ∉ state.ctlConns) : fd ∉ next.ctlConns := by
    intro member
    exact before (keys.mem_iff.mp member)
  refine ⟨?_, ?_, ?_, ?_, ?_⟩
  · rw [fds, sameControl, sameSignal]
    exact listed.front
  · rw [fds]
    exact listed.conns.trans keys.symm
  · rw [sameControl, sameSignal]
    exact listed.apart
  · rw [sameControl]
    exact absent listed.controlFd
  · rw [sameSignal]
    exact absent listed.signalFd

theorem keys_setBuf {fd : Int} (member : fd ∈ state.ctlConns) (buf : Text) :
    (state.setBuf fd buf).ctlConns.keys.Perm state.ctlConns.keys := by
  rw [setBuf, AList.keys_insert]
  exact (List.perm_cons_erase member).symm

/-- A new client. -/
theorem Listed.addConn {fd : Int} (listed : state.Listed) (fresh : fd ∉ state.ctlConns)
    (notControl : fd ≠ state.controlFd) (notSignal : fd ≠ state.signalFd) :
    (state.addConn fd).Listed := by
  have fds : (state.addConn fd).pollFds = state.pollFds ++ [fd] := by
    simp [MonitorLoop.addConn, pollFds]
  have keys : (state.addConn fd).ctlConns.keys = fd :: state.ctlConns.keys := by
    change (state.ctlConns.insert fd []).keys = _
    rw [AList.keys_insert, List.erase_of_not_mem fresh]
  have behind : (state.addConn fd).pollFds.drop 2 = state.pollFds.drop 2 ++ [fd] := by
    rw [fds]
    conv_lhs => rw [listed.front]
    rfl
  have absent
      {other : Int}
      (before : other ∉ state.ctlConns)
      (different : fd ≠ other) :
      other ∉ (state.addConn fd).ctlConns := by
    rw [AList.mem_keys, keys, List.mem_cons, not_or]
    exact ⟨Ne.symm different, before⟩
  refine ⟨?_, ?_, listed.apart, absent listed.controlFd notControl,
    absent listed.signalFd notSignal⟩
  · rw [behind, fds]
    conv_lhs => rw [listed.front]
    rfl
  · rw [behind, keys]
    exact (List.perm_append_singleton fd _).trans (listed.conns.cons fd)

/-- A connection that is closed. -/
theorem Listed.closeCtlConn {fd : Int} (listed : state.Listed) (notControl : fd ≠ state.controlFd)
    (notSignal : fd ≠ state.signalFd) : (state.closeCtlConn fd).Listed := by
  have fds : (state.closeCtlConn fd).pollFds = state.pollFds.erase fd := by
    change (state.polls.eraseP _).map PollFd.fd = _
    rw [pollFds, List.erase_eq_eraseP', List.eraseP_map]
    rfl
  have keys : (state.closeCtlConn fd).ctlConns.keys = state.ctlConns.keys.erase fd := by
    exact AList.keys_erase fd state.ctlConns
  have behind : (state.closeCtlConn fd).pollFds =
        state.controlFd :: state.signalFd :: (state.pollFds.drop 2).erase fd := by
    rw [fds]
    conv_lhs => rw [listed.front]
    rw [List.erase_cons_tail (by simpa using Ne.symm notControl),
      List.erase_cons_tail (by simpa using Ne.symm notSignal)]
  have absent
      {other : Int}
      (before : other ∉ state.ctlConns) :
      other ∉ (state.closeCtlConn fd).ctlConns := by
    rw [AList.mem_keys, keys]
    intro member
    exact before (List.mem_of_mem_erase member)
  refine ⟨?_, ?_, listed.apart, absent listed.controlFd, absent listed.signalFd⟩
  · rw [behind]
    rfl
  · rw [behind, keys]
    exact listed.conns.erase fd

end Tables

/-- The connection that is being drained. -/
def conn? (state : MonitorLoop) : Option Int :=
  match state.phase with
  | .reading _ fd => some fd
  | .cutting _ fd => some fd
  | _ => none

/-- `polls` lists the table, and the connection being drained is in it. -/
structure Invariant (state : MonitorLoop) : Prop where
  listed : state.Listed
  conn : ∀ fd, state.conn? = some fd → fd ∈ state.ctlConns

section Steps

variable {world : DaemonWorld} {state next : MonitorLoop}

theorem Listed.ne_of_mem {fd : Int} (listed : state.Listed) (member : fd ∈ state.ctlConns) :
    fd ≠ state.controlFd ∧ fd ≠ state.signalFd := by
  constructor
  · rintro rfl
    exact listed.controlFd member
  · rintro rfl
    exact listed.signalFd member

/-- Two states with the same `polls`, the same keys and the same record of the round. -/
structure SameTable (state next : MonitorLoop) : Prop where
  polls : next.polls = state.polls
  keys : next.ctlConns.keys.Perm state.ctlConns.keys
  controlFd : next.controlFd = state.controlFd
  signalFd : next.signalFd = state.signalFd
  ctlActive : next.daemon.ctlActive = state.daemon.ctlActive
  drained : next.drained = state.drained
  accepted : next.accepted = state.accepted

/-- The entry of `polls` that the loop is at work on. -/
def position? (state : MonitorLoop) : Option Nat :=
  match state.phase with
  | .accepting index => some index
  | .signalled index => some index
  | .reading index _ => some index
  | .cutting index _ => some index
  | _ => none

/-- What a step does to `polls`, to the table and to the position of the scan. -/
inductive Effect (state next : MonitorLoop) : Prop where
  | poll (outcome : PollOutcome) : state.phase = .polling → next = state.polled outcome →
      Effect state next
  | visit (index : Nat) : state.phase = .scanning index → next = state.visit index →
      Effect state next
  | stay (index : Nat) : state.position? = some index → next.position? = some index →
      next.conn? = state.conn? → (next.phase = .accepting index → state.phase = .accepting index) →
      SameTable state next → Effect state next
  | leave (index : Nat) : state.position? = some index →
      next = { state with phase := .scanning (index + 1) } → Effect state next
  | addConn (index : Nat) (fd : Int) : state.phase = .accepting index → fd ∉ state.ctlConns →
      fd ≠ state.controlFd → fd ≠ state.signalFd → next = state.addConn fd → Effect state next
  | drop (index : Nat) (fd : Int) (before : MonitorLoop) : state.position? = some index →
      state.conn? = some fd → SameTable state before → next = before.dropConn index fd →
      Effect state next

theorem sameTable_setBuf {fd : Int} (member : fd ∈ state.ctlConns) (buf : Text) :
    SameTable state (state.setBuf fd buf) :=
  ⟨rfl, keys_setBuf member buf, rfl, rfl, rfl, rfl, rfl⟩

/-- One `read` of a connection. -/
theorem effect_of_read {index : Nat} {fd : Int} {outcome : ReadOutcome}
    (phase : state.phase = .reading index fd) (member : fd ∈ state.ctlConns)
    (read : state.read? index fd outcome = some next) :
    Effect state next := by
  have entry : state.position? = some index := by rw [position?, phase]
  have conn : state.conn? = some fd := by rw [conn?, phase]
  have same : SameTable state state := ⟨rfl, List.Perm.refl _, rfl, rfl, rfl, rfl, rfl⟩
  cases outcome with
  | chunk bytes =>
    rw [read?, Option.ite_none_left_eq_some] at read
    obtain ⟨_, received⟩ := read
    have buffered := sameTable_setBuf member (state.bufOf fd ++ bytes)
    dsimp only at received
    split at received
    · cases received
      exact .drop index fd _ entry conn buffered rfl
    · cases received
      exact .stay index entry rfl conn.symm nofun ⟨rfl, buffered.keys, rfl, rfl, rfl, rfl, rfl⟩
  | eintr =>
    cases read
    exact .stay index entry entry rfl id same
  | again =>
    cases read
    exact .leave index entry rfl
  | endOfStream | failed =>
    cases read
    exact .drop index fd state entry conn same rfl

/-- One round of the line loop. -/
theorem effect_of_serve {index : Nat} {fd : Int} (phase : state.phase = .cutting index fd)
    (member : fd ∈ state.ctlConns) (written : Bool) :
    Effect state (state.serve world index fd written) := by
  have entry : state.position? = some index := by rw [position?, phase]
  have conn : state.conn? = some fd := by rw [conn?, phase]
  unfold serve
  split
  · exact .stay index entry rfl conn.symm nofun ⟨rfl, List.Perm.refl _, rfl, rfl, rfl, rfl, rfl⟩
  · rename_i line rest _
    have keys := keys_setBuf member rest
    have gauge := Daemon.ctlActive_serveLine world state.daemon line
    cases written with
    | true => exact .stay index entry entry rfl id ⟨rfl, keys, rfl, rfl, gauge, rfl, rfl⟩
    | false =>
      exact .drop index fd
        { state.setBuf fd rest with daemon := (state.daemon.serveLine world line).1 }
        entry conn ⟨rfl, keys, rfl, rfl, gauge, rfl, rfl⟩ rfl

/-- Everything that a step can do. -/
theorem effect_of_step {action : LoopAction}
    (inTable : ∀ fd, state.conn? = some fd → fd ∈ state.ctlConns)
    (stepped : state.step? world action = some next) :
    Effect state next := by
  have same : SameTable state state := ⟨rfl, List.Perm.refl _, rfl, rfl, rfl, rfl, rfl⟩
  revert stepped
  fun_cases step? with (intro stepped; try cases stepped)
  | case1 outcome phase => exact .poll outcome phase rfl
  | case2 index phase => exact .visit index phase rfl
  | case3 index outcome phase =>
    have entry : state.position? = some index := by rw [position?, phase]
    cases outcome with
    | client fd written =>
      rw [accept?, Option.ite_none_left_eq_some, not_or, not_or] at stepped
      obtain ⟨⟨fresh, notControl, notSignal⟩, accepted⟩ := stepped
      split at accepted
      · cases accepted
        cases written with
        | true =>
          exact .stay index entry entry rfl id ⟨rfl, List.Perm.refl _, rfl, rfl, rfl, rfl, rfl⟩
        | false => exact .stay index entry entry rfl id same
      · cases accepted
        exact .addConn index fd phase fresh notControl notSignal rfl
    | eintr =>
      cases stepped
      exact .stay index entry entry rfl id same
    | again | failed =>
      cases stepped
      exact .leave index entry rfl
  | case4 index outcome phase =>
    have entry : state.position? = some index := by rw [position?, phase]
    cases outcome with
    | terminate | hangUp seen =>
      exact .stay index entry entry rfl id ⟨rfl, List.Perm.refl _, rfl, rfl, rfl, rfl, rfl⟩
    | pipe => exact .stay index entry entry rfl id same
    | nothing => exact .leave index entry rfl
  | case5 index fd outcome phase =>
    exact effect_of_read phase (inTable fd (by rw [conn?, phase])) stepped
  | case6 index fd written phase =>
    exact effect_of_serve phase (inTable fd (by rw [conn?, phase])) written

theorem Listed.of_sameTable (listed : state.Listed) (same : SameTable state next) :
    next.Listed := by
  refine listed.congr ?_ same.keys same.controlFd same.signalFd
  rw [pollFds, same.polls]
  rfl

theorem pollFds_polled (state : MonitorLoop) (outcome : PollOutcome) :
    (state.polled outcome).pollFds = state.pollFds := by
  cases outcome with
  | eintr | failed => simp [polled, pollFds, comp_def]
  | ready revents =>
    refine List.ext_getElem? fun index => ?_
    simp [polled, pollFds, List.getElem?_mapIdx, comp_def]

theorem visit_eq (state : MonitorLoop) (index : Nat) :
    ∃ phase drained, state.visit index = { state with phase := phase, drained := drained } := by
  unfold MonitorLoop.visit
  split
  · exact ⟨_, _, rfl⟩
  · split
    · exact ⟨_, _, rfl⟩
    · split
      · exact ⟨_, _, rfl⟩
      · split
        · exact ⟨_, _, rfl⟩
        · exact ⟨_, _, rfl⟩

/-- The head of the scan enters connections of the table only. -/
theorem Listed.visit (listed : state.Listed) (index : Nat) : (state.visit index).Invariant := by
  fun_cases MonitorLoop.visit with
  | case1 =>
    refine ⟨listed.congr rfl (List.Perm.refl _) rfl rfl, ?_⟩
    intro fd conn
    cases running : state.running with
    | true | false => simp [conn?, running] at conn
  | case2 | case3 | case4 => exact ⟨listed.congr rfl (List.Perm.refl _) rfl rfl, nofun⟩
  | case5 entry found _ notControl notSignal =>
    refine ⟨listed.congr rfl (List.Perm.refl _) rfl rfl, ?_⟩
    intro fd conn
    cases conn
    have member : entry.fd ∈ state.pollFds := List.mem_map_of_mem (List.mem_of_getElem? found)
    exact listed.mem_conns member notControl notSignal

/-- A step keeps `polls` and the table together. -/
theorem Invariant.step {action : LoopAction} (invariant : state.Invariant)
    (stepped : state.step? world action = some next) :
    next.Invariant := by
  obtain ⟨listed, inTable⟩ := invariant
  cases effect_of_step inTable stepped with
  | poll outcome phase same =>
    subst same
    have sameFds := pollFds_polled state outcome
    cases outcome with
    | eintr =>
      refine ⟨listed.congr sameFds (List.Perm.refl _) rfl rfl, ?_⟩
      exact inTable
    | failed | ready => exact ⟨listed.congr sameFds (List.Perm.refl _) rfl rfl, nofun⟩
  | visit index phase same =>
    subst same
    exact listed.visit index
  | stay index _ _ sameConn _ same =>
    refine ⟨listed.of_sameTable same, ?_⟩
    intro fd conn
    rw [sameConn] at conn
    exact same.keys.mem_iff.mpr (inTable fd conn)
  | leave index _ same =>
    subst same
    exact ⟨listed.congr rfl (List.Perm.refl _) rfl rfl, nofun⟩
  | addConn index fd phase fresh notControl notSignal same =>
    subst same
    refine ⟨listed.addConn fresh notControl notSignal, ?_⟩
    intro other conn
    change state.conn? = some other at conn
    rw [conn?, phase] at conn
    cases conn
  | drop index fd before _ conn same isDropped =>
    subst isDropped
    have kept := listed.of_sameTable same
    have member : fd ∈ before.ctlConns := same.keys.mem_iff.mpr (inTable fd conn)
    obtain ⟨notControl, notSignal⟩ := kept.ne_of_mem member
    exact ⟨(kept.closeCtlConn notControl notSignal).congr rfl (List.Perm.refl _) rfl rfl, nofun⟩

end Steps

end MonitorLoop

end SocksDirect
