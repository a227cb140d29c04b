import SocksDirect.MachineRun
import SocksDirect.MonitorDaemon

namespace SocksDirect

open Function Machine

/-!
# Who may change the registry

The monitor serves any number of control connections, each opened by one
process.  A step reads bytes of one connection into its buffer or serves one
line of it, as `drain_ctl_conn` of `src/monitor/main.cpp` does; lines of different
connections come in any order.  `reap_pid` of `shm_handshake.hpp` is a step too.

The pid that `shm-register` records is an argument of the request, and
`shm-unregister` looks at nobody.
-/

open ByteText MonitorIpc

/-- A connection and the process that has opened it. -/
structure ClientConn where
  owner : Int32
  buf : Text
  deriving Repr, DecidableEq

/--
The daemon and its connections, and for every pair the processes whose requests
were recorded last as creator and as joiner.
-/
structure ControlPlane where
  daemon : Daemon
  conns : Nat → Option ClientConn
  creatorOrigin : ConnId → Int32
  joinerOrigin : ConnId → Int32

/-- One step of the event loop. -/
inductive ControlAction where
  | accept (fd : Nat) (pid : Int32)
  | receive (fd : Nat) (bytes : Text)
  | serve (fd : Nat)
  | close (fd : Nat)
  | reap (pid : Int32)
  deriving Repr, DecidableEq

/-- The first line of a buffer and what is behind it. -/
def nextLine? (buf : Text) : Option (Text × Text) :=
  match buf.dropWhile (· ≠ 0x0a) with
  | [] => none
  | _ :: rest => some (buf.takeWhile (· ≠ 0x0a), rest)

namespace ControlPlane

/-- A daemon without connections. -/
def initial (daemon : Daemon) : ControlPlane where
  daemon := daemon
  conns := fun _ => none
  creatorOrigin := fun _ => 0
  joinerOrigin := fun _ => 0

/-- The connection, its next line and the rest of its buffer. -/
def pending? (state : ControlPlane) (fd : Nat) : Option (ClientConn × Text × Text) :=
  match state.conns fd with
  | none => none
  | some conn => (nextLine? conn.buf).map fun cut => (conn, cut.1, cut.2)

/-- The entry of a pair. -/
def recorded? (state : ControlPlane) (id : ConnId) : Option HandshakeEntry :=
  state.daemon.shmRegistry.active[id]?

/-- A new connection of a process, unless the daemon is draining. -/
def accept? (state : ControlPlane) (fd : Nat) (pid : Int32) : Option ControlPlane :=
  if state.conns fd ≠ none ∨ pid ≤ 0 then
    none
  else if state.daemon.draining then
    some state
  else
    some
      { state with
        daemon :=
          { state.daemon with
            ctlConns := state.daemon.ctlConns + 1
            ctlActive := state.daemon.ctlConns + 1 }
        conns := update state.conns fd (some ⟨pid, []⟩) }

/-- `close_ctl_conn`. -/
def close (state : ControlPlane) (fd : Nat) : ControlPlane :=
  { state with
    daemon :=
      { state.daemon with
        ctlConns := state.daemon.ctlConns - 1
        ctlActive := state.daemon.ctlConns - 1 }
    conns := update state.conns fd none }

/-- The bytes of one `read`; a client that sends too much is closed. -/
def receive? (state : ControlPlane) (fd : Nat) (bytes : Text) : Option ControlPlane :=
  match state.conns fd with
  | none => none
  | some conn =>
    let buf := conn.buf ++ bytes
    if buf.length > 2 ^ 20 then
      some (state.close fd)
    else
      some { state with conns := update state.conns fd (some { conn with buf := buf }) }

/-- One line of a connection. -/
def serve? (world : DaemonWorld) (state : ControlPlane) (fd : Nat) : Option ControlPlane :=
  match state.pending? fd with
  | none => none
  | some (conn, line, rest) =>
    let served := (state.daemon.serveLine world line).1
    some
      { daemon := served
        conns := update state.conns fd (some { conn with buf := rest })
        creatorOrigin := fun id =>
          if (state.recorded? id).isNone then conn.owner else state.creatorOrigin id
        joinerOrigin := fun id =>
          if (state.recorded? id).map HandshakeEntry.joinerPid =
              (served.shmRegistry.active[id]?).map HandshakeEntry.joinerPid then
            state.joinerOrigin id
          else
            conn.owner }

/-- One step of the event loop, or a call of `reap_pid`. -/
def step? (world : DaemonWorld) (state : ControlPlane) : ControlAction → Option ControlPlane
  | .accept fd pid => state.accept? fd pid
  | .receive fd bytes => state.receive? fd bytes
  | .serve fd => state.serve? world fd
  | .close fd => if state.conns fd = none then none else some (state.close fd)
  | .reap pid =>
    if pid ≤ 0 then
      none
    else
      some
        { state with
          daemon := { state.daemon with shmRegistry := (state.daemon.shmRegistry.reapPid pid).1 } }

/-- The pids of one entry have opened the connections that carried them. -/
def GenuineAt (state : ControlPlane) (id : ConnId) : Prop :=
  ∀ entry, state.recorded? id = some entry → entry.creatorPid = state.creatorOrigin id ∧
      (entry.joinerPid ≠ 0 → entry.joinerPid = state.joinerOrigin id)

/-- Every recorded pid has opened the connection that carried the request. -/
def Genuine (state : ControlPlane) : Prop := ∀ id, state.GenuineAt id

/-- The request of a connection of its own process, or a call of `reap_pid`. -/
def ActsFor (state : ControlPlane) (id : ConnId) (entry : HandshakeEntry) : ControlAction → Prop
  | .serve fd =>
    ∃ conn line rest, state.pending? fd = some (conn, line, rest) ∧
        Daemon.registryOp line = .unregister id ∧ entry.hasPid conn.owner = true
  | .reap pid => entry.hasPid pid = true
  | _ => False

/-- A step removes only what it may remove. -/
def RemovesOwn (world : DaemonWorld) (state : ControlPlane) (action : ControlAction) : Prop :=
  ∀ next, state.step? world action = some next → ∀ id entry, state.recorded? id = some entry →
      next.recorded? id = none → state.ActsFor id entry action

/-- A registration that will be recorded names the process that sends it. -/
def registersSelf (state : ControlPlane) : ControlAction → Bool
  | .serve fd =>
    match state.pending? fd with
    | none => true
    | some (conn, line, _) =>
      match Daemon.registryOp line with
      | .register id pid =>
        match state.recorded? id with
        | none => pid = conn.owner
        | some entry => entry.joinerPid ≠ 0 || pid = conn.owner
      | _ => true
  | _ => true

/-- A removal of an entry is sent by a process that the entry records. -/
def unregistersSelf (state : ControlPlane) : ControlAction → Bool
  | .serve fd =>
    match state.pending? fd with
    | none => true
    | some (conn, line, _) =>
      match Daemon.registryOp line with
      | .unregister id =>
        match state.recorded? id with
        | none => true
        | some entry => entry.hasPid conn.owner
      | _ => true
  | _ => true

section Steps

variable {world : DaemonWorld} {state next : ControlPlane} {action : ControlAction} {id : ConnId}
variable {pid owner : Int32} {fd : Nat}

/-- A step attributes what it records to one process. -/
def Attributes (state next : ControlPlane) (owner : Int32) : Prop :=
  ∀ id, next.creatorOrigin id = (if (state.recorded? id).isNone then
          owner
        else
          state.creatorOrigin id) ∧ next.joinerOrigin id =
        if (state.recorded? id).map HandshakeEntry.joinerPid =
            (next.recorded? id).map HandshakeEntry.joinerPid then
          state.joinerOrigin id
        else
          owner

theorem serve?_spec (served : state.serve? world fd = some next) : ∃ conn line rest,
      state.pending? fd = some (conn, line, rest) ∧ (∀ id, next.recorded? id =
      ((Daemon.registryOp line).apply world.rng state.daemon.shmRegistry).active[id]?) ∧
      state.Attributes next conn.owner := by
  unfold serve? at served
  split at served
  · cases served
  · rename_i conn line rest pending
    cases served
    refine ⟨conn, line, rest, pending, ?_, fun id => ⟨rfl, rfl⟩⟩
    intro id
    rw [recorded?, Daemon.shmRegistry_serveLine]

theorem GenuineAt.of_same (genuine : state.GenuineAt id) (attributes : state.Attributes next owner)
    (same : next.recorded? id = state.recorded? id) :
    next.GenuineAt id := by
  obtain ⟨creator, joiner⟩ := attributes id
  intro entry found
  rw [same] at found
  rw [found] at creator
  rw [same, if_pos rfl] at joiner
  rw [creator, joiner]
  exact genuine entry found

theorem genuineAt_created_iff {key : UInt64} (attributes : state.Attributes next owner)
    (before : state.recorded? id = none) (created : next.recorded? id = some ⟨key, pid, 0⟩) :
    next.GenuineAt id ↔ pid = owner := by
  have creator := (attributes id).1
  rw [before] at creator
  unfold GenuineAt
  simp [created, creator]

theorem genuineAt_joined_iff {entry : HandshakeEntry} (genuine : state.GenuineAt id)
    (attributes : state.Attributes next owner) (nonzero : pid ≠ 0)
    (before : state.recorded? id = some entry) (alone : entry.joinerPid = 0)
    (joined : next.recorded? id = some { entry with joinerPid := pid }) :
    next.GenuineAt id ↔ pid = owner := by
  obtain ⟨creator, joiner⟩ := attributes id
  have changed : (state.recorded? id).map HandshakeEntry.joinerPid ≠
        (next.recorded? id).map HandshakeEntry.joinerPid := by
    rw [before, joined]
    simp [alone, Ne.symm nonzero]
  rw [if_neg changed] at joiner
  rw [before] at creator
  have creatorBefore := (genuine entry before).1
  unfold GenuineAt
  simp [joined, joiner, creator, creatorBefore, nonzero]

/-- A registration is genuine exactly if it is recorded for its own process. -/
theorem genuineAt_register_iff (genuine : state.GenuineAt id)
    (attributes : state.Attributes next owner) (positive : 0 < pid)
    (entries : next.recorded? id =
        (state.daemon.shmRegistry.registerEndpoint world.rng id pid).1.active[id]?) :
    next.GenuineAt id ↔
      match state.recorded? id with
      | none => pid = owner
      | some entry => entry.joinerPid ≠ 0 ∨ pid = owner := by
  have nonzero : pid ≠ 0 := by
    rintro rfl
    exact absurd positive (by decide)
  cases before : state.recorded? id with
  | none =>
    obtain ⟨key, -, -, recorded⟩ :=
      ShmHandshakeRegistry.registerEndpoint_first world.rng state.daemon.shmRegistry before pid
    exact genuineAt_created_iff attributes before (entries.trans recorded)
  | some entry =>
    obtain ⟨-, -, recorded⟩ :=
      ShmHandshakeRegistry.registerEndpoint_again world.rng state.daemon.shmRegistry before pid
    have atId := entries.trans recorded
    by_cases alone : entry.joinerPid = 0
    · rw [if_pos alone] at atId
      rw [genuineAt_joined_iff genuine attributes nonzero before alone atId]
      simp [alone]
    · rw [if_neg alone] at atId
      refine iff_of_true ?_ (.inl alone)
      exact genuine.of_same attributes (atId.trans before.symm)

/-- Serving a line keeps the registry genuine exactly under the condition. -/
theorem genuine_serve_iff (genuine : state.Genuine) (served : state.serve? world fd = some next) :
    next.Genuine ↔ state.registersSelf (.serve fd) = true := by
  obtain ⟨conn, line, rest, pending, entries, attributes⟩ := serve?_spec served
  simp only [registersSelf, pending]
  cases op : Daemon.registryOp line with
  | register id pid =>
    rw [op] at entries
    have elsewhere : ∀ other, other ≠ id → next.GenuineAt other := by
      intro other different
      refine (genuine other).of_same attributes ?_
      rw [entries]
      exact ShmHandshakeRegistry.registerEndpoint_other world.rng
        state.daemon.shmRegistry different pid
    have reduced : next.Genuine ↔ next.GenuineAt id := by
      constructor
      · intro all
        exact all id
      · intro atId other
        by_cases same : other = id
        · exact same ▸ atId
        · exact elsewhere other same
    rw [reduced, genuineAt_register_iff (genuine id) attributes
      (Daemon.registryOp_pos op) (entries id)]
    cases before : state.recorded? id with
    | none | some => simp [before]
  | unregister id =>
    rw [op] at entries
    refine iff_of_true ?_ rfl
    intro other
    have after : next.recorded? other = if other = id then none else state.recorded? other :=
      (entries other).trans (ShmHandshakeRegistry.unregisterEndpoint_lookup _ id other)
    split at after
    · intro entry found
      rw [after] at found
      cases found
    · exact (genuine other).of_same attributes after
  | nothing =>
    rw [op] at entries
    refine iff_of_true ?_ rfl
    intro other
    exact (genuine other).of_same attributes (entries other)

/-- The steps that serve no line keep the origins and add no entry. -/
theorem quiet_step (notServe : ∀ fd, action ≠ .serve fd)
    (stepped : state.step? world action = some next) :
    next.creatorOrigin = state.creatorOrigin ∧ next.joinerOrigin = state.joinerOrigin ∧ ∀ id,
      next.recorded? id = state.recorded? id ∨ next.recorded? id = none ∧ ∃ pid,
      action = .reap pid ∧ ∀ entry, state.recorded? id = some entry → entry.hasPid pid = true := by
  revert stepped
  fun_cases step? with (intro stepped; try cases stepped)
  | case1 =>
    revert stepped
    fun_cases accept? with rintro ⟨⟩
    | case2 | case3 => exact ⟨rfl, rfl, fun id => .inl rfl⟩
  | case2 =>
    revert stepped
    fun_cases receive? with rintro ⟨⟩
    | case2 | case3 => exact ⟨rfl, rfl, fun id => .inl rfl⟩
  | case3 fd => exact absurd rfl (notServe fd)
  | case5 => exact ⟨rfl, rfl, fun id => .inl rfl⟩
  | case7 pid =>
    refine ⟨rfl, rfl, fun id => ?_⟩
    have lookup := ShmHandshakeRegistry.reapPid_lookup state.daemon.shmRegistry pid id
    change
      (state.daemon.shmRegistry.reapPid pid).1.active[id]? = _ ∨
        (state.daemon.shmRegistry.reapPid pid).1.active[id]? = none ∧ _
    rw [lookup]
    cases found : state.recorded? id with
    | none =>
      rw [recorded?] at found
      rw [found]
      exact .inl rfl
    | some entry =>
      rw [recorded?] at found
      rw [found]
      cases reaped : entry.hasPid pid with
      | false => exact .inl (by simp [reaped])
      | true =>
        refine .inr ⟨by simp [reaped], pid, rfl, ?_⟩
        rintro other ⟨⟩
        exact reaped

/-- A step keeps the registry genuine exactly under the condition. -/
theorem genuine_step_iff (genuine : state.Genuine)
    (stepped : state.step? world action = some next) :
    next.Genuine ↔ state.registersSelf action = true := by
  by_cases serves : ∃ fd, action = .serve fd
  · obtain ⟨fd, rfl⟩ := serves
    exact genuine_serve_iff genuine stepped
  · have notServe : ∀ fd, action ≠ .serve fd := by
      intro fd same
      exact serves ⟨fd, same⟩
    obtain ⟨creator, joiner, entries⟩ := quiet_step notServe stepped
    refine iff_of_true ?_ ?_
    · intro id entry found
      rw [creator, joiner]
      rcases entries id with same | ⟨removed, -⟩
      · exact genuine id entry (same ▸ found)
      · rw [removed] at found
        cases found
    · cases action with
      | serve fd => exact absurd rfl (notServe fd)
      | accept fd pid | receive fd bytes | close fd | reap pid => rfl

theorem serve?_of_pending (world : DaemonWorld) {conn : ClientConn} {line rest : Text}
    (pending : state.pending? fd = some (conn, line, rest)) :
    ∃ next, state.serve? world fd = some next ∧ ∀ id, next.recorded? id =
      ((Daemon.registryOp line).apply world.rng state.daemon.shmRegistry).active[id]? := by
  cases served : state.serve? world fd with
  | none =>
    unfold serve? at served
    rw [pending] at served
    cases served
  | some next =>
    refine ⟨next, rfl, ?_⟩
    obtain ⟨_, _, _, found, entries, -⟩ := serve?_spec served
    rw [pending] at found
    cases found
    exact entries

/-- A line removes an entry only if it asks for that. -/
theorem unregister_of_removed {line : Text} {entry : HandshakeEntry}
    (found : state.recorded? id = some entry)
    (removed :
      ((Daemon.registryOp line).apply world.rng state.daemon.shmRegistry).active[id]? = none) :
    Daemon.registryOp line = .unregister id := by
  rw [recorded?] at found
  cases op : Daemon.registryOp line with
  | register other pid =>
    rw [op] at removed
    by_cases same : id = other
    · subst same
      obtain ⟨-, -, recorded⟩ :=
        ShmHandshakeRegistry.registerEndpoint_again world.rng state.daemon.shmRegistry found pid
      rw [Daemon.RegistryOp.apply, recorded] at removed
      cases removed
    · rw [Daemon.RegistryOp.apply, ShmHandshakeRegistry.registerEndpoint_other world.rng
          state.daemon.shmRegistry same pid, found] at removed
      cases removed
  | unregister other =>
    rw [op, Daemon.RegistryOp.apply, ShmHandshakeRegistry.unregisterEndpoint_lookup] at removed
    split at removed
    · rename_i same
      rw [same]
    · rw [found] at removed
      cases removed
  | nothing =>
    rw [op, Daemon.RegistryOp.apply, found] at removed
    cases removed

theorem removed_of_unregister (registry : ShmHandshakeRegistry) {line : Text}
    (op : Daemon.registryOp line = .unregister id) :
    ((Daemon.registryOp line).apply world.rng registry).active[id]? = none := by
  rw [op, Daemon.RegistryOp.apply, ShmHandshakeRegistry.unregisterEndpoint_lookup, if_pos rfl]

/-- What the condition says about a pending line. -/
theorem unregistersSelf_iff {conn : ClientConn} {line rest : Text}
    (pending : state.pending? fd = some (conn, line, rest)) :
    state.unregistersSelf (.serve fd) = true ↔ ∀ id entry, Daemon.registryOp line = .unregister id →
      state.recorded? id = some entry → entry.hasPid conn.owner = true := by
  simp only [unregistersSelf, pending]
  cases op : Daemon.registryOp line with
  | register | nothing => simp
  | unregister id =>
    cases found : state.recorded? id with
    | none =>
      refine iff_of_true (by simp [found]) ?_
      rintro other entry ⟨⟩ present
      rw [found] at present
      cases present
    | some entry =>
      constructor
      · rintro own other otherEntry ⟨⟩ present
        rw [found] at present
        cases present
        simpa [found] using own
      · intro own
        simpa [found] using own id entry rfl found

/-- Serving a line removes what it may exactly under the condition. -/
theorem removesOwn_serve_iff :
    state.RemovesOwn world (.serve fd) ↔ state.unregistersSelf (.serve fd) = true := by
  cases pending : state.pending? fd with
  | none =>
    refine iff_of_true ?_ (by simp [unregistersSelf, pending])
    intro next served
    obtain ⟨_, _, _, found, -⟩ := serve?_spec served
    rw [pending] at found
    cases found
  | some found =>
    obtain ⟨conn, line, rest⟩ := found
    obtain ⟨next, served, entries⟩ := serve?_of_pending world pending
    rw [unregistersSelf_iff pending]
    constructor
    · intro removesOwn id entry op present
      obtain ⟨_, _, _, same, -, own⟩ :=
        removesOwn next served id entry present ((entries id).trans (removed_of_unregister _ op))
      rw [pending] at same
      cases same
      exact own
    · intro own other served' id entry present removed
      obtain rfl : next = other := Option.some.inj (served.symm.trans served')
      rw [entries] at removed
      have op := unregister_of_removed present removed
      exact ⟨conn, line, rest, pending, op, own id entry op present⟩

/-- A step removes what it may exactly under the condition. -/
theorem removesOwn_iff (state : ControlPlane) (action : ControlAction) :
    state.RemovesOwn world action ↔ state.unregistersSelf action = true := by
  by_cases serves : ∃ fd, action = .serve fd
  · obtain ⟨fd, rfl⟩ := serves
    exact removesOwn_serve_iff
  · have notServe : ∀ fd, action ≠ .serve fd := by
      intro fd same
      exact serves ⟨fd, same⟩
    refine iff_of_true ?_ ?_
    · intro next stepped id entry found removed
      obtain ⟨-, -, entries⟩ := quiet_step notServe stepped
      rcases entries id with same | ⟨-, pid, rfl, reaped⟩
      · rw [same, found] at removed
        cases removed
      · exact reaped entry found
    · cases action with
      | serve fd => exact absurd rfl (notServe fd)
      | accept fd pid | receive fd bytes | close fd | reap pid => rfl

/--
Over all runs: every recorded pid is the one of the process whose connection
carried the request exactly if every registration that is recorded names its own
process; and every entry is removed by a process that it records, or by reaping
one, exactly if every removal of an entry is sent by such a process.
-/
theorem authority_iff_self
    {daemon : Daemon}
    (noEntries : daemon.shmRegistry.active = ∅)
    {actions : List ControlAction}
    {final : ControlPlane}
    (accepted : run? (step? world) (initial daemon) actions = some final) :
    ((∀ state, ReachedBy (step? world) (initial daemon) actions state → state.Genuine) ↔
      Along (step? world) (fun state action => state.registersSelf action = true)
          (initial daemon) actions) ∧
      (Along (step? world) (fun state action => state.RemovesOwn world action) (initial daemon)
          actions ↔
        Along (step? world) (fun state action => state.unregistersSelf action = true)
            (initial daemon) actions) := by
  refine ⟨?_, along_congr removesOwn_iff _ _⟩
  refine forall_reachedBy_iff_along genuine_step_iff ?_ accepted
  intro id entry found
  have none : daemon.shmRegistry.active[id]? = some entry := found
  rw [noEntries] at none
  simp at none

/-- The line of a registration for the pair of two endpoints. -/
def registerLine (pid : String) : Text :=
  encodeRequest ⟨ascii "shm-register", [ascii "127.0.0.1:80", ascii "127.0.0.1:4000", ascii pid]⟩

/-- The line that removes this pair. -/
def unregisterLine : Text :=
  encodeRequest ⟨ascii "shm-unregister", [ascii "127.0.0.1:80", ascii "127.0.0.1:4000"]⟩

/-- The pair. -/
def loopbackPair : ConnId := ConnId.make (ascii "127.0.0.1:80") (ascii "127.0.0.1:4000")

/-- A process opens a connection and sends one line. -/
def oneLine (fd : Nat) (pid : Int32) (line : Text) : List ControlAction :=
  [.accept fd pid, .receive fd line, .serve fd]

/-- Both ends register with their own pid, and one of them unregisters. -/
def honestClients : List ControlAction :=
  oneLine 5 100 (registerLine "100") ++
    oneLine 6 200 (registerLine "200") ++
    [ControlAction.receive 6 unregisterLine, ControlAction.serve 6]

/-- Clients that keep to themselves have the authority they need. -/
theorem authority_of_honest_clients :
    ∃ final, run? (step? .quiet) (initial .started) honestClients = some final ∧
      (∀ state, ReachedBy (step? .quiet) (initial .started) honestClients state → state.Genuine) ∧
      Along (step? .quiet) (fun state action => state.RemovesOwn .quiet action) (initial .started)
          honestClients := by
  obtain ⟨final, accepted, -⟩ :=
    exists_reached_of_check (step? .quiet) (initial .started)
      honestClients (fun _ => True) (by decide +kernel)
  obtain ⟨genuine, removes⟩ := authority_iff_self rfl accepted
  exact ⟨final, accepted, genuine.mpr (by decide +kernel), removes.mpr (by decide +kernel)⟩

/-- A third process has asked for the removal of the pair. -/
def strangerAsks : List ControlAction :=
  oneLine 5 100 (registerLine "100") ++
    oneLine 6 200 (registerLine "200") ++
    [ControlAction.accept 7 300, ControlAction.receive 7 unregisterLine]

/--
A client registers a pair for another process, and a client removes the entry of
two others.
-/
theorem forged_and_removed :
    (∃ final,
      run? (step? .quiet) (initial .started) (oneLine 7 300 (registerLine "100")) = some final ∧
      final.recorded? loopbackPair = some ⟨5, 100, 0⟩ ∧
      final.creatorOrigin loopbackPair = 300 ∧
      ¬ final.Genuine) ∧
      ∃ state,
        run? (step? .quiet) (initial .started) strangerAsks = some state ∧
        (state.conns 7).map ClientConn.owner = some 300 ∧
        state.recorded? loopbackPair = some ⟨5, 100, 200⟩ ∧
        (state.step? .quiet (.serve 7)).map (fun next => next.recorded? loopbackPair) = some none ∧
        ¬ state.RemovesOwn .quiet (.serve 7) := by
  refine ⟨?_, ?_⟩
  · obtain ⟨final, accepted, recorded, origin⟩ :=
      exists_reached_of_check (step? .quiet) (initial .started)
        (oneLine 7 300 (registerLine "100"))
        (fun final =>
          final.recorded? loopbackPair = some ⟨5, 100, 0⟩ ∧ final.creatorOrigin loopbackPair = 300)
        (by decide +kernel)
    refine ⟨final, accepted, recorded, origin, ?_⟩
    intro genuine
    have same := (genuine loopbackPair _ recorded).1
    rw [origin] at same
    exact absurd same (by decide)
  · obtain ⟨state, accepted, owner, recorded, removed, stranger⟩ :=
      exists_reached_of_check (step? .quiet) (initial .started)
        strangerAsks
        (fun state =>
          (state.conns 7).map ClientConn.owner = some 300 ∧
            state.recorded? loopbackPair = some ⟨5, 100, 200⟩ ∧ (state.step? .quiet (.serve 7)).map
                (fun next => next.recorded? loopbackPair) = some none ∧
            state.unregistersSelf (.serve 7) = false)
        (by decide +kernel)
    refine ⟨state, accepted, owner, recorded, removed, ?_⟩
    rw [removesOwn_iff, stranger]
    decide

end Steps

end ControlPlane

end SocksDirect
