import SocksDirect.KeyExchange

namespace SocksDirect

/-!
# The operations of the monitor

`Daemon`, the functions `op_*` and `dispatch` of `src/monitor/main.cpp`, and what
`drain_ctl_conn` does with one line.  What an operation gets from outside of the
daemon (clock, configuration file, directory of metrics files) is a record; the
n-th request that is dispatched sees the n-th record.

The logger is left out, no operation reads it.  Counters are natural numbers;
they are doubles in the source, which count exactly up to 2^53.
-/

open ByteText MonitorIpc

/-- One file of the directory that `op_lib_metrics` scans. -/
structure MetricsFile where
  name : Text
  content : Option Text
  deriving Repr, DecidableEq

/-- What one request sees of the system. -/
structure RequestWorld where
  uptime : Nat
  loadedConfig : List (Text × Text)
  libMetrics : Option (List MetricsFile)

/-- What all requests see: the pid, the environment and the random generator. -/
structure DaemonWorld where
  pid : Int32
  envLookup : Text → Text → Option Text
  rng : RandomStream
  request : Nat → RequestWorld

/-- `Daemon`, without the descriptors and the buffers of its connections. -/
structure Daemon where
  config : List (Text × Text)
  controlSocketPath : Text
  pidFilePath : Text
  draining : Bool
  ctlConns : Nat
  shmRegistry : ShmHandshakeRegistry
  ctlRequests : Nat
  ctlErrors : Nat
  ctlActive : Nat

/-- A daemon that has just started, without a configuration. -/
def Daemon.started : Daemon where
  config := []
  controlSocketPath := ascii "/run/socksdirect/monitor.sock"
  pidFilePath := []
  draining := false
  ctlConns := 0
  shmRegistry := .empty
  ctlRequests := 0
  ctlErrors := 0
  ctlActive := 0

/-- A system without environment variables and metrics files. -/
def DaemonWorld.quiet : DaemonWorld where
  pid := 1
  envLookup := fun _ _ => none
  rng :=
    { draw := fun _ => 5
      patience := fun _ => 0
      productive := by
        intro i
        decide }
  request := fun _ => { uptime := 0, loadedConfig := [], libMetrics := none }

namespace Daemon

/-- A response with lines. -/
def okResponse (lines : List Text) : CtlResponse where
  ok := true
  lines := lines
  error := []

/-- A response with an error. -/
def errorResponse (error : Text) : CtlResponse where
  ok := false
  lines := []
  error := error

/-- `"true"` or `"false"`. -/
def boolText : Bool → Text
  | true => ascii "true"
  | false => ascii "false"

/-- `Config::get_string`. -/
def getString (world : DaemonWorld) (config : List (Text × Text))
    (sectionName key fallback : Text) : Text :=
  match world.envLookup sectionName key with
  | some value => value
  | none => (config.lookup (sectionName ++ ascii "." ++ key)).getD fallback

/-- `op_status`. -/
def opStatus (world : DaemonWorld) (seen : RequestWorld) (daemon : Daemon) : CtlResponse :=
  okResponse
    [ascii "pid " ++ formatInt world.pid, ascii "uptime_sec " ++ decimal seen.uptime,
      ascii "control_socket " ++ daemon.controlSocketPath,
      ascii "draining " ++ boolText daemon.draining]

/-- `op_connections`. -/
def opConnections (daemon : Daemon) : CtlResponse :=
  okResponse
    [ascii "ctl_active " ++ decimal daemon.ctlConns,
      ascii "data_plane_connections 0  (data plane not yet active in src/monitor)"]

/-- `op_dump_state`. -/
def opDumpState (world : DaemonWorld) (seen : RequestWorld) (daemon : Daemon) : CtlResponse :=
  okResponse
    ([ascii "pid=" ++ formatInt world.pid ++ ascii " uptime=" ++
          decimal seen.uptime ++ ascii "s draining=" ++
          boolText daemon.draining, ascii "control_socket=" ++ daemon.controlSocketPath,
        ascii "pid_file=" ++ daemon.pidFilePath,
        ascii "ctl_requests=" ++ decimal daemon.ctlRequests ++
          ascii " errors=" ++ decimal daemon.ctlErrors] ++
      daemon.config.map fun (key, value) => ascii "config " ++ key ++ ascii "=" ++ value)

/-- `op_dump_config`. -/
def opDumpConfig (daemon : Daemon) : CtlResponse :=
  if daemon.config.isEmpty then
    okResponse [ascii "(no config file loaded; all values defaulted)"]
  else
    okResponse (daemon.config.map fun (key, value) => key ++ ascii "=" ++ value)

/-- One metric of `MetricsRegistry::render`. -/
def renderMetric (name help type : Text) (value : Nat) : List Text :=
  [ascii "# HELP " ++ name ++ ascii " " ++ help, ascii "# TYPE " ++ name ++ ascii " " ++ type,
    name ++ ascii " " ++ decimal value]

/-- `op_metrics`: `render` orders counters before gauges and each by name. -/
def opMetrics (daemon : Daemon) : CtlResponse :=
  okResponse
    (renderMetric (ascii "socksdirect_ctl_errors_total")
        (ascii "control-plane requests that returned ok=false")
        (ascii "counter") daemon.ctlErrors ++
      renderMetric (ascii "socksdirect_ctl_requests_total")
        (ascii "control-plane requests received")
        (ascii "counter") daemon.ctlRequests ++
      renderMetric (ascii "socksdirect_ctl_connections")
        (ascii "currently-open ctl connections")
        (ascii "gauge") daemon.ctlActive)

/-- `op_reload`. -/
def opReload (seen : RequestWorld) (daemon : Daemon) : Daemon × CtlResponse :=
  ({ daemon with config := seen.loadedConfig }, okResponse [ascii "reloaded"])

/-- `op_drain`. -/
def opDrain (daemon : Daemon) : Daemon × CtlResponse :=
  ({ daemon with draining := true }, okResponse [ascii "draining"])

/-- `op_ping`. -/
def opPing (req : CtlRequest) : CtlResponse := okResponse [req.args.headD (ascii "pong")]

/-- `op_help`. -/
def opHelp : CtlResponse :=
  okResponse
    [ascii "status         daemon pid / uptime / control socket / drain flag",
      ascii "connections    counts of active connections",
      ascii "dump-state     verbose internal state",
      ascii "dump-config    every resolved config key=value",
      ascii "metrics        Prometheus text format",
      ascii "reload         re-read config; reopen log sink",
      ascii "drain          stop accepting new ctl clients",
      ascii "ping [msg]     echo (defaults to 'pong')",
      ascii "shm-register A B PID   broker SHM key for the (A,B) pair",
      ascii "shm-unregister A B     drop the SHM key for (A,B)", ascii "help           this list"]

/-- One `fgets` of at most `room` bytes: what it reads and what is left. -/
def fgets : Nat → Text → Text × Text
  | 0, content => ([], content)
  | _, [] => ([], [])
  | room + 1, c :: rest =>
    if c = 0x0a then ([c], rest) else (c :: (fgets room rest).1, (fgets room rest).2)

/--
The lines that `op_lib_metrics` makes of a file: a line ends at a line feed, after
1023 bytes or, when it becomes a string, at a zero byte.
-/
def fileLines : Nat → Text → List Text
  | 0, _ => []
  | _, [] => []
  | fuel + 1, content =>
    let (buf, rest) := fgets 1023 content
    popBack 0x0a (buf.takeWhile (· ≠ 0)) :: fileLines fuel rest

/-- The names that `op_lib_metrics` reads. -/
def isMetricsName (name : Text) : Bool :=
  6 ≤ name.length ∧ name.drop (name.length - 5) = ascii ".prom"

/-- `op_lib_metrics`. -/
def opLibMetrics (world : DaemonWorld) (seen : RequestWorld) (daemon : Daemon) : CtlResponse :=
  match seen.libMetrics with
  | none =>
    okResponse
      [ascii "# no lib-metrics directory: " ++
        getString world daemon.config (ascii "monitor")
          (ascii "lib_metrics_dir")
          (ascii "/run/socksdirect/lib-metrics")]
  | some files =>
    okResponse
      ((files.filter fun file => isMetricsName file.name).flatMap
        fun file =>
          match file.content with
          | none => []
          | some content => fileLines content.length content)

/-- `op_shm_register`. -/
def opShmRegister (world : DaemonWorld) (daemon : Daemon)
    (req : CtlRequest) : Daemon × CtlResponse :=
  let (registry, response) := daemon.shmRegistry.opShmRegister world.rng req
  ({ daemon with shmRegistry := registry }, response)

/-- `op_shm_unregister`. -/
def opShmUnregister (daemon : Daemon) (req : CtlRequest) : Daemon × CtlResponse :=
  let (registry, response) := daemon.shmRegistry.opShmUnregister req
  ({ daemon with shmRegistry := registry }, response)

/-- `dispatch`. -/
def dispatch (world : DaemonWorld) (daemon : Daemon) (req : CtlRequest) : Daemon × CtlResponse :=
  let daemon := { daemon with ctlRequests := daemon.ctlRequests + 1 }
  let seen := world.request daemon.ctlRequests
  if req.op = ascii "status" then
    (daemon, daemon.opStatus world seen)
  else if req.op = ascii "connections" then
    (daemon, daemon.opConnections)
  else if req.op = ascii "dump-state" then
    (daemon, daemon.opDumpState world seen)
  else if req.op = ascii "dump-config" then
    (daemon, daemon.opDumpConfig)
  else if req.op = ascii "metrics" then
    (daemon, daemon.opMetrics)
  else if req.op = ascii "reload" then
    daemon.opReload seen
  else if req.op = ascii "drain" then
    daemon.opDrain
  else if req.op = ascii "ping" then
    (daemon, opPing req)
  else if req.op = ascii "help" then
    (daemon, opHelp)
  else if req.op = ascii "shm-register" then
    daemon.opShmRegister world req
  else if req.op = ascii "shm-unregister" then
    daemon.opShmUnregister req
  else if req.op = ascii "lib-metrics" then
    (daemon, daemon.opLibMetrics world seen)
  else
    ({ daemon with ctlErrors := daemon.ctlErrors + 1 },
      errorResponse (ascii "unknown op: " ++ req.op ++ ascii " (try 'help')"))

/-- What `drain_ctl_conn` does with one line: the daemon and the response. -/
def serveLine (world : DaemonWorld) (daemon : Daemon) (line : Text) : Daemon × CtlResponse :=
  match decodeRequest line with
  | none =>
    ({ daemon with ctlErrors := daemon.ctlErrors + 1 }, errorResponse (ascii "malformed request"))
  | some req => daemon.dispatch world req

/-- What a line asks of the registry. -/
inductive RegistryOp where
  | register (id : ConnId) (pid : Int32)
  | unregister (id : ConnId)
  | nothing
  deriving Repr, DecidableEq

/-- The registration that a request asks for, if its pid is one. -/
def registerOp : List Text → RegistryOp
  | endpointA :: endpointB :: pidText :: _ =>
    if atoi pidText ≤ 0 then
      .nothing
    else
      .register (ConnId.make endpointA endpointB) (atoi pidText)
  | _ => .nothing

/-- The removal that a request asks for. -/
def unregisterOp : List Text → RegistryOp
  | endpointA :: endpointB :: _ => .unregister (ConnId.make endpointA endpointB)
  | _ => .nothing

/-- What a line asks of the registry. -/
def registryOp (line : Text) : RegistryOp :=
  match decodeRequest line with
  | none => .nothing
  | some req =>
    if req.op = ascii "shm-register" then
      registerOp req.args
    else if req.op = ascii "shm-unregister" then unregisterOp req.args else .nothing

/-- The registry after an operation. -/
def RegistryOp.apply (rng : RandomStream) (registry : ShmHandshakeRegistry) :
    RegistryOp → ShmHandshakeRegistry
  | .register id pid => (registry.registerEndpoint rng id pid).1
  | .unregister id => (registry.unregisterEndpoint id).1
  | .nothing => registry

theorem registryOp_pos {line : Text} {id : ConnId} {pid : Int32}
    (registers : registryOp line = .register id pid) : 0 < pid := by
  revert registers
  fun_cases registryOp with (intro registers; try cases registers)
  | case2 req =>
    generalize req.args = args at registers
    revert registers
    fun_cases registerOp with rintro ⟨⟩
    | case2 endpointA endpointB pidText rest positive => exact Int32.not_le.mp positive
  | case3 req =>
    generalize req.args = args at registers
    revert registers
    fun_cases unregisterOp <;> rintro ⟨⟩

theorem shmRegistry_opShmRegister (world : DaemonWorld) (daemon : Daemon) (req : CtlRequest) :
    (daemon.opShmRegister world req).1.shmRegistry =
      (registerOp req.args).apply world.rng daemon.shmRegistry := by
  obtain ⟨op, args⟩ := req
  rcases args with _ | ⟨endpointA, _ | ⟨endpointB, _ | ⟨pidText, rest⟩⟩⟩
  · rfl
  · rfl
  · rfl
  · change
      (daemon.shmRegistry.opShmRegister world.rng
        ⟨op, endpointA :: endpointB :: pidText :: rest⟩).1 = _
    simp only [ShmHandshakeRegistry.opShmRegister, registerOp]
    split <;> rfl

theorem shmRegistry_opShmUnregister (world : DaemonWorld) (daemon : Daemon) (req : CtlRequest) :
    (daemon.opShmUnregister req).1.shmRegistry =
      (unregisterOp req.args).apply world.rng daemon.shmRegistry := by
  obtain ⟨op, args⟩ := req
  rcases args with _ | ⟨endpointA, _ | ⟨endpointB, rest⟩⟩ <;> rfl

theorem shmRegistry_ite {condition : Prop} [Decidable condition]
    {first second : Daemon × CtlResponse} {registry : ShmHandshakeRegistry}
    (holds : condition → first.1.shmRegistry = registry)
    (fails : ¬ condition → second.1.shmRegistry = registry) :
    (if condition then first else second).1.shmRegistry = registry := by
  split
  · rename_i condition
    exact holds condition
  · rename_i condition
    exact fails condition

/-- Two of the operations concern the registry. -/
theorem shmRegistry_dispatch (world : DaemonWorld) (daemon : Daemon) (req : CtlRequest) :
    (daemon.dispatch world req).1.shmRegistry = if req.op = ascii "shm-register" then
        (registerOp req.args).apply world.rng daemon.shmRegistry
      else if req.op = ascii "shm-unregister" then
        (unregisterOp req.args).apply world.rng daemon.shmRegistry
      else
        daemon.shmRegistry := by
  -- The nine operations before the two that change the registry leave it alone.
  have keeps {op : Text}
      (other : op ≠ ascii "shm-register" ∧ op ≠ ascii "shm-unregister") (same : req.op = op) :
      daemon.shmRegistry = if req.op = ascii "shm-register" then
          (registerOp req.args).apply world.rng daemon.shmRegistry
        else if req.op = ascii "shm-unregister" then
          (unregisterOp req.args).apply world.rng daemon.shmRegistry
        else
          daemon.shmRegistry := by
    rw [same, if_neg other.1, if_neg other.2]
  iterate 9 refine shmRegistry_ite (keeps (by decide)) fun _ => ?_
  refine shmRegistry_ite ?_ fun notRegister => ?_
  · intro registers
    rw [if_pos registers]
    exact shmRegistry_opShmRegister ..
  · rw [if_neg notRegister]
    refine shmRegistry_ite ?_ fun notUnregister => ?_
    · intro unregisters
      rw [if_pos unregisters]
      exact shmRegistry_opShmUnregister ..
    · rw [if_neg notUnregister]
      exact shmRegistry_ite (fun _ => rfl) (fun _ => rfl)

theorem shmRegistry_serveLine (world : DaemonWorld) (daemon : Daemon) (line : Text) :
    (daemon.serveLine world line).1.shmRegistry =
      (registryOp line).apply world.rng daemon.shmRegistry := by
  unfold serveLine registryOp
  split
  · rfl
  · rw [shmRegistry_dispatch]
    split
    · rfl
    · split
      · rfl
      · rfl

/-- The operations that always succeed. -/
def plainOps : List Text :=
  [ascii "status", ascii "connections", ascii "dump-state",
    ascii "dump-config", ascii "metrics", ascii "reload", ascii "drain",
    ascii "ping", ascii "help", ascii "lib-metrics"]

/-- What `dispatch` does with a request, by its operation. -/
inductive Dispatched
    (world : DaemonWorld)
    (daemon : Daemon)
    (req : CtlRequest) : Daemon × CtlResponse → Prop where
  | plain {after : Daemon} {resp : CtlResponse} : req.op ∈ plainOps → resp.ok = true →
      after.ctlErrors = daemon.ctlErrors → after.ctlActive = daemon.ctlActive →
      Dispatched world daemon req (after, resp)
  | register : req.op = ascii "shm-register" → Dispatched world daemon req
        (opShmRegister world { daemon with ctlRequests := daemon.ctlRequests + 1 } req)
  | unregister : req.op = ascii "shm-unregister" → Dispatched world daemon req
        (opShmUnregister { daemon with ctlRequests := daemon.ctlRequests + 1 } req)
  | unknown : req.op ∉ plainOps → req.op ≠ ascii "shm-register" → req.op ≠ ascii "shm-unregister" →
      Dispatched world daemon req
        ({ daemon with ctlRequests := daemon.ctlRequests + 1, ctlErrors := daemon.ctlErrors + 1 },
          errorResponse (ascii "unknown op: " ++ req.op ++ ascii " (try 'help')"))

theorem Dispatched.ite {world : DaemonWorld} {daemon : Daemon} {req : CtlRequest} {condition : Prop}
    [Decidable condition] {first second : Daemon × CtlResponse}
    (holds : condition → Dispatched world daemon req first)
    (fails : ¬ condition → Dispatched world daemon req second) :
    Dispatched world daemon req (if condition then first else second) := by
  split
  · rename_i condition
    exact holds condition
  · rename_i condition
    exact fails condition

/-- Every request is dispatched in one of the four ways. -/
theorem dispatched_dispatch (world : DaemonWorld) (daemon : Daemon) (req : CtlRequest) :
    Dispatched world daemon req (daemon.dispatch world req) := by
  have plain
      {op : Text}
      {after : Daemon}
      {resp : CtlResponse}
      (listed : op ∈ plainOps)
      (ok : resp.ok = true)
      (errors : after.ctlErrors = daemon.ctlErrors)
      (active : after.ctlActive = daemon.ctlActive)
      (same : req.op = op) :
      Dispatched world daemon req (after, resp) :=
    .plain (same ▸ listed) ok errors active
  refine .ite (plain (by simp [plainOps]) rfl rfl rfl) fun n₁ => ?_
  refine .ite (plain (by simp [plainOps]) rfl rfl rfl) fun n₂ => ?_
  refine .ite (plain (by simp [plainOps]) rfl rfl rfl) fun n₃ => ?_
  refine .ite (plain (by simp [plainOps]) ?_ rfl rfl) fun n₄ => ?_
  · unfold opDumpConfig
    split <;> rfl
  refine .ite (plain (by simp [plainOps]) rfl rfl rfl) fun n₅ => ?_
  refine .ite (plain (by simp [plainOps]) rfl rfl rfl) fun n₆ => ?_
  refine .ite (plain (by simp [plainOps]) rfl rfl rfl) fun n₇ => ?_
  refine .ite (plain (by simp [plainOps]) rfl rfl rfl) fun n₈ => ?_
  refine .ite (plain (by simp [plainOps]) rfl rfl rfl) fun n₉ => ?_
  refine .ite .register fun notRegister => ?_
  refine .ite .unregister fun notUnregister => ?_
  refine .ite (plain (by simp [plainOps]) ?_ rfl rfl) fun n₁₀ => ?_
  · unfold opLibMetrics
    split <;> rfl
  refine .unknown ?_ notRegister notUnregister
  simp only [plainOps, List.mem_cons, List.not_mem_nil, or_false, not_or]
  exact ⟨n₁, n₂, n₃, n₄, n₅, n₆, n₇, n₈, n₉, n₁₀⟩

theorem ctlActive_dispatch (world : DaemonWorld) (daemon : Daemon) (req : CtlRequest) :
    (daemon.dispatch world req).1.ctlActive = daemon.ctlActive := by
  have dispatched := dispatched_dispatch world daemon req
  generalize daemon.dispatch world req = result at dispatched ⊢
  cases dispatched with
  | plain _ _ _ active => exact active
  | register | unregister | unknown => rfl

theorem ctlActive_serveLine (world : DaemonWorld) (daemon : Daemon) (line : Text) :
    (daemon.serveLine world line).1.ctlActive = daemon.ctlActive := by
  unfold serveLine
  split
  · rfl
  · exact ctlActive_dispatch ..

end Daemon

end SocksDirect
