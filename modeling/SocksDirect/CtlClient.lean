import SocksDirect.CtlConnection
import SocksDirect.MonitorIpcPrefix

namespace SocksDirect

open Machine

/-!
# The command line client of the monitor

`run_request` of `tools/socksdirect-ctl.cpp`.  The tool writes one request and
reads one line; against `drain_ctl_conn` it reports the response of `dispatch`,
in whatever pieces its bytes arrive.
-/

open ByteText MonitorIpc LineFraming

namespace CtlClient

/-- `connect_unix` and `write_all`, with `strerror` of a failure, and what can be read then. -/
inductive Exchange where
  | notConnected (reason : Text)
  | notWritten (reason : Text)
  | answered (stream : Text)

/-- Exit code, standard output and standard error. -/
structure Outcome where
  exitCode : Nat
  out : Text
  err : Text
  deriving DecidableEq

/-- What `"%s"` prints of a string. -/
def cStr (text : Text) : Text := text.takeWhile (· ≠ 0)

/-- What `"%s\n"` prints of a string. -/
def printed (line : Text) : Text := cStr line ++ [0x0a]

/-- The end of `run_request`. -/
def report (resp : CtlResponse) : Outcome :=
  if resp.ok then ⟨0, resp.lines.flatMap printed, []⟩ else ⟨1, [], printed resp.error⟩

/-- `run_request` with a monitor that reacts to the bytes that it is sent. -/
def runRequest (monitor : Text → Exchange) (sockPath : Text) (req : CtlRequest) : Outcome :=
  match monitor (encodeRequest req) with
  | .notConnected reason =>
    ⟨3, [], ascii "socksdirect-ctl: cannot connect to " ++ cStr sockPath ++ ascii ": " ++
      printed reason ++
      ascii "  Is socksdirect-monitor running?  Set SOCKSDIRECT_CTL_SOCKET\n" ++
      ascii "  or pass --socket to point at the right path.\n"⟩
  | .notWritten reason => ⟨4, [], ascii "socksdirect-ctl: write failed: " ++ printed reason⟩
  | .answered stream =>
    let line := readLine stream
    if line = [] then
      ⟨4, [], ascii "socksdirect-ctl: monitor closed the connection without responding\n"⟩
    else
      match decodeResponse line with
      | none => ⟨4, [], ascii "socksdirect-ctl: malformed response from monitor: " ++ printed line⟩
      | some resp => report resp

theorem encodeRequest_line (req : CtlRequest) : ∃ line, (0x0a : UInt8) ∉ line ∧
      encodeRequest req = line ++ [0x0a] ∧ decodeRequest line = some req := by
  have noLineFeed :=
    notMem_of_printable (printable_objectText req) (show (0x0a : UInt8) < 0x20 by decide)
  refine ⟨cutLine (encodeRequest req), ?_, ?_, (decodeRequest_encodeRequest req).2⟩
  all_goals
    rw [encodeRequest_eq, show [0x7d, 0x0a] = [0x7d] ++ [(0x0a : UInt8)] from rfl,
      ← List.append_assoc, cutLine_line (by simp [noLineFeed])]
  simp [noLineFeed]

theorem report_received (resp : CtlResponse) : report resp.received = report resp := by
  unfold report CtlResponse.received
  cases resp.ok with
  | true | false => rfl

/-- The tool understands every response that is short enough. -/
theorem runRequest_encodeResponse {monitor : Text → Exchange} {req : CtlRequest}
    {resp : CtlResponse} (short : (encodeResponse resp).length ≤ lineLimit)
    (answered : monitor (encodeRequest req) = .answered (encodeResponse resp)) (sockPath : Text) :
    runRequest monitor sockPath req = report resp := by
  have line : readLine (encodeResponse resp) = responseText resp ++ [0x7d] := by
    rw [readLine_of_length_le short, encodeResponse_eq, cutLine_responseText]
  simp only [runRequest, answered, line, (decodeResponse_responseText resp).2]
  rw [if_neg (by simp), report_received]

/--
However the bytes of the tool's request reach the monitor: the tool reports the
response of `dispatch`, with its exit code and its texts, and the monitor is as
`dispatch` leaves it, if neither line exceeds the limit of its reader.
-/
theorem tool_reports_dispatch
    (world : DaemonWorld)
    (daemon : Daemon)
    (monitor : Text → Exchange)
    {req : CtlRequest}
    {events : List CtlEvent}
    {final : CtlConnection}
    (accepted : run? (CtlConnection.step? world) (.initial daemon) events = some final)
    (notFailed : CtlEvent.failed ∉ events)
    (sent : streamOf events = encodeRequest req)
    (short : (encodeRequest req).length ≤ CtlConnection.bufLimit - CtlConnection.chunkLimit)
    (shortAnswer : (encodeResponse (daemon.dispatch world req).2).length ≤ lineLimit)
    (answered : monitor (encodeRequest req) = .answered final.written)
    (sockPath : Text) :
    runRequest monitor sockPath req = report (daemon.dispatch world req).2 ∧
      (final.phase ≠ .closed → final.daemon = (daemon.dispatch world req).1) := by
  obtain ⟨line, absent, framed, decoded⟩ := encodeRequest_line req
  obtain ⟨one, nothingOpen⟩ := lines_line absent []
  rw [← framed] at one nothingOpen
  have bounded : CtlConnection.Bounded (encodeRequest req) := by
    rw [framed, List.length_append] at short
    rw [CtlConnection.Bounded, one, nothingOpen]
    simpa [lines, openLine, split] using short
  rw [← sent] at bounded
  have notClosed : (CtlConnection.initial daemon).phase ≠ .closed := by
    rintro ⟨⟩
  obtain ⟨served, -⟩ :=
    (CtlConnection.Served.initially daemon).run notClosed bounded notFailed accepted
  rw [List.nil_append, sent] at served
  have answer : daemon.serveLines world (lines 0x0a (encodeRequest req)) =
      ((daemon.dispatch world req).1, [(daemon.dispatch world req).2]) := by
    rw [one]
    simp [lines, split, Daemon.serveLines, Daemon.serveLine, decoded]
  refine ⟨runRequest_encodeResponse shortAnswer ?_ sockPath, ?_⟩
  · rw [answered, served.written, answer]
    simp
  · intro stillOpen
    rw [served.daemon, if_neg stillOpen, answer]

/-- A request without arguments. -/
def pingRequest : CtlRequest := ⟨ascii "ping", []⟩

/-- The request in two pieces. -/
def pingEvents : List CtlEvent :=
  [.pollIn, .chunk ((encodeRequest pingRequest).take 9), .eagain, .pollIn,
    .chunk ((encodeRequest pingRequest).drop 9)]

/-- A request that arrives in two pieces is answered. -/
theorem tool_reports_dispatch_ping :
    ∃ final,
      run? (CtlConnection.step? DaemonWorld.quiet) (.initial CtlConnection.oneClient) pingEvents =
        some final ∧
      runRequest (fun _ => .answered final.written) [] pingRequest = ⟨0, ascii "pong\n", []⟩ := by
  obtain ⟨final, reached⟩ : ∃ final, run? (CtlConnection.step? DaemonWorld.quiet)
      (.initial CtlConnection.oneClient) pingEvents = some final :=
    ⟨_, rfl⟩
  have sent : streamOf pingEvents = encodeRequest pingRequest := by decide
  have spec := tool_reports_dispatch DaemonWorld.quiet CtlConnection.oneClient
    (fun _ => .answered final.written) reached (by decide) sent (by decide) (by decide) rfl []
  exact ⟨final, reached, spec.1.trans (by decide)⟩

end CtlClient

end SocksDirect
