import SocksDirect.LineFraming
import SocksDirect.MachineRun
import SocksDirect.MonitorDaemon

namespace SocksDirect

open Machine

/-!
# One control connection of the monitor

`drain_ctl_conn` and `close_ctl_conn` of `src/monitor/main.cpp`.  The event loop
enters `drain_ctl_conn` when there is something to read; it reads until `EAGAIN`
and keeps an unfinished line in the buffer of the connection.  Every `read` is
one event, so that an action list is one way in which the bytes of the client can
arrive.  No other client is active and `write_all` does not fail.
-/

open ByteText MonitorIpc LineFraming

/-- Where the event loop stands with the connection. -/
inductive CtlPhase where
  | polling
  | draining
  | closed
  deriving Repr, DecidableEq

/-- `POLLIN`, or the result of one `read`. -/
inductive CtlEvent where
  | pollIn
  | chunk (bytes : Text)
  | eintr
  | eagain
  | endOfStream
  | failed
  deriving Repr, DecidableEq

/-- The daemon, the buffer of the connection and the bytes written to it. -/
structure CtlConnection where
  daemon : Daemon
  buf : Text
  written : Text
  phase : CtlPhase

/-- `close_ctl_conn`. -/
def Daemon.closeCtlConn (daemon : Daemon) : Daemon :=
  { daemon with ctlConns := daemon.ctlConns - 1, ctlActive := daemon.ctlConns - 1 }

namespace CtlConnection

/-- A connection that has just been accepted. -/
def initial (daemon : Daemon) : CtlConnection where
  daemon := daemon
  buf := []
  written := []
  phase := .polling

/-- The size of the buffer that `read` fills. -/
def chunkLimit : Nat := 4096

/-- The limit of `conn.buf`. -/
def bufLimit : Nat := 2 ^ 20

/--
The inner loop of `drain_ctl_conn`, which cuts one line after the other off the
buffer; the daemon, the buffer and the bytes written.
-/
def serveBuffer (world : DaemonWorld) : Nat → Daemon → Text → Text → Daemon × Text × Text
  | 0, daemon, buf, written => (daemon, buf, written)
  | fuel + 1, daemon, buf, written =>
    match buf.dropWhile (· ≠ 0x0a) with
    | [] => (daemon, buf, written)
    | _ :: rest =>
      let (daemon, resp) := daemon.serveLine world (buf.takeWhile (· ≠ 0x0a))
      serveBuffer world fuel daemon rest (written ++ encodeResponse resp)

/-- The event loop closes the connection. -/
def close (state : CtlConnection) : CtlConnection :=
  { state with daemon := state.daemon.closeCtlConn, buf := [], phase := .closed }

/-- What `drain_ctl_conn` does with the bytes of one `read`. -/
def receive (world : DaemonWorld) (state : CtlConnection) (bytes : Text) : CtlConnection :=
  let buf := state.buf ++ bytes
  if buf.length > bufLimit then
    { state with buf := buf }.close
  else
    let (daemon, rest, written) := serveBuffer world buf.length state.daemon buf state.written
    { state with daemon := daemon, buf := rest, written := written }

/-- One event of the connection. -/
def step? (world : DaemonWorld) (state : CtlConnection) (event : CtlEvent) : Option CtlConnection :=
  match state.phase, event with
  | .polling, .pollIn => some { state with phase := .draining }
  | .draining, .chunk bytes =>
    if bytes = [] ∨ chunkLimit < bytes.length then none else some (state.receive world bytes)
  | .draining, .eintr => some state
  | .draining, .eagain => some { state with phase := .polling }
  | .draining, .endOfStream => some state.close
  | .draining, .failed => some state.close
  | _, _ => none

end CtlConnection

/-- The bytes that one event brings. -/
def CtlEvent.bytes : CtlEvent → Text
  | .chunk bytes => bytes
  | _ => []

/-- The bytes that the client has sent. -/
def streamOf (events : List CtlEvent) : Text := events.flatMap CtlEvent.bytes

/-- The daemon after several lines, and its responses. -/
def Daemon.serveLines (world : DaemonWorld) : Daemon → List Text → Daemon × List CtlResponse
  | daemon, [] => (daemon, [])
  | daemon, line :: rest =>
    let served := daemon.serveLine world line
    let (final, responses) := served.1.serveLines world rest
    (final, served.2 :: responses)

namespace CtlConnection

/--
Every line of the stream, with its line feed, leaves room for one more `read` in
the buffer, and what is behind the last line fits into it.
-/
def Bounded (stream : Text) : Prop :=
  (∀ line ∈ lines 0x0a stream, line.length + 1 ≤ bufLimit - chunkLimit) ∧
    (openLine 0x0a stream).length ≤ bufLimit

/-- The connection after a stream, however its bytes have arrived. -/
structure Served
    (world : DaemonWorld)
    (daemon : Daemon)
    (stream : Text)
    (state : CtlConnection) : Prop where
  written : state.written = (daemon.serveLines world (lines 0x0a stream)).2.flatMap encodeResponse
  buf : state.buf = if state.phase = .closed then [] else openLine 0x0a stream
  daemon : state.daemon = if state.phase = .closed then
        (daemon.serveLines world (lines 0x0a stream)).1.closeCtlConn
      else
        (daemon.serveLines world (lines 0x0a stream)).1

section Serving

variable {world : DaemonWorld}

theorem serveLines_append (daemon : Daemon) (first second : List Text) :
    daemon.serveLines world (first ++ second) =
      (((daemon.serveLines world first).1.serveLines world second).1,
      (daemon.serveLines world first).2 ++
      ((daemon.serveLines world first).1.serveLines world second).2) := by
  induction first generalizing daemon with
  | nil => rfl
  | cons line rest inductionHypothesis =>
    simp only [List.cons_append, Daemon.serveLines, inductionHypothesis]

theorem cut_line {line : Text} (absent : 0x0a ∉ line) (rest : Text) :
    (line ++ 0x0a :: rest).takeWhile (· ≠ 0x0a) = line ∧
      (line ++ 0x0a :: rest).dropWhile (· ≠ 0x0a) = 0x0a :: rest := by
  have kept : ∀ byte ∈ line, decide (byte ≠ 0x0a) = true := by
    intro byte member
    apply decide_eq_true
    rintro rfl
    exact absent member
  rw [List.takeWhile_append_of_pos kept, List.dropWhile_append_of_pos kept]
  simp

theorem serveBuffer_open {buf : Text} (absent : 0x0a ∉ buf) (fuel : Nat) (daemon : Daemon)
    (written : Text) :
    serveBuffer world fuel daemon buf written = (daemon, buf, written) := by
  have none : buf.dropWhile (· ≠ 0x0a) = [] := by
    rw [List.dropWhile_eq_nil_iff]
    intro byte member
    apply decide_eq_true
    rintro rfl
    exact absent member
  cases fuel with
  | zero => rfl
  | succ fuel => rw [serveBuffer, none]

/-- The inner loop serves the lines of the buffer and keeps what is behind. -/
theorem serveBuffer_eq {fuel : Nat} {buf : Text} (enough : (lines 0x0a buf).length ≤ fuel)
    (daemon : Daemon) (written : Text) :
    serveBuffer world fuel daemon buf written =
      ((daemon.serveLines world (lines 0x0a buf)).1, openLine 0x0a buf,
      written ++ (daemon.serveLines world (lines 0x0a buf)).2.flatMap encodeResponse) := by
  induction fuel generalizing buf daemon written with
  | zero =>
    have absent : 0x0a ∉ buf := by
      intro present
      obtain ⟨line, rest, rfl, absent⟩ := List.eq_append_cons_of_mem present
      rw [(lines_line absent rest).1] at enough
      cases enough
    obtain ⟨noLine, open_⟩ := lines_of_notMem absent
    rw [serveBuffer_open absent, noLine, open_]
    simp [Daemon.serveLines]
  | succ fuel inductionHypothesis =>
    by_cases present : 0x0a ∈ buf
    · obtain ⟨line, rest, rfl, absent⟩ := List.eq_append_cons_of_mem present
      obtain ⟨taken, dropped⟩ := cut_line absent rest
      obtain ⟨first, behind⟩ := lines_line absent rest
      rw [first, List.length_cons, Nat.add_le_add_iff_right] at enough
      rw [serveBuffer, dropped, taken, first, behind]
      dsimp only
      rw [inductionHypothesis enough]
      simp [Daemon.serveLines]
    · obtain ⟨noLine, open_⟩ := lines_of_notMem present
      rw [serveBuffer_open present, noLine, open_]
      simp [Daemon.serveLines]

variable {stream : Text}

theorem Bounded.room {bytes later : Text} (bounded : Bounded (stream ++ bytes ++ later))
    (fits : bytes.length ≤ chunkLimit) : (openLine 0x0a stream ++ bytes).length ≤ bufLimit := by
  rw [List.append_assoc] at bounded
  rw [List.length_append]
  rcases openLine_part 0x0a stream (bytes ++ later) with ⟨line, member, starts⟩ | same
  · have short := bounded.1 line member
    have longer := starts.length_le
    omega
  · have short := bounded.2
    rw [same, List.length_append, List.length_append] at short
    omega

variable {daemon : Daemon} {state : CtlConnection}

section

variable (served : Served world daemon stream state)

include served

/-- The bytes of a `read` are served behind the open line. -/
theorem Served.receive {bytes : Text} (notClosed : state.phase ≠ .closed)
    (room : (openLine 0x0a stream ++ bytes).length ≤ bufLimit) :
    Served world daemon (stream ++ bytes) (state.receive world bytes) ∧
      (state.receive world bytes).phase = state.phase := by
  have buf := served.buf
  have current := served.daemon
  rw [if_neg notClosed] at buf current
  have received : state.receive world bytes =
        { daemon :=
            (daemon.serveLines world (lines 0x0a (stream ++ bytes))).1
          buf := openLine 0x0a (stream ++ bytes)
          written :=
            (daemon.serveLines world (lines 0x0a (stream ++ bytes))).2.flatMap encodeResponse
          phase := state.phase } := by
    unfold CtlConnection.receive
    rw [buf, if_neg (Nat.not_lt.mpr room),
      serveBuffer_eq (length_lines_le _), lines_append stream bytes,
      openLine_append stream bytes, serveLines_append, current, served.written]
    simp
  rw [received]
  refine ⟨⟨rfl, ?_, ?_⟩, rfl⟩
  · exact (if_neg notClosed).symm
  · exact (if_neg notClosed).symm

theorem Served.close (notClosed : state.phase ≠ .closed) :
    Served world daemon stream state.close := by
  have current := served.daemon
  rw [if_neg notClosed] at current
  refine ⟨served.written, rfl, ?_⟩
  have closed : state.close.phase = .closed := rfl
  rw [if_pos closed, ← current]
  rfl

theorem Served.moveTo (notClosed : state.phase ≠ .closed) {phase : CtlPhase}
    (stillOpen : phase ≠ .closed) :
    Served world daemon stream { state with phase := phase } := by
  obtain ⟨written, buf, current⟩ := served
  rw [if_neg notClosed] at buf current
  refine ⟨written, ?_, ?_⟩
  · rw [if_neg stillOpen]
    exact buf
  · rw [if_neg stillOpen]
    exact current

/-- Every event of a bounded stream is served, and only its end closes. -/
theorem Served.step {later : Text} {next : CtlConnection} {event : CtlEvent}
    (bounded : Bounded (stream ++ event.bytes ++ later)) (notFailed : event ≠ .failed)
    (stepped : state.step? world event = some next) :
    Served world daemon (stream ++ event.bytes) next ∧ state.phase ≠ .closed ∧
      (next.phase = .closed ↔ event = .endOfStream) := by
  have notClosed : state.phase ≠ .closed := by
    intro closed
    simp [step?, closed] at stepped
  revert stepped
  fun_cases step? with rintro ⟨⟩
  | case1 | case5 =>
    simp only [CtlEvent.bytes, List.append_nil]
    exact ⟨served.moveTo notClosed (by decide), notClosed, by simp⟩
  | case3 bytes phase fits =>
    rw [not_or, Nat.not_lt] at fits
    dsimp only [CtlEvent.bytes] at bounded ⊢
    obtain ⟨servedNext, samePhase⟩ := served.receive notClosed (bounded.room fits.2)
    refine ⟨servedNext, notClosed, ?_⟩
    rw [samePhase, phase]
    simp
  | case4 phase =>
    simp only [CtlEvent.bytes, List.append_nil]
    exact ⟨served, notClosed, by simp [phase]⟩
  | case6 phase =>
    simp only [CtlEvent.bytes, List.append_nil]
    exact ⟨served.close notClosed, notClosed, iff_of_true rfl trivial⟩
  | case7 => exact absurd rfl notFailed

end

theorem eq_nil_of_closed {final : CtlConnection} {events : List CtlEvent}
    (closed : state.phase = .closed)
    (accepted : run? (step? world) state events = some final) :
    events = [] ∧ final = state := by
  cases events with
  | nil =>
    cases accepted
    exact ⟨rfl, rfl⟩
  | cons event rest =>
    obtain ⟨next, stepped, -⟩ := run?_cons_eq_some.mp accepted
    simp [step?, closed] at stepped

/-- The induction is over the events; the open line is the buffer. -/
theorem Served.run {final : CtlConnection} {events : List CtlEvent}
    (served : Served world daemon stream state) (notClosed : state.phase ≠ .closed)
    (bounded : Bounded (stream ++ streamOf events)) (notFailed : CtlEvent.failed ∉ events)
    (accepted : run? (step? world) state events = some final) :
    Served world daemon (stream ++ streamOf events) final ∧
      (final.phase = .closed ↔ CtlEvent.endOfStream ∈ events) := by
  induction events generalizing state stream with
  | nil =>
    cases accepted
    rw [streamOf, List.flatMap_nil, List.append_nil]
    exact ⟨served, iff_of_false notClosed List.not_mem_nil⟩
  | cons event rest inductionHypothesis =>
    obtain ⟨next, stepped, remaining⟩ := run?_cons_eq_some.mp accepted
    have parts : stream ++ streamOf (event :: rest) = stream ++ event.bytes ++ streamOf rest := by
      simp [streamOf]
    rw [List.mem_cons, not_or] at notFailed
    rw [parts] at bounded ⊢
    obtain ⟨servedNext, -, closes⟩ := served.step bounded (Ne.symm notFailed.1) stepped
    by_cases ended : next.phase = .closed
    · obtain ⟨rfl, rfl⟩ := eq_nil_of_closed ended remaining
      rw [show streamOf [] = [] from rfl, List.append_nil]
      refine ⟨servedNext, iff_of_true ended ?_⟩
      rw [closes.mp ended]
      exact List.mem_singleton_self _
    · have notEnd : event ≠ .endOfStream := by
        intro isEnd
        exact ended (closes.mpr isEnd)
      obtain ⟨servedFinal, finally_⟩ :=
        inductionHypothesis servedNext ended bounded notFailed.2 remaining
      refine ⟨servedFinal, finally_.trans ?_⟩
      simp [Ne.symm notEnd]

theorem Served.initially (daemon : Daemon) : Served world daemon [] (initial daemon) :=
  ⟨rfl, rfl, rfl⟩

/-- A daemon that has accepted one client. -/
def oneClient : Daemon := { Daemon.started with ctlConns := 1, ctlActive := 1 }

/--
The connection after an arbitrary stream: it has served an initial part, and the
whole of it while it is open.
-/
structure ServedPart
    (world : DaemonWorld)
    (daemon : Daemon)
    (stream : Text)
    (state : CtlConnection) : Prop where
  initialPart : ∃ part, part <+: stream ∧ Served world daemon part state
  open_ : state.phase ≠ .closed → Served world daemon stream state
  room : state.buf.length ≤ bufLimit

theorem ServedPart.close (served : Served world daemon stream state)
    (notClosed : state.phase ≠ .closed) (bytes : Text) :
    ServedPart world daemon (stream ++ bytes) state.close :=
  ⟨⟨stream, List.prefix_append _ _, served.close notClosed⟩, fun stillOpen => absurd rfl stillOpen,
    Nat.zero_le _⟩

theorem ServedPart.of_served (served : Served world daemon stream state)
    (room : state.buf.length ≤ bufLimit) :
    ServedPart world daemon stream state :=
  ⟨⟨stream, List.prefix_refl _, served⟩, fun _ => served, room⟩

theorem ServedPart.step {event : CtlEvent} {next : CtlConnection}
    (part : ServedPart world daemon stream state) (stepped : state.step? world event = some next) :
    ServedPart world daemon (stream ++ event.bytes) next := by
  have notClosed : state.phase ≠ .closed := by
    intro closed
    simp [step?, closed] at stepped
  have served := part.open_ notClosed
  have buf := served.buf
  rw [if_neg notClosed] at buf
  revert stepped
  fun_cases step? with rintro ⟨⟩
  | case1 | case5 =>
    rw [CtlEvent.bytes, List.append_nil]
    · exact .of_served (served.moveTo notClosed (by decide)) part.room
    · nofun
  | case3 bytes phase fits =>
    by_cases room : (openLine 0x0a stream ++ bytes).length ≤ bufLimit
    · obtain ⟨servedNext, samePhase⟩ := served.receive notClosed room
      refine .of_served servedNext ?_
      rw [servedNext.buf, samePhase, if_neg notClosed, openLine_append]
      exact Nat.le_trans (length_openLine_le _) room
    · rw [receive, buf, if_pos (Nat.not_le.mp room)]
      exact .close served notClosed bytes
  | case4 phase =>
    rw [CtlEvent.bytes, List.append_nil]
    · exact part
    · nofun
  | case6 | case7 => exact .close served notClosed _

theorem ServedPart.run {events : List CtlEvent} {final : CtlConnection}
    (part : ServedPart world daemon stream state)
    (accepted : run? (step? world) state events = some final) :
    ServedPart world daemon (stream ++ streamOf events) final := by
  induction events generalizing state stream with
  | nil =>
    cases accepted
    simpa [streamOf] using part
  | cons event rest inductionHypothesis =>
    obtain ⟨next, stepped, remaining⟩ := run?_cons_eq_some.mp accepted
    simpa [streamOf] using inductionHypothesis (part.step stepped) remaining

/--
Whatever a client sends, and even if a `read` fails: the daemon has executed the
lines of an initial part of the stream, each once and in order, and has written
their responses and nothing else.  The buffer never exceeds its limit and holds
no finished line.
-/
theorem any_client_served_in_order
    (world : DaemonWorld)
    (daemon : Daemon)
    {events : List CtlEvent}
    {final : CtlConnection}
    (accepted : run? (step? world) (initial daemon) events = some final) :
    final.buf.length ≤ bufLimit ∧
      0x0a ∉ final.buf ∧
      ∃ part, part <+: streamOf events ∧
        (final.phase ≠ .closed → part = streamOf events) ∧
        let served := daemon.serveLines world (lines 0x0a part)
        final.written = served.2.flatMap encodeResponse ∧
          final.daemon = if final.phase = .closed then served.1.closeCtlConn else served.1 := by
  have start : ServedPart world daemon [] (initial daemon) :=
    .of_served (.initially daemon) (Nat.zero_le _)
  obtain ⟨⟨part, isPart, served⟩, open_, room⟩ := start.run accepted
  have noLine : 0x0a ∉ final.buf := by
    rw [served.buf]
    split
    · exact List.not_mem_nil
    · exact terminator_notMem_openLine part
  refine ⟨room, noLine, ?_⟩
  by_cases closed : final.phase = .closed
  · exact ⟨part, isPart, fun stillOpen => absurd closed stillOpen, served.written, served.daemon⟩
  · have all := open_ closed
    exact ⟨_, List.prefix_refl _, fun _ => rfl, all.written, all.daemon⟩

/-- A whole line, the begin of another one and a `read` that fails. -/
def failingClient : List CtlEvent := [.pollIn, .chunk (ascii "help\npi"), .failed]

/-- The line before the `read` that fails is answered, and nothing else is written. -/
theorem any_client_served_in_order_failed :
    ∃ final, run? (step? DaemonWorld.quiet) (initial oneClient) failingClient = some final ∧
      final.written = encodeResponse (Daemon.errorResponse (ascii "malformed request")) ∧
      ∃ part,
        part <+: ascii "help\npi" ∧
        final.written =
          (oneClient.serveLines DaemonWorld.quiet (lines 0x0a part)).2.flatMap encodeResponse := by
  obtain ⟨final, accepted, written⟩ :=
    exists_reached_of_check (step? DaemonWorld.quiet) (initial oneClient) failingClient
      (fun final => final.written =
        encodeResponse (Daemon.errorResponse (ascii "malformed request"))) (by decide +kernel)
  obtain ⟨-, -, part, isPart, -, served, -⟩ :=
    any_client_served_in_order DaemonWorld.quiet oneClient accepted
  exact ⟨final, accepted, written, part, isPart, served⟩

end Serving

end CtlConnection

end SocksDirect
