import SocksDirect.MonitorIpcRoundTrip
import SocksDirect.ShmHandshake

namespace SocksDirect

/-!
# How the two ends of a connection get a key

The client side is `request_key_from_monitor` in `src/lib/shm_conn.cpp`, the
monitor side is `dispatch` with `op_shm_register` and `op_shm_unregister` in
`src/monitor/main.cpp`.  A request travels as one line of the control protocol
and so does its response.  The other operations of the monitor do not touch the
registry; their responses are a parameter.
-/

open ByteText MonitorIpc

namespace ShmHandshakeRegistry

/-- `op_shm_register`. -/
def opShmRegister (rng : RandomStream) (registry : ShmHandshakeRegistry)
    (req : CtlRequest) : ShmHandshakeRegistry × CtlResponse :=
  match req.args with
  | endpointA :: endpointB :: pidText :: _ =>
    let pid := atoi pidText
    if pid ≤ 0 then
      (registry, ⟨false, [], ascii "shm-register: bad pid"⟩)
    else
      let (registry, res) := registry.registerEndpoint rng (ConnId.make endpointA endpointB) pid
      (registry,
        { ok := true
          lines :=
            [ascii "shm_key=" ++ decimal res.key.toNat, if res.role = .kCreator then
                ascii "role=creator"
              else
                ascii "role=joiner",
              ascii "pid_a=" ++ formatInt res.pidA ++ ascii " pid_b=" ++ formatInt res.pidB]
          error := [] })
  | _ => (registry, ⟨false, [], ascii "usage: shm-register <endpoint_a> <endpoint_b> <pid>"⟩)

/-- `op_shm_unregister`. -/
def opShmUnregister (registry : ShmHandshakeRegistry)
    (req : CtlRequest) : ShmHandshakeRegistry × CtlResponse :=
  match req.args with
  | endpointA :: endpointB :: _ =>
    let (registry, removed) := registry.unregisterEndpoint (ConnId.make endpointA endpointB)
    (registry, ⟨true, [if removed then ascii "removed" else ascii "not_present"], []⟩)
  | _ => (registry, ⟨false, [], ascii "usage: shm-unregister <endpoint_a> <endpoint_b>"⟩)

section Service

variable (rng : RandomStream) (otherOp : CtlRequest → CtlResponse)

/-- `dispatch`, as far as the registry is concerned. -/
def dispatch (registry : ShmHandshakeRegistry)
    (req : CtlRequest) : ShmHandshakeRegistry × CtlResponse :=
  if req.op = ascii "shm-register" then
    registry.opShmRegister rng req
  else if req.op = ascii "shm-unregister" then
    registry.opShmUnregister req
  else
    (registry, otherOp req)

/-- What `drain_ctl_conn` does with one line. -/
def serveLine (registry : ShmHandshakeRegistry)
    (line : Text) : ShmHandshakeRegistry × CtlResponse :=
  match decodeRequest line with
  | none => (registry, ⟨false, [], ascii "malformed request"⟩)
  | some req => registry.dispatch rng otherOp req

/--
What `drain_ctl_conn` does for a client that sends one line: the new registry and
the bytes it writes.  A client that exceeds the limit is dropped.
-/
def answer (registry : ShmHandshakeRegistry) (sent : Text) : ShmHandshakeRegistry × Text :=
  if lineLimit < sent.length then
    (registry, [])
  else
    let (registry, response) := registry.serveLine rng otherOp (cutLine sent)
    (registry, encodeResponse response)

/-- The registry after the monitor has served several lines. -/
def serveLines (registry : ShmHandshakeRegistry) (lines : List Text) : ShmHandshakeRegistry :=
  lines.foldl (fun registry line => (registry.serveLine rng otherOp line).1) registry

end Service

end ShmHandshakeRegistry

namespace KeyRequest

/-- `canonical`: the two endpoints in lexicographic order. -/
def canonical (x y : Text) : Text × Text := if ByteText.less x y then (x, y) else (y, x)

/-- The request that `request_key_from_monitor` sends. -/
def registerRequest (localEp peerEp : Text) (pid : Int32) : CtlRequest where
  op := ascii "shm-register"
  args := [(canonical localEp peerEp).1, (canonical localEp peerEp).2, formatInt pid]

/-- The locals of the loop over the response lines. -/
structure Answer where
  key : UInt64
  isCreator : Bool
  gotKey : Bool
  gotRole : Bool
  deriving Repr, DecidableEq

/-- One response line. -/
def Answer.readLine (answer : Answer) (line : Text) : Answer :=
  if line.take 8 = ascii "shm_key=" then
    { answer with key := strtoull (line.drop 8), gotKey := true }
  else if line = ascii "role=creator" then
    { answer with isCreator := true, gotRole := true }
  else if line = ascii "role=joiner" then
    { answer with isCreator := false, gotRole := true }
  else
    answer

/-- What the client makes of a decoded response: key and `is_creator`. -/
def readResponse : Option CtlResponse → Option (UInt64 × Bool)
  | none => none
  | some resp =>
    if resp.ok then
      let answer := resp.lines.foldl Answer.readLine ⟨0, false, false, false⟩
      if !answer.gotKey || !answer.gotRole || answer.key = 0 then
        none
      else
        some (answer.key, answer.isCreator)
    else
      none

/--
`request_key_from_monitor` against a monitor with the given registry: the new
registry, and key and `is_creator` unless the call fails.
-/
def requestKeyFromMonitor (rng : RandomStream) (otherOp : CtlRequest → CtlResponse)
    (registry : ShmHandshakeRegistry) (localEp peerEp : Text) (pid : Int32) :
    ShmHandshakeRegistry × Option (UInt64 × Bool) :=
  let (registry, received) :=
    registry.answer rng otherOp (encodeRequest (registerRequest localEp peerEp pid))
  (registry, readResponse (decodeResponse (MonitorIpc.readLine received)))

theorem make_canonical (x y : Text) :
    ConnId.make (canonical x y).1 (canonical x y).2 = ConnId.make x y := by
  unfold canonical
  split
  · rfl
  · exact ConnId.make_comm y x

private theorem readLine_key (answer : Answer) (key : UInt64) :
    answer.readLine (ascii "shm_key=" ++ decimal key.toNat) =
      { answer with key := key, gotKey := true } := by
  have label : (ascii "shm_key=").length = 8 := by decide
  have taken : (ascii "shm_key=" ++ decimal key.toNat).take 8 = ascii "shm_key=" := by
    rw [← label, List.take_left]
  have dropped : (ascii "shm_key=" ++ decimal key.toNat).drop 8 = decimal key.toNat := by
    rw [← label, List.drop_left]
  rw [Answer.readLine, if_pos taken, dropped, strtoull_decimal]

private theorem readLine_role (answer : Answer) (role : HandshakeRole) : answer.readLine
        (if role = .kCreator then ascii "role=creator" else ascii "role=joiner") =
      { answer with isCreator := role = .kCreator, gotRole := true } := by
  have notKey : (ascii "role=creator").take 8 ≠ ascii "shm_key=" ∧
        (ascii "role=joiner").take 8 ≠ ascii "shm_key=" ∧
        ascii "role=joiner" ≠ ascii "role=creator" := by
    decide
  cases role with
  | kCreator => simp [Answer.readLine, notKey.1]
  | kJoiner => simp [Answer.readLine, notKey.2]

private theorem readLine_pids (answer : Answer) (rest : Text) :
    answer.readLine (ascii "pid_a=" ++ rest) = answer := by
  have startsWithP : ascii "pid_a=" ++ rest = 0x70 :: (ascii "id_a=" ++ rest) := rfl
  have keyLine : ascii "shm_key=" = 0x73 :: ascii "hm_key=" := by decide
  have roleLines : ascii "role=creator" = 0x72 :: ascii "ole=creator" ∧
        ascii "role=joiner" = 0x72 :: ascii "ole=joiner" := by
    decide
  rw [startsWithP, Answer.readLine, keyLine, roleLines.1, roleLines.2]
  simp

/--
The monitor's buffer takes the whole request, so that it gets as far as
`decode_request`.
-/
def Carried (localEp peerEp : Text) (pid : Int32) : Prop :=
  (encodeRequest (registerRequest localEp peerEp pid)).length ≤ lineLimit

private theorem length_formatInt_le (i : Int32) : (formatInt i).length ≤ 11 := by
  have bounds := i.le_toInt
  have bounds' := i.toInt_lt
  have digits : (decimal i.toInt.natAbs).length ≤ 10 := by
    rw [decimal, List.length_map, Nat.length_toDigits_le_iff (by decide) (by decide)]
    omega
  unfold formatInt
  split
  · rw [List.length_cons]
    omega
  · omega

private theorem length_decimal_le (key : UInt64) : (decimal key.toNat).length ≤ 20 := by
  have bound := key.toNat_lt
  rw [decimal, List.length_map, Nat.length_toDigits_le_iff (by decide) (by decide)]
  omega

/-- The response to a registration is a short line. -/
private theorem length_registered_le (res : HandshakeResult) : (encodeResponse
      { ok := true
        lines :=
          [ascii "shm_key=" ++ decimal res.key.toNat, if res.role = .kCreator then
              ascii "role=creator"
            else
              ascii "role=joiner",
            ascii "pid_a=" ++ formatInt res.pidA ++ ascii " pid_b=" ++ formatInt res.pidB]
        error := [] }).length ≤ lineLimit := by
  have key := length_decimal_le res.key
  have pidA := length_formatInt_le res.pidA
  have pidB := length_formatInt_le res.pidB
  have role : (if res.role = .kCreator then
          ascii "role=creator"
        else
          ascii "role=joiner").length ≤ 12 := by
    split <;> decide
  have labels : (ascii "shm_key=").length = 8 ∧ (ascii "pid_a=").length = 6 ∧
        (ascii " pid_b=").length = 7 ∧ lineLimit = 1048576 := by
    decide
  obtain ⟨keyLabel, labelA, labelB, limit⟩ := labels
  refine Nat.le_trans (length_encodeResponse_ok_le _ _) ?_
  simp only [encodedLength, List.map_cons, List.map_nil, List.sum_cons,
    List.sum_nil, List.length_append]
  omega

/-- Endpoints as `format_endpoint` writes them give a request that the monitor takes. -/
theorem carried_of_length_lt {x y : Text} (pid : Int32) (shortX : x.length < 64)
    (shortY : y.length < 64) :
    Carried x y pid := by
  have bound := length_encodeRequest_le (registerRequest x y pid)
  have op : (ascii "shm-register").length = 12 := by decide
  have pidText := length_formatInt_le pid
  have limit : lineLimit = 1048576 := by decide
  have args : encodedLength (registerRequest x y pid).args =
        6 * x.length + 6 * y.length + 6 * (formatInt pid).length + 9 := by
    simp only [registerRequest, canonical, encodedLength]
    split
    all_goals
      simp only [List.map_cons, List.map_nil, List.sum_cons, List.sum_nil]
      omega
  simp only [registerRequest] at bound args
  unfold Carried
  simp only [registerRequest]
  omega

/-- One exchange: the client is told the key and the role of the registration. -/
theorem requestKeyFromMonitor_eq (rng : RandomStream) (otherOp : CtlRequest → CtlResponse)
    (registry : ShmHandshakeRegistry) {x y : Text} {pid : Int32} (positive : 0 < pid)
    (carried : Carried x y pid) :
    requestKeyFromMonitor rng otherOp registry x y pid =
      ((registry.registerEndpoint rng (ConnId.make x y) pid).1,
        let res := (registry.registerEndpoint rng (ConnId.make x y) pid).2
        if res.key = 0 then
          none
        else
          some (res.key, decide (res.role = .kCreator))) := by
  have notNegative : 0 ≤ pid.toInt := by
    have order := Int32.lt_iff_toInt_lt.mp positive
    simp only [Int32.toInt_zero] at order
    omega
  have notBad : ¬ pid ≤ 0 := Int32.not_le.mpr positive
  have served : registry.serveLine rng otherOp
          (cutLine (encodeRequest (registerRequest x y pid))) =
        registry.opShmRegister rng (registerRequest x y pid) := by
    rw [ShmHandshakeRegistry.serveLine, (decodeRequest_encodeRequest (registerRequest x y pid)).2]
    simp [ShmHandshakeRegistry.dispatch, registerRequest]
  rw [requestKeyFromMonitor, ShmHandshakeRegistry.answer, if_neg (Nat.not_lt.mpr carried), served]
  simp only [ShmHandshakeRegistry.opShmRegister, registerRequest,
    atoi_formatInt notNegative, if_neg notBad, make_canonical]
  refine Prod.ext rfl ?_
  generalize (registry.registerEndpoint rng (ConnId.make x y) pid).2 = res
  rw [readLine_of_length_le (length_registered_le res), decodeResponse_encodeResponse]
  simp only [readResponse, if_true, List.foldl_cons, List.foldl_nil,
    List.append_assoc, readLine_key, readLine_role, readLine_pids]
  simp

end KeyRequest

end SocksDirect
