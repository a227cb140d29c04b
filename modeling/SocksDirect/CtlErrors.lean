import SocksDirect.MonitorLoop

namespace SocksDirect

open Machine

/-!
# The error counter of the monitor

`socksdirect_ctl_errors_total`, registered as "control-plane requests that
returned ok=false".  `drain_ctl_conn` counts the lines that are no request and
`dispatch` the requests with an unknown operation, both before the answer is
written.  The other answers without `ok` are not counted: `op_shm_register` and
`op_shm_unregister` refuse their arguments, and a monitor that is draining refuses
its clients.
-/

open ByteText MonitorIpc

namespace Daemon

/-- No operation has the name. -/
def unknownOp (req : CtlRequest) : Bool :=
  req.op ∉ plainOps ∧ req.op ≠ ascii "shm-register" ∧ req.op ≠ ascii "shm-unregister"

/-- The operation refuses the arguments. -/
def badArgs (req : CtlRequest) : Bool :=
  (req.op = ascii "shm-register" ∧ (req.args.length < 3 ∨ atoi (req.args.getD 2 []) ≤ 0)) ∨
    (req.op = ascii "shm-unregister" ∧ req.args.length < 2)

/-- The line is no request, or one with an unknown operation. -/
def countedLine (line : Text) : Bool := (decodeRequest line).all unknownOp

/-- The line is a request whose operation refuses its arguments. -/
def refusedLine (line : Text) : Bool := (decodeRequest line).any badArgs

section Lines

variable (world : DaemonWorld) (daemon : Daemon)

theorem ctlErrors_dispatch (req : CtlRequest) :
    (daemon.dispatch world req).1.ctlErrors = daemon.ctlErrors + (unknownOp req).toNat := by
  have dispatched := dispatched_dispatch world daemon req
  generalize daemon.dispatch world req = result at dispatched ⊢
  cases dispatched with
  | plain isPlain _ errors _ => simp [unknownOp, isPlain, errors]
  | register isRegister => simp [unknownOp, isRegister, opShmRegister]
  | unregister isUnregister => simp [unknownOp, isUnregister, opShmUnregister]
  | unknown notPlain notRegister notUnregister =>
    simp [unknownOp, notPlain, notRegister, notUnregister]

theorem ok_opShmRegister (req : CtlRequest) : (daemon.opShmRegister world req).2.ok =
      !decide (req.args.length < 3 ∨ atoi (req.args.getD 2 []) ≤ 0) := by
  obtain ⟨op, args⟩ := req
  rcases args with _ | ⟨endpointA, _ | ⟨endpointB, _ | ⟨pidText, rest⟩⟩⟩
  · rfl
  · rfl
  · rfl
  · by_cases bad : atoi pidText ≤ 0
    · simp [opShmRegister, ShmHandshakeRegistry.opShmRegister, bad]
    · simp [opShmRegister, ShmHandshakeRegistry.opShmRegister, bad]

theorem ok_opShmUnregister (req : CtlRequest) :
    (daemon.opShmUnregister req).2.ok = !decide (req.args.length < 2) := by
  obtain ⟨op, args⟩ := req
  rcases args with _ | ⟨endpointA, _ | ⟨endpointB, rest⟩⟩
  · rfl
  · rfl
  · simp [opShmUnregister, ShmHandshakeRegistry.opShmUnregister]

/-- The requests that `dispatch` answers without `ok`. -/
theorem ok_dispatch (req : CtlRequest) :
    (daemon.dispatch world req).2.ok = !(unknownOp req || badArgs req) := by
  have different : ascii "shm-register" ≠ ascii "shm-unregister" := by decide
  have dispatched := dispatched_dispatch world daemon req
  generalize daemon.dispatch world req = result at dispatched ⊢
  cases dispatched with
  | plain isPlain isOk _ _ =>
    have notRegister : req.op ≠ ascii "shm-register" := ne_of_mem_of_not_mem isPlain (by decide)
    have notUnregister : req.op ≠ ascii "shm-unregister" := ne_of_mem_of_not_mem isPlain (by decide)
    simp [unknownOp, badArgs, isPlain, isOk, notRegister, notUnregister]
  | register isRegister =>
    rw [ok_opShmRegister]
    simp [unknownOp, badArgs, isRegister, different]
  | unregister isUnregister =>
    rw [ok_opShmUnregister]
    simp [unknownOp, badArgs, isUnregister, different.symm]
  | unknown notPlain notRegister notUnregister =>
    simp [unknownOp, notPlain, notRegister, notUnregister, errorResponse]

theorem not_refusedLine_of_countedLine {line : Text} (counted : countedLine line = true) :
    refusedLine line = false := by
  unfold countedLine at counted
  unfold refusedLine
  cases decoded : decodeRequest line with
  | none => rfl
  | some req =>
    rw [decoded] at counted
    have unknown := of_decide_eq_true counted
    simp [badArgs, unknown]

theorem ctlErrors_serveLine (line : Text) :
    (daemon.serveLine world line).1.ctlErrors = daemon.ctlErrors + (countedLine line).toNat := by
  unfold serveLine countedLine
  cases decodeRequest line with
  | none => rfl
  | some req => exact ctlErrors_dispatch world daemon req

theorem ok_serveLine (line : Text) :
    (daemon.serveLine world line).2.ok = !(countedLine line || refusedLine line) := by
  unfold serveLine countedLine refusedLine
  cases decodeRequest line with
  | none => rfl
  | some req => exact ok_dispatch world daemon req

end Lines

end Daemon

namespace MonitorLoop

/-- The responses without `ok` that have been written. -/
def failedAnswers (state : MonitorLoop) : Nat := state.answers.countP fun resp => !resp.ok

/-- The counter shows the number of responses without `ok`. -/
def ErrorsExact (state : MonitorLoop) : Prop := state.daemon.ctlErrors = state.failedAnswers

/-- The line that the loop serves next. -/
def line? (state : MonitorLoop) : Option Text :=
  match state.phase with
  | .cutting _ fd => (nextLine? (state.bufOf fd)).map Prod.fst
  | _ => none

/--
The step answers as it counts: no client is told that the monitor is draining, a
line whose arguments are refused is not answered, and a line that is counted is.
-/
def AnswersAsCounted (state : MonitorLoop) : LoopAction → Prop
  | .accept4 (.client _ written) => ¬ (state.daemon.draining ∧ written)
  | .serve written =>
    ∀ line ∈ state.line?, if written then ¬ Daemon.refusedLine line else ¬ Daemon.countedLine line
  | _ => True

/-- The condition on a step can be evaluated. -/
instance decidableAnswersAsCounted (state : MonitorLoop) (action : LoopAction) :
    Decidable (state.AnswersAsCounted action) := by
  unfold AnswersAsCounted
  split <;> infer_instance

section Steps

variable {world : DaemonWorld} {state next : MonitorLoop}

/-- One `read` of a connection is not counted. -/
theorem ErrorsExact.read {index : Nat} {fd : Int} {outcome : ReadOutcome} (good : state.ErrorsExact)
    (read : state.read? index fd outcome = some next) :
    next.ErrorsExact := by
  cases outcome with
  | chunk bytes =>
    rw [read?, Option.ite_none_left_eq_some] at read
    obtain ⟨_, received⟩ := read
    dsimp only at received
    split at received
    · cases received
      exact good
    · cases received
      exact good
  | eintr | again | endOfStream | failed =>
    cases read
    exact good

/-- A client that is accepted: a refusal that is written is not counted. -/
theorem errorsExact_accept {index : Nat} {outcome : AcceptOutcome} (good : state.ErrorsExact)
    (accepted : state.accept? index outcome = some next) :
    next.ErrorsExact ↔ state.AnswersAsCounted (.accept4 outcome) := by
  cases outcome with
  | client fd written =>
    rw [accept?, Option.ite_none_left_eq_some] at accepted
    obtain ⟨_, accepted⟩ := accepted
    split at accepted
    · rename_i draining
      cases accepted
      cases written with
      | true =>
        refine iff_of_false ?_ fun refused => refused ⟨draining, rfl⟩
        intro exactAfter
        have one_more : (state.refuse true).failedAnswers = state.failedAnswers + 1 := by
          simp [failedAnswers, refuse, Daemon.errorResponse]
        have counted : state.daemon.ctlErrors = state.failedAnswers + 1 := exactAfter.trans one_more
        rw [good] at counted
        omega
      | false =>
        refine iff_of_true good ?_
        rintro ⟨_, ⟨⟩⟩
    · rename_i notDraining
      cases accepted
      exact iff_of_true good fun refused => notDraining refused.1
  | eintr | again | failed =>
    cases accepted
    exact iff_of_true good trivial

/-- A line that is served. -/
theorem errorsExact_serve {index : Nat} {fd : Int} {written : Bool} (good : state.ErrorsExact)
    (phase : state.phase = .cutting index fd) :
    (state.serve world index fd written).ErrorsExact ↔ state.AnswersAsCounted (.serve written) := by
  have served : state.line? = (nextLine? (state.bufOf fd)).map Prod.fst := by rw [line?, phase]
  unfold serve AnswersAsCounted
  rw [served]
  cases nextLine? (state.bufOf fd) with
  | none => exact iff_of_true good nofun
  | some cut =>
    obtain ⟨line, rest⟩ := cut
    have errors := Daemon.ctlErrors_serveLine world state.daemon line
    have isOk := Daemon.ok_serveLine world state.daemon line
    simp only [Option.map_some, Option.mem_def, Option.some.injEq, forall_eq']
    cases written with
    | true =>
      have answered : ((state.daemon.serveLine world line).1.ctlErrors = (state.answers ++
                [(state.daemon.serveLine world line).2]).countP fun resp => !resp.ok) ↔
            ¬ Daemon.refusedLine line := by
        rw [errors, good, failedAnswers, List.countP_append, List.countP_singleton, isOk]
        cases counted : Daemon.countedLine line with
        | true => simp [Daemon.not_refusedLine_of_countedLine counted]
        | false => simp
      exact answered
    | false =>
      have unanswered : (state.daemon.serveLine world line).1.ctlErrors = state.failedAnswers ↔
            ¬ Daemon.countedLine line := by
        rw [errors, good]
        cases Daemon.countedLine line with
        | true | false => simp
      exact unanswered

/-- A step keeps the counter exact if it answers as it counts. -/
theorem errorsExact_step {action : LoopAction} (good : state.ErrorsExact)
    (stepped : state.step? world action = some next) :
    next.ErrorsExact ↔ state.AnswersAsCounted action := by
  revert stepped
  fun_cases step? with (intro stepped; try cases stepped)
  | case1 outcome | case4 index outcome => cases outcome <;> exact iff_of_true good trivial
  | case2 index =>
    obtain ⟨_, _, changed⟩ := visit_eq state index
    rw [changed]
    exact iff_of_true good trivial
  | case3 => exact errorsExact_accept good stepped
  | case5 => exact iff_of_true (good.read stepped) trivial
  | case6 index fd written phase => exact errorsExact_serve good phase

end Steps

/--
The counter shows the number of responses without `ok` in all states of a run
exactly if all steps of the run answer as they count.
-/
theorem errors_exact_iff_answers_as_counted
    (world : DaemonWorld)
    (daemon : Daemon)
    (controlFd signalFd : Int)
    (actions : List LoopAction)
    (final : MonitorLoop)
    (accepted : run? (step? world) (initial daemon controlFd signalFd) actions = some final) :
    (∀ state,
      ReachedBy (step? world) (initial daemon controlFd signalFd) actions state →
      state.ErrorsExact) ↔
      Along (step? world) AnswersAsCounted (initial daemon controlFd signalFd) actions := by
  have initially : (initial daemon controlFd signalFd).ErrorsExact := rfl
  refine forall_reachedBy_iff_along ?_ initially accepted
  intro state action next good stepped
  exact errorsExact_step good stepped

/-- One client, from its connection to the answer to its first line. -/
def oneAnswer (bytes : Text) : List LoopAction :=
  [.poll (.ready fun index => if index = 0 then 1 else 0), .next,
    .accept4 (.client 7 false), .accept4 .again, .next, .next, .next,
    .poll (.ready fun index => if index = 2 then 1 else 0), .next, .next,
    .next, .read (.chunk bytes), .serve true]

/-- A line that is no request is counted and answered. -/
theorem errors_exact_of_malformed_line :
    ∃ final,
      run? (step? DaemonWorld.quiet) (initial Daemon.started 3 4) (oneAnswer (ascii "help\n")) =
        some final ∧
      final.failedAnswers = 1 ∧
      final.ErrorsExact := by
  obtain ⟨final, reached, one⟩ :=
    exists_reached_of_check (step? DaemonWorld.quiet)
      (initial Daemon.started 3 4) (oneAnswer (ascii "help\n"))
      (fun state => state.failedAnswers = 1)
      (by decide +kernel)
  have allExact :=
    (errors_exact_iff_answers_as_counted DaemonWorld.quiet Daemon.started 3 4
      (oneAnswer (ascii "help\n")) final reached).mpr
      (by decide +kernel)
  exact ⟨final, reached, one, allExact final ⟨_, [], (List.append_nil _).symm, reached⟩⟩

/-- `shm-register` without arguments is answered without `ok` and not counted. -/
theorem errors_not_exact_of_missing_args :
    ∃ final,
      run? (step? DaemonWorld.quiet) (initial Daemon.started 3 4)
          (oneAnswer (encodeRequest ⟨ascii "shm-register", []⟩)) =
        some final ∧
      final.failedAnswers = 1 ∧
      final.daemon.ctlErrors = 0 ∧
      ¬ final.ErrorsExact := by
  obtain ⟨final, reached, answered, counted⟩ :=
    exists_reached_of_check (step? DaemonWorld.quiet)
      (initial Daemon.started 3 4)
      (oneAnswer (encodeRequest ⟨ascii "shm-register", []⟩))
      (fun state => state.failedAnswers = 1 ∧ state.daemon.ctlErrors = 0)
      (by decide +kernel)
  refine ⟨final, reached, answered, counted, ?_⟩
  unfold ErrorsExact
  rw [answered, counted]
  decide

end MonitorLoop

end SocksDirect
