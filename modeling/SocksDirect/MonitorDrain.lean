import SocksDirect.MonitorRound

namespace SocksDirect

open Machine

/-!
# A monitor that is draining

`op_drain` sets a flag that the accept loop of `main` reads.  In whatever order
the requests of the clients are served, nothing clears the flag again.
-/

open ByteText MonitorIpc

theorem Daemon.draining_serveLine {daemon : Daemon} (draining : daemon.draining = true)
    (world : DaemonWorld) (line : Text) :
    (daemon.serveLine world line).1.draining = true := by
  unfold serveLine
  split
  · exact draining
  · simp only [dispatch, apply_ite Prod.fst, apply_ite Daemon.draining, opDrain, opReload,
      opShmRegister, opShmUnregister, draining, ite_self]

namespace MonitorLoop

variable {world : DaemonWorld} {state next : MonitorLoop} {action : LoopAction}

/-- The drain flag changes only by a line that is served. -/
theorem draining_of_step (draining : state.daemon.draining = true)
    (stepped : state.step? world action = some next) :
    next.daemon.draining = true := by
  revert stepped
  fun_cases step? with (intro stepped; try cases stepped)
  | case1 outcome | case4 _ outcome => cases outcome <;> exact draining
  | case2 index =>
    obtain ⟨phase, drained, same⟩ := visit_eq state index
    rw [same]
    exact draining
  | case3 index outcome =>
    revert stepped
    fun_cases accept? with rintro ⟨⟩
    | case2 fd written => cases written <;> exact draining
    | case3 | case4 | case5 | case6 => exact draining
  | case5 index fd outcome =>
    revert stepped
    fun_cases read? <;> rintro ⟨⟩ <;> exact draining
  | case6 index fd written =>
    fun_cases serve with
    | case1 => exact draining
    | case2 | case3 => exact Daemon.draining_serveLine draining world _

theorem conns_of_accepting {index : Nat} (draining : state.daemon.draining = true)
    (phase : state.phase = .accepting index) (stepped : state.step? world action = some next) :
    next.ctlConns = state.ctlConns := by
  revert stepped
  fun_cases step? with (intro stepped; try simp_all)
  | case3 index outcome =>
    revert stepped
    fun_cases accept? with rintro ⟨⟩
    | case2 fd written => cases written <;> rfl
    -- The only branch that enters a client is behind the test of the flag.
    | case3 fd written fresh notDraining => exact absurd draining notDraining
    | case4 | case5 | case6 => rfl

/-- A monitor that is draining enters nobody into its table. -/
theorem Invariant.mem_conns_of_draining (invariant : state.Invariant)
    (draining : state.daemon.draining = true) (stepped : state.step? world action = some next)
    {fd : Int} (member : fd ∈ next.ctlConns) :
    fd ∈ state.ctlConns := by
  cases effect_of_step invariant.conn stepped with
  | poll outcome _ same =>
    subst same
    cases outcome <;> exact member
  | visit index _ same =>
    obtain ⟨phase, drained, visited⟩ := visit_eq state index
    rw [same, visited] at member
    exact member
  | stay _ _ _ _ _ same => exact same.keys.mem_iff.mp member
  | leave _ _ same =>
    subst same
    exact member
  | addConn index other phase => rwa [conns_of_accepting draining phase stepped] at member
  | drop index other before _ _ same dropped =>
    subst dropped
    exact same.keys.mem_iff.mp (AList.mem_erase.mp member).2

/-- A later state of a monitor that is draining. -/
structure Drains (first later : MonitorLoop) : Prop where
  invariant : later.Invariant
  draining : later.daemon.draining = true
  part : ∀ fd ∈ later.ctlConns, fd ∈ first.ctlConns

theorem Drains.step {first : MonitorLoop} (drains : Drains first state)
    (stepped : state.step? world action = some next) :
    Drains first next where
  invariant := drains.invariant.step stepped
  draining := draining_of_step drains.draining stepped
  part := by
    intro fd member
    exact drains.part fd (drains.invariant.mem_conns_of_draining drains.draining stepped member)

/--
In every run of the event loop: once the monitor is draining it stays so,
whatever its clients send, and its connections are from then on some of those
that it has.
-/
theorem drain_is_final
    (world : DaemonWorld)
    (daemon : Daemon)
    {controlFd signalFd : Int}
    (apart : controlFd ≠ signalFd)
    {before after : List LoopAction}
    {state final : MonitorLoop}
    (reached : run? (step? world) (initial daemon controlFd signalFd) before = some state)
    (draining : state.daemon.draining = true)
    (goesOn : run? (step? world) state after = some final) :
    final.daemon.draining = true ∧
      ∀ fd ∈ final.ctlConns, fd ∈ state.ctlConns := by
  have invariant := (((listed_initial daemon apart).invariant rfl).run reached).1
  have drains : Drains state final :=
    invariant_of_run ⟨invariant, draining, fun _ => id⟩ (fun drains stepped => drains.step stepped)
      goesOn
  exact ⟨drains.draining, drains.part⟩

/-- A client connects, sends a line and gets its answer. -/
def servedClient (line : Text) : List LoopAction :=
  [.poll (.ready fun index => if index = 0 then 1 else 0), .next,
    .accept4 (.client 7 false), .accept4 .again, .next, .next, .next,
    .poll (.ready fun index => if index = 2 then 1 else 0), .next, .next,
    .next, .read (.chunk line), .serve true]

/-- The rest of the round, and a second client in the next one. -/
def secondClient : List LoopAction :=
  [.serve true, .read .again, .next, .poll (.ready fun index => if index = 0 then 1 else 0), .next,
    .accept4 (.client 8 true), .accept4 .again, .next]

/--
The first client's line is `drain`: the second client is refused, and the first
one stays connected.
-/
theorem drain_is_final_refused :
    ∃ state,
      run? (step? DaemonWorld.quiet) (initial Daemon.started 3 4)
          (servedClient (encodeRequest ⟨ascii "drain", []⟩)) =
        some state ∧
      ∃ final,
        run? (step? DaemonWorld.quiet) state secondClient = some final ∧
        final.daemon.draining = true ∧
        7 ∈ final.ctlConns ∧
        8 ∉ final.ctlConns := by
  obtain ⟨state, served, draining, only, checked⟩ :=
    exists_reached_of_check (step? DaemonWorld.quiet) (initial Daemon.started 3 4)
      (servedClient (encodeRequest ⟨ascii "drain", []⟩))
      (fun state =>
        state.daemon.draining = true ∧ state.ctlConns.keys = [7] ∧
          ((run? (step? DaemonWorld.quiet) state secondClient).any
            fun final => decide (7 ∈ final.ctlConns)) = true)
      (by decide +kernel)
  obtain ⟨final, goesOn, kept⟩ :=
    exists_reached_of_check (step? DaemonWorld.quiet) state secondClient
      (fun final => 7 ∈ final.ctlConns) checked
  have spec := drain_is_final DaemonWorld.quiet Daemon.started (by decide) served draining goesOn
  refine ⟨state, served, final, goesOn, spec.1, kept, ?_⟩
  intro member
  have listed := AList.mem_keys.mp (spec.2 8 member)
  simp [only] at listed

end MonitorLoop

end SocksDirect
