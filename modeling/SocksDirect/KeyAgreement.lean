import SocksDirect.KeyExchange

namespace SocksDirect

/-!
# One key and opposite roles

The monitor serves one request line after another.  A line changes the registry
only by registering or by unregistering the pair that it names, so the entry of
a pair stays as it is while lines about other pairs are served.  The two clients
of a connection therefore meet at one entry, whatever is served in between.
-/

open ByteText MonitorIpc

namespace ShmHandshakeRegistry

/-- The line is a request with this operation about this pair. -/
def Concerns (op : Text) (id : ConnId) (line : Text) : Prop :=
  ∃ endpointA endpointB rest, decodeRequest line = some ⟨op, endpointA :: endpointB :: rest⟩ ∧
      ConnId.make endpointA endpointB = id

/-- The line neither registers nor unregisters the pair. -/
def Foreign (id : ConnId) (line : Text) : Prop :=
  ¬ Concerns (ascii "shm-register") id line ∧ ¬ Concerns (ascii "shm-unregister") id line

/-- What one line does to the registry. -/
inductive LineEffect
    (rng : RandomStream)
    (registry : ShmHandshakeRegistry)
    (line : Text) :
    ShmHandshakeRegistry → Prop where
  | unchanged : LineEffect rng registry line registry
  | registers {id : ConnId} {pid : Int32} : Concerns (ascii "shm-register") id line →
      LineEffect rng registry line (registry.registerEndpoint rng id pid).1
  | unregisters {id : ConnId} : Concerns (ascii "shm-unregister") id line →
      LineEffect rng registry line (registry.unregisterEndpoint id).1

variable (rng : RandomStream) (otherOp : CtlRequest → CtlResponse) (registry : ShmHandshakeRegistry)

/-- What a line can do to the registry, by the operation that it asks for. -/
theorem serveLine_effect (line : Text) :
    LineEffect rng registry line (registry.serveLine rng otherOp line).1 := by
  rw [serveLine]
  cases decoded : decodeRequest line with
  | none => exact .unchanged
  | some req =>
    obtain ⟨op, args⟩ := req
    simp only [dispatch]
    split
    · rename_i isRegister
      subst isRegister
      simp only [opShmRegister]
      split
      · split
        · exact .unchanged
        · exact .registers ⟨_, _, _, decoded, rfl⟩
      · exact .unchanged
    · split
      · rename_i isUnregister
        subst isUnregister
        simp only [opShmUnregister]
        split
        · exact .unregisters ⟨_, _, _, decoded, rfl⟩
        · exact .unchanged
      · exact .unchanged

variable {id : ConnId}

theorem serveLine_foreign {line : Text} (foreign : Foreign id line) :
    (registry.serveLine rng otherOp line).1.active[id]? = registry.active[id]? := by
  have effect := serveLine_effect rng otherOp registry line
  generalize (registry.serveLine rng otherOp line).1 = after at effect
  cases effect with
  | unchanged => rfl
  | @registers other pid concerns =>
    apply registerEndpoint_other
    rintro rfl
    exact foreign.1 concerns
  | @unregisters other concerns =>
    have different : id ≠ other := by
      rintro rfl
      exact foreign.2 concerns
    rw [unregisterEndpoint_lookup, if_neg different]

/-- A complete entry survives every line that does not unregister its pair. -/
theorem serveLine_complete {line : Text} {entry : HandshakeEntry}
    (kept : ¬ Concerns (ascii "shm-unregister") id line)
    (present : registry.active[id]? = some entry) (complete : entry.joinerPid ≠ 0) :
    (registry.serveLine rng otherOp line).1.active[id]? = some entry := by
  by_cases registers : Concerns (ascii "shm-register") id line
  · have effect := serveLine_effect rng otherOp registry line
    generalize (registry.serveLine rng otherOp line).1 = after at effect
    cases effect with
    | unchanged => exact present
    | @registers other pid _ =>
      by_cases same : id = other
      · subst same
        have again := registerEndpoint_again rng registry present pid
        rw [again.2.2, if_neg complete]
      · rw [registerEndpoint_other rng registry same, present]
    | @unregisters other concerns =>
      have different : id ≠ other := by
        rintro rfl
        exact kept concerns
      rw [unregisterEndpoint_lookup, if_neg different, present]
  · rw [serveLine_foreign rng otherOp registry ⟨registers, kept⟩, present]

theorem serveLines_foreign {lines : List Text} (foreign : ∀ line ∈ lines, Foreign id line) :
    (registry.serveLines rng otherOp lines).active[id]? = registry.active[id]? := by
  induction lines generalizing registry with
  | nil => rfl
  | cons line lines inductionHypothesis =>
    have tail :=
      inductionHypothesis (registry.serveLine rng otherOp line).1
        (fun other member => foreign other (List.mem_cons_of_mem line member))
    have head := serveLine_foreign rng otherOp registry (foreign line List.mem_cons_self)
    exact tail.trans head

theorem serveLines_complete {lines : List Text} {entry : HandshakeEntry}
    (kept : ∀ line ∈ lines, ¬ Concerns (ascii "shm-unregister") id line)
    (present : registry.active[id]? = some entry) (complete : entry.joinerPid ≠ 0) :
    (registry.serveLines rng otherOp lines).active[id]? = some entry := by
  induction lines generalizing registry with
  | nil => exact present
  | cons line lines inductionHypothesis =>
    apply inductionHypothesis (registry.serveLine rng otherOp line).1
    · intro other member
      exact kept other (List.mem_cons_of_mem line member)
    · exact serveLine_complete rng otherOp registry (kept line List.mem_cons_self) present complete

end ShmHandshakeRegistry

namespace KeyRequest

open ShmHandshakeRegistry

variable (rng : RandomStream) (otherOp : CtlRequest → CtlResponse) {registry : ShmHandshakeRegistry}

theorem requestKeyFromMonitor_first {x y : Text} {pid : Int32}
    (absent : registry.active[ConnId.make x y]? = none) (positive : 0 < pid)
    (carried : Carried x y pid) :
    ∃ key, key ≠ 0 ∧ (requestKeyFromMonitor rng otherOp registry x y pid).2 = some (key, true) ∧
      (requestKeyFromMonitor rng otherOp registry x y pid).1.active[
      ConnId.make x y]? = some ⟨key, pid, 0⟩ := by
  obtain ⟨key, nonzero, result, entry⟩ := registerEndpoint_first rng registry absent pid
  rw [requestKeyFromMonitor_eq rng otherOp registry positive carried]
  refine ⟨key, nonzero, ?_, entry⟩
  simp only [result]
  rw [if_neg nonzero]
  rfl

theorem requestKeyFromMonitor_again
    {x y : Text}
    {pid : Int32}
    {entry : HandshakeEntry}
    (present : registry.active[ConnId.make x y]? = some entry)
    (nonzero : entry.key ≠ 0)
    (positive : 0 < pid)
    (carried : Carried x y pid) :
    (requestKeyFromMonitor rng otherOp registry x y pid).2 = some (entry.key, false) ∧
      (requestKeyFromMonitor rng otherOp registry x y pid).1.active[ConnId.make x y]? =
        some (if entry.joinerPid = 0 then { entry with joinerPid := pid } else entry) := by
  obtain ⟨key, role, joined⟩ := registerEndpoint_again rng registry present pid
  rw [requestKeyFromMonitor_eq rng otherOp registry positive carried]
  refine ⟨?_, joined⟩
  simp only [key, role]
  rw [if_neg nonzero]
  rfl

/--
The two clients of a connection, in whichever order they come, agree on one key
and get opposite roles.  Before and between them the monitor may serve any lines
about other pairs.  Afterwards every further client of the pair joins and the
recorded pids stay, while nothing unregisters the pair.  Unregistering removes
exactly the entry of its pair, and reaping exactly the entries of its pid.
-/
theorem key_agreement
    (registry : ShmHandshakeRegistry)
    (x y : Text)
    (p q : Int32)
    (before between : List Text)
    (unregistered : registry.active[ConnId.make x y]? = none)
    (positiveP : 0 < p)
    (positiveQ : 0 < q)
    (carriedP : Carried x y p)
    (carriedQ : Carried y x q)
    (foreignBefore : ∀ line ∈ before, Foreign (ConnId.make x y) line)
    (foreignBetween : ∀ line ∈ between, Foreign (ConnId.make x y) line) :
    let first := requestKeyFromMonitor rng otherOp (registry.serveLines rng otherOp before) x y p
    let second := requestKeyFromMonitor rng otherOp (first.1.serveLines rng otherOp between) y x q
    ∃ key, key ≠ 0 ∧ first.2 = some (key, true) ∧ second.2 = some (key, false) ∧
        second.1.active[ConnId.make x y]? = some ⟨key, p, q⟩ ∧
        (∀ (later : List Text) (u v : Text) (pid : Int32),
          (∀ line ∈ later, ¬ Concerns (ascii "shm-unregister") (ConnId.make x y) line) →
          ConnId.make u v = ConnId.make x y → 0 < pid → Carried u v pid →
          let further :=
            requestKeyFromMonitor rng otherOp (second.1.serveLines rng otherOp later) u v pid
          further.2 = some (key, false) ∧ further.1.active[ConnId.make x y]? = some ⟨key, p, q⟩) ∧
        (∀ (current : ShmHandshakeRegistry) (other : ConnId),
          (current.unregisterEndpoint (ConnId.make x y)).1.active[other]? =
              (if other = ConnId.make x y then
                none
              else
                current.active[other]?) ∧ (current.unregisterEndpoint (ConnId.make x y)).2 =
              current.active[ConnId.make x y]?.isSome) ∧
        (∀ (current : ShmHandshakeRegistry) (pid : Int32) (other : ConnId),
          (current.reapPid pid).1.active[other]? = current.active[other]?.filter fun entry =>
              entry.creatorPid ≠ pid ∧ entry.joinerPid ≠ pid) := by
  intro first second
  have absent : (registry.serveLines rng otherOp before).active[ConnId.make x y]? = none := by
    rw [serveLines_foreign rng otherOp registry foreignBefore, unregistered]
  obtain ⟨key, nonzero, creator, created⟩ :=
    requestKeyFromMonitor_first rng otherOp absent positiveP carriedP
  have kept :
      (first.1.serveLines rng otherOp between).active[ConnId.make y x]? = some ⟨key, p, 0⟩ := by
    rw [ConnId.make_comm y x, serveLines_foreign rng otherOp first.1 foreignBetween]
    exact created
  obtain ⟨joiner, joined⟩ := requestKeyFromMonitor_again rng otherOp kept nonzero positiveQ carriedQ
  rw [if_pos rfl, ConnId.make_comm y x] at joined
  have qNonzero : q ≠ 0 := by
    rintro rfl
    exact absurd positiveQ (by decide)
  refine ⟨key, nonzero, creator, joiner, joined, ?_, ?_, ?_⟩
  · intro later u v pid keeps same positive carried further
    have present := serveLines_complete rng otherOp second.1 keeps joined qNonzero
    rw [← same] at present ⊢
    have again := requestKeyFromMonitor_again rng otherOp present nonzero positive carried
    rw [if_neg qNonzero] at again
    exact again
  · intro current other
    exact ⟨unregisterEndpoint_lookup current _ other, unregisterEndpoint_result current _⟩
  · intro current pid other
    have spared : (fun entry : HandshakeEntry =>
            decide (entry.creatorPid ≠ pid ∧ entry.joinerPid ≠ pid)) =
          fun entry => !entry.hasPid pid := by
      funext entry
      simp [HandshakeEntry.hasPid]
    rw [spared]
    exact reapPid_lookup current pid other

/-- A generator that always draws 7. -/
def sevens : RandomStream where
  draw := fun _ => 7
  patience := fun _ => 0
  productive := by
    intro i
    decide

/-- A request line about another pair. -/
def unrelatedLine : Text := ascii "\x7b\"op\":\"shm-register\",\"args\":[\"a\",\"b\",\"5\"]\x7d"

/--
Two processes on a fresh monitor; between their requests it serves a
registration of another pair.
-/
theorem key_agreement_on_loopback :
    let client := ascii "127.0.0.1:40000"
    let server := ascii "127.0.0.1:80"
    let first :=
      requestKeyFromMonitor sevens (fun _ => ⟨true, [], []⟩)
        ShmHandshakeRegistry.empty client server 11
    let second :=
      requestKeyFromMonitor sevens (fun _ => ⟨true, [], []⟩)
        (first.1.serveLines sevens (fun _ => ⟨true, [], []⟩) [unrelatedLine])
        server client 12
    ∃ key, key ≠ 0 ∧ first.2 = some (key, true) ∧ second.2 = some (key, false) := by
  intro client server
  have other : decodeRequest unrelatedLine =
        some ⟨ascii "shm-register", [ascii "a", ascii "b", ascii "5"]⟩ := by
    decide +kernel
  have agreement :=
    key_agreement sevens (fun _ => ⟨true, [], []⟩)
      ShmHandshakeRegistry.empty client server 11 12 []
      [unrelatedLine] rfl (by decide) (by decide)
      (carried_of_length_lt 11 (by decide) (by decide))
      (carried_of_length_lt 12 (by decide) (by decide))
      (by simp)
      (by
        intro line member
        rw [List.mem_singleton.mp member]
        constructor
        · rintro ⟨a, b, rest, decoded, same⟩
          simp only [other, Option.some.injEq, CtlRequest.mk.injEq, List.cons.injEq] at decoded
          obtain ⟨-, rfl, rfl, -⟩ := decoded
          exact absurd same (by decide)
        · rintro ⟨a, b, rest, decoded, same⟩
          simp only [other, Option.some.injEq, CtlRequest.mk.injEq] at decoded
          exact absurd decoded.1 (by decide))
  obtain ⟨key, nonzero, creator, joiner, -⟩ := agreement
  exact ⟨key, nonzero, creator, joiner⟩

end KeyRequest

end SocksDirect
