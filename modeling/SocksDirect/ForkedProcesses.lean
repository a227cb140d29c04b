import SocksDirect.FdTracking

namespace SocksDirect

/-!
# Connections that a fork inherits

`fork` of `src/lib/process_api.cpp` leaves everything to the kernel: the child
gets a copy of the descriptors, of the descriptor table and of the registry,
while the header of a segment stays shared.  Afterwards all processes call
`close`, in any order, and may fork again.  The end of the peer is one process
that may close its side at any time.

No process but the one that attached is counted in the header.
-/

/-- The part of a segment that both ends see, and whether the peer has its end open. -/
structure ConnSegment where
  outboundClosed : Bool
  refcount : Int
  peerOpen : Bool
  deriving Repr, DecidableEq

namespace ConnSegment

/-- A segment to which both ends have attached. -/
def attached : ConnSegment where
  outboundClosed := false
  refcount := 2
  peerOpen := true

/-- `ShmSegment::close` in a process of this end. -/
def close (segment : ConnSegment) : ConnSegment :=
  { segment with outboundClosed := true, refcount := segment.refcount - 1 }

/-- `ShmSegment::close` in the peer. -/
def peerClose (segment : ConnSegment) : ConnSegment :=
  { segment with refcount := segment.refcount - 1, peerOpen := false }

/-- The references that the peer holds. -/
def peerRefs (segment : ConnSegment) : Int := if segment.peerOpen then 1 else 0

/-- The peer's reference and, until a process has closed it, one of this end. -/
def Referenced (segment : ConnSegment) : Prop :=
  segment.refcount ≤
      segment.peerRefs + (if segment.outboundClosed then 0 else 1) ∧
    (segment.outboundClosed = false → segment.refcount = segment.peerRefs + 1)

theorem attached_referenced : attached.Referenced := by
  exact ⟨by decide, by decide⟩

theorem Referenced.close {segment : ConnSegment} (referenced : segment.Referenced) :
    segment.close.Referenced := by
  refine ⟨?_, fun isOpen => by cases isOpen⟩
  have before := referenced.1
  have afterwards : segment.close.peerRefs = segment.peerRefs := rfl
  have count : segment.close.refcount = segment.refcount - 1 := rfl
  rw [afterwards, count, show segment.close.outboundClosed = true from rfl]
  split at before
  · omega
  · omega

/-- Closing the other end takes the peer's reference away. -/
theorem Referenced.peerClose {segment : ConnSegment} (referenced : segment.Referenced)
    (peerOpen : segment.peerOpen = true) :
    segment.peerClose.Referenced := by
  have before : segment.peerRefs = 1 := by
    rw [peerRefs, peerOpen]
    rfl
  obtain ⟨atMost, exact⟩ := referenced
  rw [before] at atMost exact
  have afterwards : segment.peerClose.peerRefs = 0 := rfl
  have count : segment.peerClose.refcount = segment.refcount - 1 := rfl
  have closed : segment.peerClose.outboundClosed = segment.outboundClosed := rfl
  refine ⟨?_, ?_⟩
  · rw [afterwards, count, closed]
    omega
  · intro isOpen
    rw [afterwards, count, exact (closed ▸ isOpen)]
    rfl

end ConnSegment

namespace HookedProcess

/-- The connection that `close` drops, if there is one. -/
def dropped? (process : HookedProcess) (fd : Nat) : Option Nat :=
  match process.table.tracked? fd with
  | none => none
  | some v =>
    if (process.table.free v).2 > 0 then none else process.registry.lookup fd

/-- A process has a descriptor of an open file description. -/
def Holds (process : HookedProcess) (description : Nat) : Prop :=
  ∃ fd, process.kernel.description fd = some description

/-- Every connection is registered for one number. -/
def OneNumber (process : HookedProcess) : Prop :=
  ∀ fd otherFd entry otherEntry, process.registry.entry fd = some entry →
    process.registry.entry otherFd = some otherEntry → entry.conn = otherEntry.conn → fd = otherFd

/-- A new connection is registered for one number. -/
theorem OneNumber.install {process : HookedProcess} {registry : ConnRegistry}
    {newFd description : Nat} (unique : process.OneNumber)
    (installed : registry = process.registry.install newFd description) :
    ∀ fd otherFd entry otherEntry, registry.entry fd = some entry →
      registry.entry otherFd = some otherEntry → entry.conn = otherEntry.conn → fd = otherFd := by
  have atNew : registry.entry newFd = some ⟨process.registry.nextConn, description⟩ := by
    rw [installed]
    exact Function.update_self ..
  have elsewhere : process.registry.SameElsewhere newFd registry := by
    rw [installed]
    exact process.registry.install_sameElsewhere newFd description
  intro fd otherFd entry otherEntry found otherFound same
  by_cases isNew : fd = newFd
  · by_cases otherNew : otherFd = newFd
    · exact isNew.trans otherNew.symm
    · rw [isNew, atNew] at found
      rw [elsewhere otherFd otherNew] at otherFound
      cases found
      have older := process.registry.fresh otherFd otherEntry otherFound
      exact absurd same.symm (Nat.ne_of_lt older)
  · rw [elsewhere fd isNew] at found
    by_cases otherNew : otherFd = newFd
    · rw [otherNew, atNew] at otherFound
      cases otherFound
      have older := process.registry.fresh fd entry found
      exact absurd same (Nat.ne_of_lt older)
    · rw [elsewhere otherFd otherNew] at otherFound
      exact unique fd otherFd entry otherEntry found otherFound same

/-- Every call keeps one number for a connection. -/
theorem OneNumber.step {process next : HookedProcess} {call : HookCall} (unique : process.OneNumber)
    (stepped : process.step? call = some next) :
    next.OneNumber := by
  have kept : next.registry = process.registry → next.OneNumber := by
    intro same
    unfold OneNumber
    rw [same]
    exact unique
  have effected := effected_of_step stepped
  cases effect : call.effect with
  | silent | duplicated =>
    rw [effect] at effected
    exact kept effected.2
  | opened fd attached =>
    rw [effect] at effected
    cases attached with
    | false => exact kept effected.2
    | true => exact unique.install effected.2
  | upgraded fd =>
    rw [effect] at effected
    obtain ⟨-, description, -, installed⟩ := effected
    exact unique.install installed
  | closed fd =>
    rw [effect] at effected
    rcases effected with ⟨-, -, same⟩ | ⟨-, removed⟩
    · exact kept same
    · split at removed
      · exact kept removed
      · intro first second entry otherEntry found otherFound same
        rw [removed] at found otherFound
        simp only [ConnRegistry.remove, Function.update_apply,
          Option.ite_none_left_eq_some] at found otherFound
        exact unique first second entry otherEntry found.2 otherFound.2 same

section Close

variable {process : HookedProcess} {fd description : Nat}

section

variable (tracking : process.Tracking)

include tracking

theorem Tracking.registry_close (fd : Nat) : (process.close fd).registry =
      if process.table.tracked? fd = none then
        process.registry
      else
        process.registry.remove fd := by
  unfold HookedProcess.close
  cases tracked : process.table.tracked? fd with
  | none => rfl
  | some v =>
    dsimp only
    rw [tracking.close_refs tracked, if_neg (Nat.lt_irrefl 0), if_neg (Option.some_ne_none v)]

theorem Tracking.dropped?_eq (fd : Nat) : process.dropped? fd =
      if process.table.tracked? fd = none then
        none
      else
        process.registry.lookup fd := by
  unfold dropped?
  cases tracked : process.table.tracked? fd with
  | none => rfl
  | some v =>
    dsimp only
    rw [tracking.close_refs tracked, if_neg (Nat.lt_irrefl 0), if_neg (Option.some_ne_none v)]

theorem Tracking.dropped?_eq_some_iff {conn : Nat} : process.dropped? fd = some conn ↔
      process.table.tracked? fd ≠ none ∧
      ∃ entry, process.registry.entry fd = some entry ∧ entry.conn = conn := by
  rw [tracking.dropped?_eq, Option.ite_none_left_eq_some,
    ConnRegistry.lookup, Option.map_eq_some_iff]

theorem Tracking.holds_close_iff : (process.close fd).Holds description ↔
      ∃ otherFd, otherFd ≠ fd ∧ process.kernel.description otherFd = some description := by
  obtain ⟨kernel, -⟩ := tracking.close_spec fd
  unfold Holds
  rw [kernel]
  refine exists_congr fun otherFd => ?_
  by_cases same : otherFd = fd <;> simp [KernelFds.close, same]

theorem Tracking.holds_of_close (holds : (process.close fd).Holds description) :
    process.Holds description := by
  obtain ⟨otherFd, -, refers⟩ := tracking.holds_close_iff.mp holds
  exact ⟨otherFd, refers⟩

theorem Tracking.entry_of_close {otherFd : Nat} {entry : RegistryEntry}
    (found : (process.close fd).registry.entry otherFd = some entry) :
    process.registry.entry otherFd = some entry := by
  rw [tracking.registry_close] at found
  split at found
  · exact found
  · by_cases same : otherFd = fd
    · simp [ConnRegistry.remove, same] at found
    · rwa [process.registry.remove_sameElsewhere fd otherFd same] at found

end

end Close

end HookedProcess

/-- The processes of one end, in the order of their creation. -/
structure ForkedProcesses where
  processes : List HookedProcess
  segment : Nat → ConnSegment

/-- One call of a process, or the peer's close of one connection. -/
inductive ForkAction where
  | fork (process : Nat)
  | close (process fd : Nat)
  | peerClose (conn : Nat)
  deriving Repr, DecidableEq

namespace ForkedProcesses

/-- One process, whose connections are attached at both ends. -/
def initial (base : HookedProcess) : ForkedProcesses where
  processes := [base]
  segment := fun _ => .attached

/-- `fork`: a copy of the process. -/
def fork? (state : ForkedProcesses) (process : Nat) : Option ForkedProcesses :=
  state.processes[process]?.map fun parent =>
    { state with processes := state.processes ++ [parent] }

/-- `close`, which closes the segment of the connection it drops. -/
def close? (state : ForkedProcesses) (process fd : Nat) : Option ForkedProcesses :=
  state.processes[process]?.map fun caller =>
    { processes := state.processes.set process (caller.close fd)
      segment :=
        match caller.dropped? fd with
        | none => state.segment
        | some conn => Function.update state.segment conn (state.segment conn).close }

/-- The peer closes its end once. -/
def peerClose? (state : ForkedProcesses) (conn : Nat) : Option ForkedProcesses :=
  if (state.segment conn).peerOpen then
    some { state with segment := Function.update state.segment conn (state.segment conn).peerClose }
  else
    none

/-- One step of the processes. -/
def step? (state : ForkedProcesses) : ForkAction → Option ForkedProcesses
  | .fork process => state.fork? process
  | .close process fd => state.close? process fd
  | .peerClose conn => state.peerClose? conn

open Classical in
/-- The number of processes that have a descriptor of a description. -/
noncomputable def holders (state : ForkedProcesses) (description : Nat) : Nat :=
  state.processes.countP fun process => process.Holds description

/--
The ring that the peer reads is marked closed only if no process has a descriptor
of the connection any more.  The connections are those of the first process.
-/
def ClosedLast (base : HookedProcess) (state : ForkedProcesses) : Prop :=
  ∀ fd entry, base.registry.entry fd = some entry →
    (state.segment entry.conn).outboundClosed = true →
    ∀ process ∈ state.processes, ¬ process.Holds entry.installedFor

/-- The reference count is not smaller than the number of processes. -/
def Counted (base : HookedProcess) (state : ForkedProcesses) : Prop :=
  ∀ fd entry, base.registry.entry fd = some entry → state.holders entry.installedFor +
        (state.segment entry.conn).peerRefs ≤
      (state.segment entry.conn).refcount

/-- No other number, in any process, refers to a description. -/
def OnlyReference (state : ForkedProcesses) (process fd description : Nat) : Prop :=
  ∀ (other : Nat) (holder : HookedProcess) (otherFd : Nat), state.processes[other]? = some holder →
    holder.kernel.description otherFd = some description → other = process ∧ otherFd = fd

/--
A close that removes a connection from a registry is called on the last
descriptor of the connection, over all processes.
-/
def LastDescriptor (state : ForkedProcesses) : ForkAction → Prop
  | .close process fd =>
    ∀ caller entry, state.processes[process]? = some caller → caller.table.tracked? fd ≠ none →
      caller.registry.entry fd = some entry → state.OnlyReference process fd entry.installedFor
  | _ => True

/--
A process that forks has no descriptor of a connection, and a close that removes a
connection from a registry is the first one and called on the last descriptor.
-/
def KeepsOwnership (base : HookedProcess) (state : ForkedProcesses) : ForkAction → Prop
  | .fork process =>
    ∀ parent fd entry, state.processes[process]? = some parent →
      base.registry.entry fd = some entry → ¬ parent.Holds entry.installedFor
  | .close process fd =>
    state.LastDescriptor (.close process fd) ∧
      ∀ caller entry, state.processes[process]? = some caller → caller.table.tracked? fd ≠ none →
        caller.registry.entry fd = some entry → (state.segment entry.conn).outboundClosed = false
  | .peerClose _ => True

section Steps

variable {base caller : HookedProcess} {state next : ForkedProcesses} {action : ForkAction}
variable {index fd : Nat}

/-- What a step can do. -/
theorem step_cases (stepped : state.step? action = some next) : (∃ index parent,
      action = .fork index ∧ state.processes[index]? = some parent ∧
        next = { state with processes := state.processes ++ [parent] }) ∨ (∃ index fd caller,
        action = .close index fd ∧ state.processes[index]? = some caller ∧
          next.processes = state.processes.set index (caller.close fd) ∧ next.segment =
            match caller.dropped? fd with
            | none => state.segment
            | some conn => Function.update state.segment conn (state.segment conn).close) ∨ ∃ conn,
        action = .peerClose conn ∧ (state.segment conn).peerOpen = true ∧ next = { state with
              segment := Function.update state.segment conn (state.segment conn).peerClose } := by
  cases action with
  | fork index =>
    obtain ⟨parent, found, rfl⟩ := Option.map_eq_some_iff.mp stepped
    exact .inl ⟨index, parent, rfl, found, rfl⟩
  | close index fd =>
    obtain ⟨caller, found, rfl⟩ := Option.map_eq_some_iff.mp stepped
    exact .inr (.inl ⟨index, fd, caller, rfl, found, rfl, rfl⟩)
  | peerClose conn =>
    simp only [step?, peerClose?, Option.ite_none_right_eq_some, Option.some.injEq] at stepped
    exact .inr (.inr ⟨conn, rfl, stepped.1, stepped.2.symm⟩)

/--
What all processes have in common with the first one, and the references of the
segments.
-/
structure Consistent
    (base : HookedProcess)
    (state : ForkedProcesses) : Prop where
  tracking : ∀ process ∈ state.processes, process.Tracking
  inherited : ∀ process ∈ state.processes,
      ∀ fd entry, process.registry.entry fd = some entry → base.registry.entry fd = some entry
  referenced : ∀ conn, (state.segment conn).Referenced

theorem Consistent.initially (tracking : base.Tracking) : Consistent base (initial base) where
  tracking := by
    intro process member
    rw [List.mem_singleton.mp member]
    exact tracking
  inherited := by
    intro process member fd entry found
    rw [List.mem_singleton.mp member] at found
    exact found
  referenced := by
    intro conn
    exact ConnSegment.attached_referenced

variable {parent : HookedProcess}

theorem Consistent.fork (consistent : Consistent base state)
    (found : state.processes[index]? = some parent) :
    Consistent base { state with processes := state.processes ++ [parent] } := by
  have member := List.mem_of_getElem? found
  have cases : ∀ process ∈ state.processes ++ [parent], process ∈ state.processes := by
    intro process among
    rcases List.mem_append.mp among with old | copy
    · exact old
    · exact List.mem_singleton.mp copy ▸ member
  refine ⟨?_, ?_, consistent.referenced⟩
  · intro process among
    exact consistent.tracking process (cases process among)
  · intro process among
    exact consistent.inherited process (cases process among)

theorem Consistent.update (consistent : Consistent base state) {conn : Nat} {segment : ConnSegment}
    (referenced : segment.Referenced) :
    ∀ other, (Function.update state.segment conn segment other).Referenced := by
  intro other
  by_cases same : other = conn
  · subst same
    rwa [Function.update_self]
  · rw [Function.update_of_ne same]
    exact consistent.referenced other

/-- Every step keeps the processes consistent. -/
theorem Consistent.step (consistent : Consistent base state)
    (stepped : state.step? action = some next) :
    Consistent base next := by
  rcases step_cases stepped with
    ⟨index, parent, -, found, rfl⟩ |
    ⟨index, fd, caller, -, found, processes, segment⟩ |
    ⟨conn, -, peerOpen, rfl⟩
  · exact consistent.fork found
  · have member := List.mem_of_getElem? found
    have tracking := consistent.tracking caller member
    refine ⟨?_, ?_, ?_⟩
    · intro process among
      rw [processes] at among
      rcases List.mem_or_eq_of_mem_set among with old | rfl
      · exact consistent.tracking process old
      · exact tracking.close fd
    · intro process among otherFd entry held
      rw [processes] at among
      rcases List.mem_or_eq_of_mem_set among with old | rfl
      · exact consistent.inherited process old otherFd entry held
      · exact consistent.inherited caller member otherFd entry (tracking.entry_of_close held)
    · rw [segment]
      split
      · exact consistent.referenced
      · exact consistent.update (consistent.referenced _).close
  · exact ⟨consistent.tracking, consistent.inherited,
      consistent.update ((consistent.referenced conn).peerClose peerOpen)⟩

variable {description : Nat}

theorem Consistent.holds_of_set (consistent : Consistent base state)
    (found : state.processes[index]? = some caller) {process : HookedProcess}
    (member : process ∈ state.processes.set index (caller.close fd))
    (holds : process.Holds description) :
    ∃ earlier ∈ state.processes, earlier.Holds description := by
  rcases List.mem_or_eq_of_mem_set member with old | rfl
  · exact ⟨process, old, holds⟩
  · have among := List.mem_of_getElem? found
    exact ⟨caller, among, (consistent.tracking caller among).holds_of_close holds⟩

/-- After a close nobody holds a description exactly if it was on the last descriptor. -/
theorem Consistent.not_holds_set_iff (consistent : Consistent base state)
    (found : state.processes[index]? = some caller) :
    (∀ process ∈ state.processes.set index (caller.close fd), ¬ process.Holds description) ↔
      state.OnlyReference index fd description := by
  have tracking := consistent.tracking caller (List.mem_of_getElem? found)
  constructor
  · intro none other holder otherFd among refers
    by_cases same : other = index
    · subst same
      obtain rfl : caller = holder := Option.some.inj (found.symm.trans among)
      refine ⟨rfl, ?_⟩
      by_contra different
      refine none _ (List.mem_of_getElem? (i := other) ?_)
        (tracking.holds_close_iff.mpr ⟨otherFd, different, refers⟩)
      exact List.getElem?_set_self (List.getElem?_eq_some_iff.mp found).1
    · refine absurd ⟨otherFd, refers⟩ (none holder (List.mem_of_getElem? (i := other) ?_))
      rwa [List.getElem?_set_ne (Ne.symm same)]
  · intro last process member holds
    obtain ⟨other, among⟩ := List.mem_iff_getElem?.mp member
    by_cases same : other = index
    · subst same
      rw [List.getElem?_set_self (List.getElem?_eq_some_iff.mp found).1] at among
      cases among
      obtain ⟨otherFd, different, refers⟩ := tracking.holds_close_iff.mp holds
      exact different (last other caller otherFd found refers).2
    · rw [List.getElem?_set_ne (Ne.symm same)] at among
      obtain ⟨otherFd, refers⟩ := holds
      exact same (last other process otherFd among refers).1

/-- A close of an untracked number, or of a number without an entry. -/
def Keeping (caller : HookedProcess) (fd : Nat) : Prop :=
  ∀ entry, caller.table.tracked? fd ≠ none → caller.registry.entry fd ≠ some entry

/-- A close drops no connection, or one of the first process. -/
theorem Consistent.close_cases (consistent : Consistent base state)
    (found : state.processes[index]? = some caller)
    (segment : next.segment =
        match caller.dropped? fd with
        | none => state.segment
        | some conn => Function.update state.segment conn (state.segment conn).close) :
    Keeping caller fd ∧ next.segment = state.segment ∨ ∃ entry, caller.table.tracked? fd ≠ none ∧
          caller.registry.entry fd = some entry ∧ base.registry.entry fd = some entry ∧
          next.segment =
            Function.update state.segment entry.conn (state.segment entry.conn).close := by
  have among := List.mem_of_getElem? found
  have tracking := consistent.tracking caller among
  cases dropped : caller.dropped? fd with
  | none =>
    rw [dropped] at segment
    refine .inl ⟨?_, segment⟩
    intro entry tracked held
    have drops := tracking.dropped?_eq_some_iff.mpr ⟨tracked, entry, held, rfl⟩
    rw [dropped] at drops
    cases drops
  | some conn =>
    rw [dropped] at segment
    obtain ⟨tracked, entry, held, rfl⟩ := tracking.dropped?_eq_some_iff.mp dropped
    exact .inr ⟨entry, tracked, held, consistent.inherited caller among fd entry held, segment⟩

variable {entry : RegistryEntry}

theorem forall_removed_iff (found : state.processes[index]? = some caller)
    (tracked : caller.table.tracked? fd ≠ none) (held : caller.registry.entry fd = some entry)
    (condition : RegistryEntry → Prop) :
    (∀ other removed, state.processes[index]? = some other → other.table.tracked? fd ≠ none →
      other.registry.entry fd = some removed → condition removed) ↔ condition entry := by
  constructor
  · intro all
    exact all caller entry found tracked held
  · intro holds other removed found' _ held'
    obtain rfl : caller = other := Option.some.inj (found.symm.trans found')
    obtain rfl : entry = removed := Option.some.inj (held.symm.trans held')
    exact holds

theorem forall_removed_of_keeping (found : state.processes[index]? = some caller)
    (keeping : Keeping caller fd) (condition : RegistryEntry → Prop) :
    ∀ other removed, state.processes[index]? = some other → other.table.tracked? fd ≠ none →
      other.registry.entry fd = some removed → condition removed := by
  intro other removed found' tracked held
  obtain rfl : caller = other := Option.some.inj (found.symm.trans found')
  exact absurd held (keeping removed tracked)

theorem ClosedLast.of_close (closedLast : ClosedLast base state)
    (consistent : Consistent base state) (found : state.processes[index]? = some caller)
    (processes : next.processes = state.processes.set index (caller.close fd))
    {otherFd : Nat} (registered : base.registry.entry otherFd = some entry)
    (same : next.segment entry.conn = state.segment entry.conn)
    (closed : (next.segment entry.conn).outboundClosed = true) :
    ∀ process ∈ next.processes, ¬ process.Holds entry.installedFor := by
  intro process member holds
  rw [processes] at member
  rw [same] at closed
  obtain ⟨earlier, among, held⟩ := consistent.holds_of_set found member holds
  exact closedLast otherFd entry registered closed earlier among held

/-- A close that drops a connection has to be on the last descriptor. -/
theorem closedLast_dropping_iff (unique : base.OneNumber) (consistent : Consistent base state)
    (closedLast : ClosedLast base state) (found : state.processes[index]? = some caller)
    (processes : next.processes = state.processes.set index (caller.close fd))
    (registered : base.registry.entry fd = some entry)
    (segment :
      next.segment = Function.update state.segment entry.conn (state.segment entry.conn).close) :
    ClosedLast base next ↔ ∀ process ∈ next.processes, ¬ process.Holds entry.installedFor := by
  have closed : (next.segment entry.conn).outboundClosed = true := by
    rw [segment, Function.update_self]
    rfl
  constructor
  · intro closedNext
    exact closedNext fd entry registered closed
  · intro none otherFd otherEntry otherRegistered otherClosed
    by_cases same : otherEntry.conn = entry.conn
    · obtain rfl : otherFd = fd :=
        unique otherFd fd otherEntry entry otherRegistered registered same
      obtain rfl : entry = otherEntry := Option.some.inj (registered.symm.trans otherRegistered)
      exact none
    · refine closedLast.of_close consistent found processes otherRegistered ?_ otherClosed
      rw [segment, Function.update_of_ne same]

theorem ClosedLast.fork (closedLast : ClosedLast base state)
    (found : state.processes[index]? = some parent) :
    ClosedLast base { state with processes := state.processes ++ [parent] } := by
  intro fd entry registered closed process member
  rcases List.mem_append.mp member with old | copy
  · exact closedLast fd entry registered closed process old
  · rw [List.mem_singleton.mp copy]
    exact closedLast fd entry registered closed parent (List.mem_of_getElem? found)

theorem ClosedLast.peerClose (closedLast : ClosedLast base state) (conn : Nat) : ClosedLast base
      { state with
        segment := Function.update state.segment conn (state.segment conn).peerClose } := by
  intro fd entry registered closed
  apply closedLast fd entry registered
  by_cases same : entry.conn = conn
  · simpa [same, ConnSegment.peerClose] using closed
  · simpa [Function.update_of_ne same] using closed

/-- A step closes no ring too early exactly if it is on a last descriptor. -/
theorem closedLast_step_iff (unique : base.OneNumber) (consistent : Consistent base state)
    (closedLast : ClosedLast base state) (stepped : state.step? action = some next) :
    ClosedLast base next ↔ state.LastDescriptor action := by
  rcases step_cases stepped with
    ⟨index, parent, rfl, found, rfl⟩ |
    ⟨index, fd, caller, rfl, found, processes, segment⟩ |
    ⟨conn, rfl, peerOpen, rfl⟩
  · exact iff_of_true (closedLast.fork found) trivial
  · rcases consistent.close_cases found segment with
      ⟨keeping, same⟩ | ⟨entry, tracked, held, registered, closed⟩
    · refine iff_of_true ?_ (forall_removed_of_keeping found keeping _)
      intro otherFd entry registered
      exact closedLast.of_close consistent found processes registered (by rw [same])
    · rw [closedLast_dropping_iff unique consistent closedLast found
        processes registered closed, processes, consistent.not_holds_set_iff found]
      exact (forall_removed_iff found tracked held fun removed =>
        state.OnlyReference index fd removed.installedFor).symm
  · exact iff_of_true (closedLast.peerClose conn) trivial

theorem holders_fork (description : Nat) : (parent.Holds description →
      holders { state with processes := state.processes ++ [parent] }
      description = state.holders description + 1) ∧ (¬ parent.Holds description →
      holders { state with processes := state.processes ++ [parent] }
      description = state.holders description) := by
  unfold holders
  rw [List.countP_append, List.countP_singleton]
  refine ⟨fun holds => ?_, fun absent => ?_⟩
  · rw [if_pos (by simpa using holds)]
  · rw [if_neg (by simpa using absent)]
    rfl

theorem holders_eq_zero_iff :
    state.holders description = 0 ↔ ∀ process ∈ state.processes, ¬ process.Holds description := by
  unfold holders
  simp

theorem holders_pos {process : HookedProcess} (member : process ∈ state.processes)
    (holds : process.Holds description) :
    0 < state.holders description := by
  rw [Nat.pos_iff_ne_zero, Ne, holders_eq_zero_iff]
  intro none
  exact none process member holds

/-- A close adds no holder. -/
theorem Consistent.holders_close_le (consistent : Consistent base state)
    (found : state.processes[index]? = some caller)
    (processes : next.processes = state.processes.set index (caller.close fd))
    (description : Nat) :
    next.holders description ≤ state.holders description := by
  have tracking := consistent.tracking caller (List.mem_of_getElem? found)
  obtain ⟨inside, atIndex⟩ := List.getElem?_eq_some_iff.mp found
  by_cases holds : (caller.close fd).Holds description
  · have before := tracking.holds_of_close holds
    have positive := holders_pos (List.mem_of_getElem? found) before
    unfold holders at *
    rw [processes, List.countP_set inside, atIndex]
    simp only [holds, before, decide_true, if_true]
    omega
  · unfold holders
    rw [processes, List.countP_set inside, atIndex]
    simp [holds]

theorem Counted.of_close (counted : Counted base state) (consistent : Consistent base state)
    (found : state.processes[index]? = some caller)
    (processes : next.processes = state.processes.set index (caller.close fd))
    {otherFd : Nat} (registered : base.registry.entry otherFd = some entry)
    (same : next.segment entry.conn = state.segment entry.conn) :
    next.holders entry.installedFor +
      (next.segment entry.conn).peerRefs ≤
      (next.segment entry.conn).refcount := by
  have before := counted otherFd entry registered
  have fewer := consistent.holders_close_le found processes entry.installedFor
  rw [same]
  omega

theorem counted_fork_iff (consistent : Consistent base state) (counted : Counted base state)
    (found : state.processes[index]? = some parent) :
    Counted base
      { state with processes := state.processes ++ [parent] } ↔
      ∀ fd entry, base.registry.entry fd = some entry → ¬ parent.Holds entry.installedFor := by
  constructor
  · intro afterwards fd entry registered holds
    have count := afterwards fd entry registered
    rw [(holders_fork entry.installedFor).1 holds] at count
    have atMost := (consistent.referenced entry.conn).1
    have positive := holders_pos (List.mem_of_getElem? found) holds
    dsimp only at count
    split at atMost <;> omega
  · intro absent fd entry registered
    rw [(holders_fork entry.installedFor).2 (absent fd entry registered)]
    exact counted fd entry registered

/-- The first close on the last descriptor is counted. -/
theorem counted_dropping_iff (unique : base.OneNumber) (consistent : Consistent base state)
    (counted : Counted base state) (found : state.processes[index]? = some caller)
    (processes : next.processes = state.processes.set index (caller.close fd))
    (registered : base.registry.entry fd = some entry)
    (segment :
      next.segment = Function.update state.segment entry.conn (state.segment entry.conn).close)
    (none : ∀ process ∈ next.processes, ¬ process.Holds entry.installedFor) :
    Counted base next ↔ (state.segment entry.conn).outboundClosed = false := by
  have atConn : next.segment entry.conn = (state.segment entry.conn).close := by
    rw [segment, Function.update_self]
  have peer : (next.segment entry.conn).peerRefs = (state.segment entry.conn).peerRefs := by
    rw [atConn]
    rfl
  have count : (next.segment entry.conn).refcount = (state.segment entry.conn).refcount - 1 := by
    rw [atConn]
    rfl
  have zero : next.holders entry.installedFor = 0 := holders_eq_zero_iff.mpr none
  obtain ⟨atMost, exact⟩ := consistent.referenced entry.conn
  constructor
  · intro afterwards
    have enough := afterwards fd entry registered
    cases closed : (state.segment entry.conn).outboundClosed with
    | false => rfl
    | true =>
      rw [closed, if_pos rfl] at atMost
      omega
  · intro isOpen otherFd otherEntry otherRegistered
    by_cases same : otherEntry.conn = entry.conn
    · obtain rfl : otherFd = fd :=
        unique otherFd fd otherEntry entry otherRegistered registered same
      obtain rfl : entry = otherEntry := Option.some.inj (registered.symm.trans otherRegistered)
      rw [zero, peer, count, exact isOpen]
      omega
    · apply counted.of_close consistent found processes otherRegistered
      rw [segment, Function.update_of_ne same]

/-- The peer gives back the reference that it holds. -/
theorem Counted.peerClose (counted : Counted base state) {conn : Nat}
    (peerOpen : (state.segment conn).peerOpen = true) :
    Counted base
      { state with
        segment := Function.update state.segment conn (state.segment conn).peerClose } := by
  intro fd entry registered
  have before := counted fd entry registered
  have same : holders
          { state with
            segment := Function.update state.segment conn (state.segment conn).peerClose }
          entry.installedFor = state.holders entry.installedFor := rfl
  rw [same]
  by_cases isConn : entry.conn = conn
  · rw [isConn] at before
    dsimp only
    rw [isConn, Function.update_self]
    simp only [ConnSegment.peerRefs, peerOpen, if_true] at before
    simp only [ConnSegment.peerRefs, ConnSegment.peerClose]
    simp only [Bool.false_eq_true, if_false]
    omega
  · dsimp only
    rwa [Function.update_of_ne isConn]

/-- Both properties survive a step exactly if it keeps the ownership. -/
theorem owned_step_iff (unique : base.OneNumber) (consistent : Consistent base state)
    (owned : ClosedLast base state ∧ Counted base state)
    (stepped : state.step? action = some next) : (ClosedLast base next ∧ Counted base next) ↔
      KeepsOwnership base state action := by
  have closedIff := closedLast_step_iff unique consistent owned.1 stepped
  rcases step_cases stepped with
    ⟨index, parent, rfl, found, rfl⟩ |
    ⟨index, fd, caller, rfl, found, processes, segment⟩ |
    ⟨conn, rfl, peerOpen, rfl⟩
  · rw [counted_fork_iff consistent owned.2 found, and_iff_right (closedIff.mpr trivial)]
    constructor
    · intro absent other fd entry found' registered
      obtain rfl : parent = other := Option.some.inj (found.symm.trans found')
      exact absent fd entry registered
    · intro keeps fd entry registered
      exact keeps parent fd entry found registered
  · refine and_congr_left' closedIff |>.trans ?_
    refine and_congr_right fun last => ?_
    rcases consistent.close_cases found segment with
      ⟨keeping, same⟩ | ⟨entry, tracked, held, registered, closed⟩
    · refine iff_of_true ?_ (forall_removed_of_keeping found keeping _)
      intro otherFd entry registered
      exact owned.2.of_close consistent found processes registered (by rw [same])
    · have none :=
        (closedLast_dropping_iff unique consistent owned.1 found
          processes registered closed).mp (closedIff.mpr last)
      rw [counted_dropping_iff unique consistent owned.2 found processes registered closed none]
      exact (forall_removed_iff found tracked held fun removed =>
        (state.segment removed.conn).outboundClosed = false).symm
  · exact iff_of_true ⟨owned.1.peerClose conn, owned.2.peerClose peerOpen⟩ trivial

theorem owned_initially (base : HookedProcess) :
    ClosedLast base (initial base) ∧ Counted base (initial base) := by
  refine ⟨?_, ?_⟩
  · intro fd entry _ closed
    cases closed
  · intro fd entry _
    have atMost : (initial base).holders entry.installedFor ≤ 1 := List.countP_le_length
    have peer : ((initial base).segment entry.conn).peerRefs = 1 := rfl
    have count : ((initial base).segment entry.conn).refcount = 2 := rfl
    omega

/--
The first process is in any state that calls of the hooks reach.  In a run of
forks and closes no ring is closed too early exactly if every close that removes
a connection is on its last descriptor; and in addition all processes are counted
exactly if no process forks that has a descriptor of a connection, and no
connection is closed twice.
-/
theorem ownership_iff_keeps
    {kernel : KernelFds}
    {calls : List HookCall}
    {base : HookedProcess}
    (attached : Machine.run? HookedProcess.step? (HookedProcess.initial kernel) calls = some base)
    {actions : List ForkAction}
    {final : ForkedProcesses}
    (accepted : Machine.run? step? (initial base) actions = some final) :
    ((∀ state, Machine.ReachedBy step? (initial base) actions state → ClosedLast base state) ↔
      Machine.Along step? LastDescriptor (initial base) actions) ∧
      ((∀ state,
        Machine.ReachedBy step? (initial base) actions state →
        ClosedLast base state ∧ Counted base state) ↔
        Machine.Along step? (KeepsOwnership base) (initial base) actions) := by
  have tracking : base.Tracking :=
    Machine.invariant_of_run (HookedProcess.Tracking.initially kernel)
      (fun tracking stepped => tracking.step stepped) attached
  have unique : base.OneNumber := by
    refine Machine.invariant_of_run ?_ (fun unique stepped => unique.step stepped) attached
    intro fd otherFd entry otherEntry found
    cases found
  have consistent := Consistent.initially tracking
  have owned := owned_initially base
  refine ⟨?_, ?_⟩
  · exact Machine.forall_reachedBy_iff_along_of_invariant
      (fun consistent stepped => consistent.step stepped)
      (closedLast_step_iff unique) consistent owned.1 accepted
  · exact Machine.forall_reachedBy_iff_along_of_invariant
      (fun consistent stepped => consistent.step stepped)
      (owned_step_iff unique) consistent owned accepted

/-- The client that connects descriptor 3. -/
theorem connectedClient_reached : ∃ base, Machine.run? HookedProcess.step?
      (HookedProcess.initial HookedProcess.standardFds)
      HookedProcess.connectedClient = some base ∧
      base.registry.entry = Function.update (fun _ => none) 3 (some ⟨0, 3⟩) ∧
      base.dropped? 3 = some 0 ∧ ∀ fd, base.kernel.description fd = some 3 ↔ fd = 3 := by
  refine ⟨_, rfl, rfl, rfl, ?_⟩
  intro fd
  constructor
  · intro refers
    by_contra different
    have standard : HookedProcess.standardFds.description fd = some 3 := by
      rw [← refers]
      exact (Function.update_of_ne different ..).symm
    simp only [HookedProcess.standardFds, Option.ite_none_right_eq_some,
      Option.some.injEq] at standard
    exact different standard.2
  · rintro rfl
    rfl

/-- A connection that is closed before the fork keeps both properties. -/
theorem owned_when_closed_before_fork :
    ∃ base,
      Machine.run? HookedProcess.step? (HookedProcess.initial HookedProcess.standardFds)
          HookedProcess.connectedClient =
        some base ∧
      base.registry.entry 3 = some ⟨0, 3⟩ ∧
      ∀ state,
        Machine.ReachedBy step? (initial base) [.close 0 3, .fork 0] state →
        ClosedLast base state ∧ Counted base state := by
  obtain ⟨base, attached, entries, -, refers⟩ := connectedClient_reached
  have tracking : base.Tracking :=
    Machine.invariant_of_run
      (HookedProcess.Tracking.initially HookedProcess.standardFds)
      (fun tracking stepped => tracking.step stepped) attached
  have only : ∀ fd entry, base.registry.entry fd = some entry → fd = 3 ∧ entry = ⟨0, 3⟩ := by
    intro fd entry held
    rw [entries, Function.update_apply, Option.ite_none_right_eq_some] at held
    exact ⟨held.1, (Option.some.inj held.2).symm⟩
  refine ⟨base, attached, by rw [entries, Function.update_self], (ownership_iff_keeps attached
      (show Machine.run? step? (initial base) [.close 0 3, .fork 0] = some _ from rfl)).2.mpr ?_⟩
  refine ⟨⟨?_, ?_⟩, ?_⟩
  · intro caller entry found _ held other holder otherFd among held'
    cases found
    rw [(only 3 entry held).2] at held'
    cases other with
    | zero =>
      cases among
      exact ⟨rfl, (refers otherFd).mp held'⟩
    | succ other => cases among
  · intro caller entry _ _ _
    rfl
  · rintro _ ⟨⟩
    refine ⟨?_, fun _ _ => trivial⟩
    intro parent fd entry found registered holds
    cases found
    rw [(only fd entry registered).2] at holds
    obtain ⟨otherFd, different, held⟩ := tracking.holds_close_iff.mp holds
    exact different ((refers otherFd).mp held)

/--
A child closes a connection that its parent still uses; already the fork is not
counted.
-/
theorem torn_down_by_child :
    ∃ base,
      Machine.run? HookedProcess.step? (HookedProcess.initial HookedProcess.standardFds)
          HookedProcess.connectedClient =
        some base ∧
      base.registry.entry 3 = some ⟨0, 3⟩ ∧
      (∃ forked,
        Machine.run? step? (initial base) [.fork 0] = some forked ∧
        forked.holders 3 = 2 ∧
        forked.segment 0 = .attached ∧
        ¬ Counted base forked) ∧
      ∃ final,
        Machine.run? step? (initial base) [.fork 0, .close 1 3] = some final ∧
        (final.segment 0).outboundClosed = true ∧
        final.processes[0]? = some base ∧
        base.kernel.description 3 = some 3 ∧
        ¬ ClosedLast base final := by
  obtain ⟨base, attached, entries, dropped, refers⟩ := connectedClient_reached
  have registered : base.registry.entry 3 = some ⟨0, 3⟩ := by rw [entries, Function.update_self]
  have holds : base.Holds 3 := ⟨3, (refers 3).mpr rfl⟩
  have one : (initial base).holders 3 = 1 := by simp [holders, initial, holds]
  have two : holders
          { initial base with processes := (initial base).processes ++ [base] } 3 = 2 := by
    rw [(holders_fork 3).1 holds, one]
  refine ⟨base, attached, registered, ⟨_, rfl, two, rfl, ?_⟩,
    _, rfl, ?_, rfl, (refers 3).mpr rfl, ?_⟩
  · intro counted
    have enough := counted 3 ⟨0, 3⟩ registered
    rw [two] at enough
    have atMost : (2 : Int) + ConnSegment.attached.peerRefs ≤
          ConnSegment.attached.refcount := enough
    exact absurd atMost (by decide)
  · dsimp only
    rw [dropped]
    rfl
  · intro closedLast
    refine closedLast 3 ⟨0, 3⟩ registered ?_ base (List.mem_of_getElem? (i := 0) rfl) holds
    dsimp only
    rw [dropped]
    rfl

end Steps

end ForkedProcesses

end SocksDirect
