import SocksDirect.FdHooks
import SocksDirect.MachineRun

namespace SocksDirect

open Function Machine

/-!
# What the registry says about duplicated and replaced descriptors

Two properties of the registry, over all runs of calls: descriptors of one open
file description find the same connection, and an entry of the registry belongs
to the description that its number refers to.

`dup`, `dup2`, `dup3` and `fcntl` change the descriptor table and never the
registry, so both properties can be lost.  For each of them a condition on the
state before a call says exactly which calls keep it.
-/

namespace KernelFds

/-- Everything but one number is as before. -/
def SameElsewhere (fd : Nat) (kernel next : KernelFds) : Prop :=
  ∀ other, other ≠ fd → next.description other = kernel.description other

theorem openNew?_spec {kernel next : KernelFds} {fd : Nat}
    (opened : kernel.openNew? fd = some next) :
    kernel.description fd = none ∧ next.description fd = some kernel.nextDescription ∧
      kernel.SameElsewhere fd next := by
  simp only [openNew?, Option.ite_none_right_eq_some, Option.some.injEq] at opened
  obtain ⟨free, rfl⟩ := opened
  refine ⟨free, update_self .., ?_⟩
  intro other different
  exact update_of_ne different ..

theorem replace?_spec {kernel next : KernelFds} {oldFd newFd : Nat}
    (replaced : kernel.replace? oldFd newFd = some next) :
    kernel.description oldFd ≠ none ∧ next.description newFd = kernel.description oldFd ∧
      kernel.SameElsewhere newFd next := by
  simp only [replace?, Option.ite_none_left_eq_some, Option.some.injEq] at replaced
  obtain ⟨isOpen, rfl⟩ := replaced
  refine ⟨isOpen, update_self .., ?_⟩
  intro other different
  exact update_of_ne different ..

theorem replace?_of_duplicate? {kernel next : KernelFds} {oldFd newFd : Nat}
    (duplicated : kernel.duplicate? oldFd newFd = some next) :
    kernel.replace? oldFd newFd = some next := by
  simp only [duplicate?, Option.ite_none_right_eq_some] at duplicated
  exact duplicated.2

theorem close_sameElsewhere (kernel : KernelFds) (fd : Nat) :
    kernel.SameElsewhere fd (kernel.close fd) := by
  intro other different
  exact update_of_ne different ..

end KernelFds

namespace ConnRegistry

/-- Everything but one entry is as before. -/
def SameElsewhere (fd : Nat) (registry next : ConnRegistry) : Prop :=
  ∀ other, other ≠ fd → next.entry other = registry.entry other

theorem SameElsewhere.refl (fd : Nat) (registry : ConnRegistry) :
    registry.SameElsewhere fd registry := by
  intro other _
  rfl

theorem SameElsewhere.ite {fd : Nat} {registry first second : ConnRegistry} {condition : Prop}
    [Decidable condition] (sameFirst : registry.SameElsewhere fd first)
    (sameSecond : registry.SameElsewhere fd second) :
    registry.SameElsewhere fd (if condition then first else second) := by
  split
  · exact sameFirst
  · exact sameSecond

theorem install_sameElsewhere (registry : ConnRegistry) (fd description : Nat) :
    registry.SameElsewhere fd (registry.install fd description) := by
  intro other different
  exact update_of_ne different ..

theorem remove_sameElsewhere (registry : ConnRegistry) (fd : Nat) :
    registry.SameElsewhere fd (registry.remove fd) := by
  intro other different
  exact update_of_ne different ..

theorem SameElsewhere.lookup_eq {fd other : Nat} {registry next : ConnRegistry}
    (same : registry.SameElsewhere fd next) (different : other ≠ fd) :
    next.lookup other = registry.lookup other := by
  rw [lookup, lookup, same other different]

theorem lookup_ne_nextConn (registry : ConnRegistry) (fd : Nat) :
    registry.lookup fd ≠ some registry.nextConn := by
  intro found
  obtain ⟨entry, holds, same⟩ := Option.map_eq_some_iff.mp found
  exact absurd same (Nat.ne_of_lt (registry.fresh fd entry holds))

end ConnRegistry

/-- What a call does to the kernel's table and to the registry. -/
inductive FdEffect where
  | silent
  | opened (fd : Nat) (attached : Bool)
  | upgraded (fd : Nat)
  | duplicated (oldFd newFd : Nat)
  | closed (fd : Nat)
  deriving Repr, DecidableEq

/-- The effect of a call, as far as the call and its result determine it. -/
def HookCall.effect : HookCall → FdEffect
  | .socket _ _ (some fd) => .opened fd false
  | .accept (some fd) attached => .opened fd attached
  | .accept4 (some fd) attached => .opened fd attached
  | .connect fd true true => .upgraded fd
  | .dup fd (some newFd) => .duplicated fd newFd
  | .dup2 oldFd newFd true => .duplicated oldFd newFd
  | .dup3 oldFd newFd true => .duplicated oldFd newFd
  | .fcntl fd _ (some newFd) => .duplicated fd newFd
  | .close fd => .closed fd
  | .unhookedOpen fd => .opened fd false
  | _ => .silent

namespace HookedProcess

/-- The two tables after an effect. -/
def Effected (state next : HookedProcess) : FdEffect → Prop
  | .silent =>
    next.kernel = state.kernel ∧ next.registry = state.registry
  | .opened fd attached =>
    state.kernel.openNew? fd = some next.kernel ∧ next.registry = if attached then
          state.registry.install fd state.kernel.nextDescription
        else
          state.registry
  | .upgraded fd =>
    next.kernel = state.kernel ∧ ∃ description, state.kernel.description fd = some description ∧
          next.registry = state.registry.install fd description
  | .duplicated oldFd newFd =>
    state.kernel.replace? oldFd newFd = some next.kernel ∧ next.registry = state.registry
  | .closed fd =>
    state.table.tracked? fd ≠ none ∧ next.kernel = state.kernel ∧ next.registry = state.registry ∨
      next.kernel = state.kernel.close fd ∧ next.registry = if state.table.tracked? fd = none then
            state.registry
          else
            state.registry.remove fd

section Effects

variable {state next : HookedProcess}

theorem kernel_maybeUpgradeToShm (state : HookedProcess) (fd : Nat) (attached : Bool) :
    (state.maybeUpgradeToShm fd attached).kernel = state.kernel := by
  unfold maybeUpgradeToShm
  dsimp only
  split_ifs <;> split <;> rfl

theorem registry_maybeUpgradeToShm {fd description : Nat}
    (isOpen : state.kernel.description fd = some description) (attached : Bool) :
    (state.maybeUpgradeToShm fd attached).registry = if attached then
        state.registry.install fd description
      else
        state.registry := by
  unfold maybeUpgradeToShm
  split_ifs <;> simp [isOpen]

theorem acceptHook_effected {fd : Nat} {attached : Bool}
    (stepped : state.acceptHook (some fd) attached = some next) :
    state.Effected next (.opened fd attached) := by
  obtain ⟨kernel, opened, rfl⟩ := Option.map_eq_some_iff.mp stepped
  obtain ⟨-, description, -⟩ := KernelFds.openNew?_spec opened
  refine ⟨?_, ?_⟩
  · rw [kernel_maybeUpgradeToShm]
    exact opened
  · exact registry_maybeUpgradeToShm description attached

theorem connect_effected {fd : Nat} {ok attached : Bool}
    (stepped : state.connect fd ok attached = some next) :
    state.Effected next (HookCall.connect fd ok attached).effect := by
  cases ok with
  | false =>
    cases stepped
    exact ⟨rfl, rfl⟩
  | true =>
    simp only [connect, if_true, Option.ite_none_left_eq_some, Option.some.injEq] at stepped
    obtain ⟨isOpen, rfl⟩ := stepped
    obtain ⟨description, isOpen⟩ := Option.ne_none_iff_exists'.mp isOpen
    have kernel := kernel_maybeUpgradeToShm state fd attached
    have registry := registry_maybeUpgradeToShm isOpen attached
    cases attached with
    | false => exact ⟨kernel, registry⟩
    | true => exact ⟨kernel, description, isOpen, registry⟩

theorem close_effected (state : HookedProcess) (fd : Nat) :
    state.Effected (state.close fd) (.closed fd) := by
  unfold close
  cases tracked : state.table.tracked? fd with
  | none =>
    refine .inr ⟨rfl, ?_⟩
    rw [if_pos tracked]
  | some v =>
    dsimp only
    split
    · exact .inl ⟨by simp [tracked], rfl, rfl⟩
    · refine .inr ⟨rfl, ?_⟩
      rw [if_neg (by simp [tracked])]

/-- Every call has its effect. -/
theorem effected_of_step {call : HookCall} (stepped : state.step? call = some next) :
    state.Effected next call.effect := by
  cases call with
  | socket domain type result =>
    cases result with
    | none =>
      cases stepped
      exact ⟨rfl, rfl⟩
    | some fd =>
      obtain ⟨kernel, opened, rfl⟩ := Option.map_eq_some_iff.mp stepped
      exact ⟨opened, rfl⟩
  | accept result | accept4 result =>
    cases result with
    | none =>
      cases stepped
      exact ⟨rfl, rfl⟩
    | some fd => exact acceptHook_effected stepped
  | connect fd ok attached => exact connect_effected stepped
  | dup _ result | fcntl _ _ result =>
    cases result with
    | none =>
      cases stepped
      exact ⟨rfl, rfl⟩
    | some newFd =>
      obtain ⟨kernel, duplicated, rfl⟩ := Option.map_eq_some_iff.mp stepped
      exact ⟨KernelFds.replace?_of_duplicate? duplicated, rfl⟩
  | dup2 oldFd newFd ok =>
    cases ok with
    | false =>
      cases stepped
      exact ⟨rfl, rfl⟩
    | true =>
      obtain ⟨kernel, replaced, rfl⟩ := Option.map_eq_some_iff.mp stepped
      exact ⟨replaced, rfl⟩
  | dup3 oldFd newFd ok =>
    cases ok with
    | false =>
      cases stepped
      exact ⟨rfl, rfl⟩
    | true =>
      simp only [step?, dup3, if_true, Option.ite_none_left_eq_some] at stepped
      obtain ⟨kernel, replaced, rfl⟩ := Option.map_eq_some_iff.mp stepped.2
      exact ⟨replaced, rfl⟩
  | close fd =>
    cases stepped
    exact close_effected state fd
  | unhookedOpen fd =>
    obtain ⟨kernel, opened, rfl⟩ := Option.map_eq_some_iff.mp stepped
    exact ⟨opened, rfl⟩

end Effects

section Transport

variable {state next : HookedProcess}

/-- Descriptors of one open file description find the same connection. -/
def SameTransport (state : HookedProcess) : Prop :=
  ∀ first second description, state.kernel.description first = some description →
    state.kernel.description second = some description →
    state.registry.lookup first = state.registry.lookup second

/-- No other descriptor refers to the description of this one. -/
def Alone (state : HookedProcess) (fd : Nat) : Prop :=
  ∀ other, other ≠ fd → ∀ description, state.kernel.description fd = some description →
      state.kernel.description other ≠ some description

/--
A duplication keeps one transport if both numbers find the same connection
already, an upgrade if no other descriptor refers to the same description.
-/
def KeepsTransport (state : HookedProcess) (call : HookCall) : Prop :=
  match call.effect with
  | .duplicated oldFd newFd => state.registry.lookup oldFd = state.registry.lookup newFd
  | .upgraded fd => state.Alone fd
  | _ => True

/-- A change at a descriptor that shares its description with no other. -/
theorem SameTransport.of_alone {fd : Nat} (same : state.SameTransport)
    (kernel : state.kernel.SameElsewhere fd next.kernel)
    (registry : state.registry.SameElsewhere fd next.registry) (alone : next.Alone fd) :
    next.SameTransport := by
  intro first second description atFirst atSecond
  rcases eq_or_ne first fd with rfl | firstElsewhere
  · rcases eq_or_ne second first with rfl | secondElsewhere
    · rfl
    · exact absurd atSecond (alone second secondElsewhere description atFirst)
  · rcases eq_or_ne second fd with rfl | secondElsewhere
    · exact absurd atFirst (alone first firstElsewhere description atSecond)
    · rw [kernel first firstElsewhere] at atFirst
      rw [kernel second secondElsewhere] at atSecond
      rw [registry.lookup_eq firstElsewhere, registry.lookup_eq secondElsewhere]
      exact same first second description atFirst atSecond

theorem alone_of_openNew? {kernel : KernelFds} {fd : Nat}
    (opened : kernel.openNew? fd = some state.kernel) :
    state.Alone fd := by
  obtain ⟨-, atNew, elsewhere⟩ := KernelFds.openNew?_spec opened
  intro other different description atFd atOther
  rw [atNew, Option.some.injEq] at atFd
  rw [elsewhere other different, ← atFd] at atOther
  exact absurd (kernel.fresh other _ atOther) (Nat.lt_irrefl _)

/-- After a duplication both numbers have to find the same connection. -/
theorem sameTransport_duplicated_iff {oldFd newFd : Nat} (same : state.SameTransport)
    (replaced : state.kernel.replace? oldFd newFd = some next.kernel)
    (registry : next.registry = state.registry) :
    next.SameTransport ↔ state.registry.lookup oldFd = state.registry.lookup newFd := by
  obtain ⟨isOpen, atNew, elsewhere⟩ := KernelFds.replace?_spec replaced
  obtain ⟨description, isOpen⟩ := Option.ne_none_iff_exists'.mp isOpen
  have atOld : next.kernel.description oldFd = some description := by
    rcases eq_or_ne oldFd newFd with rfl | different
    · rw [atNew, isOpen]
    · rw [elsewhere oldFd different, isOpen]
  rw [isOpen] at atNew
  constructor
  · intro sameNext
    have found := sameNext oldFd newFd description atOld atNew
    rwa [registry] at found
  · intro found
    have before : ∀ {fd opened}, next.kernel.description fd = some opened →
          state.registry.lookup fd = state.registry.lookup oldFd ∧ opened = description ∨
            state.kernel.description fd = some opened := by
      intro fd opened atFd
      rcases eq_or_ne fd newFd with rfl | different
      · rw [atNew, Option.some.injEq] at atFd
        exact .inl ⟨found.symm, atFd.symm⟩
      · rw [elsewhere fd different] at atFd
        exact .inr atFd
    intro first second opened atFirst atSecond
    rw [registry]
    rcases before atFirst with ⟨atFirst, rfl⟩ | atFirst
    · rcases before atSecond with ⟨atSecond, -⟩ | atSecond
      · rw [atFirst, atSecond]
      · rw [atFirst]
        exact same oldFd second _ isOpen atSecond
    · rcases before atSecond with ⟨atSecond, rfl⟩ | atSecond
      · rw [atSecond]
        exact same first oldFd _ atFirst isOpen
      · exact same first second opened atFirst atSecond

/-- An upgrade gives one descriptor a connection that no other finds. -/
theorem sameTransport_upgraded_iff {fd description : Nat} (same : state.SameTransport)
    (kernel : next.kernel = state.kernel)
    (registry : next.registry = state.registry.install fd description) :
    next.SameTransport ↔ state.Alone fd := by
  constructor
  · intro sameNext other different opened atFd atOther
    have found := sameNext fd other opened (by rw [kernel, atFd]) (by rw [kernel, atOther])
    rw [registry,
      (state.registry.install_sameElsewhere fd description).lookup_eq different] at found
    apply state.registry.lookup_ne_nextConn other
    rw [← found]
    simp [ConnRegistry.lookup, ConnRegistry.install]
  · intro alone
    have registryElsewhere : state.registry.SameElsewhere fd next.registry := by
      rw [registry]
      exact state.registry.install_sameElsewhere fd description
    refine same.of_alone ?_ registryElsewhere ?_
    · intro other _
      rw [kernel]
    · intro other different opened
      rw [kernel]
      exact alone other different opened

/-- A call keeps one transport exactly under the condition. -/
theorem sameTransport_step_iff {call : HookCall} (same : state.SameTransport)
    (stepped : state.step? call = some next) :
    next.SameTransport ↔ state.KeepsTransport call := by
  have effected := effected_of_step stepped
  unfold KeepsTransport
  cases effect : call.effect with
  | silent =>
    rw [effect] at effected
    obtain ⟨kernel, registry⟩ := effected
    refine iff_of_true ?_ trivial
    intro first second
    rw [kernel, registry]
    exact same first second
  | opened fd attached =>
    rw [effect] at effected
    obtain ⟨opened, registry⟩ := effected
    obtain ⟨-, -, elsewhere⟩ := KernelFds.openNew?_spec opened
    refine iff_of_true ?_ trivial
    refine same.of_alone elsewhere ?_ (alone_of_openNew? opened)
    rw [registry]
    exact .ite (state.registry.install_sameElsewhere fd _) (.refl fd state.registry)
  | upgraded fd =>
    rw [effect] at effected
    obtain ⟨kernel, description, -, registry⟩ := effected
    exact sameTransport_upgraded_iff same kernel registry
  | duplicated oldFd newFd =>
    rw [effect] at effected
    obtain ⟨replaced, registry⟩ := effected
    exact sameTransport_duplicated_iff same replaced registry
  | closed fd =>
    rw [effect] at effected
    refine iff_of_true ?_ trivial
    rcases effected with ⟨-, kernel, registry⟩ | ⟨kernel, registry⟩
    · intro first second
      rw [kernel, registry]
      exact same first second
    · have kernelElsewhere : state.kernel.SameElsewhere fd next.kernel := by
        rw [kernel]
        exact state.kernel.close_sameElsewhere fd
      refine same.of_alone kernelElsewhere ?_ ?_
      · rw [registry]
        exact .ite (.refl fd state.registry) (state.registry.remove_sameElsewhere fd)
      · intro other _ description atFd
        rw [kernel] at atFd
        simp [KernelFds.close] at atFd

/--
In every run, all descriptors of one description use the same transport in every
state reached exactly if every call of the run meets the condition.
-/
theorem same_transport_iff_keeps
    {kernel : KernelFds}
    {calls : List HookCall}
    {final : HookedProcess}
    (accepted : run? step? (initial kernel) calls = some final) :
    (∀ state, ReachedBy step? (initial kernel) calls state → state.SameTransport) ↔
      Along step? KeepsTransport (initial kernel) calls := by
  refine forall_reachedBy_iff_along sameTransport_step_iff ?_ accepted
  intro first second description _ _
  rfl

/-- A process whose standard descriptors are open. -/
def standardFds : KernelFds where
  description := fun fd => if fd < 3 then some fd else none
  nextDescription := 3
  fresh := by
    intro fd opened holds
    rw [Option.ite_none_right_eq_some, Option.some.injEq] at holds
    exact holds.2 ▸ holds.1

/-- A client connects descriptor 3 and is upgraded. -/
def connectedClient : List HookCall := [.socket AF_INET SOCK_STREAM (some 3), .connect 3 true true]

/-- A second socket that is duplicated before it is used. -/
def duplicatedSocket : List HookCall := [.socket AF_INET SOCK_STREAM (some 4), .dup 4 (some 5)]

/-- Duplicating a socket that is not upgraded keeps one transport. -/
theorem same_transport_not_upgraded :
    ∃ final, run? step? (initial standardFds) (connectedClient ++ duplicatedSocket) = some final ∧
      ∀ state,
        ReachedBy step? (initial standardFds) (connectedClient ++ duplicatedSocket) state →
        state.SameTransport := by
  refine ⟨_, rfl, ?_⟩
  apply (same_transport_iff_keeps rfl).mpr
  refine ⟨trivial, ?_⟩
  rintro _ ⟨⟩
  refine ⟨alone_of_openNew? (show standardFds.openNew? 3 = _ from rfl), ?_⟩
  rintro _ ⟨⟩
  refine ⟨trivial, ?_⟩
  rintro _ ⟨⟩
  refine ⟨rfl, ?_⟩
  rintro _ ⟨⟩
  exact trivial

/-- The duplicate of an upgraded descriptor finds no connection. -/
theorem two_transports_after_dup :
    ∃ final, run? step? (initial standardFds) (connectedClient ++ [.dup 3 (some 4)]) = some final ∧
      final.kernel.description 3 = some 3 ∧
      final.kernel.description 4 = some 3 ∧
      final.registry.lookup 3 = some 0 ∧
      final.registry.lookup 4 = none ∧
      ¬ final.SameTransport := by
  refine ⟨_, rfl, rfl, rfl, rfl, rfl, ?_⟩
  intro same
  cases same 3 4 3 rfl rfl

end Transport

section Stale

variable {state next : HookedProcess}

/-- Every entry belongs to the description that its number refers to. -/
def NotStale (state : HookedProcess) : Prop :=
  ∀ fd entry, state.registry.entry fd = some entry →
    state.kernel.description fd = some entry.installedFor

/--
A duplication keeps the entries if the new number has none or refers to the same
description already, `close` if it finds the descriptor in the table or there is
no entry.
-/
def KeepsEntries (state : HookedProcess) (call : HookCall) : Prop :=
  match call.effect with
  | .duplicated oldFd newFd =>
    state.registry.entry newFd ≠ none →
    state.kernel.description oldFd = state.kernel.description newFd
  | .closed fd =>
    state.table.tracked? fd = none → state.registry.entry fd = none
  | _ => True

/-- The condition can be evaluated. -/
instance decidableKeepsEntries (state : HookedProcess) (call : HookCall) :
    Decidable (state.KeepsEntries call) := by
  unfold KeepsEntries
  split
  · infer_instance
  · infer_instance
  · infer_instance

theorem NotStale.iff_at {fd : Nat} (notStale : state.NotStale)
    (kernel : state.kernel.SameElsewhere fd next.kernel)
    (registry : state.registry.SameElsewhere fd next.registry) :
    next.NotStale ↔ ∀ entry, next.registry.entry fd = some entry →
      next.kernel.description fd = some entry.installedFor := by
  constructor
  · intro notStaleNext
    exact notStaleNext fd
  · intro atFd other entry found
    rcases eq_or_ne other fd with rfl | different
    · exact atFd entry found
    · rw [registry other different] at found
      rw [kernel other different]
      exact notStale other entry found

theorem NotStale.entry_eq_none {fd : Nat} (notStale : state.NotStale)
    (free : state.kernel.description fd = none) :
    state.registry.entry fd = none := by
  apply Option.eq_none_iff_forall_ne_some.mpr
  intro entry found
  rw [notStale fd entry found] at free
  cases free

theorem NotStale.install {fd description : Nat} (notStale : state.NotStale)
    (kernel : state.kernel.SameElsewhere fd next.kernel)
    (isOpen : next.kernel.description fd = some description)
    (registry : next.registry = state.registry.install fd description) :
    next.NotStale := by
  have registryElsewhere : state.registry.SameElsewhere fd next.registry := by
    rw [registry]
    exact state.registry.install_sameElsewhere fd description
  apply (notStale.iff_at kernel registryElsewhere).mpr
  intro entry found
  simp only [registry, ConnRegistry.install, update_self, Option.some.injEq] at found
  rw [isOpen, ← found]

/-- A duplication onto a number with an entry has to keep its description. -/
theorem notStale_duplicated_iff {oldFd newFd : Nat} (notStale : state.NotStale)
    (replaced : state.kernel.replace? oldFd newFd = some next.kernel)
    (registry : next.registry = state.registry) :
    next.NotStale ↔ (state.registry.entry newFd ≠ none →
      state.kernel.description oldFd = state.kernel.description newFd) := by
  obtain ⟨-, atNew, elsewhere⟩ := KernelFds.replace?_spec replaced
  have registryElsewhere : state.registry.SameElsewhere newFd next.registry := by
    rw [registry]
    exact .refl newFd state.registry
  rw [notStale.iff_at elsewhere registryElsewhere, registry, atNew]
  constructor
  · intro atEntry hasEntry
    obtain ⟨entry, found⟩ := Option.ne_none_iff_exists'.mp hasEntry
    rw [atEntry entry found, notStale newFd entry found]
  · intro same entry found
    rw [same (by simp [found]), notStale newFd entry found]

/-- Closing a number has to remove its entry. -/
theorem notStale_closed_iff {fd : Nat} (notStale : state.NotStale)
    (kernel : next.kernel = state.kernel.close fd)
    (registry : next.registry = if state.table.tracked? fd = none then
          state.registry
        else
          state.registry.remove fd) :
    next.NotStale ↔ (state.table.tracked? fd = none → state.registry.entry fd = none) := by
  have kernelElsewhere : state.kernel.SameElsewhere fd next.kernel := by
    rw [kernel]
    exact state.kernel.close_sameElsewhere fd
  have registryElsewhere : state.registry.SameElsewhere fd next.registry := by
    rw [registry]
    exact .ite (.refl fd state.registry) (state.registry.remove_sameElsewhere fd)
  have closed : next.kernel.description fd = none := by
    rw [kernel]
    exact update_self ..
  rw [notStale.iff_at kernelElsewhere registryElsewhere, closed, registry]
  split
  · simp [Option.eq_none_iff_forall_ne_some, *]
  · simp [ConnRegistry.remove, *]

/-- A call keeps the entries exactly under the condition. -/
theorem notStale_step_iff {call : HookCall} (notStale : state.NotStale)
    (stepped : state.step? call = some next) :
    next.NotStale ↔ state.KeepsEntries call := by
  have effected := effected_of_step stepped
  unfold KeepsEntries
  cases effect : call.effect with
  | silent =>
    rw [effect] at effected
    obtain ⟨kernel, registry⟩ := effected
    refine iff_of_true ?_ trivial
    intro fd
    rw [kernel, registry]
    exact notStale fd
  | opened fd attached =>
    rw [effect] at effected
    obtain ⟨opened, registry⟩ := effected
    obtain ⟨free, atNew, elsewhere⟩ := KernelFds.openNew?_spec opened
    refine iff_of_true ?_ trivial
    cases attached with
    | false =>
      have registryElsewhere : state.registry.SameElsewhere fd next.registry := by
        rw [registry]
        exact .refl fd state.registry
      apply (notStale.iff_at elsewhere registryElsewhere).mpr
      intro entry found
      rw [registry] at found
      cases (notStale.entry_eq_none free).symm.trans found
    | true => exact notStale.install elsewhere atNew registry
  | upgraded fd =>
    rw [effect] at effected
    obtain ⟨kernel, description, isOpen, registry⟩ := effected
    refine iff_of_true ?_ trivial
    have atFd : next.kernel.description fd = some description := by rw [kernel, isOpen]
    refine notStale.install ?_ atFd registry
    intro other _
    rw [kernel]
  | duplicated oldFd newFd =>
    rw [effect] at effected
    obtain ⟨replaced, registry⟩ := effected
    exact notStale_duplicated_iff notStale replaced registry
  | closed fd =>
    rw [effect] at effected
    rcases effected with ⟨tracked, kernel, registry⟩ | ⟨kernel, registry⟩
    · refine iff_of_true ?_ fun untracked => absurd untracked tracked
      intro other
      rw [kernel, registry]
      exact notStale other
    · exact notStale_closed_iff notStale kernel registry

/--
In every run, no entry of the registry is stale in any state reached exactly if
every call of the run meets the condition.
-/
theorem not_stale_iff_keeps
    {kernel : KernelFds}
    {calls : List HookCall}
    {final : HookedProcess}
    (accepted : run? step? (initial kernel) calls = some final) :
    (∀ state, ReachedBy step? (initial kernel) calls state → state.NotStale) ↔
      Along step? KeepsEntries (initial kernel) calls := by
  refine forall_reachedBy_iff_along notStale_step_iff ?_ accepted
  intro fd entry found
  cases found

/-- The number of a closed connection is used again by the next one. -/
def reusedNumber : List HookCall :=
  [.socket AF_INET SOCK_STREAM (some 4), .dup2 4 5 true, .close 3, .accept (some 3) true]

/-- No entry is stale when numbers are closed before they are used again. -/
theorem not_stale_when_closed_first :
    ∃ final, run? step? (initial standardFds) (connectedClient ++ reusedNumber) = some final ∧
      ∀ state,
        ReachedBy step? (initial standardFds) (connectedClient ++ reusedNumber) state →
        state.NotStale := by
  refine ⟨_, rfl, ?_⟩
  apply (not_stale_iff_keeps rfl).mpr
  decide +kernel

/--
The entry of a connection outlives its descriptor: when another descriptor is
put in its place, and when the descriptor is closed after it has been duplicated
onto itself.
-/
theorem stale_after_dup2 :
    (∃ final,
      run? step? (initial standardFds)
          (connectedClient ++ [.socket AF_INET SOCK_STREAM (some 4), .dup2 4 3 true]) =
        some final ∧
      final.registry.entry 3 = some ⟨0, 3⟩ ∧
      final.kernel.description 3 = some 4 ∧
      ¬ final.NotStale) ∧
      ∃ final,
        run? step? (initial standardFds) (connectedClient ++ [.dup2 3 3 true, .close 3]) =
          some final ∧
        final.registry.entry 3 = some ⟨0, 3⟩ ∧
        final.kernel.description 3 = none ∧
        ¬ final.NotStale := by
  constructor
  · refine ⟨_, rfl, rfl, rfl, ?_⟩
    intro notStale
    cases notStale 3 _ rfl
  · refine ⟨_, rfl, rfl, rfl, ?_⟩
    intro notStale
    cases notStale 3 _ rfl

end Stale

end HookedProcess

end SocksDirect
