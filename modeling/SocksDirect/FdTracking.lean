import SocksDirect.FdAliasing
import SocksDirect.FdRemapInvariant

namespace SocksDirect

open Machine

/-!
# Every tracked descriptor is tracked once

`close` calls the kernel only if the descriptor table has no reference left, so
a number that the table counts twice would never be closed.  The hooks keep the
table so that a number is tracked under one type, with one reference, and only
while it is open.

Virtual descriptors are unbounded here; the table leaks one of them whenever
`dup2` duplicates a tracked number onto itself.
-/

/-- The two types under which the hooks track a number. -/
def FdType.Tracks (type : FdType) : Prop := type = .kSocket ∨ type = .kSystem

instance (type : FdType) : Decidable type.Tracks := inferInstanceAs (Decidable (_ ∨ _))

theorem FdType.Tracks.known {type : FdType} (tracks : type.Tracks) : type ≠ .kUnknown := by
  rcases tracks with rfl | rfl <;> decide

namespace FdRemapTable

/-- The references to a number under both types. -/
def refs (table : FdRemapTable) (fd : Nat) : Nat :=
  table.refcount .kSocket fd + table.refcount .kSystem fd

section Refs

variable {table : FdRemapTable} {type : FdType} {fd otherFd v : Nat}

section

variable (invariant : table.Invariant)

include invariant

theorem Invariant.reverse_eq_none_iff (known : type ≠ .kUnknown) (fd : Nat) :
    table.reverse type fd = none ↔ table.refcount type fd = 0 := by
  rw [invariant.reverseNone type fd known, invariant.counted type fd known, Finset.card_eq_zero]

theorem Invariant.tracked?_eq_none_iff : table.tracked? fd = none ↔ table.refs fd = 0 := by
  have socket := invariant.reverse_eq_none_iff (show FdType.kSocket ≠ .kUnknown by decide) fd
  have system := invariant.reverse_eq_none_iff (show FdType.kSystem ≠ .kUnknown by decide) fd
  unfold tracked? refs reverseLookup
  rw [Nat.add_eq_zero_iff, ← socket, ← system]
  cases table.reverse .kSocket fd with
  | none | some => simp

theorem Invariant.forward_of_tracked? (tracked : table.tracked? fd = some v) :
    ∃ type, type.Tracks ∧ table.forward v = ⟨type, some fd⟩ := by
  unfold tracked? reverseLookup at tracked
  cases found : table.reverse .kSocket fd with
  | some w =>
    rw [found] at tracked
    cases tracked
    exact ⟨.kSocket, .inl rfl, invariant.reverseSome _ _ _ (by decide) found⟩
  | none =>
    rw [found] at tracked
    exact ⟨.kSystem, .inr rfl, invariant.reverseSome _ _ _ (by decide) tracked⟩

theorem Invariant.refs_alloc (type : FdType) (fd otherFd : Nat) :
    (table.alloc type fd).1.refs otherFd =
      table.refs otherFd + if type.Tracks ∧ otherFd = fd then 1 else 0 := by
  unfold refs
  rw [alloc_refcount table type fd (by decide), alloc_refcount table type fd (by decide),
    invariant.allocLocked.refcount]
  by_cases same : otherFd = fd
  · cases type <;> simp [FdType.Tracks, same] <;> omega
  · simp [same]

/-- `free` under one of the types takes the reference away. -/
theorem Invariant.refs_free (tracks : type.Tracks) (target : table.forward v = ⟨type, some fd⟩)
    (otherFd : Nat) :
    (table.free v).1.refs otherFd = table.refs otherFd - if otherFd = fd then 1 else 0 := by
  have count := invariant.counted_pos tracks.known target
  have counted : (table.unbind v).refcount type fd ≠ 0 := Nat.ne_of_gt count
  obtain ⟨-, refcount, -⟩ := decrefLocked_counted (v := v) tracks.known counted
  rw [← free_eq target] at refcount
  unfold refs
  rw [refcount, setEntry_apply, setEntry_apply]
  by_cases same : otherFd = fd
  · subst same
    rcases tracks with rfl | rfl
    · simp [unbind]
      omega
    · simp [unbind]
      omega
  · simp [same, unbind]

end

end Refs

end FdRemapTable

namespace HookedProcess

/-- Every number is tracked at most once, and only while it is open. -/
structure Tracking (state : HookedProcess) : Prop where
  table : state.table.Invariant
  once : ∀ fd, state.table.refs fd ≤ 1
  isOpen : ∀ fd, state.table.refs fd ≠ 0 → state.kernel.description fd ≠ none

section Tracking

variable {state next : HookedProcess} {fd oldFd newFd : Nat}

section

variable (tracking : state.Tracking)

include tracking

theorem Tracking.refs_eq_zero (free : state.kernel.description fd = none) :
    state.table.refs fd = 0 := by
  by_contra counted
  exact tracking.isOpen fd counted free

theorem Tracking.kernel {kernel : KernelFds} (elsewhere : state.kernel.SameElsewhere fd kernel)
    (isOpen : kernel.description fd ≠ none) :
    Tracking { state with kernel := kernel } where
  table := tracking.table
  once := tracking.once
  isOpen := by
    intro other counted
    rcases eq_or_ne other fd with rfl | different
    · exact isOpen
    · rw [elsewhere other different]
      exact tracking.isOpen other counted

/-- A number that is open and not tracked gets its reference. -/
theorem Tracking.alloc (untracked : state.table.refs fd = 0)
    (isOpen : state.kernel.description fd ≠ none) (type : FdType) :
    Tracking { state with table := (state.table.alloc type fd).1 } where
  table := tracking.table.alloc type fd
  once := by
    intro other
    rw [tracking.table.refs_alloc]
    split
    · rename_i here
      rw [here.2, untracked]
    · exact tracking.once other
  isOpen := by
    intro other counted
    rcases eq_or_ne other fd with rfl | different
    · exact isOpen
    · apply tracking.isOpen other
      rw [tracking.table.refs_alloc, if_neg] at counted
      · exact counted
      · rintro ⟨-, same⟩
        exact different same

theorem Tracking.free_refs {v : Nat} (tracked : state.table.tracked? fd = some v) (other : Nat) :
    (state.table.free v).1.refs other = if other = fd then 0 else state.table.refs other := by
  obtain ⟨type, tracks, target⟩ := tracking.table.forward_of_tracked? tracked
  rw [tracking.table.refs_free tracks target]
  have once := tracking.once other
  split
  · exact Nat.sub_eq_zero_of_le once
  · rfl

theorem Tracking.free {v : Nat} (tracked : state.table.tracked? fd = some v) :
    Tracking { state with table := (state.table.free v).1 } where
  table := tracking.table.free v
  once := by
    intro other
    rw [tracking.free_refs tracked]
    split
    · exact Nat.zero_le 1
    · exact tracking.once other
  isOpen := by
    intro other counted
    apply tracking.isOpen other
    rw [tracking.free_refs tracked] at counted
    split at counted
    · exact absurd rfl counted
    · exact counted

theorem Tracking.registry (registry : ConnRegistry) :
    Tracking { state with registry := registry } :=
  { tracking with }

/-- `maybe_upgrade_to_shm` tracks a number that it does not find. -/
theorem Tracking.maybeUpgradeToShm (isOpen : state.kernel.description fd ≠ none) (attached : Bool) :
    (state.maybeUpgradeToShm fd attached).Tracking := by
  have tracked : Tracking
        (if state.table.reverseLookup .kSocket fd = none ∧
            state.table.reverseLookup .kSystem fd = none then
          { state with table := (state.table.alloc .kSocket fd).1 }
        else
          state) := by
    split
    · rename_i absent
      apply tracking.alloc _ isOpen
      rw [← tracking.table.tracked?_eq_none_iff, FdRemapTable.tracked?, absent.1]
      exact absent.2
    · exact tracking
  unfold HookedProcess.maybeUpgradeToShm
  dsimp only
  split
  · exact tracked
  · split
    · exact tracked.registry _
    · exact tracked

theorem Tracking.trackDuplicate (untracked : state.table.refs newFd = 0)
    (isOpen : state.kernel.description newFd ≠ none) (fd : Nat) :
    Tracking { state with table := state.table.trackDuplicate fd newFd } := by
  unfold FdRemapTable.trackDuplicate
  split
  · exact tracking
  · exact tracking.alloc untracked isOpen _

theorem Tracking.trackReplaced (isOpen : state.kernel.description newFd ≠ none) (oldFd : Nat) :
    Tracking { state with table := state.table.trackReplaced oldFd newFd } := by
  unfold FdRemapTable.trackReplaced
  split
  · exact tracking
  · rename_i vOld _
    split
    · rename_i absent
      exact tracking.alloc (tracking.table.tracked?_eq_none_iff.mp absent) isOpen _
    · rename_i vNew tracked
      have untracked : (state.table.free vNew).1.refs newFd = 0 := by
        rw [tracking.free_refs tracked, if_pos rfl]
      exact (tracking.free tracked).alloc untracked isOpen _

theorem Tracking.close_refs {v : Nat} (tracked : state.table.tracked? fd = some v) :
    (state.table.free v).2 = 0 := by
  obtain ⟨type, tracks, target⟩ := tracking.table.forward_of_tracked? tracked
  have left := tracking.free_refs tracked fd
  rw [if_pos rfl, FdRemapTable.refs, Nat.add_eq_zero_iff] at left
  rw [tracking.table.free_refs tracks.known target,
    ← tracking.table.free_counted target tracks.known]
  rcases tracks with rfl | rfl
  · exact left.1
  · exact left.2

/-- `close` closes its number in the kernel and takes it from the table. -/
theorem Tracking.close_spec (fd : Nat) : (state.close fd).kernel = state.kernel.close fd ∧
      (state.close fd).table.Invariant ∧ ∀ other,
        (state.close fd).table.refs other = if other = fd then 0 else state.table.refs other := by
  unfold HookedProcess.close
  cases tracked : state.table.tracked? fd with
  | none =>
    refine ⟨rfl, tracking.table, ?_⟩
    intro other
    dsimp only
    split
    · rename_i same
      rw [same]
      exact tracking.table.tracked?_eq_none_iff.mp tracked
    · rfl
  | some v =>
    dsimp only
    rw [tracking.close_refs tracked, if_neg (Nat.lt_irrefl 0)]
    exact ⟨rfl, tracking.table.free v, tracking.free_refs tracked⟩

theorem Tracking.close (fd : Nat) : (state.close fd).Tracking := by
  obtain ⟨kernel, table, refs⟩ := tracking.close_spec fd
  refine ⟨table, ?_, ?_⟩
  · intro other
    rw [refs]
    split
    · exact Nat.zero_le 1
    · exact tracking.once other
  · intro other counted
    rw [refs] at counted
    split at counted
    · exact absurd rfl counted
    · rename_i different
      rw [kernel, state.kernel.close_sameElsewhere fd other different]
      exact tracking.isOpen other counted

end

theorem Tracking.initially (kernel : KernelFds) : (initial kernel).Tracking where
  table := FdRemapTable.Invariant.empty
  once := by
    intro fd
    exact Nat.zero_le 1
  isOpen := by
    intro fd counted
    exact absurd rfl counted

theorem Tracking.opened (tracking : state.Tracking) {kernel : KernelFds}
    (opened : state.kernel.openNew? fd = some kernel) :
    Tracking { state with kernel := kernel } ∧ state.table.refs fd = 0 ∧
      kernel.description fd ≠ none := by
  obtain ⟨free, atNew, elsewhere⟩ := KernelFds.openNew?_spec opened
  have isOpen : kernel.description fd ≠ none := by
    rw [atNew]
    simp
  exact ⟨tracking.kernel elsewhere isOpen, tracking.refs_eq_zero free, isOpen⟩

theorem Tracking.replaced (tracking : state.Tracking) {kernel : KernelFds}
    (replaced : state.kernel.replace? oldFd newFd = some kernel) :
    Tracking { state with kernel := kernel } ∧ kernel.description newFd ≠ none := by
  obtain ⟨isOpen, atNew, elsewhere⟩ := KernelFds.replace?_spec replaced
  rw [← atNew] at isOpen
  exact ⟨tracking.kernel elsewhere isOpen, isOpen⟩

theorem Tracking.duplicated (tracking : state.Tracking) {kernel : KernelFds}
    (duplicated : state.kernel.duplicate? oldFd newFd = some kernel) :
    Tracking { state with kernel := kernel } ∧ state.table.refs newFd = 0 ∧
      kernel.description newFd ≠ none := by
  obtain ⟨tracked, isOpen⟩ := tracking.replaced (KernelFds.replace?_of_duplicate? duplicated)
  simp only [KernelFds.duplicate?, Option.ite_none_right_eq_some] at duplicated
  exact ⟨tracked, tracking.refs_eq_zero duplicated.1, isOpen⟩

/-- Every call keeps the tracking. -/
theorem Tracking.step {call : HookCall} (tracking : state.Tracking)
    (stepped : state.step? call = some next) :
    next.Tracking := by
  cases call with
  | socket domain type result =>
    cases result with
    | none =>
      cases stepped
      exact tracking
    | some fd =>
      obtain ⟨kernel, opened, rfl⟩ := Option.map_eq_some_iff.mp stepped
      obtain ⟨tracked, untracked, isOpen⟩ := tracking.opened opened
      exact tracked.alloc untracked isOpen _
  | accept result attached | accept4 result attached =>
    cases result with
    | none =>
      cases stepped
      exact tracking
    | some fd =>
      obtain ⟨kernel, opened, rfl⟩ := Option.map_eq_some_iff.mp stepped
      obtain ⟨tracked, -, isOpen⟩ := tracking.opened opened
      exact tracked.maybeUpgradeToShm isOpen attached
  | connect fd ok attached =>
    cases ok with
    | false =>
      cases stepped
      exact tracking
    | true =>
      simp only [step?, connect, if_true,
        Option.ite_none_left_eq_some, Option.some.injEq] at stepped
      obtain ⟨isOpen, rfl⟩ := stepped
      exact tracking.maybeUpgradeToShm isOpen attached
  | dup fd result =>
    cases result with
    | none =>
      cases stepped
      exact tracking
    | some newFd =>
      obtain ⟨kernel, duplicated, rfl⟩ := Option.map_eq_some_iff.mp stepped
      obtain ⟨tracked, untracked, isOpen⟩ := tracking.duplicated duplicated
      exact tracked.trackDuplicate untracked isOpen fd
  | dup2 oldFd newFd ok =>
    cases ok with
    | false =>
      cases stepped
      exact tracking
    | true =>
      obtain ⟨kernel, replaced, rfl⟩ := Option.map_eq_some_iff.mp stepped
      obtain ⟨tracked, isOpen⟩ := tracking.replaced replaced
      exact tracked.trackReplaced isOpen oldFd
  | dup3 oldFd newFd ok =>
    cases ok with
    | false =>
      cases stepped
      exact tracking
    | true =>
      simp only [step?, dup3, if_true, Option.ite_none_left_eq_some] at stepped
      obtain ⟨kernel, replaced, rfl⟩ := Option.map_eq_some_iff.mp stepped.2
      obtain ⟨tracked, isOpen⟩ := tracking.replaced replaced
      exact tracked.trackReplaced isOpen oldFd
  | fcntl fd cmd result =>
    cases result with
    | none =>
      cases stepped
      exact tracking
    | some newFd =>
      obtain ⟨kernel, duplicated, rfl⟩ := Option.map_eq_some_iff.mp stepped
      obtain ⟨tracked, untracked, isOpen⟩ := tracking.duplicated duplicated
      cases cmd with
      | F_DUPFD => exact tracked.trackDuplicate untracked isOpen fd
      | F_DUPFD_CLOEXEC => exact tracked
  | close fd =>
    cases stepped
    exact tracking.close fd
  | unhookedOpen fd =>
    obtain ⟨kernel, opened, rfl⟩ := Option.map_eq_some_iff.mp stepped
    exact (tracking.opened opened).1

/--
In every state that calls of the hooks reach: a number that the table finds
under one of the two types is open, is found under one of them only and has one
reference there; and `close` of an open number closes it in the kernel and leaves
it untracked.
-/
theorem tracked_once
    {kernel : KernelFds}
    {calls : List HookCall}
    {state : HookedProcess}
    (reached : run? step? (initial kernel) calls = some state) :
    (∀ fd,
      state.table.reverseLookup .kSocket fd ≠ none ∨ state.table.reverseLookup .kSystem fd ≠ none →
      state.kernel.description fd ≠ none ∧
      (state.table.reverseLookup .kSystem fd = none ∧ state.table.refcount .kSocket fd = 1 ∨
        state.table.reverseLookup .kSocket fd = none ∧ state.table.refcount .kSystem fd = 1)) ∧
      ∀ fd,
        state.kernel.description fd ≠ none →
        (state.close fd).kernel = state.kernel.close fd ∧
        (state.close fd).kernel.description fd = none ∧
        (state.close fd).table.reverseLookup .kSocket fd = none ∧
        (state.close fd).table.reverseLookup .kSystem fd = none := by
  have tracking : state.Tracking :=
    invariant_of_run (Tracking.initially kernel)
      (fun tracking stepped => tracking.step stepped) reached
  constructor
  · intro fd tracked
    have once := tracking.once fd
    have socket := tracking.table.reverse_eq_none_iff (show FdType.kSocket ≠ .kUnknown by decide) fd
    have system := tracking.table.reverse_eq_none_iff (show FdType.kSystem ≠ .kUnknown by decide) fd
    unfold FdRemapTable.reverseLookup at *
    rw [FdRemapTable.refs] at once
    refine ⟨tracking.isOpen fd ?_, ?_⟩
    · rw [FdRemapTable.refs, Ne, Nat.add_eq_zero_iff, ← socket, ← system]
      rintro ⟨noSocket, noSystem⟩
      rcases tracked with found | found
      · exact found noSocket
      · exact found noSystem
    · rw [socket, system]
      rw [Ne, Ne, socket, system] at tracked
      omega
  · intro fd _
    obtain ⟨closed, table, refs⟩ := tracking.close_spec fd
    have none : (state.close fd).table.refs fd = 0 := by rw [refs, if_pos rfl]
    rw [FdRemapTable.refs, Nat.add_eq_zero_iff] at none
    refine ⟨closed, ?_, ?_, ?_⟩
    · rw [closed]
      exact Function.update_self ..
    · exact (table.reverse_eq_none_iff (by decide) fd).mpr none.1
    · exact (table.reverse_eq_none_iff (by decide) fd).mpr none.2

/-- A client whose socket another socket has replaced closes the number. -/
theorem tracked_once_replaced :
    ∃ final,
      run? step? (initial standardFds)
          (connectedClient ++ [.socket AF_INET SOCK_STREAM (some 4), .dup2 4 3 true]) =
        some final ∧
      final.table.reverseLookup .kSocket 3 ≠ none ∧
      final.kernel.description 3 = some 4 ∧
      final.table.refcount .kSocket 3 = 1 ∧
      (final.close 3).kernel = final.kernel.close 3 ∧
      (final.close 3).table.reverseLookup .kSocket 3 = none := by
  refine ⟨_, rfl, by decide +kernel, rfl, ?_⟩
  obtain ⟨tracked, closes⟩ :=
    tracked_once
      (show
        run? step? (initial standardFds)
            (connectedClient ++ [.socket AF_INET SOCK_STREAM (some 4), .dup2 4 3 true]) = some _
        from rfl)
  have once := (tracked 3 (.inl (by decide +kernel))).2
  have closed := closes 3 (by decide +kernel)
  refine ⟨?_, closed.1, closed.2.2.1⟩
  rcases once with ⟨-, counted⟩ | ⟨absent, -⟩
  · exact counted
  · exact absurd absent (by decide +kernel)

end Tracking

end HookedProcess

end SocksDirect
