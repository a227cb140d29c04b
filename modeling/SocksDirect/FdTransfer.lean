import SocksDirect.FdTracking

namespace SocksDirect

open Machine

/-!
# What `dup2` and `dup3` do to the tracking

The kernel makes the new number refer to what the old number refers to, whatever
the new number was before.  The hooks of `src/lib/file_api.cpp` follow it only
for a tracked old number and a new number that is not the same one: an untracked
old number leaves the table alone, and a number that is duplicated onto itself is
freed before its type is looked up.
-/

namespace FdRemapTable

/-- The type under which the hooks find a number, if they find it. -/
def trackedType? (table : FdRemapTable) (fd : Nat) : Option FdType :=
  (table.tracked? fd).map fun v => (table.lookup v).type

/-- `dup2` and `dup3` free the new number if it is tracked. -/
def freeTracked (table : FdRemapTable) (newFd : Nat) : FdRemapTable :=
  match table.tracked? newFd with
  | none => table
  | some vNew => (table.free vNew).1

section TrackedType

variable {table : FdRemapTable} {type : FdType} {fd v : Nat}

/-- The type follows from the counts under the two types. -/
theorem Invariant.trackedType?_eq (invariant : table.Invariant) (fd : Nat) : table.trackedType? fd =
      if table.refcount .kSocket fd ≠ 0 then
        some .kSocket
      else if table.refcount .kSystem fd ≠ 0 then
        some .kSystem
      else
        none := by
  have socket := invariant.reverse_eq_none_iff (show FdType.kSocket ≠ .kUnknown by decide) fd
  have system := invariant.reverse_eq_none_iff (show FdType.kSystem ≠ .kUnknown by decide) fd
  simp only [ne_eq, ← socket, ← system]
  unfold trackedType? tracked? reverseLookup lookup
  cases inSocket : table.reverse .kSocket fd with
  | some w =>
    have target := invariant.reverseSome _ _ w (by decide) inSocket
    simp [target]
  | none =>
    cases inSystem : table.reverse .kSystem fd with
    | some w =>
      have target := invariant.reverseSome _ _ w (by decide) inSystem
      simp [target]
    | none => simp

theorem trackedType?_eq_none_iff : table.trackedType? fd = none ↔ table.tracked? fd = none :=
  Option.map_eq_none_iff

theorem Invariant.trackedType?_alloc
    (invariant : table.Invariant)
    (untracked : table.refs fd = 0)
    (type : FdType)
    (other : Nat) :
    (table.alloc type fd).1.trackedType? other =
      if type.Tracks ∧ other = fd then some type else table.trackedType? other := by
  rw [(invariant.alloc type fd).trackedType?_eq, alloc_refcount table type fd (by decide),
    alloc_refcount table type fd (by decide),
    invariant.allocLocked.refcount, invariant.trackedType?_eq other]
  rw [refs, Nat.add_eq_zero_iff] at untracked
  by_cases same : other = fd
  · subst same
    cases type <;> simp [FdType.Tracks, untracked.1, untracked.2]
  · simp [same]

theorem Invariant.free_refcount_of_ne
    (invariant : table.Invariant)
    (target : table.forward v = ⟨type, some fd⟩)
    {otherType : FdType}
    (known : otherType ≠ .kUnknown)
    {other : Nat}
    (different : other ≠ fd) :
    (table.free v).1.refcount otherType other = table.refcount otherType other := by
  rw [invariant.free_counted target known, invariant.counted otherType other known,
    invariant.free_boundTo target, if_neg]
  rintro ⟨-, same⟩
  exact different same

end TrackedType

end FdRemapTable

namespace HookedProcess

section Transfer

variable {state next : HookedProcess} {fd oldFd newFd v : Nat}

theorem Tracking.trackedType?_free (tracking : state.Tracking)
    (tracked : state.table.tracked? fd = some v) (other : Nat) :
    (state.table.free v).1.trackedType? other =
      if other = fd then none else state.table.trackedType? other := by
  have freed := tracking.table.free v
  split
  · rename_i same
    rw [same, FdRemapTable.trackedType?_eq_none_iff,
      freed.tracked?_eq_none_iff, tracking.free_refs tracked, if_pos rfl]
  · rename_i different
    obtain ⟨type, tracks, target⟩ := tracking.table.forward_of_tracked? tracked
    rw [freed.trackedType?_eq, tracking.table.trackedType?_eq,
      tracking.table.free_refcount_of_ne target (by decide) different,
      tracking.table.free_refcount_of_ne target (by decide) different]

/-- Freeing the new number leaves it untracked and the others as they are. -/
theorem Tracking.freeTracked_spec (tracking : state.Tracking) (newFd : Nat) :
    (state.table.freeTracked newFd).Invariant ∧ (state.table.freeTracked newFd).refs newFd = 0 ∧
      ∀ other, (state.table.freeTracked newFd).trackedType? other =
          if other = newFd then none else state.table.trackedType? other := by
  unfold FdRemapTable.freeTracked
  cases tracked : state.table.tracked? newFd with
  | none =>
    refine ⟨tracking.table, tracking.table.tracked?_eq_none_iff.mp tracked, ?_⟩
    intro other
    dsimp only
    split
    · rename_i same
      rw [same]
      exact FdRemapTable.trackedType?_eq_none_iff.mpr tracked
    · rfl
  | some vNew =>
    refine ⟨tracking.table.free vNew, ?_, tracking.trackedType?_free tracked⟩
    rw [tracking.free_refs tracked, if_pos rfl]

/-- The entry of the old number after the new number has been freed. -/
theorem Tracking.lookup_freeTracked (tracking : state.Tracking) {vOld : Nat}
    (trackedOld : state.table.tracked? oldFd = some vOld) (newFd : Nat) :
    (state.table.freeTracked newFd).lookup vOld =
      if oldFd = newFd then .unused else state.table.lookup vOld := by
  obtain ⟨oldType, -, oldTarget⟩ := tracking.table.forward_of_tracked? trackedOld
  unfold FdRemapTable.freeTracked FdRemapTable.lookup
  cases trackedNew : state.table.tracked? newFd with
  | none =>
    rw [if_neg]
    rintro rfl
    rw [trackedOld] at trackedNew
    cases trackedNew
  | some vNew =>
    obtain ⟨newType, -, newTarget⟩ := tracking.table.forward_of_tracked? trackedNew
    rw [(FdRemapTable.free_fields newTarget).1]
    split
    · rename_i same
      subst same
      obtain rfl : vOld = vNew := by
        rw [trackedOld] at trackedNew
        exact Option.some.inj trackedNew
      exact Function.update_self ..
    · rename_i different
      rw [Function.update_of_ne]
      rintro rfl
      rw [oldTarget] at newTarget
      cases newTarget
      exact different rfl

/-- What `dup2` and `dup3` leave of a tracked number's type. -/
theorem Tracking.trackedType?_trackReplaced (tracking : state.Tracking) {vOld : Nat}
    (trackedOld : state.table.tracked? oldFd = some vOld) (newFd other : Nat) :
    (state.table.trackReplaced oldFd newFd).trackedType? other = if other = newFd then
        if oldFd = newFd then none else state.table.trackedType? oldFd
      else
        state.table.trackedType? other := by
  obtain ⟨invariant, untracked, types⟩ := tracking.freeTracked_spec newFd
  have entry := tracking.lookup_freeTracked trackedOld newFd
  obtain ⟨oldType, tracks, oldTarget⟩ := tracking.table.forward_of_tracked? trackedOld
  have typeOld : state.table.trackedType? oldFd = some oldType := by
    unfold FdRemapTable.trackedType? FdRemapTable.lookup
    rw [trackedOld, Option.map_some, oldTarget]
  have replaced : state.table.trackReplaced oldFd newFd = ((state.table.freeTracked newFd).alloc
          ((state.table.freeTracked newFd).lookup vOld).type newFd).1 := by
    unfold FdRemapTable.trackReplaced FdRemapTable.freeTracked
    cases state.table.tracked? newFd with
    | none | some vNew => simp only [trackedOld]
  rw [replaced, invariant.trackedType?_alloc untracked, entry, types]
  by_cases onto : oldFd = newFd
  · rw [if_pos onto, if_pos onto, if_neg]
    rintro ⟨unknown, -⟩
    exact unknown.known rfl
  · unfold FdRemapTable.lookup
    rw [if_neg onto, if_neg onto, oldTarget, typeOld]
    simp only [tracks, true_and]
    split <;> rfl

/--
The new number is tracked as the old one was before the call, and every other
number is tracked as before.
-/
def TransfersTracking (state next : HookedProcess) (oldFd newFd : Nat) : Prop :=
  next.table.trackedType? newFd = state.table.trackedType? oldFd ∧ ∀ fd, fd ≠ newFd →
      next.table.trackedType? fd = state.table.trackedType? fd

theorem table_of_dup {call : HookCall}
    (duplicates : call = .dup2 oldFd newFd true ∨ call = .dup3 oldFd newFd true)
    (stepped : state.step? call = some next) :
    next.table = state.table.trackReplaced oldFd newFd := by
  rcases duplicates with rfl | rfl
  · obtain ⟨kernel, -, rfl⟩ := Option.map_eq_some_iff.mp stepped
    rfl
  · simp only [step?, dup3, if_true, Option.ite_none_left_eq_some] at stepped
    obtain ⟨kernel, -, rfl⟩ := Option.map_eq_some_iff.mp stepped.2
    rfl

/--
In every state that the hooks reach, a successful `dup2` or `dup3` transfers the
tracking exactly if the old number is tracked and is not the new one, or neither
number is tracked.
-/
theorem transfers_tracking_iff
    {kernel : KernelFds}
    {calls : List HookCall}
    {call : HookCall}
    (reached : run? step? (initial kernel) calls = some state)
    (duplicates : call = .dup2 oldFd newFd true ∨ call = .dup3 oldFd newFd true)
    (stepped : state.step? call = some next) :
    TransfersTracking state next oldFd newFd ↔
      state.table.tracked? oldFd ≠ none ∧ newFd ≠ oldFd ∨
      state.table.tracked? oldFd = none ∧ state.table.tracked? newFd = none := by
  have tracking : state.Tracking :=
    invariant_of_run (Tracking.initially kernel)
      (fun tracking stepped => tracking.step stepped) reached
  unfold TransfersTracking
  rw [table_of_dup duplicates stepped]
  cases trackedOld : state.table.tracked? oldFd with
  | none =>
    have unchanged : state.table.trackReplaced oldFd newFd = state.table := by
      unfold FdRemapTable.trackReplaced
      rw [trackedOld]
    have typeOld : state.table.trackedType? oldFd = none :=
      FdRemapTable.trackedType?_eq_none_iff.mpr trackedOld
    rw [unchanged, typeOld, FdRemapTable.trackedType?_eq_none_iff]
    simp
  | some vOld =>
    have types := tracking.trackedType?_trackReplaced trackedOld newFd
    have typeOld : state.table.trackedType? oldFd ≠ none := by
      rw [Ne, FdRemapTable.trackedType?_eq_none_iff, trackedOld]
      simp
    rw [types newFd, if_pos rfl]
    constructor
    · rintro ⟨transferred, -⟩
      refine .inl ⟨by simp, ?_⟩
      rintro rfl
      rw [if_pos rfl] at transferred
      exact typeOld transferred.symm
    · rintro (⟨-, different⟩ | ⟨untracked, -⟩)
      · rw [if_neg different.symm]
        refine ⟨rfl, ?_⟩
        intro fd other
        rw [types fd, if_neg other]
      · cases untracked

/-- A socket that replaces another socket is tracked in its place. -/
theorem transfers_tracking_between_sockets :
    ∃ state next,
      run? step? (initial standardFds) (connectedClient ++ [.socket AF_INET SOCK_STREAM (some 4)]) =
        some state ∧
      state.step? (.dup2 4 3 true) = some next ∧
      TransfersTracking state next 4 3 := by
  refine ⟨_, _, rfl, rfl, ?_⟩
  exact
    (transfers_tracking_iff
      (show
        run? step? (initial standardFds)
            (connectedClient ++ [.socket AF_INET SOCK_STREAM (some 4)]) = some _
        from rfl)
      (.inl rfl) rfl).mpr
      (.inl ⟨by decide +kernel, by decide⟩)

/--
A socket that is duplicated onto itself is tracked no more, and a socket number
onto which standard input has been duplicated is still tracked.
-/
theorem tracking_not_transferred :
    ∃ state ontoItself fromUntracked,
      run? step? (initial standardFds) connectedClient = some state ∧
      state.table.trackedType? 3 = some .kSocket ∧
      state.table.trackedType? 0 = none ∧
      state.step? (.dup2 3 3 true) = some ontoItself ∧
      ontoItself.table.trackedType? 3 = none ∧
      state.step? (.dup2 0 3 true) = some fromUntracked ∧
      fromUntracked.table.trackedType? 3 = some .kSocket := by
  refine ⟨_, _, _, rfl, ?_, ?_, rfl, ?_, rfl, ?_⟩
  · decide +kernel
  · decide +kernel
  · decide +kernel
  · decide +kernel

end Transfer

end HookedProcess

end SocksDirect
