import SocksDirect.MachineRun
import SocksDirect.UpgradedFd

namespace SocksDirect

open Function Machine

/-!
# When closing a descriptor closes its segment

The segment is closed by the destructor of `ShmConn`, so it is closed once
nobody points to the connection any more.  The `close` hook takes the pointer
out of the registry, and the hooks drop their own pointers when they return.
Two kinds of pointers are left: those of a sweep that is still running, and the
one in the poller's map, which only `EPOLL_CTL_DEL` erases.
-/

namespace FdAction

/-- Whether the step puts the descriptor into the poller's map or erases it. -/
def watches? : FdAction → Option Bool
  | .watch _ => some true
  | .unwatch _ => some false
  | _ => none

/-- Whether the last `watch` or `unwatch` of the steps is a `watch`. -/
def endWatched (actions : List FdAction) : Bool :=
  actions.foldl (fun watched action => action.watches?.getD watched) false

end FdAction

namespace UpgradedFd

/-- What a step does with the pointers, and where its thread stood before. -/
inductive FdMove
    (fd : Nat)
    (state : UpgradedFd) :
    FdAction → UpgradedFd → Prop where
  | passedThrough {action : FdAction} (quiet : action.watches? = none) :
      FdMove fd state action state
  | lookup {action : FdAction} {thread : Nat} {position : FdCall} (quiet : action.watches? = none)
      (notClosing : state.call thread ≠ some .closing) (notRemoved : position ≠ .removed) :
      FdMove fd state action (state.lookup thread position)
  | goto {action : FdAction} {thread : Nat} {position : FdCall} {notifyFd : Bool}
      (quiet : action.watches? = none) (notClosing : state.call thread ≠ some .closing)
      (notRemoved : position ≠ .removed) :
      FdMove fd state action ({ state with notifyFd := notifyFd }.goto thread (some position))
  | leave {action : FdAction} {thread : Nat} {notifyFd : Bool} (quiet : action.watches? = none)
      (notClosing : state.call thread ≠ some .closing) :
      FdMove fd state action ({ state with notifyFd := notifyFd }.leave thread)
  | watch {thread : Nat} (notClosing : state.call thread ≠ some .closing)
      (held : .call thread ∈ state.conn.holders) :
      FdMove fd state (.watch thread)
        ({ state with conn := state.conn.copy .pollerMap held }.goto thread (some .ctlWatched))
  | unwatch {thread : Nat} (notClosing : state.call thread ≠ some .closing) :
      FdMove fd state (.unwatch thread) ((state.drop .pollerMap).goto thread (some .ctlUnwatched))
  | drained {thread : Nat} (notClosing : state.call thread ≠ some .closing) :
      FdMove fd state (.drainReturn thread)
        ((state.drop (.call thread)).goto thread (some .waiting))
  | close {thread : Nat} (idle : state.call thread = none) :
      FdMove fd state (.close thread) (closeHook fd state thread)
  | remove {thread : Nat} : FdMove fd state (.remove thread) (state.removeHook thread)
  | realClose {thread : Nat} (removed : state.call thread = some .removed) :
      FdMove fd state (.realClose thread) { state.leave thread with closeReturned := true }
  | snapshot {sweep : Sweep} (held : sweepSource sweep ∈ state.conn.holders) :
      FdMove fd state (.snapshot sweep) { state with conn := state.conn.copy (.sweep sweep) held }
  | sweepReturn {sweep : Sweep} : FdMove fd state (.sweepReturn sweep) (state.drop (.sweep sweep))

section Moves

variable {fd thread : Nat} {state next : UpgradedFd}

private theorem lookupOpen_move {action : FdAction} {position : FdCall}
    (quiet : action.watches? = none) (idle : state.call thread = none)
    (notRemoved : position ≠ .removed) :
    FdMove fd state action (state.lookupOpen thread position) := by
  unfold UpgradedFd.lookupOpen
  split
  · apply FdMove.lookup quiet _ notRemoved
    rw [idle]
    simp
  · exact FdMove.passedThrough quiet

/-- Every step is one of the moves. -/
theorem step?_move {action : FdAction} (stepped : step? fd state action = some next) :
    FdMove fd state action next := by
  revert stepped
  fun_cases step? with rintro ⟨⟩
  | case1 thread idle | case3 thread idle | case7 thread op idle =>
    exact lookupOpen_move rfl idle (by simp)
  | case5 thread position | case16 thread position | case18 thread _ position | case22 thread position
  | case30 thread position => exact .leave rfl (by simp [position])
  | case9 thread ok position | case10 thread position =>
    exact .goto rfl (by rcases position with position | position <;> simp [position]) (by decide)
  | case11 thread ok position =>
    exact .leave rfl (by rcases position with position | position <;> simp [position])
  | case13 thread position held => exact .watch (by simp [position]) held
  | case17 thread _ position | case24 thread position =>
    exact .goto rfl (by simp [position]) (by decide)
  | case20 thread position => exact .unwatch (by simp [position])
  | case26 thread position => exact .lookup rfl (by simp [position]) (by decide)
  | case28 thread position => exact .drained (by simp [position])
  | case32 thread idle => exact .close idle
  | case34 thread => exact .remove
  | case36 thread removed => exact .realClose removed
  | case38 sweep held => exact .snapshot held
  | case39 sweep => exact .passedThrough rfl
  | case40 sweep => exact .sweepReturn

end Moves

/-- What holds of an upgraded descriptor in every state. -/
structure Invariant
    (table : FdRemapTable)
    (segment : LocalSegment)
    (state : UpgradedFd) : Prop where
  value : state.conn.HasValue LocalSegment.close segment
  noPointer : ∀ thread, state.call thread = none → .call thread ∉ state.conn.holders
  registered : .registry ∈ state.conn.holders →
    state.closeReturned = false ∧ state.table = table ∨ ∃ thread, state.call thread = some .closing
  removed : ∀ thread, state.call thread = some .removed → .registry ∉ state.conn.holders

section Preservation

variable {fd thread : Nat} {table : FdRemapTable} {segment : LocalSegment} {state next : UpgradedFd}
variable {position : FdCall}

theorem Invariant.initially : Invariant table segment (initial table segment) where
  value := SharedObject.hasValue_make segment ConnHolder.registry
  noPointer := by
    intro thread _ held
    simp [initial, SharedObject.make] at held
  registered := fun _ => .inl ⟨rfl, rfl⟩
  removed := by
    intro thread position
    cases position

section

variable (invariant : Invariant table segment state)

include invariant

/-- A thread that is not removing the connection goes on in its hook. -/
theorem Invariant.goto (notClosing : state.call thread ≠ some .closing)
    (notRemoved : position ≠ .removed) :
    Invariant table segment (state.goto thread (some position)) where
  value := invariant.value
  noPointer := by
    intro other idle
    by_cases same : other = thread
    · subst same
      simp [UpgradedFd.goto] at idle
    · simp only [UpgradedFd.goto, update_of_ne same] at idle
      exact invariant.noPointer other idle
  registered := by
    intro held
    refine (invariant.registered held).imp_right ?_
    rintro ⟨closer, closing⟩
    have different : closer ≠ thread := by
      rintro rfl
      exact notClosing closing
    exact ⟨closer, by simpa [UpgradedFd.goto, different] using closing⟩
  removed := by
    intro other removed
    by_cases same : other = thread
    · subst same
      simp [UpgradedFd.goto, notRemoved] at removed
    · simp only [UpgradedFd.goto, update_of_ne same] at removed
      exact invariant.removed other removed

theorem Invariant.drop (holder : ConnHolder) : Invariant table segment (state.drop holder) where
  value := invariant.value.drop holder
  noPointer := by
    intro other idle held
    exact invariant.noPointer other idle (SharedObject.mem_drop.mp held).2
  registered := by
    intro held
    exact invariant.registered (SharedObject.mem_drop.mp held).2
  removed := by
    intro other removed held
    exact invariant.removed other removed (SharedObject.mem_drop.mp held).2

/-- A hook returns. -/
theorem Invariant.leave (notClosing : state.call thread ≠ some .closing) :
    Invariant table segment (state.leave thread) where
  value := (invariant.drop (.call thread)).value
  noPointer := by
    intro other idle held
    obtain ⟨different, before⟩ := SharedObject.mem_drop.mp held
    have notSame : other ≠ thread := by
      rintro rfl
      exact different rfl
    simp only [UpgradedFd.leave, UpgradedFd.goto, update_of_ne notSame] at idle
    exact invariant.noPointer other idle before
  registered := by
    intro held
    refine (invariant.registered (SharedObject.mem_drop.mp held).2).imp_right ?_
    rintro ⟨closer, closing⟩
    have different : closer ≠ thread := by
      rintro rfl
      exact notClosing closing
    refine ⟨closer, ?_⟩
    simpa [UpgradedFd.leave, UpgradedFd.goto, UpgradedFd.drop, different] using closing
  removed := by
    intro other removed held
    by_cases same : other = thread
    · subst same
      simp [UpgradedFd.leave, UpgradedFd.goto] at removed
    · simp only [UpgradedFd.leave, UpgradedFd.goto, update_of_ne same] at removed
      exact invariant.removed other removed (SharedObject.mem_drop.mp held).2

/-- A pointer is copied to a place that is neither a hook nor the registry. -/
theorem Invariant.copy {source target : ConnHolder} (held : source ∈ state.conn.holders)
    (noCall : ∀ other, target ≠ .call other) (notRegistry : target ≠ .registry) :
    Invariant table segment { state with conn := state.conn.copy target held } where
  value := invariant.value.copy target held
  noPointer := by
    intro other idle holds
    rcases (SharedObject.mem_copy held).mp holds with same | before
    · exact noCall other same.symm
    · exact invariant.noPointer other idle before
  registered := by
    intro holds
    rcases (SharedObject.mem_copy held).mp holds with same | before
    · exact absurd same.symm notRegistry
    · exact invariant.registered before
  removed := by
    intro other removed holds
    rcases (SharedObject.mem_copy held).mp holds with same | before
    · exact notRegistry same.symm
    · exact invariant.removed other removed before

/-- A hook looks the descriptor up. -/
theorem Invariant.lookup (notClosing : state.call thread ≠ some .closing)
    (notRemoved : position ≠ .removed) :
    Invariant table segment (state.lookup thread position) := by
  unfold UpgradedFd.lookup
  split
  · rename_i held
    have moved := invariant.goto notClosing notRemoved
    exact {
      value := invariant.value.copy (.call thread) held
      noPointer := by
        intro other idle holds
        rcases (SharedObject.mem_copy held).mp holds with same | before
        · cases same
          simp [UpgradedFd.goto] at idle
        · exact moved.noPointer other idle before
      registered := fun _ => moved.registered held
      removed := fun other removed => absurd held (moved.removed other removed) }
  · exact invariant

/-- The `close` hook gives up the only entry of the descriptor table. -/
theorem Invariant.closeHook (once : table.TrackedOnce fd) (idle : state.call thread = none) :
    Invariant table segment (closeHook fd state thread) := by
  unfold UpgradedFd.closeHook
  split
  · exact invariant
  · rename_i v tracked
    dsimp only
    split
    · rename_i referenced
      exact {
        value := invariant.value
        noPointer := invariant.noPointer
        registered := by
          intro held
          rcases invariant.registered held with ⟨_, same⟩ | closing
          · rw [same] at tracked referenced
            rw [once.free_refs tracked] at referenced
            exact absurd referenced (Nat.lt_irrefl 0)
          · exact .inr closing
        removed := invariant.removed }
    · have moved :=
        invariant.goto
          (show state.call thread ≠ some .closing by simp [idle])
          (show FdCall.closing ≠ .removed by decide)
      exact {
        value := invariant.value
        noPointer := moved.noPointer
        registered := by
          intro _
          exact .inr ⟨thread, by simp [UpgradedFd.goto]⟩
        removed := moved.removed }

/-- The `close` hook takes the pointer out of the registry. -/
theorem Invariant.removeHook : Invariant table segment (state.removeHook thread) := by
  unfold UpgradedFd.removeHook
  split
  · rename_i held
    exact {
      value := (invariant.value.copy (.call thread) held).drop .registry
      noPointer := by
        intro other idle holds
        have copied := (SharedObject.mem_drop.mp holds).2
        rcases (SharedObject.mem_copy held).mp copied with same | before
        · cases same
          simp [UpgradedFd.goto] at idle
        · have notSame : other ≠ thread := by
            rintro rfl
            simp [UpgradedFd.goto] at idle
          simp only [UpgradedFd.goto, update_of_ne notSame] at idle
          exact invariant.noPointer other idle before
      registered := by
        intro holds
        exact absurd rfl (SharedObject.mem_drop.mp holds).1
      removed := by
        intro other _ holds
        exact absurd rfl (SharedObject.mem_drop.mp holds).1 }
  · rename_i notHeld
    exact {
      value := invariant.value
      noPointer := by
        intro other idle
        have notSame : other ≠ thread := by
          rintro rfl
          simp [UpgradedFd.goto] at idle
        simp only [UpgradedFd.goto, update_of_ne notSame] at idle
        exact invariant.noPointer other idle
      registered := fun held => absurd held notHeld
      removed := fun _ _ => notHeld }

theorem Invariant.realClose (removed : state.call thread = some .removed) :
    Invariant table segment { state.leave thread with closeReturned := true } := by
  have left := invariant.leave (show state.call thread ≠ some .closing by simp [removed])
  exact {
    value := left.value
    noPointer := left.noPointer
    registered := by
      intro held
      exact absurd (SharedObject.mem_drop.mp held).2 (invariant.removed thread removed)
    removed := left.removed }

theorem Invariant.notify (notifyFd : Bool) :
    Invariant table segment { state with notifyFd := notifyFd } :=
  { invariant with }

end

/-- Every step keeps the invariant. -/
theorem Invariant.step {action : FdAction} (once : table.TrackedOnce fd)
    (invariant : Invariant table segment state) (stepped : step? fd state action = some next) :
    Invariant table segment next := by
  cases step?_move stepped with
  | passedThrough quiet => exact invariant
  | lookup quiet notClosing notRemoved => exact invariant.lookup notClosing notRemoved
  | @goto _ _ _ notifyFd quiet notClosing notRemoved =>
    exact (invariant.notify notifyFd).goto notClosing notRemoved
  | @leave _ _ notifyFd quiet notClosing => exact (invariant.notify notifyFd).leave notClosing
  | watch notClosing held =>
    have noCall (other : Nat) : ConnHolder.pollerMap ≠ .call other := by simp
    have copied := invariant.copy held noCall (by simp)
    exact copied.goto notClosing (by decide)
  | unwatch notClosing => exact (invariant.drop .pollerMap).goto notClosing (by decide)
  | drained notClosing => exact (invariant.drop (.call _)).goto notClosing (by decide)
  | close idle => exact invariant.closeHook once idle
  | remove => exact invariant.removeHook
  | realClose removed => exact invariant.realClose removed
  | snapshot held => exact invariant.copy held (by simp) (by simp)
  | sweepReturn => exact invariant.drop (.sweep _)

end Preservation

section Watched

variable {fd : Nat} {state next : UpgradedFd}

/-- The descriptor is in the poller's map. -/
def watched (state : UpgradedFd) : Bool := .pollerMap ∈ state.conn.holders

@[simp] theorem watched_goto (thread : Nat) (position : Option FdCall) :
    (state.goto thread position).watched = state.watched :=
  rfl

@[simp] theorem watched_leave (thread : Nat) : (state.leave thread).watched = state.watched := by
  simp [watched, UpgradedFd.leave, UpgradedFd.goto, UpgradedFd.drop]

@[simp] theorem watched_lookup (thread : Nat) (position : FdCall) :
    (state.lookup thread position).watched = state.watched := by
  unfold UpgradedFd.lookup
  split
  · simp [watched, UpgradedFd.goto]
  · rfl

theorem watched_drop {holder : ConnHolder} (another : .pollerMap ≠ holder) :
    (state.drop holder).watched = state.watched := by
  simp [watched, UpgradedFd.drop, another]

theorem watched_copy {source target : ConnHolder} (held : source ∈ state.conn.holders)
    (another : .pollerMap ≠ target) :
    watched { state with conn := state.conn.copy target held } = state.watched := by
  simp [watched, another]

theorem watched_closeHook (thread : Nat) : (closeHook fd state thread).watched = state.watched := by
  unfold UpgradedFd.closeHook
  split
  · rfl
  · dsimp only
    split <;> rfl

theorem watched_removeHook (thread : Nat) : (state.removeHook thread).watched = state.watched := by
  unfold UpgradedFd.removeHook
  split
  · rename_i held
    rw [watched_goto, watched_drop (by simp)]
    exact watched_copy held (by simp)
  · rfl

/-- Only `watch` and `unwatch` touch the poller's map. -/
theorem watched_step {action : FdAction} (stepped : step? fd state action = some next) :
    next.watched = action.watches?.getD state.watched := by
  cases step?_move stepped with
  | passedThrough quiet | goto quiet =>
    rw [quiet]
    rfl
  | lookup quiet notClosing notRemoved =>
    rw [quiet]
    exact watched_lookup _ _
  | leave quiet notClosing =>
    rw [quiet]
    exact watched_leave _
  | watch notClosing held => simp [watched, UpgradedFd.goto, FdAction.watches?]
  | unwatch notClosing => simp [watched, UpgradedFd.goto, UpgradedFd.drop, FdAction.watches?]
  | drained | sweepReturn => exact watched_drop (by simp)
  | close idle => exact watched_closeHook _
  | remove => exact watched_removeHook _
  | realClose removed => exact watched_leave _
  | snapshot held => exact watched_copy held (by simp)

end Watched

/-- The segment has been closed, and once. -/
def ClosedOnce (segment : LocalSegment) (state : UpgradedFd) : Prop :=
  state.conn.destroyed = 1 ∧ state.conn.value.outboundClosed = true ∧
    state.conn.value.refcount = segment.refcount - 1

/-- The segment is closed exactly when no pointer is left. -/
theorem Invariant.closedOnce_iff {table : FdRemapTable} {segment : LocalSegment}
    {state : UpgradedFd} (invariant : Invariant table segment state)
    (isOpen : segment.isOpen = true) :
    state.ClosedOnce segment ↔ state.conn.holders = ∅ := by
  have value := invariant.value
  have destroyed := state.conn.destroyedOnce
  constructor
  · rintro ⟨once, -, -⟩
    by_contra notEmpty
    rw [if_neg notEmpty, once] at destroyed
    cases destroyed
  · intro empty
    rw [SharedObject.HasValue, if_pos empty] at value
    rw [if_pos empty] at destroyed
    refine ⟨destroyed, ?_, ?_⟩
    · rw [value, LocalSegment.close, if_pos isOpen]
    · rw [value, LocalSegment.close, if_pos isOpen]

/--
In every run that ends after `close` has returned, with no hook in progress: the
segment has been closed, and once, exactly if the last `watch` or `unwatch` of
the run is not a `watch` and no sweep is still using the connection.
-/
theorem segment_closed_iff_unwatched
    {fd : Nat}
    {table : FdRemapTable}
    {segment : LocalSegment}
    {actions : List FdAction}
    {final : UpgradedFd}
    (once : table.TrackedOnce fd)
    (isOpen : segment.isOpen = true)
    (reached : run? (step? fd) (initial table segment) actions = some final)
    (returned : final.closeReturned = true)
    (noCall : ∀ thread, final.call thread = none) :
    final.ClosedOnce segment ↔
      FdAction.endWatched actions = false ∧ ∀ sweep, .sweep sweep ∉ final.conn.holders := by
  have invariant : Invariant table segment final :=
    invariant_of_run Invariant.initially
      (fun invariant stepped => invariant.step once stepped) reached
  have lastPoll : final.watched = FdAction.endWatched actions := by
    have observed :=
      observe_of_run watched
        (fun watched action => action.watches?.getD watched)
        (fun stepped => watched_step stepped) reached
    simpa [watched, initial, SharedObject.make, FdAction.endWatched] using observed
  have notRegistered : .registry ∉ final.conn.holders := by
    intro held
    rcases invariant.registered held with ⟨notReturned, -⟩ | closing
    · rw [returned] at notReturned
      cases notReturned
    · obtain ⟨thread, closing⟩ := closing
      rw [noCall thread] at closing
      cases closing
  rw [invariant.closedOnce_iff isOpen, ← lastPoll]
  constructor
  · intro empty
    simp [watched, empty]
  · rintro ⟨unwatched, noSweep⟩
    apply Finset.eq_empty_of_forall_notMem
    intro holder
    cases holder with
    | registry => exact notRegistered
    | pollerMap => simpa [watched] using unwatched
    | call thread => exact invariant.noPointer thread (noCall thread)
    | sweep sweep => exact noSweep sweep

/-- Descriptor 3 of a process that has just connected it. -/
def connectedTable : FdRemapTable := (FdRemapTable.empty.alloc .kSocket 3).1

/-- A mapped segment that both ends have attached. -/
def attachedSegment : LocalSegment where
  isOpen := true
  outboundClosed := false
  refcount := 2

/-- A thread adds the descriptor to an epoll set. -/
def addSteps : List FdAction := [.epollCtl 0 .add, .eventfd 0 true, .watch 0, .realEpollCtl 0]

/-- A thread deletes the descriptor from its epoll set. -/
def delSteps : List FdAction := [.epollCtl 0 .del, .realEpollCtl 0, .unwatch 0, .closeNotify 0]

/-- A thread closes the descriptor. -/
def closeSteps : List FdAction := [.close 0, .remove 0, .realClose 0]

/-- Adding, deleting and closing a descriptor closes its segment. -/
theorem segment_closed_after_del :
    ∃ final,
      run? (step? 3) (initial connectedTable attachedSegment) (addSteps ++ delSteps ++ closeSteps) =
        some final ∧
      final.ClosedOnce attachedSegment := by
  have once : connectedTable.TrackedOnce 3 := FdRemapTable.trackedOnce_alloc rfl rfl
  have unwatched : FdAction.endWatched (addSteps ++ delSteps ++ closeSteps) = false := rfl
  refine ⟨_, rfl, ?_⟩
  refine (segment_closed_iff_unwatched once rfl ?_ rfl ?_).mpr ⟨unwatched, ?_⟩
  · rfl
  · intro thread
    cases thread with
    | zero | succ => rfl
  · intro sweep
    cases sweep <;> decide

/--
In every state of every run: whoever points to the connection finds its segment
open, and once `close` has returned, with no other `close` in progress, a hook
that looks the descriptor up gets no pointer.
-/
theorem no_use_after_close
    {fd : Nat}
    {table : FdRemapTable}
    {segment : LocalSegment}
    {actions : List FdAction}
    {final : UpgradedFd}
    (once : table.TrackedOnce fd)
    (reached : run? (step? fd) (initial table segment) actions = some final) :
    (∀ holder ∈ final.conn.holders, final.conn.value = segment) ∧
      (final.closeReturned = true →
        (∀ thread, final.call thread ≠ some .closing) →
        ∀ thread position, final.lookup thread position = final) := by
  have invariant : Invariant table segment final :=
    invariant_of_run Invariant.initially
      (fun invariant stepped => invariant.step once stepped) reached
  refine ⟨?_, ?_⟩
  · intro holder held
    have value := invariant.value
    rwa [SharedObject.HasValue, if_neg (Finset.ne_empty_of_mem held)] at value
  · intro returned noClosing thread position
    refine dif_neg fun held => ?_
    rcases invariant.registered held with ⟨notReturned, -⟩ | ⟨closer, closing⟩
    · rw [returned] at notReturned
      cases notReturned
    · exact noClosing closer closing

/-- Adding and closing a descriptor leaves nothing that a hook could look up. -/
theorem no_use_after_close_added :
    ∃ final,
      run? (step? 3) (initial connectedTable attachedSegment) (addSteps ++ closeSteps) =
        some final ∧
      final.lookup 1 .data = final := by
  have once : connectedTable.TrackedOnce 3 := FdRemapTable.trackedOnce_alloc rfl rfl
  obtain ⟨final, reached, returned, noClosing⟩ : ∃ final, run? (step? 3)
      (initial connectedTable attachedSegment) (addSteps ++ closeSteps) = some final ∧
      final.closeReturned = true ∧ ∀ thread, final.call thread ≠ some .closing := by
    refine ⟨_, rfl, rfl, ?_⟩
    intro thread
    cases thread with
    | zero | succ => nofun
  exact ⟨final, reached, (no_use_after_close once reached).2 returned noClosing 1 .data⟩

/-- Adding and closing a descriptor leaves its segment open. -/
theorem segment_open_without_del :
    ∃ final,
      run? (step? 3) (initial connectedTable attachedSegment) (addSteps ++ closeSteps) =
        some final ∧
      final.closeReturned = true ∧
      (∀ thread, final.call thread = none) ∧
      (∀ sweep, .sweep sweep ∉ final.conn.holders) ∧
      final.conn.value = attachedSegment ∧
      ¬ final.ClosedOnce attachedSegment := by
  refine ⟨_, rfl, rfl, ?_, ?_, rfl, ?_⟩
  · intro thread
    cases thread with
    | zero | succ => rfl
  · intro sweep
    cases sweep <;> decide
  · rintro ⟨destroyed, -⟩
    cases destroyed

end UpgradedFd

end SocksDirect
