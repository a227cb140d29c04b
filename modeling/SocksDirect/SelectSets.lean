import Mathlib.Data.Finset.Basic
import Mathlib.Tactic.Common

namespace SocksDirect.SelectSets

/-!
# `select_nonblock`

One pass of the hooked `select` over the descriptors below `nfds`.  The three
descriptor sets are inputs and outputs, and each of them may be missing.  The
readiness of a descriptor is what `check_fd_event` returns for it and for the
events asked of it.  The pass stores that result and then tests the events it
asked for in its place.
-/

/-- The three sets of `select`. -/
inductive Interest where
  | read
  | write
  | except
  deriving DecidableEq, Repr

namespace Interest

/-- `POLLIN`, `POLLOUT` and `POLLERR`. -/
def event : Interest → UInt32
  | read => 1
  | write => 4
  | except => 8

/-- The order in which the pass looks at the sets. -/
def all : List Interest := [read, write, except]

end Interest

/-- `readfds`, `writefds` and `exceptfds`; `none` is a null pointer. -/
abbrev FdSets := Interest → Option (Finset Nat)

/-- The set is there and `FD_ISSET`. -/
def isSet (sets : FdSets) (interest : Interest) (fd : Nat) : Bool :=
  match sets interest with
  | none => false
  | some set => fd ∈ set

/-- The events that the sets ask of a descriptor. -/
def requested (sets : FdSets) (fd : Nat) : UInt32 :=
  (if isSet sets .read fd then Interest.event .read else 0) |||
    (if isSet sets .write fd then Interest.event .write else 0) |||
    (if isSet sets .except fd then Interest.event .except else 0)

/-- The sets as they are updated in place, and `polled_fds`. -/
structure Pass where
  sets : FdSets
  polledFds : Nat

/-- Keep and count a descriptor in one set, or `FD_CLR` it. -/
def settle (fd : Nat) (events : UInt32) (pass : Pass) (interest : Interest) : Pass :=
  if isSet pass.sets interest fd then
    if events &&& interest.event ≠ 0 then
      { pass with polledFds := pass.polledFds + 1 }
    else
      { pass with
        sets := Function.update pass.sets interest
          ((pass.sets interest).map fun set => set.erase fd) }
  else
    pass

/-- The loop body for one descriptor. -/
def selectFd (checkFdEvent : Nat → UInt32 → UInt32) (pass : Pass) (fd : Nat) : Pass :=
  let events := requested pass.sets fd
  if events = 0 then
    pass
  else
    -- the readiness is asked for and not read again
    let _revents := checkFdEvent fd events
    Interest.all.foldl (settle fd events) pass

/-- `select_nonblock`. -/
def selectNonblock (checkFdEvent : Nat → UInt32 → UInt32) (nfds : Int) (sets : FdSets) : Pass :=
  (List.range nfds.toNat).foldl (selectFd checkFdEvent) ⟨sets, 0⟩

/-- In how many sets a descriptor is. -/
def bitsOf (sets : FdSets) (fd : Nat) : Nat :=
  (Interest.all.filter fun interest => isSet sets interest fd).length

/-- How many bits are set for the descriptors of a list. -/
def bitsSet (sets : FdSets) (fds : List Nat) : Nat :=
  fds.foldl (fun bits fd => bits + bitsOf sets fd) 0

/-- Below `nfds` the sets hold the ready ones of their descriptors, and the result counts them. -/
def ReportsReady (checkFdEvent : Nat → UInt32 → UInt32) (nfds : Int) (sets : FdSets)
    (result : Pass) : Prop :=
  (∀ interest (fd : Nat), (fd : Int) < nfds → (isSet result.sets interest fd = true ↔
      isSet sets interest fd = true ∧ checkFdEvent fd (requested sets fd) &&& interest.event ≠ 0)) ∧
    result.polledFds = bitsSet result.sets (List.range nfds.toNat)

private theorem requested_and_event {sets : FdSets} {interest : Interest} {fd : Nat}
    (member : isSet sets interest fd = true) : requested sets fd &&& interest.event ≠ 0 := by
  simp only [requested]
  cases interest <;> rw [member] <;> cases isSet sets _ fd <;> cases isSet sets _ fd <;> decide

private theorem settle_requested (pass : Pass) (fd : Nat) (interest : Interest) :
    settle fd (requested pass.sets fd) pass interest =
      { pass with polledFds := pass.polledFds + if isSet pass.sets interest fd then 1 else 0 } := by
  cases member : isSet pass.sets interest fd with
  | false => simp [settle, member]
  | true => simp [settle, member, requested_and_event member]

/-- The body counts the sets that hold the descriptor and leaves them as they are. -/
theorem selectFd_eq (checkFdEvent : Nat → UInt32 → UInt32) (pass : Pass) (fd : Nat) :
    selectFd checkFdEvent pass fd =
      { pass with polledFds := pass.polledFds + bitsOf pass.sets fd } := by
  obtain ⟨sets, polledFds⟩ := pass
  simp only [selectFd]
  split
  case isTrue none =>
    have clear (interest : Interest) : isSet sets interest fd = false :=
      Bool.eq_false_iff.mpr fun member => requested_and_event member (by rw [none]; simp)
    simp [bitsOf, clear]
  case isFalse =>
    have first := settle_requested ⟨sets, polledFds⟩ fd .read
    have second (polled : Nat) := settle_requested ⟨sets, polled⟩ fd .write
    have third (polled : Nat) := settle_requested ⟨sets, polled⟩ fd .except
    simp only [Interest.all, List.foldl_cons, List.foldl_nil] at first second third ⊢
    rw [first, second, third]
    simp only [bitsOf, Interest.all, List.filter_cons, List.filter_nil]
    cases isSet sets .read fd <;> cases isSet sets .write fd <;> cases isSet sets .except fd <;> rfl

private theorem foldl_selectFd (checkFdEvent : Nat → UInt32 → UInt32) (sets : FdSets)
    (fds : List Nat) (polledFds : Nat) :
    fds.foldl (selectFd checkFdEvent) ⟨sets, polledFds⟩ =
      ⟨sets, fds.foldl (fun bits fd => bits + bitsOf sets fd) polledFds⟩ := by
  induction fds generalizing polledFds with
  | nil => rfl
  | cons fd rest inductionHypothesis =>
    rw [List.foldl_cons, selectFd_eq, inductionHypothesis, List.foldl_cons]

theorem selectNonblock_eq (checkFdEvent : Nat → UInt32 → UInt32) (nfds : Int) (sets : FdSets) :
    selectNonblock checkFdEvent nfds sets = ⟨sets, bitsSet sets (List.range nfds.toNat)⟩ :=
  foldl_selectFd checkFdEvent sets _ 0

/-- The pass reports the ready descriptors exactly if all descriptors asked for are ready. -/
theorem selectNonblock_reportsReady_iff
    (checkFdEvent : Nat → UInt32 → UInt32)
    (nfds : Int)
    (sets : FdSets) :
    ReportsReady checkFdEvent nfds sets (selectNonblock checkFdEvent nfds sets) ↔
      ∀ interest (fd : Nat),
        (fd : Int) < nfds →
        isSet sets interest fd = true →
        checkFdEvent fd (requested sets fd) &&& interest.event ≠ 0 := by
  rw [selectNonblock_eq]
  constructor
  case mp =>
    intro reports interest fd below member
    exact ((reports.1 interest fd below).mp member).2
  case mpr =>
    intro ready
    refine ⟨fun interest fd below => ?_, rfl⟩
    exact ⟨fun member => ⟨member, ready interest fd below member⟩, fun both => both.1⟩

/-- One descriptor, asked for input only. -/
def readZero : FdSets
  | .read => some {0}
  | _ => none

/-- Descriptor 0 is not ready; it is reported all the same. -/
theorem selectNonblock_reports_idle :
    (selectNonblock (fun _ _ => 0) 1 readZero).polledFds = 1 ∧
      ¬ ReportsReady (fun _ _ => 0) 1 readZero (selectNonblock (fun _ _ => 0) 1 readZero) := by
  refine ⟨by decide, fun reports => ?_⟩
  have kept := (reports.1 .read 0 (by decide)).mp (by decide)
  exact kept.2 (by decide)

end SocksDirect.SelectSets
