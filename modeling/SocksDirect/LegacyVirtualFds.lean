import Mathlib.Data.Finset.Basic
import Mathlib.Tactic.Common
import SocksDirect.MachineRun

namespace SocksDirect.LegacyVirtualFds

open Machine

/-!
# Virtual descriptors of the legacy library

`alloc_virtual_fd` takes the last number from the stack of deleted virtual
descriptors, or the next one that was never used.  `close` gives a number back.
For a system descriptor that is the virtual number; for an accelerated socket
it is the index of the socket in the tables of the thread, since `close` has
replaced its argument by then.  The actions choose what the kernel and `add_key`
return.  The reverse table, which no function here reads, is left out.
-/

/-- `FD_TYPE_SYSTEM`, `FD_TYPE_SOCKET`, `FD_TYPE_EPOLL` and `FD_TYPE_UNKNOWN`. -/
inductive FdType where
  | system
  | socket
  | epoll
  | unknown
  deriving DecidableEq, Repr

/-- The table of virtual descriptors and the sockets of the thread. -/
structure LegacyFds where
  /-- `fd_remap_table`: type and real descriptor, unknown and -1 by default. -/
  remapTable : Nat → FdType × Int
  /-- `deleted_virtual_fds`, with the back of the vector first. -/
  deletedVirtualFds : List Nat
  maxVirtualFd : Int
  /-- The valid keys of `fds_datawithrd`. -/
  keys : Finset Int
  /-- The virtual descriptors that are allocated and not yet closed. -/
  opened : Finset Nat

/-- The calls with what is returned underneath them. -/
inductive FdCall where
  /-- `socket` with the descriptor or the index returned for it; only `system` and `socket`. -/
  | socket (accelerated : Bool) (realFd : Int)
  /-- `accept4` on a listening descriptor. -/
  | accept4 (sockfd : Nat) (realFd : Int)
  /-- `close`, with the result of the system call for a system descriptor. -/
  | close (fildes : Nat) (ret : Int)
  deriving DecidableEq, Repr

namespace LegacyFds

/-- `fd_remapping_init` when `socket` returns `fakeFd`: the descriptors below it are mapped to
themselves. -/
def initial (fakeFd : Nat) : LegacyFds where
  remapTable := fun fd => if fd < fakeFd then (.system, fd) else (.unknown, -1)
  deletedVirtualFds := []
  maxVirtualFd := fakeFd - 1
  keys := ∅
  opened := Finset.range fakeFd

/-- `alloc_unmapped_virtual_fd`. -/
def allocUnmappedVirtualFd (state : LegacyFds) : Nat × LegacyFds :=
  match state.deletedVirtualFds with
  | [] =>
    ((state.maxVirtualFd + 1).toNat, { state with maxVirtualFd := state.maxVirtualFd + 1 })
  | virtualFd :: rest => (virtualFd, { state with deletedVirtualFds := rest })

/-- `set_fd_type`. -/
def setFdType (state : LegacyFds) (virtualFd : Nat) (type : FdType) (realFd : Int) : LegacyFds :=
  { state with
    remapTable := Function.update state.remapTable virtualFd (type, realFd)
    maxVirtualFd := if virtualFd > state.maxVirtualFd then virtualFd else state.maxVirtualFd }

/-- `alloc_virtual_fd`; the number returned is open from then on. -/
def allocVirtualFd (state : LegacyFds) (type : FdType) (realFd : Int) : LegacyFds :=
  if realFd < 0 then
    state
  else
    let (virtualFd, state) := state.allocUnmappedVirtualFd
    let state := state.setFdType virtualFd type realFd
    { state with opened := insert virtualFd state.opened }

/-- `delete_virtual_fd`. -/
def deleteVirtualFd (state : LegacyFds) (virtualFd : Nat) : LegacyFds :=
  { state with deletedVirtualFds := virtualFd :: state.deletedVirtualFds }

/-- A socket of the thread under a new key; `accept4` returns -1 without one. -/
def addSocket (state : LegacyFds) (idx : Int) : LegacyFds :=
  if idx < 0 then state else { state with keys := insert idx state.keys }.allocVirtualFd .socket idx

/-- `close`.  On success the descriptor given by the caller is closed. -/
def close (state : LegacyFds) (fildes : Nat) (ret : Int) : LegacyFds :=
  let (type, realFd) := state.remapTable fildes
  match type with
  | .system =>
    if ret = 0 then
      { state.deleteVirtualFd fildes with opened := state.opened.erase fildes }
    else
      state
  | .epoll => { state.deleteVirtualFd fildes with opened := state.opened.erase fildes }
  | .socket | .unknown =>
    if realFd ∈ state.keys then
      -- `fildes` is the index of the socket by now
      { state.deleteVirtualFd realFd.toNat with
        keys := state.keys.erase realFd
        opened := state.opened.erase fildes }
    else
      state

/-- One call. -/
def step? (state : LegacyFds) : FdCall → Option LegacyFds
  | .socket accelerated realFd =>
    some (if accelerated then state.addSocket realFd else state.allocVirtualFd .system realFd)
  | .accept4 sockfd realFd =>
    some (if (state.remapTable sockfd).1 = .system then
      state.allocVirtualFd .system realFd
    else
      state.addSocket realFd)
  | .close fildes ret => some (state.close fildes ret)

/-- A call that gives a number back is a `close` of an open descriptor, and an accelerated
socket has its virtual number as its index. -/
def ClosesOpen (state : LegacyFds) : FdCall → Prop
  | .close fildes ret =>
    match state.remapTable fildes with
    | (.system, _) => ret = 0 → fildes ∈ state.opened
    | (.epoll, _) => fildes ∈ state.opened
    | (_, realFd) => realFd ∈ state.keys → realFd = fildes ∧ fildes ∈ state.opened
  | _ => True

/-- The numbers to be used again are closed, different, and not above the maximum. -/
structure Apart (state : LegacyFds) : Prop where
  atLeast : -1 ≤ state.maxVirtualFd
  opened : ∀ fd ∈ state.opened, (fd : Int) ≤ state.maxVirtualFd
  below : ∀ fd ∈ state.deletedVirtualFds, (fd : Int) ≤ state.maxVirtualFd
  closed : ∀ fd ∈ state.deletedVirtualFds, fd ∉ state.opened
  nodup : state.deletedVirtualFds.Nodup

variable {state : LegacyFds}

theorem apart_initial (fakeFd : Nat) : (initial fakeFd).Apart where
  atLeast := by
    simp only [initial]
    omega
  opened fd member := by
    simp only [initial, Finset.mem_range] at member ⊢
    omega
  below fd member := by simp [initial] at member
  closed fd member := by simp [initial] at member
  nodup := by simp [initial]

theorem Apart.next_notMem (apart : state.Apart) :
    state.allocUnmappedVirtualFd.1 ∉ state.opened := by
  obtain ⟨remapTable, deleted, maxVirtualFd, keys, opened⟩ := state
  cases deleted with
  | nil =>
    intro member
    have bound := apart.opened _ member
    have atLeast := apart.atLeast
    simp only [allocUnmappedVirtualFd] at bound atLeast
    omega
  | cons fd rest => exact apart.closed fd (by simp)

/-- Allocation keeps the open descriptors and those that wait for their reuse apart. -/
theorem Apart.allocVirtualFd (apart : state.Apart) (type : FdType) (realFd : Int) :
    (state.allocVirtualFd type realFd).Apart := by
  rw [LegacyFds.allocVirtualFd]
  split
  case isTrue => exact apart
  case isFalse =>
    obtain ⟨remapTable, deleted, maxVirtualFd, keys, opened⟩ := state
    obtain ⟨atLeast, bound, below, closed, nodup⟩ := apart
    simp only at atLeast bound below closed nodup
    cases deleted with
    | nil =>
      have value : ((maxVirtualFd + 1).toNat : Int) = maxVirtualFd + 1 := by omega
      refine ⟨?_, ?_, ?_, ?_, ?_⟩ <;>
        simp only [allocUnmappedVirtualFd, setFdType, value, gt_iff_lt, Int.lt_irrefl, if_false,
          List.not_mem_nil, false_imp_iff, implies_true, List.nodup_nil, Finset.mem_insert]
      · omega
      · rintro fd (rfl | member)
        · omega
        · have := bound fd member
          omega
    | cons reused rest =>
      -- the number taken from the stack is not above the maximum, so that stays
      have notAbove : ¬ ((reused : Int) > maxVirtualFd) := by
        have := below reused (by simp)
        omega
      rw [List.nodup_cons] at nodup
      refine ⟨?_, ?_, ?_, ?_, ?_⟩ <;>
        simp only [allocUnmappedVirtualFd, setFdType, notAbove, if_false, Finset.mem_insert, not_or]
      · exact atLeast
      · rintro fd (rfl | member)
        · omega
        · exact bound fd member
      · exact fun fd member => below fd (by simp [member])
      · intro fd member
        exact ⟨fun same => nodup.1 (same ▸ member), closed fd (by simp [member])⟩
      · exact nodup.2

theorem Apart.addSocket (apart : state.Apart) (idx : Int) : (state.addSocket idx).Apart := by
  rw [LegacyFds.addSocket]
  split
  case isTrue => exact apart
  case isFalse =>
    have registered : Apart { state with keys := insert idx state.keys } := { apart with }
    exact registered.allocVirtualFd .socket idx

/-- An open number may be given back. -/
private theorem Apart.giveBack (apart : state.Apart) {fd : Nat} (isOpen : fd ∈ state.opened)
    (keys : Finset Int) :
    Apart { state with
      deletedVirtualFds := fd :: state.deletedVirtualFds
      keys := keys
      opened := state.opened.erase fd } where
  atLeast := apart.atLeast
  opened other member := apart.opened other (Finset.mem_of_mem_erase member)
  below other member := by
    rcases List.mem_cons.mp member with rfl | deleted
    · exact apart.opened other isOpen
    · exact apart.below other deleted
  closed other member := by
    rcases List.mem_cons.mp member with rfl | deleted
    · simp
    · exact fun still => apart.closed other deleted (Finset.mem_of_mem_erase still)
  nodup := List.nodup_cons.mpr ⟨fun deleted => apart.closed fd deleted isOpen, apart.nodup⟩

/-- A step that meets the condition keeps the numbers apart. -/
theorem Apart.step {next : LegacyFds} {call : FdCall} (apart : state.Apart)
    (closes : state.ClosesOpen call) (accepted : state.step? call = some next) : next.Apart := by
  cases call with
  | socket accelerated realFd =>
    obtain rfl := Option.some.inj accepted
    split
    · exact apart.addSocket realFd
    · exact apart.allocVirtualFd .system realFd
  | accept4 sockfd realFd =>
    obtain rfl := Option.some.inj accepted
    split
    · exact apart.allocVirtualFd .system realFd
    · exact apart.addSocket realFd
  | close fildes ret =>
    obtain rfl := Option.some.inj accepted
    rcases entry : state.remapTable fildes with ⟨type, realFd⟩
    simp only [ClosesOpen, entry] at closes
    simp only [close, entry, deleteVirtualFd]
    cases type with
    | system =>
      simp only
      split
      case isTrue zero => exact apart.giveBack (closes zero) state.keys
      case isFalse => exact apart
    | epoll => exact apart.giveBack closes state.keys
    | socket | unknown =>
      simp only
      split
      case isTrue valid =>
        obtain ⟨rfl, isOpen⟩ := closes valid
        exact apart.giveBack isOpen _
      case isFalse => exact apart

/-- In every run in which only open descriptors are closed, and accelerated sockets only while
their index is their virtual number, no state reached hands out an open descriptor next. -/
theorem alloc_not_open
    {fakeFd : Nat}
    {calls : List FdCall}
    {final : LegacyFds}
    (accepted : run? step? (initial fakeFd) calls = some final)
    (closes : Along step? ClosesOpen (initial fakeFd) calls) :
    final.allocUnmappedVirtualFd.1 ∉ final.opened :=
  (invariant_along (apart_initial fakeFd)
    (fun apart now stepped => Apart.step apart now stepped) accepted closes).next_notMem

/-- With three descriptors at the start, a socket whose index is its number 3 is closed, and the
next one gets the number again. -/
theorem closedSocket_reused :
    ∃ closed final, run? step? (initial 3) [.socket true 3, .close 3 0] = some closed ∧
      3 ∉ closed.opened ∧
      closed.allocUnmappedVirtualFd.1 = 3 ∧
      run? step? closed [.socket true 3] = some final ∧
      3 ∈ final.opened ∧
      final.allocUnmappedVirtualFd.1 ∉ final.opened := by
  have along : Along step? ClosesOpen (initial 3)
      [.socket true 3, .close 3 0, .socket true 3] := by
    refine ⟨trivial, fun first opening => ⟨?_, fun _ _ => ⟨trivial, fun _ _ => trivial⟩⟩⟩
    cases opening
    exact fun _ => by decide
  refine ⟨_, _, rfl, by decide, by decide, rfl, by decide, alloc_not_open rfl along⟩

/-- The fourth socket has the number 6 and the index 3.  Closing it frees the number 3, which is
the first socket and still open: the next socket gets it. -/
theorem closedSocket_frees_openSocket :
    ∃ final,
      run? step? (initial 3)
          [.socket true 0, .socket true 1, .socket true 2, .socket true 3, .close 6 0] =
        some final ∧
      final.allocUnmappedVirtualFd.1 = 3 ∧
      3 ∈ final.opened := by
  exact ⟨_, rfl, by decide, by decide⟩

end LegacyFds

end SocksDirect.LegacyVirtualFds
