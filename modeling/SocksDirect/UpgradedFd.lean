import SocksDirect.FdRemap
import SocksDirect.SharedObject

namespace SocksDirect

/-!
# Who keeps an upgraded connection alive

The hooks of one process on one upgraded descriptor, as far as they copy and
drop pointers to its `ShmConn`: `send` and `recv` of `src/lib/socket_api.cpp`,
`epoll_ctl`, `epoll_wait` and the class `ShmPoller` of `src/lib/poll_api.cpp`,
and `close` of `src/lib/file_api.cpp`.  Any number of threads are in these
hooks at the same time.  The poller, the watchdog and the metrics thread copy
pointers too, for the time of one sweep.

What `send` and `recv` do with the ring is left out; it changes no pointer.
-/

/--
What this process has of the segment: whether it is mapped, whether the outbound
ring is marked closed, and the reference count in the shared header.
-/
structure LocalSegment where
  isOpen : Bool
  outboundClosed : Bool
  refcount : Int32
  deriving Repr, DecidableEq

/-- `ShmSegment::close`, which the destructor of `ShmConn` runs. -/
def LocalSegment.close (segment : LocalSegment) : LocalSegment :=
  if segment.isOpen then
    { isOpen := false, outboundClosed := true, refcount := segment.refcount - 1 }
  else
    segment

/-- The threads of the library that look at all connections. -/
inductive Sweep where
  | watchdog
  | metrics
  | poller
  deriving Repr, DecidableEq

/-- The pointers to one `ShmConn`. -/
inductive ConnHolder where
  | registry
  | pollerMap
  | call (thread : Nat)
  | sweep (sweep : Sweep)
  deriving Repr, DecidableEq

/-- `EPOLL_CTL_ADD`, `EPOLL_CTL_MOD` and `EPOLL_CTL_DEL`. -/
inductive EpollOp where
  | add
  | mod
  | del
  deriving Repr, DecidableEq

/-- Where a thread stands in a hook. -/
inductive FdCall where
  | data
  | ctl (op : EpollOp)
  | ctlNotify
  | ctlWatched
  | ctlDeleted
  | ctlUnwatched
  | waiting
  | draining
  | closing
  | removed
  deriving Repr, DecidableEq

/-- One upgraded descriptor of a process. -/
structure UpgradedFd where
  conn : SharedObject ConnHolder LocalSegment
  notifyFd : Bool
  table : FdRemapTable
  call : Nat → Option FdCall
  closeReturned : Bool

/-- The steps of the threads and of the sweeps. -/
inductive FdAction where
  | send (thread : Nat)
  | recv (thread : Nat)
  | dataReturn (thread : Nat)
  | epollCtl (thread : Nat) (op : EpollOp)
  | eventfd (thread : Nat) (ok : Bool)
  | watch (thread : Nat)
  | realEpollCtl (thread : Nat)
  | unwatch (thread : Nat)
  | closeNotify (thread : Nat)
  | epollWait (thread : Nat)
  | drainLookup (thread : Nat)
  | drainReturn (thread : Nat)
  | epollWaitReturn (thread : Nat)
  | close (thread : Nat)
  | remove (thread : Nat)
  | realClose (thread : Nat)
  | snapshot (sweep : Sweep)
  | sweepReturn (sweep : Sweep)
  deriving Repr, DecidableEq

namespace UpgradedFd

/-- The descriptor when `maybe_upgrade_to_shm` has just installed it. -/
def initial (table : FdRemapTable) (segment : LocalSegment) : UpgradedFd where
  conn := .make segment .registry
  notifyFd := false
  table := table
  call := fun _ => none
  closeReturned := false

/-- The thread goes to another place in its hook, or leaves it. -/
def goto (state : UpgradedFd) (thread : Nat) (position : Option FdCall) : UpgradedFd :=
  { state with call := Function.update state.call thread position }

/-- A pointer goes out of scope or is erased from its map. -/
def drop (state : UpgradedFd) (holder : ConnHolder) : UpgradedFd :=
  { state with conn := state.conn.drop LocalSegment.close holder }

/-- The hook returns, and its local pointer goes out of scope if it has one. -/
def leave (state : UpgradedFd) (thread : Nat) : UpgradedFd :=
  (state.drop (.call thread)).goto thread none

/--
`lookup` at the beginning of a hook: the thread goes on with a pointer, or the
hook passes the call through to the kernel.
-/
def lookup (state : UpgradedFd) (thread : Nat) (position : FdCall) : UpgradedFd :=
  if held : .registry ∈ state.conn.holders then
    { state with conn := state.conn.copy (.call thread) held }.goto thread (some position)
  else
    state

/-- The same with the test `is_open` behind it. -/
def lookupOpen (state : UpgradedFd) (thread : Nat) (position : FdCall) : UpgradedFd :=
  if state.conn.value.isOpen then state.lookup thread position else state

/-- The pointer that a sweep copies. -/
def sweepSource : Sweep → ConnHolder
  | .watchdog => .registry
  | .metrics => .registry
  | .poller => .pollerMap

/-- `close` up to the removal from the registry. -/
def closeHook (fd : Nat) (state : UpgradedFd) (thread : Nat) : UpgradedFd :=
  match state.table.tracked? fd with
  | none => state
  | some v =>
    let (table, refs) := state.table.free v
    if refs > 0 then
      { state with table := table, closeReturned := true }
    else
      { state with table := table }.goto thread (some .closing)

/-- `ConnRegistry::remove` into the local pointer of the `close` hook. -/
def removeHook (state : UpgradedFd) (thread : Nat) : UpgradedFd :=
  if held : .registry ∈ state.conn.holders then
    ({ state with conn := state.conn.copy (.call thread) held }.drop
      .registry).goto thread (some .removed)
  else
    state.goto thread (some .removed)

/-- One step of a thread or of a sweep. -/
def step? (fd : Nat) (state : UpgradedFd) : FdAction → Option UpgradedFd
  | .send thread =>
    if state.call thread = none then some (state.lookupOpen thread .data) else none
  | .recv thread =>
    if state.call thread = none then some (state.lookupOpen thread .data) else none
  | .dataReturn thread =>
    if state.call thread = some .data then some (state.leave thread) else none
  | .epollCtl thread op =>
    if state.call thread = none then some (state.lookupOpen thread (.ctl op)) else none
  | .eventfd thread ok =>
    if state.call thread = some (.ctl .add) ∨ state.call thread = some (.ctl .mod) then
      if state.notifyFd then
        some (state.goto thread (some .ctlNotify))
      else if ok then
        some ({ state with notifyFd := true }.goto thread (some .ctlNotify))
      else
        some (state.leave thread)
    else
      none
  | .watch thread =>
    if state.call thread = some .ctlNotify then
      if held : .call thread ∈ state.conn.holders then
        some ({ state with conn := state.conn.copy .pollerMap held }.goto thread (some .ctlWatched))
      else
        none
    else
      none
  | .realEpollCtl thread =>
    if state.call thread = some .ctlWatched then
      some (state.leave thread)
    else if state.call thread = some (.ctl .del) then
      if state.notifyFd then
        some (state.goto thread (some .ctlDeleted))
      else
        some (state.leave thread)
    else
      none
  | .unwatch thread =>
    if state.call thread = some .ctlDeleted then
      some ((state.drop .pollerMap).goto thread (some .ctlUnwatched))
    else
      none
  | .closeNotify thread =>
    if state.call thread = some .ctlUnwatched then
      some ({ state with notifyFd := false }.leave thread)
    else
      none
  | .epollWait thread =>
    if state.call thread = none then some (state.goto thread (some .waiting)) else none
  | .drainLookup thread =>
    if state.call thread = some .waiting then some (state.lookup thread .draining) else none
  | .drainReturn thread =>
    if state.call thread = some .draining then
      some ((state.drop (.call thread)).goto thread (some .waiting))
    else
      none
  | .epollWaitReturn thread =>
    if state.call thread = some .waiting then some (state.leave thread) else none
  | .close thread =>
    if state.call thread = none then some (closeHook fd state thread) else none
  | .remove thread =>
    if state.call thread = some .closing then some (state.removeHook thread) else none
  | .realClose thread =>
    if state.call thread = some .removed then
      some { state.leave thread with closeReturned := true }
    else
      none
  | .snapshot sweep =>
    if held : sweepSource sweep ∈ state.conn.holders then
      some { state with conn := state.conn.copy (.sweep sweep) held }
    else
      some state
  | .sweepReturn sweep => some (state.drop (.sweep sweep))

end UpgradedFd

end SocksDirect
