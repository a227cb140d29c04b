import SocksDirect.FdRemap

namespace SocksDirect

open Function

/-!
# Descriptors, the descriptor table and the connection registry

The hooks that open, duplicate and close descriptors: `socket`, `accept`,
`accept4` and `connect` of `src/lib/socket_api.cpp` and `close`, `dup`, `dup2`,
`dup3` and `fcntl` of `src/lib/file_api.cpp`, in a process in which the library
is active.  Three tables change: the kernel's descriptor table, `FdRemapTable`,
and `ConnRegistry` of `src/lib/shm_conn.hpp`.

The calls of a process come one after the other.  What the kernel answers, and
whether `try_attach` returns a connection, is part of a call.
-/

private theorem forall_update_of_forall {Value : Type} {map : Nat → Option Value}
    {property : Value → Prop} {value : Option Value}
    (holds : ∀ fd found, map fd = some found → property found)
    (holdsNew : ∀ found, value = some found → property found) (target : Nat) :
    ∀ fd found, update map target value fd = some found → property found :=
  (forall_update_iff map fun _ value =>
      ∀ found, value = some found → property found).mpr
    ⟨holdsNew, fun fd _ => holds fd⟩

/--
The kernel's table: the open file description of every open descriptor.
Descriptions are numbered in the order in which they are opened.
-/
structure KernelFds where
  description : Nat → Option Nat
  nextDescription : Nat
  fresh : ∀ fd opened, description fd = some opened → opened < nextDescription

namespace KernelFds

/-- Open a new description at a number that is free. -/
def openNew? (kernel : KernelFds) (fd : Nat) : Option KernelFds :=
  if kernel.description fd = none then
    some
      { description :=
          update kernel.description fd (some kernel.nextDescription)
        nextDescription := kernel.nextDescription + 1
        fresh := by
          apply forall_update_of_forall
          · intro other opened holds
            exact Nat.lt_succ_of_lt (kernel.fresh other opened holds)
          · rintro opened ⟨⟩
            exact Nat.lt_succ_self _ }
  else
    none

/-- Let a number refer to the description of an open descriptor. -/
def replace? (kernel : KernelFds) (oldFd newFd : Nat) : Option KernelFds :=
  if kernel.description oldFd = none then
    none
  else
    some
      { kernel with
        description := update kernel.description newFd (kernel.description oldFd)
        fresh := forall_update_of_forall kernel.fresh (kernel.fresh oldFd) newFd }

/-- Let a number that is free refer to the description of a descriptor. -/
def duplicate? (kernel : KernelFds) (oldFd newFd : Nat) : Option KernelFds :=
  if kernel.description newFd = none then kernel.replace? oldFd newFd else none

/-- Close a number. -/
def close (kernel : KernelFds) (fd : Nat) : KernelFds :=
  { kernel with
    description := update kernel.description fd none
    fresh := by
      apply forall_update_of_forall kernel.fresh
      rintro opened ⟨⟩ }

end KernelFds

/--
An entry of the registry: the `ShmConn`, and the description that the descriptor
referred to when the entry was installed, which the source does not record.
-/
structure RegistryEntry where
  conn : Nat
  installedFor : Nat
  deriving Repr, DecidableEq

/-- `ConnRegistry`; connections are numbered in the order of their creation. -/
structure ConnRegistry where
  entry : Nat → Option RegistryEntry
  nextConn : Nat
  fresh : ∀ fd found, entry fd = some found → found.conn < nextConn

namespace ConnRegistry

/-- The registry of a process that has just started. -/
def empty : ConnRegistry where
  entry := fun _ => none
  nextConn := 0
  fresh := by
    intro fd found holds
    cases holds

/-- `lookup`. -/
def lookup (registry : ConnRegistry) (fd : Nat) : Option Nat :=
  (registry.entry fd).map RegistryEntry.conn

/-- `install` of the connection that `try_attach` has just made. -/
def install (registry : ConnRegistry) (fd description : Nat) : ConnRegistry where
  entry := update registry.entry fd (some ⟨registry.nextConn, description⟩)
  nextConn := registry.nextConn + 1
  fresh := by
    apply forall_update_of_forall
    · intro other found holds
      exact Nat.lt_succ_of_lt (registry.fresh other found holds)
    · rintro found ⟨⟩
      exact Nat.lt_succ_self _

/-- `remove`. -/
def remove (registry : ConnRegistry) (fd : Nat) : ConnRegistry :=
  { registry with
    entry := update registry.entry fd none
    fresh := by
      apply forall_update_of_forall registry.fresh
      rintro found ⟨⟩ }

end ConnRegistry

/-- The three tables of a process. -/
structure HookedProcess where
  kernel : KernelFds
  table : FdRemapTable
  registry : ConnRegistry

/-- The commands of `fcntl` that open a descriptor. -/
inductive FcntlCmd where
  | F_DUPFD
  | F_DUPFD_CLOEXEC
  deriving Repr, DecidableEq

/--
One call; its result is the number that the kernel has chosen, or `none` for -1.
The last call stands for every call that opens a descriptor and has no hook.
-/
inductive HookCall where
  | socket (domain type : Int32) (result : Option Nat)
  | accept (result : Option Nat) (attached : Bool)
  | accept4 (result : Option Nat) (attached : Bool)
  | connect (fd : Nat) (ok attached : Bool)
  | dup (fd : Nat) (result : Option Nat)
  | dup2 (oldFd newFd : Nat) (ok : Bool)
  | dup3 (oldFd newFd : Nat) (ok : Bool)
  | fcntl (fd : Nat) (cmd : FcntlCmd) (result : Option Nat)
  | close (fd : Nat)
  | unhookedOpen (fd : Nat)
  deriving Repr, DecidableEq

/-- `AF_INET`. -/
def AF_INET : Int32 := 2

/-- `AF_INET6`. -/
def AF_INET6 : Int32 := 10

/-- `SOCK_STREAM`. -/
def SOCK_STREAM : Int32 := 1

/-- `SOCK_NONBLOCK`. -/
def SOCK_NONBLOCK : Int32 := 0x800

/-- `SOCK_CLOEXEC`. -/
def SOCK_CLOEXEC : Int32 := 0x80000

/-- `classify`. -/
def classify (domain type : Int32) : FdType :=
  let t := type &&& ~~~(SOCK_NONBLOCK ||| SOCK_CLOEXEC)
  if (domain = AF_INET ∨ domain = AF_INET6) ∧ t = SOCK_STREAM then .kSocket else .kSystem

namespace FdRemapTable

/-- `dup` and `fcntl`: track the new descriptor if the old one is tracked. -/
def trackDuplicate (table : FdRemapTable) (fd newFd : Nat) : FdRemapTable :=
  match table.tracked? fd with
  | none => table
  | some v => (table.alloc (table.lookup v).type newFd).1

/--
`dup2` and `dup3`: the new number takes the class of the old one if that is
tracked.  The class is looked up after the new number has been freed.
-/
def trackReplaced (table : FdRemapTable) (oldFd newFd : Nat) : FdRemapTable :=
  match table.tracked? oldFd with
  | none => table
  | some vOld =>
    let table :=
      match table.tracked? newFd with
      | none => table
      | some vNew => (table.free vNew).1
    (table.alloc (table.lookup vOld).type newFd).1

end FdRemapTable

namespace HookedProcess

/-- A process with the library just loaded. -/
def initial (kernel : KernelFds) : HookedProcess where
  kernel := kernel
  table := .empty
  registry := .empty

/-- `socket`. -/
def socket (state : HookedProcess) (domain type : Int32) : Option Nat → Option HookedProcess
  | none => some state
  | some fd =>
    (state.kernel.openNew? fd).map fun kernel =>
      { state with kernel := kernel, table := (state.table.alloc (classify domain type) fd).1 }

/--
`maybe_upgrade_to_shm`.  On a descriptor that is not open `getsockname` fails.
-/
def maybeUpgradeToShm (state : HookedProcess) (fd : Nat) (attached : Bool) : HookedProcess :=
  let state :=
    if state.table.reverseLookup .kSocket fd = none ∧
        state.table.reverseLookup .kSystem fd = none then
      { state with table := (state.table.alloc .kSocket fd).1 }
    else
      state
  match state.kernel.description fd with
  | none => state
  | some description =>
    if attached then { state with registry := state.registry.install fd description } else state

/-- The two accept hooks, which differ in the flags they pass on. -/
def acceptHook (state : HookedProcess) : Option Nat → Bool → Option HookedProcess
  | none, _ => some state
  | some fd, attached =>
    (state.kernel.openNew? fd).map fun kernel =>
      { state with kernel := kernel }.maybeUpgradeToShm fd attached

/-- `accept`. -/
def accept (state : HookedProcess) (result : Option Nat) (attached : Bool) : Option HookedProcess :=
  state.acceptHook result attached

/-- `accept4`. -/
def accept4 (state : HookedProcess) (result : Option Nat)
    (attached : Bool) : Option HookedProcess :=
  state.acceptHook result attached

/-- `connect`, which the kernel refuses on a number that is not open. -/
def connect (state : HookedProcess) (fd : Nat) (ok attached : Bool) : Option HookedProcess :=
  if ok then
    if state.kernel.description fd = none then none else some (state.maybeUpgradeToShm fd attached)
  else
    some state

/-- `dup`. -/
def dup (state : HookedProcess) (fd : Nat) : Option Nat → Option HookedProcess
  | none => some state
  | some newFd =>
    (state.kernel.duplicate? fd newFd).map fun kernel =>
      { state with kernel := kernel, table := state.table.trackDuplicate fd newFd }

/-- `dup2`. -/
def dup2 (state : HookedProcess) (oldFd newFd : Nat) (ok : Bool) : Option HookedProcess :=
  if ok then
    (state.kernel.replace? oldFd newFd).map fun kernel =>
      { state with kernel := kernel, table := state.table.trackReplaced oldFd newFd }
  else
    some state

/-- `dup3`, which the kernel refuses if the two numbers are equal. -/
def dup3 (state : HookedProcess) (oldFd newFd : Nat) (ok : Bool) : Option HookedProcess :=
  if ok then
    if oldFd = newFd then
      none
    else
      (state.kernel.replace? oldFd newFd).map fun kernel =>
        { state with kernel := kernel, table := state.table.trackReplaced oldFd newFd }
  else
    some state

/-- `fcntl`, which looks at `F_DUPFD` only. -/
def fcntl (state : HookedProcess) (fd : Nat) (cmd : FcntlCmd) : Option Nat → Option HookedProcess
  | none => some state
  | some newFd =>
    (state.kernel.duplicate? fd newFd).map fun kernel =>
      { state with
        kernel := kernel
        table :=
          if cmd = .F_DUPFD then state.table.trackDuplicate fd newFd else state.table }

/-- `close`. -/
def close (state : HookedProcess) (fd : Nat) : HookedProcess :=
  match state.table.tracked? fd with
  | none => { state with kernel := state.kernel.close fd }
  | some v =>
    let (table, refs) := state.table.free v
    if refs > 0 then
      { state with table := table }
    else
      { kernel := state.kernel.close fd, table := table, registry := state.registry.remove fd }

/-- One call of the process; the kernel never answers with a number in use. -/
def step? (state : HookedProcess) : HookCall → Option HookedProcess
  | .socket domain type result => state.socket domain type result
  | .accept result attached => state.accept result attached
  | .accept4 result attached => state.accept4 result attached
  | .connect fd ok attached => state.connect fd ok attached
  | .dup fd result => state.dup fd result
  | .dup2 oldFd newFd ok => state.dup2 oldFd newFd ok
  | .dup3 oldFd newFd ok => state.dup3 oldFd newFd ok
  | .fcntl fd cmd result => state.fcntl fd cmd result
  | .close fd => some (state.close fd)
  | .unhookedOpen fd => (state.kernel.openNew? fd).map fun kernel => { state with kernel := kernel }

end HookedProcess

end SocksDirect
