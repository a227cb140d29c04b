import Mathlib.Logic.Function.Basic

namespace SocksDirect

open Function

/-!
# The descriptor table

`FdRemapTable` of `include/socksdirect/fd_remap.hpp`, with the operations that
the hooks use.  A virtual descriptor maps to a type and a real descriptor; the
reverse map and the reference counts are kept for each type and real descriptor.

The vectors are functions with the value that `resize` fills in; only the size
of `forward_` is kept, because the search for a replacement runs up to it.  The
source's -1 is `none`.  The descriptors that the hooks pass in come from the
kernel and are never negative.
-/

/-- `FdType`. -/
inductive FdType where
  | kUnknown
  | kSystem
  | kSocket
  | kEpoll
  | kEventfd
  | kFile
  deriving Repr, DecidableEq

/-- `FdMapping`. -/
structure FdMapping where
  type : FdType
  realFd : Option Nat
  deriving Repr, DecidableEq

/-- The value of an unused entry of `forward_`. -/
def FdMapping.unused : FdMapping where
  type := .kUnknown
  realFd := none

/-- `FdRemapTable`; the free list is a stack with its top first. -/
structure FdRemapTable where
  forward : Nat → FdMapping
  size : Nat
  reverse : FdType → Nat → Option Nat
  refcount : FdType → Nat → Nat
  freeList : List Nat
  watermark : Nat

namespace FdRemapTable

/-- `kInitialCapacity`. -/
def kInitialCapacity : Nat := 256

/-- The constructor. -/
def empty : FdRemapTable where
  forward := fun _ => .unused
  size := kInitialCapacity
  reverse := fun _ _ => none
  refcount := fun _ _ => 0
  freeList := []
  watermark := 0

/-- The doubling loop of `ensure_capacity_locked`. -/
def doubled (needed : Nat) : Nat → Nat → Nat
  | 0, size => size
  | fuel + 1, size => if size < needed then doubled needed fuel (size * 2) else size

/-- `ensure_capacity_locked`. -/
def ensureCapacityLocked (table : FdRemapTable) (virtualFd : Nat) : FdRemapTable :=
  { table with size := doubled (virtualFd + 1) (virtualFd + 1) table.size }

/-- `alloc_locked`: the top of the free list, or the watermark. -/
def allocLocked (table : FdRemapTable) : FdRemapTable × Nat :=
  match table.freeList with
  | vfd :: rest => ({ table with freeList := rest }.ensureCapacityLocked vfd, vfd)
  | [] =>
    ({ table with watermark := table.watermark + 1 }.ensureCapacityLocked
      table.watermark, table.watermark)

/-- Set one entry of a map that is kept for each type and real descriptor. -/
def setEntry (map : FdType → Nat → Value) (type : FdType) (realFd : Nat)
    (value : Value) : FdType → Nat → Value :=
  update map type (update (map type) realFd value)

/-- `alloc`. -/
def alloc (table : FdRemapTable) (type : FdType) (realFd : Nat) : FdRemapTable × Nat :=
  let (table, vfd) := table.allocLocked
  let table := { table with forward := update table.forward vfd ⟨type, some realFd⟩ }
  if type = .kUnknown then
    (table, vfd)
  else
    ({ table with
        reverse :=
          if table.reverse type realFd = none then
            setEntry table.reverse type realFd (some vfd)
          else
            table.reverse
        refcount := setEntry table.refcount type realFd (table.refcount type realFd + 1) }, vfd)

/-- `lookup`. -/
def lookup (table : FdRemapTable) (virtualFd : Nat) : FdMapping := table.forward virtualFd

/-- `reverse_lookup`. -/
def reverseLookup (table : FdRemapTable) (type : FdType) (realFd : Nat) : Option Nat :=
  table.reverse type realFd

/-- The search of `decref_locked` for another virtual descriptor. -/
def replacement (table : FdRemapTable) (type : FdType) (realFd : Nat) : Option Nat :=
  (List.range table.size).find? fun i => table.forward i = ⟨type, some realFd⟩

/-- `decref_locked`. -/
def decrefLocked (table : FdRemapTable) (type : FdType) (realFd : Nat)
    (vfdBeingDropped : Nat) : FdRemapTable × Nat :=
  if type = .kUnknown then
    (table, 0)
  else if table.refcount type realFd = 0 then
    (table, 0)
  else
    let rc := table.refcount type realFd - 1
    let counted := { table with refcount := setEntry table.refcount type realFd rc }
    if table.reverse type realFd = some vfdBeingDropped then
      ({ counted with
          reverse :=
            setEntry table.reverse type realFd
              (if rc = 0 then none else table.replacement type realFd) }, rc)
    else
      (counted, rc)

/-- `free`: the count that is left. -/
def free (table : FdRemapTable) (virtualFd : Nat) : FdRemapTable × Nat :=
  let cur := table.forward virtualFd
  if cur = .unused then
    (table, 0)
  else
    let freed :=
      { table with
        forward := update table.forward virtualFd .unused
        freeList := virtualFd :: table.freeList }
    match cur.realFd with
    | none => (freed, 0)
    | some realFd => freed.decrefLocked cur.type realFd virtualFd

/-- The virtual descriptor that every hook looks for first. -/
def tracked? (table : FdRemapTable) (fd : Nat) : Option Nat :=
  match table.reverseLookup .kSocket fd with
  | some v => some v
  | none => table.reverseLookup .kSystem fd

/-- The table has one reference to the descriptor, through one mapping. -/
def TrackedOnce (table : FdRemapTable) (fd : Nat) : Prop :=
  ∃ v type, table.tracked? fd = some v ∧ table.forward v = ⟨type, some fd⟩ ∧ type ≠ .kUnknown ∧
      table.refcount type fd = 1

variable {table : FdRemapTable}

theorem trackedOnce_alloc {fd : Nat} (noReverse : table.reverse .kSocket fd = none)
    (noReference : table.refcount .kSocket fd = 0) :
    (table.alloc .kSocket fd).1.TrackedOnce fd := by
  have same : table.allocLocked.1.reverse = table.reverse ∧
        table.allocLocked.1.refcount = table.refcount := by
    unfold allocLocked
    split <;> exact ⟨rfl, rfl⟩
  refine ⟨table.allocLocked.2, .kSocket, ?_, ?_, ?_, ?_⟩
  · simp [alloc, tracked?, reverseLookup, setEntry, same, noReverse]
  · simp [alloc]
  · decide
  · simp [alloc, setEntry, same, noReference]

private theorem decrefLocked_single {type : FdType} {fd : Nat} (known : type ≠ .kUnknown)
    (single : table.refcount type fd = 1) (v : Nat) :
    (table.decrefLocked type fd v).2 = 0 := by
  have counted : table.refcount type fd ≠ 0 := by
    rw [single]
    decide
  rw [decrefLocked, if_neg known, if_neg counted, single]
  split <;> rfl

theorem TrackedOnce.free_refs {fd v : Nat} (once : table.TrackedOnce fd)
    (tracked : table.tracked? fd = some v) : (table.free v).2 = 0 := by
  obtain ⟨w, type, found, mapping, known, single⟩ := once
  obtain rfl : w = v := by
    rw [found] at tracked
    exact Option.some.inj tracked
  have used : table.forward w ≠ .unused := by
    rw [mapping]
    simp [FdMapping.unused]
  rw [free, if_neg used, mapping]
  apply decrefLocked_single known
  exact single

end FdRemapTable

end SocksDirect
