import Mathlib.Algebra.Group.Nat.Defs
import Mathlib.Data.List.Nodup
import Mathlib.Logic.Function.Basic
import Mathlib.Tactic.Common
import SocksDirect.MachineRun

namespace SocksDirect.ZeroCopyDevice

open Function Machine

/-!
# The ioctls of the zero-copy device

`/dev/socksdirect` hands out blocks of physical pages, names each one by a
cookie and installs the first page of a block at an address of the caller.
This module translates `sd_ioctl_alloc_phys`, `sd_ioctl_free_phys`,
`sd_ioctl_map_phys` and `sd_ioctl_map_phys_vec` as functions of the state that
one call sees: the module's cookie counter, the file's allocation list and the
caller's address space.  What the kernel decides in a call (user copies,
allocations, page faults, page insertions) is given by its outcomes.
-/

/-- `SOCKSDIRECT_MAX_ORDER`. -/
def socksdirectMaxOrder : Nat := 11

/--
`PAGE_SHIFT`.  A block of the largest order has fewer than `2 ^ 64` bytes, as on
every architecture with 64-bit addresses.
-/
structure PageShift where
  bits : Nat
  fits : bits + socksdirectMaxOrder < 64

/-- `PAGE_SIZE`. -/
def PageShift.pageSize (shift : PageShift) : Nat := 2 ^ shift.bits

/-- Pages of 4096 bytes. -/
def PageShift.x86 : PageShift where
  bits := 12
  fits := by decide

/-- The errors that the ioctls return, negated. -/
inductive Errno where
  | EFAULT
  | EINVAL
  | ENOMEM
  | ESRCH
  | EBUSY
  deriving Repr, DecidableEq

/-- `order_base_2`: the exponent of the next power of two. -/
def orderBase2 (n : Nat) : Nat := if 1 < n then Nat.log2 (n - 1) + 1 else 0

/-- `fls64`: the number of bits up to the highest one that is set. -/
def fls64 (n : Nat) : Nat := if n = 0 then 0 else Nat.log2 n + 1

/-- `get_order` of a size in bytes, an `unsigned long`. -/
def getOrder (shift : PageShift) (size : Nat) : Nat :=
  fls64 ((size + (2 ^ 64 - 1)) % 2 ^ 64 / shift.pageSize)

/-- `struct sd_alloc_node`.  `pages` is the frame number of the first page. -/
structure SdAllocNode where
  cookie : UInt64
  userAddr : UInt64
  numPages : UInt32
  pages : Nat
  deriving Repr, DecidableEq

/-- The order with which `sd_ioctl_free_phys` and `sd_release` free a node. -/
def SdAllocNode.freeOrder (shift : PageShift) (node : SdAllocNode) : Nat :=
  getOrder shift (node.numPages.toNat * shift.pageSize % 2 ^ 64)

/-- `struct vm_area_struct`, with its `VM_MIXEDMAP` flag. -/
structure VmAreaStruct where
  vmStart : UInt64
  vmEnd : UInt64
  deriving Repr, DecidableEq

/--
`struct mm_struct`: the areas in the order of their addresses and the frame
that is mapped at an address.
-/
structure MmStruct where
  vmas : List VmAreaStruct
  mapped : UInt64 → Option Nat

/-- `find_vma`: the first area that ends behind the address. -/
def findVma (mm : MmStruct) (virt : UInt64) : Option VmAreaStruct :=
  mm.vmas.find? fun vma => virt < vma.vmEnd

/--
What the kernel does for one page under the mmap lock: the frames that
`get_user_pages_remote` faults in where none is mapped, at the address or around
it, and an error of `vm_insert_page`.
-/
structure PageOutcome where
  faultsIn : UInt64 → Option Nat
  vmInsertPage : Option Errno

/-- Nothing is faulted in, and the insertion does not fail by itself. -/
def PageOutcome.succeeds : PageOutcome where
  faultsIn := fun _ => none
  vmInsertPage := none

/-- `get_user_pages_remote`: what is mapped stays, and absent pages may be faulted in. -/
def getUserPagesRemote (mm : MmStruct) (faultsIn : UInt64 → Option Nat) : MmStruct :=
  { mm with mapped := fun virt => (mm.mapped virt).or (faultsIn virt) }

/--
`vm_insert_page`.  It refuses an address at which a page is mapped, and whether
it takes the area and the page otherwise is its outcome.
-/
def vmInsertPage (mm : MmStruct) (virt : UInt64) (pages : Nat)
    (failure : Option Errno) : Except Errno MmStruct :=
  match failure with
  | some error => .error error
  | none =>
    match mm.mapped virt with
    | some _ => .error .EBUSY
    | none => .ok { mm with mapped := update mm.mapped virt (some pages) }

/-- What one call of an ioctl sees and changes. -/
structure Caller where
  sdCookieCounter : UInt64
  allocations : List SdAllocNode
  mm : Option MmStruct

/-- What the kernel decides while it serves one ioctl. -/
structure Outcomes where
  copyFromUser : Bool
  allocPages : Option Nat
  kzalloc : Bool
  kmallocCookies : Bool
  kmallocOlds : Bool
  copyCookies : Bool
  page : Nat → PageOutcome
  copyToUser : Bool

/-- The arguments of an ioctl.  `cookies` is the user's array. -/
inductive Request where
  | allocPhys (numPages : UInt32)
  | freePhys (cookie : UInt64)
  | mapPhys (virt : UInt64) (cookie : UInt64)
  | mapPhysVec (virt : UInt64) (npages : UInt32) (cookies : Nat → UInt64)

/-- What an ioctl that returns 0 has copied to the user. -/
inductive Reply where
  | allocPhys (addr : UInt64) (cookie : UInt64)
  | freePhys
  | mapPhys (oldCookie : UInt64)
  | mapPhysVec (oldCookies : List UInt64)
  deriving Repr, DecidableEq

/-- The bounds that `num_pages` and `npages` are checked against. -/
def validPages (pages : UInt32) : Bool := pages ≠ 0 && pages.toNat ≤ 2 ^ socksdirectMaxOrder

/-- The node of a new allocation of `1 << order` pages. -/
def newNode (cookie : UInt64) (order pages : Nat) : SdAllocNode where
  cookie := cookie
  userAddr := 0
  numPages := UInt32.ofNat (2 ^ order)
  pages := pages

/-- `sd_ioctl_alloc_phys`. -/
def sdIoctlAllocPhys (caller : Caller) (numPages : UInt32)
    (outcomes : Outcomes) : Except Errno Reply × Caller :=
  if outcomes.copyFromUser = false then
    (.error .EFAULT, caller)
  else if validPages numPages = false then
    (.error .EINVAL, caller)
  else
    match outcomes.allocPages with
    | none => (.error .ENOMEM, caller)
    | some pages =>
      if outcomes.kzalloc = false then
        (.error .ENOMEM, caller)
      else
        let node := newNode (caller.sdCookieCounter + 1) (orderBase2 numPages.toNat) pages
        let after : Caller :=
          { caller with
            sdCookieCounter := caller.sdCookieCounter + 1
            allocations := node :: caller.allocations }
        if outcomes.copyToUser = false then
          (.error .EFAULT, after)
        else
          (.ok (.allocPhys node.userAddr node.cookie), after)

/-- The loop of `sd_ioctl_free_phys` takes the first node with the cookie. -/
def listDel (allocations : List SdAllocNode) (cookie : UInt64) : List SdAllocNode :=
  allocations.eraseP fun node => node.cookie == cookie

/-- `sd_find_alloc_locked`. -/
def sdFindAllocLocked (allocations : List SdAllocNode) (cookie : UInt64) : Option SdAllocNode :=
  allocations.find? fun node => node.cookie == cookie

/-- `sd_map_one` up to the place where `st->lock` is released. -/
def sdMapLookup (shift : PageShift) (caller : Caller)
    (virt cookie : UInt64) : Except Errno SdAllocNode :=
  if virt.toNat % shift.pageSize ≠ 0 then
    .error .EINVAL
  else if caller.mm.isNone then
    .error .ESRCH
  else
    match sdFindAllocLocked caller.allocations cookie with
    | none => .error .EINVAL
    | some node => .ok node

/-- The frame that `get_user_pages_remote` has found, as a cookie, or 0. -/
def oldCookie (mm : MmStruct) (virt : UInt64) : UInt64 :=
  match mm.mapped virt with
  | some frame => UInt64.ofNat frame
  | none => 0

/-- The part of `sd_map_one` that holds the caller's mmap lock. -/
def sdMapInsert (mm : MmStruct) (virt : UInt64) (pages : Nat)
    (outcome : PageOutcome) : Except Errno UInt64 × MmStruct :=
  match findVma mm virt with
  | none => (.error .EFAULT, mm)
  | some vma =>
    if virt < vma.vmStart then
      (.error .EFAULT, mm)
    else
      let seen := getUserPagesRemote mm outcome.faultsIn
      match vmInsertPage seen virt pages outcome.vmInsertPage with
      | .error error => (.error error, seen)
      | .ok after => (.ok (oldCookie seen virt), after)

/-- `sd_map_one`. -/
def sdMapOne (shift : PageShift) (caller : Caller) (virt cookie : UInt64)
    (outcome : PageOutcome) : Except Errno UInt64 × Caller :=
  match sdMapLookup shift caller virt cookie, caller.mm with
  | .error error, _ => (.error error, caller)
  | .ok _, none => (.error .ESRCH, caller)
  | .ok node, some mm =>
    let call := sdMapInsert mm virt node.pages outcome
    (call.1, { caller with mm := some call.2 })

/-- `sd_ioctl_map_phys`. -/
def sdIoctlMapPhys (shift : PageShift) (caller : Caller) (virt cookie : UInt64)
    (outcomes : Outcomes) : Except Errno Reply × Caller :=
  if outcomes.copyFromUser = false then
    (.error .EFAULT, caller)
  else
    match sdMapOne shift caller virt cookie (outcomes.page 0) with
    | (.error error, after) => (.error error, after)
    | (.ok old, after) =>
      if outcomes.copyToUser = false then (.error .EFAULT, after) else (.ok (.mapPhys old), after)

/-- The address of a page of a vectored call. -/
def vecAddress (shift : PageShift) (virt : UInt64) (index : Nat) : UInt64 :=
  virt + UInt64.ofNat index * UInt64.ofNat shift.pageSize

/-- The addresses and cookies of a vectored call, from page `start` on. -/
def vecPages (shift : PageShift) (virt : UInt64) (cookies : Nat → UInt64)
    (start count : Nat) : List (UInt64 × UInt64) :=
  (List.range' start count).map fun index => (vecAddress shift virt index, cookies index)

section Orders

theorem fls64_two_pow_sub_one (order : Nat) : fls64 (2 ^ order - 1) = order := by
  cases order with
  | zero => rfl
  | succ order =>
    have bound : 2 ≤ 2 ^ (order + 1) :=
      calc
        2 = 2 ^ 1 := rfl
        _ ≤ 2 ^ (order + 1) := Nat.pow_le_pow_right (by decide) (by omega)
    have nonzero : 2 ^ (order + 1) - 1 ≠ 0 := by omega
    rw [fls64, if_neg nonzero, Nat.add_right_cancel_iff, Nat.log2_eq_iff nonzero]
    omega

/-- `get_order` of `1 << order` pages. -/
theorem getOrder_two_pow
    {shift : PageShift}
    {order : Nat}
    (bounded : order ≤ socksdirectMaxOrder) :
    getOrder shift (2 ^ order * shift.pageSize % 2 ^ 64) = order := by
  have size : 2 ^ order * shift.pageSize < 2 ^ 64 := by
    have fits := shift.fits
    rw [PageShift.pageSize, ← Nat.pow_add]
    exact Nat.pow_lt_pow_right (by decide) (by omega)
  have positive : 0 < shift.pageSize := Nat.two_pow_pos _
  have orderPositive : 0 < 2 ^ order := Nat.two_pow_pos _
  have sizePositive : 0 < 2 ^ order * shift.pageSize := Nat.mul_pos orderPositive positive
  have decremented :
      (2 ^ order * shift.pageSize + (2 ^ 64 - 1)) % 2 ^ 64 = 2 ^ order * shift.pageSize - 1 := by
    omega
  have quotient : (2 ^ order * shift.pageSize - 1) / shift.pageSize = 2 ^ order - 1 := by
    apply Nat.div_eq_of_lt_le
    · rw [Nat.sub_mul, Nat.one_mul]
      omega
    · rw [Nat.sub_add_cancel orderPositive]
      omega
  rw [Nat.mod_eq_of_lt size, getOrder, decremented, quotient, fls64_two_pow_sub_one]

theorem orderBase2_le_of_validPages {numPages : UInt32} (valid : validPages numPages = true) :
    orderBase2 numPages.toNat ≤ socksdirectMaxOrder := by
  simp only [validPages, Bool.and_eq_true, decide_eq_true_eq] at valid
  rw [orderBase2]
  split
  · have nonzero : numPages.toNat - 1 ≠ 0 := by omega
    have below : numPages.toNat - 1 < 2 ^ socksdirectMaxOrder := by omega
    have := (Nat.log2_lt nonzero).mpr below
    omega
  · exact Nat.zero_le _

theorem freeOrder_newNode
    {order : Nat}
    (bounded : order ≤ socksdirectMaxOrder)
    (shift : PageShift)
    (cookie : UInt64)
    (pages : Nat) :
    (newNode cookie order pages).freeOrder shift = order := by
  have small : 2 ^ order < 2 ^ 32 :=
    Nat.pow_lt_pow_right (by decide) (Nat.lt_of_le_of_lt bounded (by decide))
  rw [SdAllocNode.freeOrder, newNode, UInt32.toNat_ofNat', Nat.mod_eq_of_lt small]
  exact getOrder_two_pow bounded

end Orders

section Nodes

variable {nodes : List SdAllocNode} {node : SdAllocNode} {cookie : UInt64}

theorem perm_listDel (found : sdFindAllocLocked nodes cookie = some node) :
    nodes.Perm (node :: listDel nodes cookie) := by
  obtain ⟨isCookie, front, back, split, others⟩ := List.find?_eq_some_iff_append.mp found
  have removed : listDel nodes cookie = front ++ back := by
    rw [split, listDel, List.eraseP_append_right]
    · simp [isCookie]
    · simpa using others
  rw [removed, split]
  exact List.perm_middle

theorem isSome_sdFindAllocLocked_iff :
    (sdFindAllocLocked nodes cookie).isSome ↔ ∃ node ∈ nodes, node.cookie = cookie := by
  simp [sdFindAllocLocked]

end Nodes

section MapOne

variable {shift : PageShift} {caller : Caller} {virt cookie : UInt64} {outcome : PageOutcome}

/-- The frame that the caller sees at an address. -/
def Caller.frameAt (caller : Caller) (virt : UInt64) : Option Nat :=
  caller.mm.bind fun mm => mm.mapped virt

/--
`sd_map_one` comes to `get_user_pages_remote`: the allocation is live, and the
address is aligned and lies in an area of the caller.
-/
def Reaches (shift : PageShift) (caller : Caller) (virt cookie : UInt64) : Prop :=
  virt.toNat % shift.pageSize = 0 ∧
    (sdFindAllocLocked caller.allocations cookie).isSome ∧
    ∃ mm, caller.mm = some mm ∧ ∃ vma, findVma mm virt = some vma ∧ vma.vmStart ≤ virt

/-- A page is faulted in at an address where none was. -/
def Caller.Faults (caller : Caller) (faultsIn : UInt64 → Option Nat) : Prop :=
  ∃ virt frame, caller.frameAt virt = none ∧ faultsIn virt = some frame

/--
The page of the allocation is installed: nothing is mapped at the address and
nothing is faulted in there, and the insertion does not fail for another reason.
-/
def Mappable (shift : PageShift) (caller : Caller) (virt cookie : UInt64)
    (outcome : PageOutcome) : Prop :=
  Reaches shift caller virt cookie ∧
    caller.frameAt virt = none ∧
    outcome.faultsIn virt = none ∧
    outcome.vmInsertPage = none

/-- The caller after a look at a page, with what this has faulted in. -/
def Caller.faulted (caller : Caller) (faultsIn : UInt64 → Option Nat) : Caller :=
  { caller with mm := caller.mm.map fun mm => getUserPagesRemote mm faultsIn }

/-- The caller after the frame has been installed. -/
def Caller.install (caller : Caller) (virt : UInt64) (frame : Nat) : Caller :=
  { caller with
    mm := caller.mm.map fun mm => { mm with mapped := update mm.mapped virt (some frame) } }

variable {faultsIn : UInt64 → Option Nat}

theorem Caller.frameAt_faulted_of_some {frame : Nat}
    (present : caller.frameAt virt = some frame) :
    (caller.faulted faultsIn).frameAt virt = some frame := by
  obtain ⟨mm, hasMm, mapped⟩ := Option.bind_eq_some_iff.mp present
  simp [frameAt, faulted, hasMm, getUserPagesRemote, mapped]

theorem Caller.isSome_frameAt_faulted
    (present : (caller.frameAt virt).isSome) : ((caller.faulted faultsIn).frameAt virt).isSome := by
  obtain ⟨frame, present⟩ := Option.isSome_iff_exists.mp present
  rw [frameAt_faulted_of_some present]
  rfl

theorem Caller.frameAt_faulted_of_none
    (hasMm : caller.mm.isSome) (absent : caller.frameAt virt = none) :
    (caller.faulted faultsIn).frameAt virt = faultsIn virt := by
  obtain ⟨mm, hasMm⟩ := Option.isSome_iff_exists.mp hasMm
  rw [frameAt, hasMm, Option.bind_some] at absent
  simp [frameAt, faulted, hasMm, getUserPagesRemote, absent]

theorem Caller.frameAt_install
    (hasMm : caller.mm.isSome)
    (virt : UInt64)
    (frame : Nat) :
    (caller.install virt frame).frameAt virt = some frame := by
  obtain ⟨mm, hasMm⟩ := Option.isSome_iff_exists.mp hasMm
  simp [frameAt, install, hasMm]

theorem Caller.frameAt_install_of_ne
    {other : UInt64}
    {frame : Nat}
    (different : other ≠ virt) :
    (caller.install virt frame).frameAt other = caller.frameAt other := by
  cases hasMm : caller.mm with
  | none => simp [frameAt, install, hasMm]
  | some mm => simp [frameAt, install, hasMm, update_of_ne different]

theorem Caller.mm_ne_of_frameAt
    {after : Caller}
    {frame : Nat}
    (absent : caller.frameAt virt = none)
    (present : after.frameAt virt = some frame) :
    after.mm ≠ caller.mm := by
  intro same
  rw [Caller.frameAt, same] at present
  cases absent.symm.trans present

/-- The mappings change exactly if something is faulted in. -/
theorem Caller.mm_faulted_eq_iff (hasMm : caller.mm.isSome) :
    (caller.faulted faultsIn).mm = caller.mm ↔ ¬ caller.Faults faultsIn := by
  constructor
  · rintro same ⟨virt, frame, absent, faults⟩
    exact mm_ne_of_frameAt absent ((frameAt_faulted_of_none hasMm absent).trans faults) same
  · intro quiet
    obtain ⟨mm, hasMm⟩ := Option.isSome_iff_exists.mp hasMm
    have kept : getUserPagesRemote mm faultsIn = mm := by
      rw [getUserPagesRemote]
      congr 1
      funext virt
      cases mapped : mm.mapped virt with
      | some frame => rfl
      | none =>
        rw [Option.none_or]
        refine Option.eq_none_iff_forall_ne_some.mpr fun frame faults =>
          quiet ⟨virt, frame, ?_, faults⟩
        rw [frameAt, hasMm]
        exact mapped
    rw [faulted, hasMm, Option.map_some, kept]

theorem Reaches.hasMm (reaches : Reaches shift caller virt cookie) : caller.mm.isSome := by
  obtain ⟨-, -, mm, hasMm, -⟩ := reaches
  simp [hasMm]

/-- What `sd_map_one` does from `get_user_pages_remote` on. -/
theorem sdMapOne_of_reaches (reaches : Reaches shift caller virt cookie) (outcome : PageOutcome) :
    ∃ node, sdFindAllocLocked caller.allocations cookie = some node ∧
      sdMapOne shift caller virt cookie outcome =
        match outcome.vmInsertPage, (caller.faulted outcome.faultsIn).frameAt virt with
        | some error, _ => (.error error, caller.faulted outcome.faultsIn)
        | none, some _ => (.error .EBUSY, caller.faulted outcome.faultsIn)
        | none, none => (.ok 0, (caller.faulted outcome.faultsIn).install virt node.pages) := by
  obtain ⟨aligned, live, mm, hasMm, vma, found, starts⟩ := reaches
  obtain ⟨node, isNode⟩ := Option.isSome_iff_exists.mp live
  refine ⟨node, isNode, ?_⟩
  have inside : ¬ virt < vma.vmStart := UInt64.not_lt.mpr starts
  have seen : (caller.faulted outcome.faultsIn).frameAt virt =
      (getUserPagesRemote mm outcome.faultsIn).mapped virt := by
    simp [Caller.faulted, Caller.frameAt, hasMm]
  have looked : { caller with mm := some (getUserPagesRemote mm outcome.faultsIn) } =
      caller.faulted outcome.faultsIn := by
    simp [Caller.faulted, hasMm]
  have lookup : sdMapLookup shift caller virt cookie = .ok node := by
    simp [sdMapLookup, aligned, hasMm, isNode]
  simp only [sdMapOne, lookup, hasMm, sdMapInsert, found, if_neg inside, seen, vmInsertPage]
  cases outcome.vmInsertPage with
  | some error => simp only [looked]
  | none =>
    cases mapped : (getUserPagesRemote mm outcome.faultsIn).mapped virt with
    | some frame => simp only [looked]
    | none => simp [oldCookie, mapped, Caller.install, Caller.faulted, hasMm]

/-- Before that it returns an error and changes nothing. -/
theorem sdMapOne_of_not_reaches (stops : ¬ Reaches shift caller virt cookie)
    (outcome : PageOutcome) :
    ∃ error, sdMapOne shift caller virt cookie outcome = (.error error, caller) := by
  rw [sdMapOne]
  split
  · rename_i error _
    exact ⟨error, rfl⟩
  · exact ⟨.ESRCH, rfl⟩
  · rename_i node mm lookup hasMm
    have aligned : virt.toNat % shift.pageSize = 0 := by
      by_contra unaligned
      simp [sdMapLookup, unaligned] at lookup
    have live : (sdFindAllocLocked caller.allocations cookie).isSome := by
      rw [sdMapLookup, if_neg (not_not.mpr aligned), hasMm] at lookup
      cases isNode : sdFindAllocLocked caller.allocations cookie with
      | none => simp [isNode] at lookup
      | some node => rfl
    have unchanged : { caller with mm := some mm } = caller := by rw [← hasMm]
    suffices refused : sdMapInsert mm virt node.pages outcome = (.error .EFAULT, mm) by
      exact ⟨.EFAULT, by simp only [refused, unchanged]⟩
    rw [sdMapInsert]
    split
    · rfl
    · rename_i vma found
      split
      · rfl
      · rename_i inside
        exact absurd ⟨aligned, live, mm, hasMm, vma, found, UInt64.not_lt.mp inside⟩ stops

theorem sdMapOne_of_mappable (mappable : Mappable shift caller virt cookie outcome) :
    ∃ node, sdFindAllocLocked caller.allocations cookie = some node ∧
      sdMapOne shift caller virt cookie outcome =
        (.ok 0, (caller.faulted outcome.faultsIn).install virt node.pages) := by
  obtain ⟨reaches, absent, quiet, succeeds⟩ := mappable
  obtain ⟨node, isNode, call⟩ := sdMapOne_of_reaches reaches outcome
  refine ⟨node, isNode, ?_⟩
  rw [call, succeeds, Caller.frameAt_faulted_of_none reaches.hasMm absent, quiet]

/-- Elsewhere it returns an error, and the mappings change only if something is faulted in. -/
theorem sdMapOne_of_not_mappable (unmappable : ¬ Mappable shift caller virt cookie outcome) :
    ∃ error after, sdMapOne shift caller virt cookie outcome = (.error error, after) ∧
      after.allocations = caller.allocations ∧
      (after.mm = caller.mm ↔
        (Reaches shift caller virt cookie → ¬ caller.Faults outcome.faultsIn)) ∧
      ∀ other frame, caller.frameAt other = some frame → after.frameAt other = some frame := by
  by_cases reaches : Reaches shift caller virt cookie
  · obtain ⟨node, -, call⟩ := sdMapOne_of_reaches reaches outcome
    have refused : ∃ error, sdMapOne shift caller virt cookie outcome =
        (.error error, caller.faulted outcome.faultsIn) := by
      rw [call]
      split
      · exact ⟨_, rfl⟩
      · exact ⟨.EBUSY, rfl⟩
      · rename_i succeeds absentAfter
        have absent : caller.frameAt virt = none := by
          refine Option.eq_none_iff_forall_ne_some.mpr fun frame present => ?_
          cases absentAfter.symm.trans (Caller.frameAt_faulted_of_some present)
        rw [Caller.frameAt_faulted_of_none reaches.hasMm absent] at absentAfter
        exact absurd ⟨reaches, absent, absentAfter, succeeds⟩ unmappable
    obtain ⟨error, refused⟩ := refused
    refine ⟨error, _, refused, rfl, ?_, fun _ _ => Caller.frameAt_faulted_of_some⟩
    rw [Caller.mm_faulted_eq_iff reaches.hasMm]
    simp only [reaches, true_implies]
  · obtain ⟨error, refused⟩ := sdMapOne_of_not_reaches reaches outcome
    exact ⟨error, caller, refused, rfl, by simp [reaches], fun _ _ present => present⟩

end MapOne

section FailedCalls

variable {shift : PageShift} {caller after : Caller} {outcomes : Outcomes}

section Loop

variable {page : Nat → PageOutcome} {pages : List (UInt64 × UInt64)} {index : Nat}
variable {virt cookie : UInt64}

end Loop

section Vector

variable {virt : UInt64} {cookies : Nat → UInt64} {start count : Nat}

variable {npages : UInt32}

end Vector

/-- A vectored call reaches its loop. -/
def Prepared (npages : UInt32) (outcomes : Outcomes) : Prop :=
  outcomes.copyFromUser = true ∧ validPages npages = true ∧ outcomes.kmallocCookies = true ∧
    outcomes.kmallocOlds = true ∧ outcomes.copyCookies = true

theorem sdIoctlMapPhys_of_mappable {virt cookie : UInt64} (copied : outcomes.copyFromUser = true)
    (mappable : Mappable shift caller virt cookie (outcomes.page 0)) :
    ∃ node, sdFindAllocLocked caller.allocations cookie = some node ∧
        sdIoctlMapPhys shift caller virt cookie outcomes =
          (if outcomes.copyToUser then .ok (.mapPhys 0) else .error .EFAULT,
            (caller.faulted (outcomes.page 0).faultsIn).install virt node.pages) := by
  obtain ⟨node, isNode, installs⟩ := sdMapOne_of_mappable mappable
  refine ⟨node, isNode, ?_⟩
  cases copiedOut : outcomes.copyToUser with
  | false | true => simp [sdIoctlMapPhys, copied, installs, copiedOut]

theorem sdIoctlMapPhys_of_not_mappable {virt cookie : UInt64}
    (unmappable : ¬ (outcomes.copyFromUser = true ∧
      Mappable shift caller virt cookie (outcomes.page 0))) :
    ∃ error after, sdIoctlMapPhys shift caller virt cookie outcomes = (.error error, after) ∧
      after.allocations = caller.allocations ∧
      (after.mm = caller.mm ↔ (outcomes.copyFromUser = true → Reaches shift caller virt cookie →
        ¬ caller.Faults (outcomes.page 0).faultsIn)) ∧
      ∀ other frame, caller.frameAt other = some frame → after.frameAt other = some frame := by
  by_cases copied : outcomes.copyFromUser = true
  · obtain ⟨error, after, refuses, lists, same, stays⟩ :=
      sdMapOne_of_not_mappable fun mappable => unmappable ⟨copied, mappable⟩
    exact ⟨error, after, by simp [sdIoctlMapPhys, copied, refuses], lists,
      by simp only [same, copied, true_implies], stays⟩
  · exact ⟨.EFAULT, caller, by simp [sdIoctlMapPhys, copied], rfl, by simp [copied],
      fun _ _ present => present⟩

/-- One area, one allocation, nothing mapped yet. -/
def idleCaller : Caller where
  sdCookieCounter := 1
  allocations := [newNode 1 0 256]
  mm := some { vmas := [⟨0x10000, 0x20000⟩], mapped := fun _ => none }

/-- Everything that the kernel is asked for succeeds. -/
def Outcomes.allSucceed (pages : Nat) : Outcomes where
  copyFromUser := true
  allocPages := some pages
  kzalloc := true
  kmallocCookies := true
  kmallocOlds := true
  copyCookies := true
  page := fun _ => .succeeds
  copyToUser := true

end FailedCalls

section Undo

/-- Calls made one after the other on one file by one caller. -/
structure MapHistory where
  caller : Caller
  /-- The addresses and cookies of the `MAP_PHYS` calls that returned 0. -/
  succeeded : List (UInt64 × UInt64)

/-- One call of such a history. -/
inductive MapCall where
  | allocPhys (numPages : UInt32) (outcomes : Outcomes)
  | mapPhys (virt : UInt64) (cookie : UInt64) (outcomes : Outcomes)

/-- Make one call. -/
def MapHistory.step? (shift : PageShift) (history : MapHistory) : MapCall → Option MapHistory
  | .allocPhys numPages outcomes =>
    some { history with caller := (sdIoctlAllocPhys history.caller numPages outcomes).2 }
  | .mapPhys virt cookie outcomes =>
    let call := sdIoctlMapPhys shift history.caller virt cookie outcomes
    some
      { caller := call.2
        succeeded :=
          if call.1.isOk then (virt, cookie) :: history.succeeded
          else history.succeeded }

/-- An address refers to the first page of an allocation. -/
def Caller.RefersTo (caller : Caller) (virt cookie : UInt64) : Prop :=
  ∃ node,
    sdFindAllocLocked caller.allocations cookie = some node ∧ caller.frameAt virt = some node.pages

/--
After `MAP_PHYS(virt, c1)` has succeeded, `MAP_PHYS(virt, c2)` succeeds too and
returns a cookie with which a third call brings the page of `c1` back.
-/
def Undoable (shift : PageShift) (history : MapHistory) (virt c2 : UInt64) : Prop :=
  ∀ c1, (virt, c1) ∈ history.succeeded → ∃ old after,
      sdIoctlMapPhys shift history.caller virt c2 (.allSucceed 0) = (.ok (.mapPhys old), after) ∧
        after.RefersTo virt c2 ∧
        (sdIoctlMapPhys shift after virt old (.allSucceed 0)).2.RefersTo virt c1

variable {shift : PageShift} {history next : MapHistory} {call : MapCall}

/-- A page that a call has installed is still there. -/
def MapHistory.Present (history : MapHistory) : Prop :=
  ∀ virt cookie, (virt, cookie) ∈ history.succeeded → (history.caller.frameAt virt).isSome

theorem mm_sdIoctlAllocPhys
    (caller : Caller)
    (numPages : UInt32)
    (outcomes : Outcomes) :
    (sdIoctlAllocPhys caller numPages outcomes).2.mm = caller.mm := by
  rw [sdIoctlAllocPhys]
  split
  · rfl
  · split
    · rfl
    · split
      · rfl
      · split
        · rfl
        · split <;> rfl

/-- Neither call takes a page away. -/
theorem MapHistory.Present.step (present : history.Present)
    (stepped : history.step? shift call = some next) :
    next.Present := by
  cases call with
  | allocPhys numPages outcomes =>
    cases stepped
    intro virt cookie succeeded
    rw [Caller.frameAt, mm_sdIoctlAllocPhys]
    exact present virt cookie succeeded
  | mapPhys virt cookie outcomes =>
    by_cases mappable : outcomes.copyFromUser = true ∧
          Mappable shift history.caller virt cookie (outcomes.page 0)
    · obtain ⟨node, -, installs⟩ := sdIoctlMapPhys_of_mappable mappable.1 mappable.2
      have hasMm : (history.caller.faulted (outcomes.page 0).faultsIn).mm.isSome := by
        rw [Caller.faulted, Option.isSome_map]
        exact mappable.2.1.hasMm
      rw [step?, installs] at stepped
      cases stepped
      intro other otherCookie succeeded
      by_cases same : other = virt
      · rw [same, Caller.frameAt_install hasMm]
        rfl
      · rw [Caller.frameAt_install_of_ne same]
        apply Caller.isSome_frameAt_faulted
        apply present other otherCookie
        cases copiedOut : outcomes.copyToUser with
        | false => simpa [copiedOut, Except.isOk, Except.toBool] using succeeded
        | true => simpa [copiedOut, same, Except.isOk, Except.toBool] using succeeded
    · obtain ⟨error, after, refuses, -, -, stays⟩ := sdIoctlMapPhys_of_not_mappable mappable
      rw [step?, refuses] at stepped
      cases stepped
      intro other otherCookie succeeded
      obtain ⟨frame, there⟩ := Option.isSome_iff_exists.mp (present other otherCookie succeeded)
      exact Option.isSome_iff_exists.mpr ⟨frame, stays other frame there⟩

theorem present_of_run {caller : Caller} {calls : List MapCall}
    (accepted : run? (MapHistory.step? shift) ⟨caller, []⟩ calls = some history) :
    history.Present :=
  invariant_of_run (fun _ _ succeeded => nomatch succeeded) MapHistory.Present.step accepted

/--
In every sequence of `ALLOC_PHYS` and `MAP_PHYS` calls a mapping can be replaced
and brought back exactly if there is none: an address at which a call has
succeeded refuses every later one.
-/
theorem undoable_iff_never_mapped
    {shift : PageShift}
    {caller : Caller}
    {calls : List MapCall}
    {history : MapHistory}
    (accepted : run? (MapHistory.step? shift) ⟨caller, []⟩ calls = some history)
    (virt c2 : UInt64) :
    Undoable shift history virt c2 ↔ ∀ c1, (virt, c1) ∉ history.succeeded := by
  constructor
  · intro undoable c1 succeeded
    obtain ⟨old, after, again, _⟩ := undoable c1 succeeded
    have occupied := present_of_run accepted virt c1 succeeded
    have refused : ¬ ((Outcomes.allSucceed 0).copyFromUser = true ∧
        Mappable shift history.caller virt c2 ((Outcomes.allSucceed 0).page 0)) := by
      rintro ⟨-, -, absent, -⟩
      rw [absent] at occupied
      cases occupied
    obtain ⟨error, _, refuses, -⟩ := sdIoctlMapPhys_of_not_mappable refused
    rw [again] at refuses
    cases refuses
  · intro never c1 succeeded
    exact absurd succeeded (never c1)

/-- Two allocations, of which the first is mapped. -/
def mapOnceCalls : List MapCall :=
  [.allocPhys 1 (.allSucceed 256), .allocPhys 1 (.allSucceed 512),
    .mapPhys 0x10000 1 (.allSucceed 0)]

/-- An open file without allocations and a caller with an area of the device. -/
def freshCaller : Caller := { idleCaller with sdCookieCounter := 0, allocations := [] }

/-- Nothing has been mapped before the last of these calls. -/
theorem undoable_before_mapping :
    ∃ history, run? (MapHistory.step? .x86) ⟨freshCaller, []⟩ (mapOnceCalls.take 2) = some history ∧
      Undoable .x86 history 0x10000 2 := by
  obtain ⟨history, reached, nothing⟩ :=
    exists_reached_of_check (MapHistory.step? .x86)
      ⟨freshCaller, []⟩ (mapOnceCalls.take 2)
      (fun history => history.succeeded = []) (by decide +kernel)
  refine ⟨history, reached, ?_⟩
  apply (undoable_iff_never_mapped reached 0x10000 2).mpr
  simp [nothing]

/-- The second `MAP_PHYS` at an address returns `-EBUSY`. -/
theorem not_undoable_after_mapping :
    ∃ history, run? (MapHistory.step? .x86) ⟨freshCaller, []⟩ mapOnceCalls = some history ∧
      (0x10000, 1) ∈ history.succeeded ∧
      (sdFindAllocLocked history.caller.allocations 2).isSome ∧
      ¬ Undoable .x86 history 0x10000 2 := by
  obtain ⟨history, reached, succeeded, live, busy⟩ :=
    exists_reached_of_check (MapHistory.step? .x86)
      ⟨freshCaller, []⟩ mapOnceCalls
      (fun history =>
        (0x10000, 1) ∈ history.succeeded ∧ (sdFindAllocLocked history.caller.allocations 2).isSome ∧
          (sdIoctlMapPhys .x86 history.caller 0x10000 2 (.allSucceed 0)).1 = .error .EBUSY)
      (by decide +kernel)
  refine ⟨history, reached, succeeded, live, ?_⟩
  intro undoable
  obtain ⟨old, after, again, _⟩ := undoable 1 succeeded
  rw [again] at busy
  cases busy

end Undo

end SocksDirect.ZeroCopyDevice
