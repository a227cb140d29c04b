import SocksDirect.AllocationLedger
import SocksDirect.ZeroCopyDevice

namespace SocksDirect.ZeroCopyDevice

open Function

/-!
# Concurrent calls of the zero-copy device

Any number of threads call the ioctls of any number of open files.  A call is
cut where it takes or releases `st->lock` or the caller's mmap lock, and around
the page allocator and the cookie counter; what stands between two cuts is one
step.  The steps are made of the pieces that the ioctls are made of.

The log, no state of the module, records what it asks of the page allocator and
which allocations it puts on a list, newest first.
-/

open AllocationLedger (outstanding)

/-- What the module does with its blocks of pages. -/
inductive Event where
  | allocPages (pages order : Nat)
  | freePages (pages order : Nat)
  | listAdd (file : Nat) (cookie : UInt64) (pages : Nat)
  deriving Repr, DecidableEq

/-- The part of the log that the page allocator sees. -/
def ledger : List Event → List (AllocationLedger.Event Nat Nat)
  | [] => []
  | .allocPages pages order :: earlier => .obtained pages order :: ledger earlier
  | .freePages pages order :: earlier => .returned pages order :: ledger earlier
  | .listAdd _ _ _ :: earlier => ledger earlier

/-- A mapping call: the pages before it and the old cookies behind it. -/
structure Mapping where
  index : Nat
  left : List (UInt64 × UInt64)
  olds : List UInt64
  vector : Bool
  deriving Repr, DecidableEq

/-- What a mapping call copies to the user. -/
def Mapping.reply (mapping : Mapping) : Reply :=
  if mapping.vector then .mapPhysVec mapping.olds else .mapPhys (mapping.olds.headD 0)

/-- Where a thread is in its call. -/
inductive ThreadState where
  | idle
  | allocating (file : Nat) (numPages : UInt32)
  | allocated (file : Nat) (pages order : Nat)
  | adding (file : Nat) (node : SdAllocNode)
  | freeing (file : Nat) (cookie : UInt64)
  | finding (file : Nat) (mapping : Mapping)
  | inserting (file : Nat) (mapping : Mapping) (node : SdAllocNode)
  | copying (file : Nat) (reply : Reply)
  | returned (result : Except Errno Reply)

/-- The file that a call holds a reference to. -/
def ThreadState.file? : ThreadState → Option Nat
  | .idle => none
  | .allocating file _ => some file
  | .allocated file _ _ => some file
  | .adding file _ => some file
  | .freeing file _ => some file
  | .finding file _ => some file
  | .inserting file _ _ => some file
  | .copying file _ => some file
  | .returned _ => none

/-- The module, its files and the threads that call it. -/
structure Device (n : Nat) where
  sdCookieCounter : UInt64
  files : Nat → Option (List SdAllocNode)
  mms : Nat → Option MmStruct
  threads : Fin n → ThreadState
  log : List Event

/-- The module has been loaded and no file is open. -/
def Device.initial (n : Nat) (mms : Nat → Option MmStruct) : Device n where
  sdCookieCounter := 0
  files := fun _ => none
  mms := mms
  threads := fun _ => .idle
  log := []

/-- One step of one thread, with what the kernel decides in it. -/
inductive Action (n : Nat) where
  | sdOpen (file : Nat) (kzalloc : Bool)
  | sdRelease (file : Nat)
  | ioctl (thread : Fin n) (file : Nat) (request : Request) (outcomes : Outcomes)
  | allocPages (thread : Fin n) (pages : Option Nat)
  | kzalloc (thread : Fin n) (succeeds : Bool)
  | listAdd (thread : Fin n)
  | listDel (thread : Fin n)
  | findAlloc (thread : Fin n)
  | insertPage (thread : Fin n) (outcome : PageOutcome) (stale : Nat)
  | copyToUser (thread : Fin n) (succeeds : Bool)
  | leave (thread : Fin n)

namespace Device

variable {n : Nat}

/-- The allocation list of a file; it is empty if the file is not open. -/
def nodes (device : Device n) (file : Nat) : List SdAllocNode := (device.files file).getD []

/-- What a thread sees in a call on a file. -/
def caller (process : Fin n → Nat) (device : Device n) (thread : Fin n) (file : Nat) : Caller where
  sdCookieCounter := device.sdCookieCounter
  allocations := device.nodes file
  mm := device.mms (process thread)

/-- Change one thread's place. -/
def setThread (device : Device n) (thread : Fin n) (place : ThreadState) : Device n :=
  { device with threads := update device.threads thread place }

/-- Change one file. -/
def setFile (device : Device n) (file : Nat) (allocations : Option (List SdAllocNode)) : Device n :=
  { device with files := update device.files file allocations }

/-- The page allocator hands out pages of which none is outstanding. -/
def fresh (device : Device n) (pages order : Nat) : Bool :=
  (outstanding (ledger device.log)).all fun block =>
    pages + 2 ^ order ≤ block.1 || block.1 + 2 ^ block.2 ≤ pages

/-- The place of a thread that has checked its arguments. -/
def enter (shift : PageShift) (file : Nat) (outcomes : Outcomes) : Request → ThreadState
  | .allocPhys numPages =>
    if outcomes.copyFromUser = false then
      .returned (.error .EFAULT)
    else if validPages numPages = false then
      .returned (.error .EINVAL)
    else
      .allocating file numPages
  | .freePhys cookie =>
    if outcomes.copyFromUser = false then .returned (.error .EFAULT) else .freeing file cookie
  | .mapPhys virt cookie =>
    if outcomes.copyFromUser = false then
      .returned (.error .EFAULT)
    else
      .finding file ⟨0, [(virt, cookie)], [], false⟩
  | .mapPhysVec virt npages cookies =>
    if outcomes.copyFromUser = false then
      .returned (.error .EFAULT)
    else if validPages npages = false then
      .returned (.error .EINVAL)
    else if (outcomes.kmallocCookies && outcomes.kmallocOlds) = false then
      .returned (.error .ENOMEM)
    else if outcomes.copyCookies = false then
      .returned (.error .EFAULT)
    else
      .finding file ⟨0, vecPages shift virt cookies 0 npages.toNat, [], true⟩

/-- `__free_pages` for all nodes that `sd_release` finds, in their order. -/
def freeAll (shift : PageShift) : List SdAllocNode → List Event → List Event
  | [], log => log
  | node :: rest, log => freeAll shift rest (.freePages node.pages (node.freeOrder shift) :: log)

/-- No call holds a reference to the file. -/
def unused (device : Device n) (file : Nat) : Bool :=
  (List.finRange n).all fun thread => (device.threads thread).file? != some file

/-- Where a mapping call goes on after it has installed a page. -/
def advance (file : Nat) (mapping : Mapping) (old : UInt64) : ThreadState :=
  let next : Mapping :=
    { mapping with
      index := mapping.index + 1
      left := mapping.left.tail
      olds := mapping.olds ++ [old] }
  if next.left.isEmpty then .copying file next.reply else .finding file next

/--
The step of `sd_map_one` that holds the mmap lock.  It reads `node->pages`: if
the node is no longer on the list, its memory has been freed and may hold
anything.
-/
def insertPage (process : Fin n → Nat) (device : Device n) (thread : Fin n) (outcome : PageOutcome)
    (stale : Nat) (file : Nat) (mapping : Mapping) (node : SdAllocNode) : Option (Device n) :=
  match mapping.left, device.mms (process thread) with
  | (virt, _) :: _, some mm =>
    let pages := if node ∈ device.nodes file then node.pages else stale
    let call := sdMapInsert mm virt pages outcome
    let after : Device n := { device with mms := update device.mms (process thread) (some call.2) }
    match call.1 with
    | .error error => some (after.setThread thread (.returned (.error error)))
    | .ok old => some (after.setThread thread (advance file mapping old))
  | _, _ => none

/-- One step of the module. -/
def step? (shift : PageShift) (process : Fin n → Nat)
    (device : Device n) : Action n → Option (Device n)
  | .sdOpen file kzalloc =>
    if (device.files file).isSome then
      none
    else if kzalloc then some (device.setFile file (some [])) else some device
  | .sdRelease file =>
    match device.files file with
    | none => none
    | some nodes =>
      if device.unused file then
        some { device.setFile file none with log := freeAll shift nodes device.log }
      else
        none
  | .ioctl thread file request outcomes =>
    match device.threads thread, device.files file with
    | .idle, some _ => some (device.setThread thread (enter shift file outcomes request))
    | _, _ => none
  | .allocPages thread pages =>
    match device.threads thread, pages with
    | .allocating _ _, none => some (device.setThread thread (.returned (.error .ENOMEM)))
    | .allocating file numPages, some pages =>
      let order := orderBase2 numPages.toNat
      if device.fresh pages order then
        some
          { device.setThread thread (.allocated file pages order) with
            log := .allocPages pages order :: device.log }
      else
        none
    | _, _ => none
  | .kzalloc thread succeeds =>
    match device.threads thread with
    | .allocated file pages order =>
      if succeeds then
        let cookie := device.sdCookieCounter + 1
        some
          { device.setThread thread (.adding file (newNode cookie order pages)) with
            sdCookieCounter := cookie }
      else
        some
          { device.setThread thread (.returned (.error .ENOMEM)) with
            log := .freePages pages order :: device.log }
    | _ => none
  | .listAdd thread =>
    match device.threads thread with
    | .adding file node =>
      some
        { (device.setThread thread
            (.copying file (.allocPhys node.userAddr node.cookie))).setFile
            file (some (node :: device.nodes file)) with
          log := .listAdd file node.cookie node.pages :: device.log }
    | _ => none
  | .listDel thread =>
    match device.threads thread with
    | .freeing file cookie =>
      match sdFindAllocLocked (device.nodes file) cookie with
      | none => some (device.setThread thread (.returned (.error .EINVAL)))
      | some node =>
        some
          { (device.setThread thread
              (.returned (.ok .freePhys))).setFile file
              (some (ZeroCopyDevice.listDel (device.nodes file) cookie)) with
            log := .freePages node.pages (node.freeOrder shift) :: device.log }
    | _ => none
  | .findAlloc thread =>
    match device.threads thread with
    | .finding file mapping =>
      match mapping.left with
      | [] => none
      | (virt, cookie) :: _ =>
        match sdMapLookup shift (device.caller process thread file)
            virt cookie with
        | .error error => some (device.setThread thread (.returned (.error error)))
        | .ok node => some (device.setThread thread (.inserting file mapping node))
    | _ => none
  | .insertPage thread outcome stale =>
    match device.threads thread with
    | .inserting file mapping node =>
      device.insertPage process thread outcome stale file mapping node
    | _ => none
  | .copyToUser thread succeeds =>
    match device.threads thread with
    | .copying _ reply =>
      some (device.setThread thread (.returned (if succeeds then .ok reply else .error .EFAULT)))
    | _ => none
  | .leave thread =>
    match device.threads thread with
    | .returned _ => some (device.setThread thread .idle)
    | _ => none

end Device

/-- The block of pages that a thread has obtained and not yet put on a list. -/
def ThreadState.held (shift : PageShift) : ThreadState → Option (Nat × Nat)
  | .allocated _ pages order => some (pages, order)
  | .adding _ node => some (node.pages, node.freeOrder shift)
  | _ => none

/-- A place that a thread may enter without a change of lists, counter or log. -/
structure Device.Enters
    {n : Nat}
    (shift : PageShift)
    (device : Device n)
    (thread : Fin n)
    (place : ThreadState) : Prop where
  heldBefore : (device.threads thread).held shift = none
  heldAfter : place.held shift = none
  holdsFile : ∀ file, place.file? = some file →
      (device.threads thread).file? = some file ∨ (device.files file).isSome
  checked : ∀ file numPages, place = .allocating file numPages → validPages numPages = true
  found : ∀ file mapping node, place = .inserting file mapping node → node ∈ device.nodes file

/-- Everything that a step can do. -/
inductive Device.Effect
    {n : Nat}
    (shift : PageShift)
    (device : Device n) : Action n → Device n → Prop where
  | opens {file : Nat} (closed : device.files file = none) :
      Effect shift device (.sdOpen file true) (device.setFile file (some []))
  | refused {file : Nat} : Effect shift device (.sdOpen file false) device
  | releases {file : Nat} {nodes : List SdAllocNode} (isOpen : device.files file = some nodes)
      (unused : ∀ thread, (device.threads thread).file? ≠ some file) :
      Effect shift device (.sdRelease file)
        { device.setFile file none with log := Device.freeAll shift nodes device.log }
  | moves {action : Action n} {thread : Fin n} {place : ThreadState} {mms : Nat → Option MmStruct}
      (enters : device.Enters shift thread place) :
      Effect shift device action { device.setThread thread place with mms := mms }
  | obtains {thread : Fin n} {file pages : Nat} {numPages : UInt32}
      (place : device.threads thread = .allocating file numPages)
      (fresh : device.fresh pages (orderBase2 numPages.toNat) = true) :
      Effect shift device (.allocPages thread (some pages))
        { device.setThread thread (.allocated file pages (orderBase2 numPages.toNat)) with
          log := .allocPages pages (orderBase2 numPages.toNat) :: device.log }
  | names {thread : Fin n} {file pages order : Nat}
      (place : device.threads thread = .allocated file pages order) :
      Effect shift device (.kzalloc thread true)
        { device.setThread thread
            (.adding file (newNode (device.sdCookieCounter + 1) order pages)) with
          sdCookieCounter := device.sdCookieCounter + 1 }
  | givesUp {thread : Fin n} {file pages order : Nat}
      (place : device.threads thread = .allocated file pages order) :
      Effect shift device (.kzalloc thread false)
        { device.setThread thread (.returned (.error .ENOMEM)) with
          log := .freePages pages order :: device.log }
  | adds {thread : Fin n} {file : Nat} {node : SdAllocNode}
      (place : device.threads thread = .adding file node) :
      Effect shift device (.listAdd thread)
        { (device.setThread thread
            (.copying file (.allocPhys node.userAddr node.cookie))).setFile
            file (some (node :: device.nodes file)) with
          log := .listAdd file node.cookie node.pages :: device.log }
  | removes {thread : Fin n} {file : Nat} {cookie : UInt64} {node : SdAllocNode}
      (place : device.threads thread = .freeing file cookie)
      (found : sdFindAllocLocked (device.nodes file) cookie = some node) :
      Effect shift device (.listDel thread)
        { (device.setThread thread (.returned (.ok .freePhys))).setFile file
            (some (listDel (device.nodes file) cookie)) with
          log := .freePages node.pages (node.freeOrder shift) :: device.log }

namespace Device

variable {n : Nat} {shift : PageShift} {process : Fin n → Nat} {device next : Device n}
variable {action : Action n} {thread : Fin n}

/-- A call that goes on in its file, or returns, enters a plain place. -/
theorem Enters.plain {place : ThreadState} (heldBefore : (device.threads thread).held shift = none)
    (heldAfter : place.held shift = none)
    (file : place.file? = none ∨ place.file? = (device.threads thread).file?)
    (notAllocating : ∀ file numPages, place ≠ .allocating file numPages)
    (notInserting : ∀ file mapping node, place ≠ .inserting file mapping node) :
    device.Enters shift thread place where
  heldBefore := heldBefore
  heldAfter := heldAfter
  holdsFile := by
    intro other holds
    rcases file with none | same
    · rw [none] at holds
      cases holds
    · exact .inl (same ▸ holds)
  checked := by
    intro file numPages isAllocating
    exact absurd isAllocating (notAllocating file numPages)
  found := by
    intro file mapping node isInserting
    exact absurd isInserting (notInserting file mapping node)

theorem Enters.returned (heldBefore : (device.threads thread).held shift = none)
    (result : Except Errno Reply) :
    device.Enters shift thread (.returned result) :=
  .plain heldBefore rfl (.inl rfl) (by rintro _ _ ⟨⟩) (by rintro _ _ _ ⟨⟩)

/-- The places in which a call starts. -/
theorem enter_cases (shift : PageShift) (file : Nat) (outcomes : Outcomes) (request : Request) :
    (∃ error, enter shift file outcomes request = .returned (.error error)) ∨ (∃ numPages,
      validPages numPages = true ∧ enter shift file outcomes request = .allocating file numPages) ∨
      (∃ cookie, enter shift file outcomes request = .freeing file cookie) ∨
      ∃ mapping, enter shift file outcomes request = .finding file mapping := by
  fun_cases enter with
  | case3 numPages _ valid => exact .inr (.inl ⟨numPages, by simpa using valid, rfl⟩)
  | case5 cookie => exact .inr (.inr (.inl ⟨cookie, rfl⟩))
  | case7 | case12 => exact .inr (.inr (.inr ⟨_, rfl⟩))
  | _ => exact .inl ⟨_, rfl⟩

/-- A call starts in an open file with checked arguments. -/
theorem enters_enter {file : Nat} {nodes : List SdAllocNode} (request : Request)
    (outcomes : Outcomes) (idle : device.threads thread = .idle)
    (isOpen : device.files file = some nodes) :
    device.Enters shift thread (enter shift file outcomes request) := by
  have heldBefore : (device.threads thread).held shift = none := by
    rw [idle]
    rfl
  have isSome : ∀ other, some file = some other →
      (device.threads thread).file? = some other ∨ (device.files other).isSome := by
    rintro other ⟨⟩
    right
    rw [isOpen]
    rfl
  rcases enter_cases shift file outcomes request with
    ⟨error, returns⟩ | ⟨numPages, valid, allocates⟩ | ⟨cookie, frees⟩ | ⟨mapping, finds⟩
  · rw [returns]
    exact .returned heldBefore (.error error)
  · rw [allocates]
    refine ⟨heldBefore, rfl, isSome, ?_, by rintro _ _ _ ⟨⟩⟩
    rintro _ _ ⟨⟩
    exact valid
  · rw [frees]
    exact ⟨heldBefore, rfl, isSome, by rintro _ _ ⟨⟩, by rintro _ _ _ ⟨⟩⟩
  · rw [finds]
    exact ⟨heldBefore, rfl, isSome, by rintro _ _ ⟨⟩, by rintro _ _ _ ⟨⟩⟩

theorem enters_advance {file : Nat} {mapping : Mapping} {node : SdAllocNode}
    (place : device.threads thread = .inserting file mapping node) (old : UInt64) :
    device.Enters shift thread (advance file mapping old) := by
  have heldBefore : (device.threads thread).held shift = none := by
    rw [place]
    rfl
  rw [advance]
  split <;>
    exact .plain heldBefore rfl (.inr (by rw [place]; rfl)) (by rintro _ _ ⟨⟩) (by rintro _ _ _ ⟨⟩)

theorem mem_nodes_of_sdMapLookup {file : Nat} {virt cookie : UInt64} {node : SdAllocNode}
    (found : sdMapLookup shift (device.caller process thread file) virt cookie = .ok node) :
    node ∈ device.nodes file := by
  rw [sdMapLookup] at found
  split at found
  · cases found
  · split at found
    · cases found
    · split at found
      · cases found
      · rename_i isNode
        cases found
        exact List.mem_of_find?_eq_some isNode

/-- Every step has one of the effects. -/
theorem effect_of_step (stepped : device.step? shift process action = some next) :
    device.Effect shift action next := by
  revert stepped
  fun_cases step? with (intro stepped; try cases stepped)
  | case2 file closed => exact .opens (by simpa using closed)
  | case3 file kzalloc closed refused =>
    obtain rfl := eq_false_of_ne_true refused
    exact .refused
  | case5 file nodes isOpen unused => exact .releases isOpen (by simpa [Device.unused] using unused)
  | case7 thread file request outcomes nodes isOpen idle =>
    exact .moves (enters_enter request outcomes idle isOpen)
  | case9 _ _ _ place | case18 _ _ _ place | case22 _ _ _ place | case27 _ _ _ _ place =>
    exact .moves (.returned (by rw [place]; rfl) _)
  | case10 thread file numPages pages place order fresh => exact .obtains place fresh
  | case13 thread file pages order place => exact .names place
  | case14 thread succeeds file pages order place failed =>
    obtain rfl := eq_false_of_ne_true failed
    exact .givesUp place
  | case16 thread file node place => exact .adds place
  | case19 thread file cookie place node found => exact .removes place found
  | case23 thread file mapping place virt cookie rest left node found =>
    refine .moves ⟨by rw [place]; rfl, rfl, ?_, by rintro _ _ ⟨⟩, ?_⟩
    · rintro other ⟨⟩
      left
      rw [place]
      rfl
    · rintro _ _ _ ⟨⟩
      exact mem_nodes_of_sdMapLookup found
  | case25 thread outcome stale file mapping node place =>
    rw [Device.insertPage] at stepped
    split at stepped
    · dsimp only at stepped
      split at stepped
      · cases stepped
        exact .moves (.returned (by rw [place]; rfl) _)
      · rename_i old _
        cases stepped
        exact .moves (enters_advance place old)
    · cases stepped
  | case29 thread result place =>
    exact .moves (.plain (by rw [place]; rfl) rfl (.inl rfl)
      (by rintro _ _ ⟨⟩) (by rintro _ _ _ ⟨⟩))

theorem nodes_setFile (device : Device n) (file : Nat) (allocations : Option (List SdAllocNode)) :
    (device.setFile file allocations).nodes = update device.nodes file (allocations.getD []) := by
  funext other
  by_cases same : other = file
  · subst same
    simp [nodes, setFile]
  · simp [nodes, setFile, update_of_ne same]

end Device

end SocksDirect.ZeroCopyDevice
