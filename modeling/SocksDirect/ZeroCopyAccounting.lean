import SocksDirect.ZeroCopyThreads

namespace SocksDirect.ZeroCopyDevice

open Function Machine

/-!
# The page accounting of the zero-copy device

Every block of pages that the module has obtained belongs to the thread that is
about to put it on a list, or to the file on whose list it is.  Every step keeps
the outstanding blocks divided among these owners, and what the module promises
about its pages is read off from that, as is when a thread installs a page whose
node has been freed.
-/

open AllocationLedger (outstanding returnAll Divided Separate)

/-- Who has to see to it that a block is returned. -/
inductive Owner (n : Nat) where
  | thread (thread : Fin n)
  | file (file : Nat)
  deriving DecidableEq

/--
The allocations that have been put on a list and whose pages have not been
freed since: file, cookie and first page.
-/
def liveAllocations : List Event → List (Nat × UInt64 × Nat)
  | [] => []
  | .allocPages _ _ :: earlier => liveAllocations earlier
  | .freePages pages _ :: earlier =>
    (liveAllocations earlier).filter fun allocation => allocation.2.2 ≠ pages
  | .listAdd file cookie pages :: earlier => (file, cookie, pages) :: liveAllocations earlier

/-- The live allocations are the nodes on the lists. -/
def ListsLive (nodes : Nat → List SdAllocNode) (log : List Event) : Prop :=
  ∀ file cookie pages, (file, cookie, pages) ∈ liveAllocations log ↔
      ∃ node ∈ nodes file, node.cookie = cookie ∧ node.pages = pages

theorem ledger_freeAll (shift : PageShift) (nodes : List SdAllocNode) (log : List Event) :
    ledger (Device.freeAll shift nodes log) =
      returnAll (nodes.map fun node => (node.pages, node.freeOrder shift)) (ledger log) := by
  induction nodes generalizing log with
  | nil => rfl
  | cons node rest inductionHypothesis => exact inductionHypothesis _

theorem mem_liveAllocations_freeAll {shift : PageShift} {nodes : List SdAllocNode}
    {log : List Event} {allocation : Nat × UInt64 × Nat} :
    allocation ∈ liveAllocations (Device.freeAll shift nodes log) ↔
      allocation ∈ liveAllocations log ∧ allocation.2.2 ∉ nodes.map SdAllocNode.pages := by
  induction nodes generalizing log with
  | nil => simp [Device.freeAll]
  | cons node rest inductionHypothesis =>
    rw [Device.freeAll, inductionHypothesis]
    simp [liveAllocations, and_assoc]

/-- A page count has been checked, and an order comes from a checked count. -/
def ThreadState.Checked : ThreadState → Prop
  | .allocating _ numPages => validPages numPages = true
  | .allocated _ _ order => order ≤ socksdirectMaxOrder
  | _ => True

namespace Device

variable {n : Nat} {shift : PageShift} {process : Fin n → Nat} {device next : Device n}
variable {action : Action n}

/-- The blocks that the threads have obtained and those on the lists. -/
def holdings (shift : PageShift) (device : Device n) : Owner n → List (Nat × Nat)
  | .thread thread => ((device.threads thread).held shift).toList
  | .file file => (device.nodes file).map fun node => (node.pages, node.freeOrder shift)

/-- Every outstanding block has one owner, and every call is in an open file. -/
structure Accounted (shift : PageShift) (device : Device n) : Prop where
  divided : Divided (ledger device.log) (device.holdings shift)
  listed : ListsLive device.nodes device.log
  inOpenFile : ∀ thread file, (device.threads thread).file? = some file → (device.files file).isSome
  checked : ∀ thread, (device.threads thread).Checked

theorem holdings_setThread (shift : PageShift) (device : Device n) (thread : Fin n)
    (place : ThreadState) : (device.setThread thread place).holdings shift =
      update (device.holdings shift) (.thread thread) (place.held shift).toList := by
  funext owner
  cases owner with
  | thread other =>
    by_cases same : other = thread <;> simp [holdings, setThread, same]
  | file file => simp [holdings, nodes, setThread]

theorem holdings_setFile (shift : PageShift) (device : Device n) (file : Nat)
    (allocations : Option (List SdAllocNode)) : (device.setFile file allocations).holdings shift =
      update (device.holdings shift) (.file file)
      ((allocations.getD []).map fun node => (node.pages, node.freeOrder shift)) := by
  funext owner
  cases owner with
  | thread thread => simp [holdings, setFile]
  | file other =>
    by_cases same : other = file <;> simp [holdings, nodes_setFile, same]

variable {place : ThreadState} {thread : Fin n}

theorem holdings_setThread_eq (same : place.held shift = (device.threads thread).held shift) :
    (device.setThread thread place).holdings shift = device.holdings shift := by
  rw [holdings_setThread, same]
  exact update_eq_self (.thread thread) (device.holdings shift)

theorem not_mem_outstanding_of_fresh {pages order : Nat} (fresh : device.fresh pages order = true) :
    pages ∉ (outstanding (ledger device.log)).map Prod.fst := by
  intro member
  obtain ⟨block, isOutstanding, rfl⟩ := List.mem_map.mp member
  have apart := List.all_eq_true.mp fresh block isOutstanding
  have := Nat.two_pow_pos order
  have := Nat.two_pow_pos block.2
  simp only [Bool.or_eq_true, decide_eq_true_eq] at apart
  omega

theorem forall_setThread (property : ThreadState → Prop) (new : property place)
    (old : ∀ other, property (device.threads other)) :
    ∀ other, property ((device.setThread thread place).threads other) :=
  (forall_update_iff device.threads fun _ => property).mpr ⟨new, fun other _ => old other⟩

theorem isSome_setFile (device : Device n) (file : Nat) (allocations : List SdAllocNode)
    {other : Nat} (isOpen : (device.files other).isSome) :
    ((device.setFile file (some allocations)).files other).isSome := by
  by_cases same : other = file
  · simp [setFile, same]
  · simpa [setFile, update_of_ne same] using isOpen

/-- Every call stays in an open file. -/
theorem inOpenFile_of_effect
    (inOpenFile :
      ∀ thread file, (device.threads thread).file? = some file → (device.files file).isSome)
    (effect : device.Effect shift action next) :
    ∀ thread file, (next.threads thread).file? = some file → (next.files file).isSome := by
  have goesOn : ∀ {thread place}, (∀ file, place.file? = some file →
          (device.threads thread).file? = some file ∨ (device.files file).isSome) →
        ∀ other file, ((device.setThread thread place).threads other).file? = some file →
          (device.files file).isSome := by
    intro thread place holdsFile
    refine forall_setThread
      (fun place => ∀ file, place.file? = some file → (device.files file).isSome)
      ?_ inOpenFile
    intro file holds
    exact (holdsFile file holds).elim (inOpenFile thread file) id
  cases effect with
  | opens closed =>
    intro thread file holds
    exact isSome_setFile device _ [] (inOpenFile thread file holds)
  | refused => exact inOpenFile
  | @releases file nodes isOpen unused =>
    intro thread other holds
    have different : other ≠ file := by
      rintro rfl
      exact unused thread holds
    simpa [setFile, update_of_ne different] using inOpenFile thread other holds
  | moves enters => exact goesOn enters.holdsFile
  | obtains place | names place => exact goesOn fun file holds => .inl (by rw [place]; exact holds)
  | givesUp place => exact goesOn (by rintro file ⟨⟩)
  | adds place =>
    intro thread file holds
    apply isSome_setFile (device.setThread _ _)
    exact goesOn (fun file holds => .inl (by rw [place]; exact holds)) thread file holds
  | removes place found =>
    intro thread file holds
    apply isSome_setFile (device.setThread _ _)
    exact goesOn (by rintro file ⟨⟩) thread file holds

theorem Enters.placeChecked (enters : device.Enters shift thread place) : place.Checked := by
  cases place with
  | allocating file numPages => exact enters.checked file numPages rfl
  | allocated file pages order => cases enters.heldAfter
  | _ => exact trivial

/-- Every place that a step leads to has been checked. -/
theorem checked_of_effect (checked : ∀ thread, (device.threads thread).Checked)
    (effect : device.Effect shift action next) :
    ∀ thread, (next.threads thread).Checked := by
  cases effect with
  | opens | refused | releases => exact checked
  | moves enters => exact forall_setThread ThreadState.Checked enters.placeChecked checked
  | @obtains thread file pages numPages place fresh =>
    refine forall_setThread ThreadState.Checked ?_ checked
    have valid := checked thread
    rw [place] at valid
    exact orderBase2_le_of_validPages valid
  | names | givesUp | adds | removes => exact forall_setThread ThreadState.Checked trivial checked

theorem nodes_setFile_nil {file : Nat} (closed : device.files file = none) :
    (device.setFile file (some [])).nodes = device.nodes := by
  rw [nodes_setFile]
  apply update_eq_self_iff.mpr
  simp [nodes, closed]

theorem nodes_eq_of_files {file : Nat} {nodes : List SdAllocNode}
    (isOpen : device.files file = some nodes) :
    device.nodes file = nodes := by
  rw [Device.nodes, isOpen]
  rfl

/-- Every effect leaves every outstanding block with one owner. -/
theorem divided_of_effect (divided : Divided (ledger device.log) (device.holdings shift))
    (checked : ∀ thread, (device.threads thread).Checked)
    (effect : device.Effect shift action next) :
    Divided (ledger next.log) (next.holdings shift) := by
  cases effect with
  | @opens file closed =>
    have unchanged : (device.setFile file (some [])).holdings shift = device.holdings shift := by
      funext owner
      cases owner with
      | thread thread => rfl
      | file other => simp only [holdings, nodes_setFile_nil closed]
    rw [unchanged]
    exact divided
  | refused => exact divided
  | @releases file nodes isOpen unused =>
    obtain rfl := nodes_eq_of_files isOpen
    have split : (device.holdings shift (.file file)).Perm
        (device.holdings shift (.file file) ++ []) := by simp
    have returned := divided.returnAll split
    rw [holdings, ← ledger_freeAll] at returned
    exact (holdings_setFile shift device file none).symm ▸ returned
  | @moves _ thread place mms enters =>
    have unchanged : (device.setThread thread place).holdings shift = device.holdings shift :=
      holdings_setThread_eq (enters.heldAfter.trans enters.heldBefore.symm)
    exact unchanged.symm ▸ divided
  | @obtains thread file pages numPages place fresh =>
    have obtained :=
      divided.obtain (orderBase2 numPages.toNat) (not_mem_outstanding_of_fresh fresh)
        (.thread thread)
    have nothing : device.holdings shift (.thread thread) = [] := by
      rw [holdings, place]
      rfl
    rw [nothing] at obtained
    exact (holdings_setThread shift device thread _).symm ▸ obtained
  | @names thread file pages order place =>
    have bounded := checked thread
    rw [place] at bounded
    have unchanged : (device.setThread thread
            (.adding file (newNode (device.sdCookieCounter + 1) order pages))).holdings shift =
          device.holdings shift := by
      apply holdings_setThread_eq
      rw [place, ThreadState.held, ThreadState.held, freeOrder_newNode bounded]
      rfl
    exact unchanged.symm ▸ divided
  | @givesUp thread file pages order place =>
    have split : (device.holdings shift (.thread thread)).Perm ([(pages, order)] ++ []) := by
      rw [holdings, place]
      rfl
    exact (holdings_setThread shift device thread _).symm ▸ divided.returnAll split
  | @adds thread file node place =>
    have split :
        (device.holdings shift (.thread thread)).Perm [(node.pages, node.freeOrder shift)] := by
      rw [holdings, place]
      rfl
    have handed := divided.handOver split (show Owner.file file ≠ _ by rintro ⟨⟩)
    have after := holdings_setFile shift
      (device.setThread thread (.copying file (.allocPhys node.userAddr node.cookie))) file
      (some (node :: device.nodes file))
    rw [holdings_setThread] at after
    exact after.symm ▸ handed
  | @removes thread file cookie node place found =>
    have split := (perm_listDel found).map fun node => (node.pages, node.freeOrder shift)
    have returned :=
      divided.returnAll (show (device.holdings shift (.file file)).Perm ([_] ++ _) from split)
    have unchanged : (device.setThread thread (.returned (.ok .freePhys))).holdings shift =
          device.holdings shift := by
      apply holdings_setThread_eq
      rw [place]
      rfl
    have after := holdings_setFile shift
      (device.setThread thread (.returned (.ok .freePhys))) file
      (some (listDel (device.nodes file) cookie))
    rw [unchanged] at after
    exact after.symm ▸ returned

theorem separate_nodes (divided : Divided (ledger device.log) (device.holdings shift)) :
    Separate SdAllocNode.pages device.nodes where
  apart := by
    intro first second node other listed otherListed same
    have sameOwner : Owner.file first = .file second :=
      divided.apart (List.mem_map_of_mem listed) (List.mem_map_of_mem otherListed) same
    cases sameOwner
    rfl
  distinct := by
    intro file
    simpa [holdings, comp_def] using divided.distinct (.file file)

theorem listsLive_freeAll {gone left : List SdAllocNode} {file : Nat}
    (separate : Separate SdAllocNode.pages device.nodes)
    (split : (device.nodes file).Perm (gone ++ left)) (listed : ListsLive device.nodes device.log) :
    ListsLive (update device.nodes file left) (freeAll shift gone device.log) := by
  intro other cookie pages
  rw [mem_liveAllocations_freeAll, listed]
  simp only [separate.mem_drop_iff split]
  constructor
  · rintro ⟨⟨node, member, rfl, rfl⟩, stays⟩
    exact ⟨node, ⟨member, stays⟩, rfl, rfl⟩
  · rintro ⟨node, ⟨member, stays⟩, rfl, rfl⟩
    exact ⟨⟨node, member, rfl, rfl⟩, stays⟩

/-- After every effect the live allocations are the nodes on the lists. -/
theorem listsLive_of_effect (divided : Divided (ledger device.log) (device.holdings shift))
    (listed : ListsLive device.nodes device.log) (effect : device.Effect shift action next) :
    ListsLive next.nodes next.log := by
  have separate := separate_nodes divided
  cases effect with
  | opens closed =>
    rw [nodes_setFile_nil closed]
    exact listed
  | @releases file nodes isOpen unused =>
    obtain rfl := nodes_eq_of_files isOpen
    have split : (device.nodes file).Perm (device.nodes file ++ []) := by simp
    exact (nodes_setFile device file none).symm ▸ listsLive_freeAll separate split listed
  | @givesUp thread file pages order place =>
    show ListsLive device.nodes (.freePages pages order :: device.log)
    intro other cookie block
    rw [liveAllocations, List.mem_filter, listed, and_iff_left_iff_imp]
    rintro ⟨node, member, rfl, rfl⟩
    rw [decide_eq_true_iff]
    intro same
    have isHeld : (pages, order) ∈ device.holdings shift (.thread thread) := by
      simp [holdings, place, ThreadState.held]
    have sameOwner : Owner.file other = .thread thread :=
      divided.apart (List.mem_map_of_mem member) isHeld same
    cases sameOwner
  | @adds thread file node place =>
    refine (nodes_setFile device file (some (node :: device.nodes file))).symm ▸ ?_
    intro other cookie block
    rw [liveAllocations, List.mem_cons, listed]
    by_cases sameFile : other = file
    · subst sameFile
      simp [eq_comm]
    · simp [sameFile]
  | @removes thread file cookie node place found =>
    have split : (device.nodes file).Perm ([node] ++ _) := perm_listDel found
    exact (nodes_setFile device file (some (listDel (device.nodes file) cookie))).symm ▸
      listsLive_freeAll separate split listed
  | refused | moves | obtains | names => exact listed

theorem Accounted.step (accounted : device.Accounted shift)
    (stepped : device.step? shift process action = some next) :
    next.Accounted shift := by
  obtain ⟨divided, listed, inOpenFile, checked⟩ := accounted
  have effect := effect_of_step stepped
  exact ⟨divided_of_effect divided checked effect, listsLive_of_effect divided listed effect,
    inOpenFile_of_effect inOpenFile effect, checked_of_effect checked effect⟩

theorem accounted_initial (mms : Nat → Option MmStruct) : (initial n mms).Accounted shift := by
  have nothing : ∀ owner, (initial n mms).holdings shift owner = [] := by
    rintro (thread | file) <;> rfl
  refine ⟨⟨⟨by simp [nothing], by simp [nothing]⟩, trivial, ?_⟩, ?_, ?_, fun _ => trivial⟩
  · simp only [nothing, List.not_mem_nil, exists_false, iff_false]
    exact fun _ => List.not_mem_nil
  · simp [ListsLive, initial, liveAllocations, nodes]
  · intro thread file holds
    cases holds

theorem accounted_of_run {mms : Nat → Option MmStruct} {actions : List (Action n)}
    (accepted : run? (step? shift process) (initial n mms) actions = some device) :
    device.Accounted shift :=
  invariant_of_run (accounted_initial mms) Accounted.step accepted

end Device

/-- The cookies of all allocations that have ever been put on a list. -/
def listedCookies : List Event → List UInt64
  | [] => []
  | .listAdd _ cookie _ :: earlier => cookie :: listedCookies earlier
  | .allocPages _ _ :: earlier => listedCookies earlier
  | .freePages _ _ :: earlier => listedCookies earlier

@[simp] theorem listedCookies_freeAll (shift : PageShift) (nodes : List SdAllocNode)
    (log : List Event) :
    listedCookies (Device.freeAll shift nodes log) = listedCookies log := by
  induction nodes generalizing log with
  | nil => rfl
  | cons node rest inductionHypothesis => exact inductionHypothesis _

/-- The cookie that a thread has taken and not yet put on a list. -/
def ThreadState.pending : ThreadState → Option UInt64
  | .adding _ node => some node.cookie
  | _ => none

/-- No cookie has been given to two allocations, and the counter is ahead. -/
structure Named {Holder : Type} (counter : UInt64) (cookies : Holder → List UInt64) : Prop where
  separate : Separate id cookies
  bounded : ∀ {holder cookie}, cookie ∈ cookies holder → cookie.toNat ≤ counter.toNat

theorem Named.issue {Holder : Type} [DecidableEq Holder] {counter : UInt64}
    {cookies : Holder → List UInt64} (named : Named counter cookies) (holder : Holder)
    (noWrap : counter.toNat + 1 < 2 ^ 64) :
    Named (counter + 1) (update cookies holder ((counter + 1) :: cookies holder)) := by
  have advanced : (counter + 1).toNat = counter.toNat + 1 := by
    rw [UInt64.toNat_add, UInt64.toNat_one, Nat.mod_eq_of_lt noWrap]
  constructor
  · refine named.separate.insert ?_ holder
    intro other cookie held same
    have below := named.bounded held
    rw [show cookie = counter + 1 from same] at below
    omega
  · intro other cookie held
    rcases Separate.mem_insert_iff.mp held with ⟨-, rfl⟩ | held
    · exact Nat.le_refl _
    · exact Nat.le_trans (named.bounded held) (by omega)

namespace Device

variable {n : Nat} {shift : PageShift} {process : Fin n → Nat}
variable {device next : Device n} {action : Action n}

/-- The cookies that have been put on a list, and those that the threads have taken. -/
def cookies (device : Device n) : Option (Fin n) → List UInt64
  | none => listedCookies device.log
  | some thread => (device.threads thread).pending.toList

/-- Every cookie of the module names one allocation. -/
def WellNamed (device : Device n) : Prop := Named device.sdCookieCounter device.cookies

/-- The cookie counter does not wrap at the next allocation. -/
def CounterDoesNotWrap (device : Device n) (_ : Action n) : Prop :=
  device.sdCookieCounter.toNat + 1 < 2 ^ 64

instance (device : Device n) (action : Action n) : Decidable (device.CounterDoesNotWrap action) :=
  inferInstanceAs (Decidable (device.sdCookieCounter.toNat + 1 < 2 ^ 64))

theorem cookies_setThread (device : Device n) (thread : Fin n) (place : ThreadState) :
    (device.setThread thread place).cookies =
      update device.cookies (some thread) place.pending.toList := by
  funext holder
  cases holder with
  | none => simp [cookies, setThread]
  | some other =>
    by_cases same : other = thread <;> simp [cookies, setThread, same]

theorem WellNamed.of_eq {counter : UInt64} {cookies : Option (Fin n) → List UInt64}
    (named : Named counter cookies) (sameCounter : next.sdCookieCounter = counter)
    (same : next.cookies = cookies) :
    next.WellNamed := by
  rw [WellNamed, sameCounter, same]
  exact named

theorem pending_eq_none_of_held {place : ThreadState} (nothing : place.held shift = none) :
    place.pending = none := by
  cases place with
  | adding file node => cases nothing
  | _ => rfl

/-- Every step gives each cookie to one allocation. -/
theorem WellNamed.step (named : device.WellNamed) (noWrap : device.CounterDoesNotWrap action)
    (stepped : device.step? shift process action = some next) :
    next.WellNamed := by
  have unchanged : ∀ {thread place}, (device.threads thread).pending = none → place.pending = none →
        (device.setThread thread place).WellNamed := by
    intro thread place before after
    refine .of_eq named rfl ?_
    rw [cookies_setThread, after, ← before]
    exact update_eq_self (some thread) device.cookies
  cases effect_of_step stepped with
  | opens | refused => exact named
  | releases isOpen unused =>
    refine .of_eq named rfl (funext fun holder => ?_)
    cases holder with
    | none => simp [cookies]
    | some thread => rfl
  | moves enters =>
    exact unchanged (pending_eq_none_of_held enters.heldBefore)
      (pending_eq_none_of_held enters.heldAfter)
  | @names thread file pages order place =>
    have nothing : device.cookies (some thread) = [] := by
      rw [cookies, place]
      rfl
    have issued := named.issue (some thread) noWrap
    rw [nothing] at issued
    exact .of_eq issued rfl (cookies_setThread device thread
      (.adding file (newNode (device.sdCookieCounter + 1) order pages)))
  | @adds thread file node place =>
    have split : (device.cookies (some thread)).Perm [node.cookie] := by
      rw [cookies, place]
      rfl
    have different : none ≠ some thread := by rintro ⟨⟩
    refine .of_eq ⟨named.separate.handOver split different, ?_⟩ rfl (funext fun holder => ?_)
    · intro holder cookie held
      obtain ⟨before, wasHeld⟩ :=
        (named.separate.exists_mem_handedOver_iff split different).mp ⟨holder, held⟩
      exact named.bounded wasHeld
    · cases holder with
      | none => simp [cookies, listedCookies, Separate.handedOver]
      | some other =>
        by_cases same : other = thread
        · simp [cookies, Separate.handedOver, setThread, setFile, ThreadState.pending, same]
        · simp [cookies, Separate.handedOver, setThread, setFile, same]
  | obtains place | givesUp place | removes place => exact unchanged (by rw [place]; rfl) rfl

theorem wellNamed_initial (mms : Nat → Option MmStruct) : (initial n mms).WellNamed := by
  have nothing : ∀ holder, (initial n mms).cookies holder = [] := by rintro (- | thread) <;> rfl
  exact ⟨⟨by simp [nothing], by simp [nothing]⟩, by simp [nothing]⟩

theorem wellNamed_of_run {mms : Nat → Option MmStruct} {actions : List (Action n)}
    (accepted : run? (step? shift process) (initial n mms) actions = some device)
    (noWrap : Along (step? shift process) CounterDoesNotWrap (initial n mms) actions) :
    device.WellNamed :=
  invariant_along (wellNamed_initial mms) WellNamed.step accepted noWrap

/-- `FREE_PHYS` finds a node exactly if the file's allocation is live. -/
theorem Accounted.listDel_iff (accounted : device.Accounted shift) {thread : Fin n} {file : Nat}
    {cookie : UInt64} (place : device.threads thread = .freeing file cookie)
    (stepped : device.step? shift process (.listDel thread) = some next) :
    next.threads thread = .returned (.ok .freePhys) ↔
      ∃ pages, (file, cookie, pages) ∈ liveAllocations device.log := by
  have live_iff : (∃ pages, (file, cookie, pages) ∈ liveAllocations device.log) ↔
        (sdFindAllocLocked (device.nodes file) cookie).isSome := by
    simp only [isSome_sdFindAllocLocked_iff, accounted.listed file cookie]
    constructor
    · rintro ⟨pages, node, member, isCookie, _⟩
      exact ⟨node, member, isCookie⟩
    · rintro ⟨node, member, isCookie⟩
      exact ⟨node.pages, node, member, isCookie, rfl⟩
  rw [live_iff]
  simp only [step?, place] at stepped
  split at stepped
  · rename_i nothing
    cases stepped
    simp [nothing, setThread]
  · rename_i node found
    cases stepped
    simp [found, setThread, setFile]

/-- Nothing is outstanding when no file is open. -/
theorem Accounted.outstanding_eq_nil (accounted : device.Accounted shift)
    (allClosed : ∀ file, device.files file = none) :
    outstanding (ledger device.log) = [] := by
  apply List.eq_nil_iff_forall_not_mem.mpr
  intro block member
  obtain ⟨owner, held⟩ := (accounted.divided.mem_iff block).mp member
  cases owner with
  | thread thread =>
    have inFile : ((device.threads thread).file?).isSome := by
      rw [holdings] at held
      cases place : device.threads thread with
      | allocated | adding => rfl
      | _ =>
        rw [place] at held
        cases held
    obtain ⟨file, isFile⟩ := Option.isSome_iff_exists.mp inFile
    have isOpen := accounted.inOpenFile thread file isFile
    rw [allClosed file] at isOpen
    cases isOpen
  | file file =>
    rw [holdings, nodes, allClosed file] at held
    cases held

/--
The page accounting of the module, for every run of any number of threads on
any number of files: a block is returned with the order it was obtained with
and once for each time it was obtained, it is on one list, a cookie is given to
one allocation, `FREE_PHYS` returns 0 exactly for a live allocation of its file,
and no block is outstanding when no file is open.
-/
theorem page_accounting
    {n : Nat}
    {shift : PageShift}
    {process : Fin n → Nat}
    {mms : Nat → Option MmStruct}
    {actions : List (Action n)}
    {device : Device n}
    (accepted : run? (step? shift process) (initial n mms) actions = some device)
    (noWrap : Along (step? shift process) CounterDoesNotWrap (initial n mms) actions) :
    (∀ later earlier pages order,
      ledger device.log = later ++ .returned pages order :: earlier →
      ∃ between before,
        earlier = between ++ .obtained pages order :: before ∧
        ∀ event ∈ between, event.block ≠ pages) ∧
      (∀ first second firstNode secondNode,
        firstNode ∈ device.nodes first →
        secondNode ∈ device.nodes second →
        firstNode.pages = secondNode.pages →
        first = second ∧ firstNode = secondNode) ∧
      (listedCookies device.log).Nodup ∧
      (∀ thread file cookie next,
        device.threads thread = .freeing file cookie →
        device.step? shift process (.listDel thread) = some next →
        (next.threads thread = .returned (.ok .freePhys) ↔
          ∃ pages, (file, cookie, pages) ∈ liveAllocations device.log)) ∧
      ((∀ file, device.files file = none) → outstanding (ledger device.log) = []) := by
  have accounted := accounted_of_run accepted
  refine ⟨?_, ?_, ?_, ?_, accounted.outstanding_eq_nil⟩
  · intro later earlier pages order split
    have sound := accounted.divided.sound
    rw [split] at sound
    exact sound.returned_matches
  · intro first second firstNode secondNode firstListed secondListed same
    exact (separate_nodes accounted.divided).unique firstListed secondListed same
  · simpa [cookies] using (wellNamed_of_run accepted noWrap).separate.distinct none
  · intro thread file cookie next place stepped
    exact accounted.listDel_iff place stepped

/-- Two threads of one process with an area of the device. -/
def twoThreads : Device 2 := initial 2 fun process => if process = 0 then idleCaller.mm else none

/-- One thread allocates three pages, the other frees them again. -/
def allocateAndFree : List (Action 2) :=
  [.sdOpen 5 true, .ioctl 0 5 (.allocPhys 3) (.allSucceed 0), .allocPages 0 (some 256),
    .kzalloc 0 true, .listAdd 0, .ioctl 1 5 (.freePhys 1) (.allSucceed 0), .listDel 1]

/-- The four pages that the allocator gave are returned with order two. -/
theorem page_accounting_allocateAndFree :
    ∃ device, run? (step? .x86 fun _ => 0) twoThreads allocateAndFree = some device ∧
      ledger device.log = [.returned 256 2, .obtained 256 2] ∧
      (listedCookies device.log).Nodup := by
  obtain ⟨device, reached, entered⟩ :=
    exists_reached_of_check (step? .x86 fun _ => 0) twoThreads
      allocateAndFree
      (fun device => ledger device.log = [.returned 256 2, .obtained 256 2])
      (by decide +kernel)
  exact ⟨device, reached, entered, (page_accounting reached (by decide +kernel)).2.2.1⟩

/-- Every thread that is about to install a page has its node on the list. -/
def MapsLiveNodes (device : Device n) : Prop :=
  ∀ thread file mapping node, device.threads thread = .inserting file mapping node →
    node ∈ device.nodes file

/--
`FREE_PHYS` does not take a node away that another thread has found and not yet
mapped.
-/
def FreesUnusedNodes (device : Device n) : Action n → Prop
  | .listDel thread =>
    ∀ file cookie node, device.threads thread = .freeing file cookie →
      sdFindAllocLocked (device.nodes file) cookie = some node →
      ∀ other mapping, device.threads other ≠ .inserting file mapping node
  | _ => True

/-- The node that the thread takes away next, with its file. -/
def freed? (device : Device n) (thread : Fin n) : Option (Nat × SdAllocNode) :=
  match device.threads thread with
  | .freeing file cookie => (sdFindAllocLocked (device.nodes file) cookie).map (file, ·)
  | _ => none

/-- The node that the thread is about to map, with its file. -/
def inserted? (device : Device n) (thread : Fin n) : Option (Nat × SdAllocNode) :=
  match device.threads thread with
  | .inserting file _ node => some (file, node)
  | _ => none

theorem freesUnusedNodes_listDel_iff (device : Device n) (thread : Fin n) :
    device.FreesUnusedNodes (.listDel thread) ↔
      ∀ node ∈ device.freed? thread, ∀ other, device.inserted? other ≠ some node := by
  constructor
  · intro unused node isFreed other isInserted
    unfold freed? at isFreed
    unfold inserted? at isInserted
    split at isFreed <;> split at isInserted <;> try contradiction
    next freeing _ _ _ _ inserting =>
      cases isInserted
      obtain ⟨found, isFound, ⟨⟩⟩ := Option.map_eq_some_iff.mp isFreed
      exact unused _ _ _ freeing isFound _ _ inserting
  · intro apart file cookie node freeing isFound other mapping inserting
    refine apart (file, node) ?_ other ?_
    · simp [freed?, freeing, isFound]
    · simp [inserted?, inserting]

instance (device : Device n) (action : Action n) : Decidable (device.FreesUnusedNodes action) := by
  cases action with
  | listDel thread => exact decidable_of_iff _ (device.freesUnusedNodes_listDel_iff thread).symm
  | _ => exact .isTrue trivial

theorem mem_nodes_setFile (device : Device n) {file other : Nat}
    {allocations : Option (List SdAllocNode)} {node : SdAllocNode}
    (member : node ∈ device.nodes other) (kept : other = file → node ∈ allocations.getD []) :
    node ∈ (device.setFile file allocations).nodes other := by
  rw [nodes_setFile]
  by_cases same : other = file
  · rw [same, update_self]
    exact kept same
  · rw [update_of_ne same]
    exact member

/-- A step that frees no found node keeps all found nodes on their lists. -/
theorem mapsLiveNodes_of_effect (mapsLive : device.MapsLiveNodes)
    (freesUnused : device.FreesUnusedNodes action) (effect : device.Effect shift action next) :
    next.MapsLiveNodes := by
  have kept : ∀ {thread place},
        (∀ file mapping node, place = .inserting file mapping node → node ∈ device.nodes file) →
        (device.setThread thread place).MapsLiveNodes := by
    intro thread place found
    exact forall_setThread
      (fun place =>
        ∀ file mapping node, place = .inserting file mapping node → node ∈ device.nodes file)
      found mapsLive
  cases effect with
  | @opens file closed =>
    intro thread other mapping node place
    have member := mapsLive thread other mapping node place
    refine mem_nodes_setFile device member ?_
    rintro rfl
    rw [nodes, closed] at member
    exact member
  | refused => exact mapsLive
  | @releases file nodes isOpen unused =>
    intro thread other mapping node place
    have member := mapsLive thread other mapping node place
    refine mem_nodes_setFile device member ?_
    rintro rfl
    refine absurd ?_ (unused thread)
    rw [show device.threads thread = _ from place]
    rfl
  | moves enters => exact kept enters.found
  | obtains | names | givesUp => exact kept (by rintro _ _ _ ⟨⟩)
  | @adds thread file node place =>
    intro other otherFile mapping otherNode otherPlace
    have member := kept (by rintro _ _ _ ⟨⟩) other otherFile mapping otherNode otherPlace
    refine mem_nodes_setFile (device.setThread _ _) member ?_
    rintro rfl
    exact List.mem_cons_of_mem node member
  | @removes thread file cookie node place found =>
    intro other otherFile mapping otherNode otherPlace
    have member := kept (by rintro _ _ _ ⟨⟩) other otherFile mapping otherNode otherPlace
    refine mem_nodes_setFile (device.setThread _ _) member ?_
    rintro rfl
    rcases List.mem_cons.mp ((perm_listDel found).mem_iff.mp member) with rfl | stays
    case inr => exact stays
    have different : other ≠ thread := by
      rintro rfl
      simp [setThread, setFile] at otherPlace
    refine absurd ?_ (freesUnused otherFile cookie otherNode place found other mapping)
    simpa [setThread, setFile, update_of_ne different] using otherPlace

/-- A step keeps the found nodes on their lists only if it frees none of them. -/
theorem freesUnusedNodes_of_mapsLiveNodes (accounted : device.Accounted shift)
    (stepped : device.step? shift process action = some next) (mapsLive : next.MapsLiveNodes) :
    device.FreesUnusedNodes action := by
  cases action with
  | listDel thread =>
    intro file cookie node place found other mapping otherPlace
    have different : other ≠ thread := by
      rintro rfl
      rw [place] at otherPlace
      cases otherPlace
    simp only [step?, place, found, Option.some.injEq] at stepped
    subst stepped
    have member :=
      mapsLive other file mapping node (by
        simpa [setThread, setFile, update_of_ne different] using otherPlace)
    have isLeft : node ∈ listDel (device.nodes file) cookie := by
      simpa [nodes, setThread, setFile] using member
    have distinct := (separate_nodes accounted.divided).distinct file
    rw [((perm_listDel found).map _).nodup_iff, List.map_cons, List.nodup_cons] at distinct
    exact distinct.1 (List.mem_map_of_mem isLeft)
  | _ => exact trivial

/--
In every run a thread that is about to install a page has its node on the list
exactly if no `FREE_PHYS` takes away a node that another thread has found and
not yet mapped.
-/
theorem mapsLiveNodes_iff_freesUnusedNodes
    {n : Nat}
    {shift : PageShift}
    {process : Fin n → Nat}
    {mms : Nat → Option MmStruct}
    {actions : List (Action n)}
    {final : Device n}
    (accepted : run? (step? shift process) (initial n mms) actions = some final) :
    (∀ device,
      ReachedBy (step? shift process) (initial n mms) actions device → device.MapsLiveNodes) ↔
      Along (step? shift process) FreesUnusedNodes (initial n mms) actions := by
  refine forall_reachedBy_iff_along_of_invariant Accounted.step ?_
    (accounted_initial mms) ?_ accepted
  · intro device action next accounted mapsLive stepped
    exact ⟨freesUnusedNodes_of_mapsLiveNodes accounted stepped,
      fun unused => mapsLiveNodes_of_effect mapsLive unused (effect_of_step stepped)⟩
  · intro thread file mapping node place
    cases place

/--
One thread allocates a page, the other finds its node and maps it, and then the
first one frees it.
-/
def allocateMapAndFree : List (Action 2) :=
  [.sdOpen 5 true, .ioctl 0 5 (.allocPhys 1) (.allSucceed 0), .allocPages 0 (some 256),
    .kzalloc 0 true, .listAdd 0, .ioctl 1 5 (.mapPhys 0x10000 1) (.allSucceed 0), .findAlloc 1,
    .insertPage 1 .succeeds 512, .copyToUser 0 true, .leave 0,
    .ioctl 0 5 (.freePhys 1) (.allSucceed 0), .listDel 0]

/-- The node is on the list when its page is installed, and off it in the end. -/
theorem mapsLiveNodes_allocateMapAndFree :
    ∃ final, run? (step? .x86 fun _ => 0) twoThreads allocateMapAndFree = some final ∧
      final.nodes 5 = [] ∧
      ∀ device,
        ReachedBy (step? .x86 fun _ => 0) twoThreads allocateMapAndFree device →
        device.MapsLiveNodes := by
  obtain ⟨final, reached, freed⟩ :=
    exists_reached_of_check (step? .x86 fun _ => 0) twoThreads
      allocateMapAndFree (fun final => final.nodes 5 = []) (by decide +kernel)
  exact ⟨final, reached, freed,
    (mapsLiveNodes_iff_freesUnusedNodes reached).mpr (by decide +kernel)⟩

/-- The first thread frees the page before the second one installs it. -/
def freeBeforeMap : List (Action 2) :=
  [.sdOpen 5 true, .ioctl 0 5 (.allocPhys 1) (.allSucceed 0), .allocPages 0 (some 256),
    .kzalloc 0 true, .listAdd 0, .copyToUser 0 true, .leave 0,
    .ioctl 1 5 (.mapPhys 0x10000 1) (.allSucceed 0), .findAlloc 1,
    .ioctl 0 5 (.freePhys 1) (.allSucceed 0), .listDel 0]

/-- The thread stands before the insertion of a node that is on no list. -/
def mapsFreedNode (device : Device n) (thread : Fin n) : Bool :=
  match device.threads thread with
  | .inserting file _ node => node ∉ device.nodes file
  | _ => false

/--
A node is freed between its lookup and `vm_insert_page`, which then installs
whatever the freed memory holds.
-/
theorem not_mapsLiveNodes_freeBeforeMap :
    ∃ device, run? (step? .x86 fun _ => 0) twoThreads freeBeforeMap = some device ∧
      ¬ device.MapsLiveNodes ∧
      ∃ next,
        device.step? .x86 (fun _ => 0) (.insertPage 1 .succeeds 512) = some next ∧
        (next.mms 0).bind (fun mm => mm.mapped 0x10000) = some 512 := by
  obtain ⟨device, reached, freed, installs⟩ :=
    exists_reached_of_check (step? .x86 fun _ => 0) twoThreads
      freeBeforeMap
      (fun device =>
        device.mapsFreedNode 1 = true ∧
          (device.step? .x86 (fun _ => 0) (.insertPage 1 .succeeds 512)).any
            (fun next => (next.mms 0).bind (fun mm => mm.mapped 0x10000) == some 512) = true)
      (by decide +kernel)
  refine ⟨device, reached, ?_, ?_⟩
  · intro mapsLive
    rw [mapsFreedNode] at freed
    split at freed
    · rename_i file mapping node place
      exact of_decide_eq_true freed (mapsLive 1 file mapping node place)
    · cases freed
  · obtain ⟨next, stepped, isStale⟩ := (Option.any_eq_true _ _).mp installs
    exact ⟨next, stepped, by simpa using isStale⟩

end Device

end SocksDirect.ZeroCopyDevice
