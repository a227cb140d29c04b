import SocksDirect.ShmSegment

namespace SocksDirect

open Machine

/-!
# When both ends of a connection choose the same transport

The creator installs the connection when one of its polls sees `joiner_pid`.
The joiner installs it when it sees `creator_pid`, which is set in every
segment whose `magic` it accepted from a creator.  Nothing acknowledges the
joiner's store, so the ends agree exactly when the store happens on the
creator's own segment and while the creator still has a poll to come.
-/

namespace CreatorStep

/-- The creator has not created its segment yet. -/
def Unborn : CreatorStep → Prop
  | .shmOpen _ => True
  | .unlinkLeaked => True
  | _ => False

/-- The creator is past the store of `magic`, or has given up. -/
def Initialised : CreatorStep → Prop
  | .waitForPeer _ => True
  | .close _ => True
  | .finished _ => True
  | _ => False

/-- The creator has a poll of `joiner_pid` to come, or has seen it. -/
def Awaiting : CreatorStep → Prop
  | .waitForPeer _ => True
  | .finished installed => installed = true
  | _ => False

end CreatorStep

namespace JoinerStep

/-- The object the joiner has opened. -/
def object : JoinerStep → Option SegmentObject
  | .fstat object _ => some object
  | .mmap object => some object
  | .loadMagic object _ => some object
  | .checkMagic object => some object
  | .checkAbi object => some object
  | .storeJoinerPid object => some object
  | .fetchAdd object => some object
  | .waitForPeer object _ => some object
  | .close object _ => some object
  | .finished segment => segment
  | _ => none

/-- The object whose `magic` the joiner has accepted. -/
def verified : JoinerStep → Option SegmentObject
  | .checkAbi object => some object
  | .storeJoinerPid object => some object
  | .fetchAdd object => some object
  | .waitForPeer object _ => some object
  | .close object _ => some object
  | .finished segment => segment
  | _ => none

/-- The object that holds the joiner's pid, unless the joiner gave it up. -/
def joined : JoinerStep → Option SegmentObject
  | .fetchAdd object => some object
  | .waitForPeer object _ => some object
  | .finished segment => segment
  | _ => none

theorem verified_of_joined {position : JoinerStep} {object : SegmentObject}
    (joined : position.joined = some object) :
    position.verified = some object := by
  cases position <;> simp_all [JoinerStep.joined, verified]

theorem object_of_verified {position : JoinerStep} {object : SegmentObject}
    (verified : position.verified = some object) :
    position.object = some object := by
  cases position <;> simp_all [JoinerStep.verified, JoinerStep.object]

end JoinerStep

namespace SharedMemory

variable {memory : SharedMemory}

@[simp] theorem setHeader_self (object : SegmentObject) (header : SegmentHeader) :
    (memory.setHeader object header).header object = header := by
  simp [setHeader]

theorem setHeader_other {object other : SegmentObject} (different : other ≠ object)
    (header : SegmentHeader) :
    (memory.setHeader object header).header other = memory.header other := by
  simp [setHeader, different]

@[simp] theorem setHeader_name (object : SegmentObject) (header : SegmentHeader) :
    (memory.setHeader object header).name = memory.name :=
  rfl

/--
Memory as far as the agreement looks at it: an update that touches neither
`magic` nor the pids of any object and creates no name.
-/
structure SameIdentity
    (memory after : SharedMemory) : Prop where
  name : ∀ {object}, after.name = some object → memory.name = some object
  magic : ∀ object, (after.header object).magic = (memory.header object).magic
  creatorPid : ∀ object, (after.header object).creatorPid = (memory.header object).creatorPid
  joinerPid : ∀ object, (after.header object).joinerPid = (memory.header object).joinerPid

theorem SameIdentity.refl (memory : SharedMemory) : SameIdentity memory memory :=
  ⟨id, fun _ => rfl, fun _ => rfl, fun _ => rfl⟩

theorem SameIdentity.unlink (memory : SharedMemory) : SameIdentity memory memory.unlink :=
  ⟨by simp [SharedMemory.unlink], fun _ => rfl, fun _ => rfl, fun _ => rfl⟩

theorem SameIdentity.setHeader (memory : SharedMemory) (object : SegmentObject)
    {header : SegmentHeader} (magic : header.magic = (memory.header object).magic)
    (creatorPid : header.creatorPid = (memory.header object).creatorPid)
    (joinerPid : header.joinerPid = (memory.header object).joinerPid) :
    SameIdentity memory (memory.setHeader object header) := by
  refine ⟨id, ?_, ?_, ?_⟩
  all_goals
    intro other
    by_cases same : other = object
    · subst same
      simp [magic, creatorPid, joinerPid]
    · rw [setHeader_other same]

theorem close_sameIdentity (memory : SharedMemory) (role : Role) (object : SegmentObject)
    (step : CloseStep) :
    SameIdentity memory (memory.close role object step).1 := by
  cases step with
  | markClosed => cases role <;> exact .setHeader memory object rfl rfl rfl
  | fetchSub => exact .setHeader memory object rfl rfl rfl
  | unmap last =>
    cases last with
    | false => exact .refl memory
    | true => exact .unlink memory

end SharedMemory

/-- The steps of the creator outside header initialisation and polling. -/
inductive CreatorStep.Prepares : CreatorStep → CreatorStep → Prop where
  | leakFound {attempt : Nat} : Prepares (.shmOpen attempt) .unlinkLeaked
  | openFailed {attempt : Nat} : Prepares (.shmOpen attempt) (.finished false)
  | leakUnlinked : Prepares .unlinkLeaked (.shmOpen 1)
  | sized : Prepares .ftruncate .mmap
  | notSized : Prepares .ftruncate .unlinkUnsized
  | unsizedUnlinked : Prepares .unlinkUnsized (.finished false)
  | mapped : Prepares .mmap (.initialise .clear)
  | notMapped : Prepares .mmap (.finished false)
  | closing {step next : CloseStep} : Prepares (.close step) (.close next)
  | closed {step : CloseStep} : Prepares (.close step) (.finished false)

/-- The steps of the joiner around the window in which its pid is stored. -/
inductive JoinerStep.Searches
    (memory : SharedMemory) :
    JoinerStep → JoinerStep → Prop where
  | opened {attempt : Nat} {object : SegmentObject} (linked : memory.name = some object) :
      Searches memory (.shmOpen attempt) (.fstat object 0)
  | openAgain {attempt next : Nat} : Searches memory (.shmOpen attempt) (.shmOpen next)
  | openFailed {attempt : Nat} : Searches memory (.shmOpen attempt) (.finished none)
  | sizeAgain {object : SegmentObject} {round next : Nat} :
      Searches memory (.fstat object round) (.fstat object next)
  | sizeDone {object : SegmentObject} {round : Nat} :
      Searches memory (.fstat object round) (.mmap object)
  | mapped {object : SegmentObject} : Searches memory (.mmap object) (.loadMagic object 0)
  | notMapped {object : SegmentObject} : Searches memory (.mmap object) (.finished none)
  | magicAgain {object : SegmentObject} {round next : Nat} :
      Searches memory (.loadMagic object round) (.loadMagic object next)
  | magicDone {object : SegmentObject} {round : Nat} :
      Searches memory (.loadMagic object round) (.checkMagic object)
  | loadCrashed {object : SegmentObject} {round : Nat} :
      Searches memory (.loadMagic object round) .crashed
  | magicGood {object : SegmentObject} (magic : (memory.header object).magic = kShmSegmentMagic) :
      Searches memory (.checkMagic object) (.checkAbi object)
  | magicBad {object : SegmentObject} : Searches memory (.checkMagic object) (.finished none)
  | checkCrashed {object : SegmentObject} : Searches memory (.checkMagic object) .crashed
  | abiGood {object : SegmentObject} : Searches memory (.checkAbi object) (.storeJoinerPid object)
  | abiBad {object : SegmentObject} : Searches memory (.checkAbi object) (.finished none)
  | closing {object : SegmentObject} {step next : CloseStep} :
      Searches memory (.close object step) (.close object next)
  | closed {object : SegmentObject} {step : CloseStep} :
      Searches memory (.close object step) (.finished none)

section Moves

variable (pid : Int32) (memory : SharedMemory)

/-- What one step of the creator can do, up to what agreement looks at. -/
inductive CreatorMove : CreatorStep → SharedMemory → CreatorStep → Prop where
  | create {attempt : Nat} {after : SharedMemory} (fresh : after.header .created = .zero)
      (others : ∀ object, object ≠ .created → after.header object = memory.header object) :
      CreatorMove (.shmOpen attempt) after .ftruncate
  | prepare {position next : CreatorStep} {after : SharedMemory} (same : memory.SameIdentity after)
      (prepares : position.Prepares next) :
      CreatorMove position after next
  | initialise (step : InitStep) :
      CreatorMove (.initialise step) (memory.initialise pid step).1 (memory.initialise pid step).2
  | poll {step next : WaitStep} : CreatorMove (.waitForPeer step) memory (.waitForPeer next)
  | seen {step : WaitStep} (present : (memory.header .created).joinerPid ≠ 0) :
      CreatorMove (.waitForPeer step) memory (.finished true)
  | timedOut {step : WaitStep} (absent : (memory.header .created).joinerPid = 0) :
      CreatorMove (.waitForPeer step) memory (.close .markClosed)

/-- What one step of the joiner can do, up to what agreement looks at. -/
inductive JoinerMove : JoinerStep → SharedMemory → JoinerStep → Prop where
  | search {position next : JoinerStep} {after : SharedMemory} (same : memory.SameIdentity after)
      (searches : position.Searches memory next) :
      JoinerMove position after next
  | store (object : SegmentObject) : JoinerMove (.storeJoinerPid object)
        (memory.setHeader object { memory.header object with joinerPid := pid })
        (.fetchAdd object)
  | attached {after : SharedMemory} {object : SegmentObject} (same : memory.SameIdentity after) :
      JoinerMove (.fetchAdd object) after (.waitForPeer object (.first 200))
  | poll {object : SegmentObject} {step next : WaitStep} :
      JoinerMove (.waitForPeer object step) memory (.waitForPeer object next)
  | seen {object : SegmentObject} {step : WaitStep}
      (present : (memory.header object).creatorPid ≠ 0) :
      JoinerMove (.waitForPeer object step) memory (.finished (some object))
  | timedOut {object : SegmentObject} {step : WaitStep}
      (absent : (memory.header object).creatorPid = 0) :
      JoinerMove (.waitForPeer object step) memory (.close object .markClosed)

end Moves

theorem WaitStep.step_returned {peerPid : Int32} {step : WaitStep} {present : Bool}
    (returned : step.step peerPid = .returned present) :
    present = decide (peerPid ≠ 0) := by
  revert returned
  fun_cases WaitStep.step with rintro ⟨⟩
  | _ => simp_all

/-- Every step of the creator is one of the listed moves. -/
theorem SharedMemory.creatorStep?_move {memory after : SharedMemory} {pid : Int32} {ok : Bool}
    {position next : CreatorStep}
    (accepted : memory.creatorStep? pid ok position = some (after, next)) :
    CreatorMove pid memory position after next := by
  revert accepted
  fun_cases creatorStep? with (intro accepted; try cases accepted)
  | case1 attempt =>
    revert accepted
    fun_cases creatorOpen with rintro ⟨⟩
    | case1 => exact .create (by simp) fun object other => by simp [other]
    | case2 => exact .prepare (.refl memory) .leakFound
    | case3 | case4 => exact .prepare (.refl memory) .openFailed
  | case2 => exact .prepare (.unlink memory) .leakUnlinked
  | case3 => exact .prepare ⟨id, fun _ => rfl, fun _ => rfl, fun _ => rfl⟩ .sized
  | case4 => exact .prepare (.refl memory) .notSized
  | case5 => exact .prepare (.unlink memory) .unsizedUnlinked
  | case6 => exact .prepare (.refl memory) .mapped
  | case7 => exact .prepare (.refl memory) .notMapped
  | case8 step =>
    have move := (CreatorMove.initialise step : CreatorMove pid memory _ _ _)
    rwa [Option.some.inj accepted] at move
  | case9 => exact .poll
  | case10 step returned => exact .seen (of_decide_eq_true (WaitStep.step_returned returned).symm)
  | case11 step returned =>
    exact .timedOut (not_not.mp (of_decide_eq_false (WaitStep.step_returned returned).symm))
  | case12 step closed next closing =>
    have same := memory.close_sameIdentity .creator .created step
    rw [closing] at same
    exact .prepare same .closing
  | case13 step closed closing =>
    have same := memory.close_sameIdentity .creator .created step
    rw [closing] at same
    exact .prepare same .closed

/-- Every step of the joiner is one of the listed moves. -/
theorem SharedMemory.joinerStep?_move {memory after : SharedMemory} {pid : Int32} {ok : Bool}
    {position next : JoinerStep}
    (accepted : memory.joinerStep? pid ok position = some (after, next)) :
    JoinerMove pid memory position after next := by
  revert accepted
  fun_cases joinerStep? with rintro ⟨⟩
  | case1 attempt =>
    fun_cases joinerOpen with
    | case1 ok object linked => exact .search (.refl memory) (.opened linked)
    | case2 => exact .search (.refl memory) .openAgain
    | case3 | case4 => exact .search (.refl memory) .openFailed
  | case2 | case4 => exact .search (.refl memory) .sizeDone
  | case3 => exact .search (.refl memory) .sizeAgain
  | case5 => exact .search (.refl memory) .mapped
  | case6 => exact .search (.refl memory) .notMapped
  | case7 | case9 => exact .search (.refl memory) .magicDone
  | case8 => exact .search (.refl memory) .magicAgain
  | case10 => exact .search (.refl memory) .loadCrashed
  | case11 object sized magic => exact .search (.refl memory) (.magicGood magic)
  | case12 => exact .search (.refl memory) .magicBad
  | case13 => exact .search (.refl memory) .checkCrashed
  | case14 => exact .search (.refl memory) .abiGood
  | case15 => exact .search (.refl memory) .abiBad
  | case16 object => exact .store object
  | case17 object => exact .attached (.setHeader memory object rfl rfl rfl)
  | case18 => exact .poll
  | case19 object step returned =>
    exact .seen (of_decide_eq_true (WaitStep.step_returned returned).symm)
  | case20 object step returned =>
    exact .timedOut (not_not.mp (of_decide_eq_false (WaitStep.step_returned returned).symm))
  | case21 object step closed next closing =>
    have same := memory.close_sameIdentity .joiner object step
    rw [closing] at same
    exact .search same .closing
  | case22 object step closed closing =>
    have same := memory.close_sameIdentity .joiner object step
    rw [closing] at same
    exact .search same .closed

namespace Attachment

/-- What holds in every state of an attachment. -/
structure Invariant (attachment : Attachment) : Prop where
  unborn : attachment.creator.Unborn →
    attachment.memory.name ≠ some .created ∧ attachment.joiner.object ≠ some .created
  creatorPidStored :
    attachment.creator = .initialise .refcount ∨ attachment.creator = .initialise .magic →
    (attachment.memory.header .created).creatorPid ≠ 0
  magicLast : (attachment.memory.header .created).magic = kShmSegmentMagic →
    attachment.creator.Initialised ∧ (attachment.memory.header .created).creatorPid ≠ 0
  verified : ∀ {object}, attachment.joiner.verified = some object →
      (attachment.memory.header object).magic = kShmSegmentMagic
  joinerPidStored :
    (attachment.memory.header .created).joinerPid ≠ 0 ↔ attachment.joiner.joined = some .created
  creatorSeen : attachment.creator = .finished true →
    (attachment.memory.header .created).joinerPid ≠ 0
  joinerSeen : ∀ {object}, attachment.joiner = .finished (some object) →
      (attachment.memory.header object).creatorPid ≠ 0

section Invariant

variable {pid : Role → ProcessId} {attachment : Attachment}

theorem Invariant.initial (leaked : Option (Bool × SegmentHeader)) :
    (Attachment.initial leaked).Invariant where
  unborn := by
    intro _
    refine ⟨?_, by simp [Attachment.initial, JoinerStep.object]⟩
    cases leaked <;> simp [Attachment.initial]
  creatorPidStored := by simp [Attachment.initial]
  magicLast := by
    intro magic
    have unset : (0 : UInt32) ≠ kShmSegmentMagic := by decide
    exact absurd magic unset
  verified := by simp [Attachment.initial, JoinerStep.verified]
  joinerPidStored := by simp [Attachment.initial, SegmentHeader.zero, JoinerStep.joined]
  creatorSeen := by simp [Attachment.initial]
  joinerSeen := by simp [Attachment.initial]

theorem Invariant.joiner_not_verified (invariant : attachment.Invariant)
    (notInitialised : ¬ attachment.creator.Initialised) :
    attachment.joiner.verified ≠ some .created := by
  intro verified
  exact notInitialised (invariant.magicLast (invariant.verified verified)).1

theorem Invariant.joinerPid_eq_zero (invariant : attachment.Invariant)
    (notVerified : attachment.joiner.verified ≠ some .created) :
    (attachment.memory.header .created).joinerPid = 0 := by
  by_contra stored
  exact notVerified (JoinerStep.verified_of_joined (invariant.joinerPidStored.mp stored))

variable {after : SharedMemory} {next : CreatorStep}

section

variable (invariant : attachment.Invariant)

include invariant

/-- A creator step that leaves `magic` and the pids alone. -/
private theorem Invariant.creatorSame (same : attachment.memory.SameIdentity after)
    (unborn : next.Unborn → attachment.creator.Unborn)
    (notStoring : next ≠ .initialise .refcount ∧ next ≠ .initialise .magic)
    (initialised : attachment.creator.Initialised → next.Initialised)
    (seen : next = .finished true → (attachment.memory.header .created).joinerPid ≠ 0) :
    Invariant { attachment with memory := after, creator := next } where
  unborn := by
    intro isUnborn
    obtain ⟨notLinked, notOpened⟩ := invariant.unborn (unborn isUnborn)
    exact ⟨fun linked => notLinked (same.name linked), notOpened⟩
  creatorPidStored := by
    intro storing
    exact absurd storing (not_or.mpr notStoring)
  magicLast := by
    intro magic
    simp only [same.magic, same.creatorPid] at magic ⊢
    exact (invariant.magicLast magic).imp_left initialised
  verified := by
    intro object verified
    simp only [same.magic]
    exact invariant.verified verified
  joinerPidStored := by
    simp only [same.joinerPid]
    exact invariant.joinerPidStored
  creatorSeen := by
    intro finished
    simp only [same.joinerPid]
    exact seen finished
  joinerSeen := by
    intro object finished
    simp only [same.creatorPid]
    exact invariant.joinerSeen finished

/-- A creator step that rewrites its header while nobody has joined it. -/
private theorem Invariant.creatorWrites (notVerified : attachment.joiner.verified ≠ some .created)
    (others : ∀ object, object ≠ .created → after.header object = attachment.memory.header object)
    (joinerPid : (after.header .created).joinerPid = 0) (born : ¬ next.Unborn)
    (creatorPid : next = .initialise .refcount ∨ next = .initialise .magic →
      (after.header .created).creatorPid ≠ 0)
    (magicLast : (after.header .created).magic = kShmSegmentMagic →
      next.Initialised ∧ (after.header .created).creatorPid ≠ 0)
    (notSeen : next ≠ .finished true) :
    Invariant { attachment with memory := after, creator := next } where
  unborn := fun isUnborn => absurd isUnborn born
  creatorPidStored := creatorPid
  magicLast := magicLast
  verified := by
    intro object verified
    have other : object ≠ .created := by
      rintro rfl
      exact notVerified verified
    simp only [others object other]
    exact invariant.verified verified
  joinerPidStored := by
    refine iff_of_false (fun stored => stored joinerPid) ?_
    intro joined
    exact notVerified (JoinerStep.verified_of_joined joined)
  creatorSeen := fun finished => absurd finished notSeen
  joinerSeen := by
    intro object finished
    have verified : attachment.joiner.verified = some object := by
      simp only at finished
      simp [finished, JoinerStep.verified]
    have other : object ≠ .created := by
      rintro rfl
      exact notVerified verified
    simp only [others object other]
    exact invariant.joinerSeen finished

/-- Steps of the creator keep the invariant. -/
theorem Invariant.creatorMove
    (move : CreatorMove (pid .creator).value attachment.memory attachment.creator after next) :
    Invariant { attachment with memory := after, creator := next } := by
  generalize standing : attachment.creator = position at move
  cases move with
  | create fresh others =>
    have notOpened := (invariant.unborn (by simp [standing, CreatorStep.Unborn])).2
    refine invariant.creatorWrites
      (fun verified => notOpened (JoinerStep.object_of_verified verified))
      others (by rw [fresh]; rfl) (by simp [CreatorStep.Unborn])
      (by simp) ?_ (by simp)
    rw [fresh]
    exact fun magic => absurd magic (by decide)
  | prepare same prepares =>
    cases prepares <;>
      exact invariant.creatorSame same
        (by simp [standing, CreatorStep.Unborn]) (by simp)
        (by simp [standing, CreatorStep.Initialised]) (by simp)
  | initialise step =>
    have notInitialised : ¬ attachment.creator.Initialised := by
      simp [standing, CreatorStep.Initialised]
    have notVerified := invariant.joiner_not_verified notInitialised
    have noPid := invariant.joinerPid_eq_zero notVerified
    have noMagic : (attachment.memory.header .created).magic ≠
          kShmSegmentMagic :=
      fun magic => notInitialised (invariant.magicLast magic).1
    have others
        (header : SegmentHeader)
        (object : SegmentObject)
        (other : object ≠ .created) :
        (attachment.memory.setHeader .created header).header object =
          attachment.memory.header object :=
      SharedMemory.setHeader_other other header
    have stored := invariant.creatorPidStored
    cases step with
    | clear =>
      refine invariant.creatorWrites notVerified (others _)
        (by simp [SharedMemory.initialise, SegmentHeader.zero])
        (by simp [SharedMemory.initialise, CreatorStep.Unborn])
        (by simp [SharedMemory.initialise]) ?_
        (by simp [SharedMemory.initialise])
      simp only [SharedMemory.initialise, SharedMemory.setHeader_self]
      exact fun magic => absurd magic (by decide)
    | _ =>
      refine invariant.creatorWrites notVerified (others _) ?_ ?_ ?_ ?_ ?_ <;>
        simp_all [SharedMemory.initialise, CreatorStep.Unborn, CreatorStep.Initialised,
          (pid .creator).nonzero]
  | poll | timedOut =>
    exact invariant.creatorSame (.refl _)
      (by simp [CreatorStep.Unborn]) (by simp)
      (by simp [CreatorStep.Initialised]) (by simp)
  | seen present =>
    exact invariant.creatorSame (.refl _)
      (by simp [CreatorStep.Unborn]) (by simp)
      (by simp [CreatorStep.Initialised]) (fun _ => present)

/-- A joiner step that leaves `magic` and the pids alone. -/
private theorem Invariant.joinerSame {next : JoinerStep}
    (same : attachment.memory.SameIdentity after)
    (opened : next.object = some .created →
      attachment.joiner.object = some .created ∨ attachment.memory.name = some .created)
    (verified : ∀ {object}, next.verified = some object →
      (attachment.memory.header object).magic = kShmSegmentMagic)
    (joined : next.joined = some .created ↔ attachment.joiner.joined = some .created)
    (seen : ∀ {object}, next = .finished (some object) →
      (attachment.memory.header object).creatorPid ≠ 0) :
    Invariant { attachment with memory := after, joiner := next } where
  unborn := by
    intro isUnborn
    obtain ⟨notLinked, notOpened⟩ := invariant.unborn isUnborn
    refine ⟨fun linked => notLinked (same.name linked), ?_⟩
    intro openedNow
    exact (opened openedNow).elim notOpened notLinked
  creatorPidStored := by
    simp only [same.creatorPid]
    exact invariant.creatorPidStored
  magicLast := by
    simp only [same.magic, same.creatorPid]
    exact invariant.magicLast
  verified := by
    intro object isVerified
    simp only [same.magic]
    exact verified isVerified
  joinerPidStored := by
    simp only [same.joinerPid, joined]
    exact invariant.joinerPidStored
  creatorSeen := by
    simp only [same.joinerPid]
    exact invariant.creatorSeen
  joinerSeen := by
    intro object finished
    simp only [same.creatorPid]
    exact seen finished

theorem Invariant.creatorPid_of_verified (verified : attachment.joiner.verified = some .created) :
    (attachment.memory.header .created).creatorPid ≠ 0 :=
  (invariant.magicLast (invariant.verified verified)).2

/-- Steps of the joiner keep the invariant. -/
theorem Invariant.joinerMove {next : JoinerStep}
    (move : JoinerMove (pid .joiner).value attachment.memory attachment.joiner after next) :
    Invariant { attachment with memory := after, joiner := next } := by
  generalize standing : attachment.joiner = position at move
  cases move with
  | search same searches =>
    have wasVerified := @invariant.verified
    cases searches <;>
      refine invariant.joinerSame same ?_ ?_ ?_ ?_ <;>
      simp_all [JoinerStep.object, JoinerStep.verified, JoinerStep.joined]
  | store object =>
    have notJoined : (attachment.memory.header .created).joinerPid = 0 := by
      by_contra stored
      have joined := invariant.joinerPidStored.mp stored
      simp [standing, JoinerStep.joined] at joined
    have header (other : SegmentObject) : (attachment.memory.setHeader object
            { attachment.memory.header object with joinerPid := (pid .joiner).value }).header
          other = if other = object then
            { attachment.memory.header other with joinerPid := (pid .joiner).value }
          else
            attachment.memory.header other := by
      by_cases same : other = object
      · subst same
        simp
      · simp [SharedMemory.setHeader_other same, same]
    exact {
      unborn := by
        intro isUnborn
        have outside := invariant.unborn isUnborn
        simpa [standing, JoinerStep.object] using outside
      creatorPidStored := by
        intro storing
        have stored := invariant.creatorPidStored storing
        simp only [header]
        split <;> exact stored
      magicLast := by
        have magicLast := invariant.magicLast
        simp only [header]
        split <;> exact magicLast
      verified := by
        intro other verified
        simp only [header]
        have magic := invariant.verified (by rw [standing]; exact verified)
        split <;> exact magic
      joinerPidStored := by
        simp only [header, JoinerStep.joined]
        split
        · rename_i same
          simp [same, (pid .joiner).nonzero]
        · rename_i different
          simp [notJoined, Ne.symm different]
      creatorSeen := by
        intro finished
        exact absurd notJoined (invariant.creatorSeen finished)
      joinerSeen := by simp }
  | attached same =>
    exact invariant.joinerSame same (by rw [standing]; exact .inl)
      (fun verified => invariant.verified (standing ▸ verified))
      (by simp [standing, JoinerStep.joined]) (by simp)
  | poll =>
    exact invariant.joinerSame (.refl _) (by rw [standing]; exact .inl)
      (fun verified => invariant.verified (standing ▸ verified))
      (by simp [standing, JoinerStep.joined]) (by simp)
  | seen present =>
    exact invariant.joinerSame (.refl _) (by rw [standing]; exact .inl)
      (fun verified => invariant.verified (standing ▸ verified))
      (by simp [standing, JoinerStep.joined]) (by simp_all)
  | @timedOut object step absent =>
    have notCreated : object ≠ .created := by
      rintro rfl
      exact invariant.creatorPid_of_verified (by simp [standing, JoinerStep.verified]) absent
    exact invariant.joinerSame (.refl _) (by rw [standing]; exact .inl)
      (fun verified => invariant.verified (standing ▸ verified))
      (by simp [standing, JoinerStep.joined, notCreated]) (by simp)

theorem Invariant.step {next : Attachment} {action : AttachAction}
    (accepted : attachment.step? pid action = some next) :
    next.Invariant := by
  unfold step? at accepted
  split at accepted
  · obtain ⟨⟨after, position⟩, stepped, rfl⟩ := Option.map_eq_some_iff.mp accepted
    exact invariant.creatorMove (SharedMemory.creatorStep?_move stepped)
  · obtain ⟨⟨after, position⟩, stepped, rfl⟩ := Option.map_eq_some_iff.mp accepted
    exact invariant.joinerMove (SharedMemory.joinerStep?_move stepped)

end

end Invariant

/--
A joiner that will install the connection is on the creator's segment, and the
creator sees it or has seen it.
-/
def InTime (attachment : Attachment) : Prop :=
  ∀ object, attachment.joiner.joined = some object →
    (attachment.memory.header object).creatorPid ≠ 0 →
    object = .created ∧ attachment.creator.Awaiting

/--
The condition on a step: when the joiner stores its pid into a segment that has
a creator, it is the segment of this creator, who is still in `wait_for_peer`.
-/
def StoresInTime (attachment : Attachment) (action : AttachAction) : Prop :=
  ∀ object, action.role = .joiner → attachment.joiner = .storeJoinerPid object →
    (attachment.memory.header object).creatorPid ≠ 0 →
    object = .created ∧ ∃ step, attachment.creator = .waitForPeer step

section InTime

variable {pid : Role → ProcessId} {attachment : Attachment}

private theorem initialise_other {memory : SharedMemory} {creatorPid : Int32} {step : InitStep}
    {object : SegmentObject} (other : object ≠ .created) :
    (memory.initialise creatorPid step).1.header object = memory.header object := by
  cases step <;> exact SharedMemory.setHeader_other other _

variable {after : SharedMemory} {next : CreatorStep}

section

variable (invariant : attachment.Invariant)
variable (move : CreatorMove (pid .creator).value attachment.memory attachment.creator after next)

include invariant move

/-- A creator step leaves the pid of a joined segment's creator alone. -/
private theorem Invariant.creatorMove_creatorPid {object : SegmentObject}
    (joined : attachment.joiner.joined = some object) :
    (after.header object).creatorPid = (attachment.memory.header object).creatorPid := by
  have verified := JoinerStep.verified_of_joined joined
  generalize standing : attachment.creator = position at move
  cases move with
  | create fresh others =>
    have notOpened := (invariant.unborn (by simp [standing, CreatorStep.Unborn])).2
    rw [others object]
    rintro rfl
    exact notOpened (JoinerStep.object_of_verified verified)
  | prepare same prepares => exact same.creatorPid object
  | initialise step =>
    have notVerified := invariant.joiner_not_verified (by simp [standing, CreatorStep.Initialised])
    rw [initialise_other]
    rintro rfl
    exact notVerified verified
  | poll | seen present | timedOut absent => rfl

/-- A creator whose segment is joined neither stops nor starts to see it. -/
private theorem Invariant.creatorMove_awaiting (joined : attachment.joiner.joined = some .created) :
    next.Awaiting ↔ attachment.creator.Awaiting := by
  have verified := JoinerStep.verified_of_joined joined
  generalize standing : attachment.creator = position at move
  cases move with
  | create fresh others =>
    have notOpened := (invariant.unborn (by simp [standing, CreatorStep.Unborn])).2
    exact absurd (JoinerStep.object_of_verified verified) notOpened
  | prepare same prepares => cases prepares <;> simp [CreatorStep.Awaiting]
  | initialise step =>
    have notVerified := invariant.joiner_not_verified (by simp [standing, CreatorStep.Initialised])
    exact absurd verified notVerified
  | poll | seen present => simp [CreatorStep.Awaiting]
  | timedOut absent => exact absurd absent (invariant.joinerPidStored.mpr joined)

theorem Invariant.creatorMove_inTime : InTime { attachment with memory := after, creator := next } ↔
      attachment.InTime := by
  refine forall_congr' fun object => forall_congr' fun joined => ?_
  have sameCreatorPid := invariant.creatorMove_creatorPid move joined
  simp only [sameCreatorPid]
  refine imp_congr_right fun hasCreator => and_congr_right ?_
  rintro rfl
  exact invariant.creatorMove_awaiting move joined

end

/-- A step of the joiner keeps it in time exactly if it stores in time. -/
theorem Invariant.joinerMove_inTime (invariant : attachment.Invariant) {ok : Bool}
    {next : JoinerStep}
    (move : JoinerMove (pid .joiner).value attachment.memory attachment.joiner after next) :
    InTime { attachment with memory := after, joiner := next } ↔
      attachment.InTime ∧ attachment.StoresInTime ⟨.joiner, ok⟩ := by
  generalize standing : attachment.joiner = position at move
  cases move with
  | search same searches =>
    cases searches <;>
      simp [InTime, StoresInTime, standing, JoinerStep.joined]
  | store object =>
    have waiting :
        attachment.creator.Awaiting ↔ ∃ step, attachment.creator = .waitForPeer step := by
      cases creator : attachment.creator with
      | finished installed =>
        simp only [CreatorStep.Awaiting, reduceCtorEq, exists_false, iff_false]
        rintro rfl
        have joined := invariant.joinerPidStored.mp (invariant.creatorSeen creator)
        simp [standing, JoinerStep.joined] at joined
      | _ => simp [CreatorStep.Awaiting]
    simp [InTime, StoresInTime, standing, JoinerStep.joined, waiting]
  | attached same => simp [InTime, StoresInTime, standing, JoinerStep.joined, same.creatorPid]
  | poll | seen present => simp [InTime, StoresInTime, standing, JoinerStep.joined]
  | timedOut absent => simp [InTime, StoresInTime, standing, JoinerStep.joined, absent]

theorem Invariant.step_inTime {next : Attachment} {action : AttachAction}
    (invariant : attachment.Invariant) (accepted : attachment.step? pid action = some next) :
    next.InTime ↔ attachment.InTime ∧ attachment.StoresInTime action := by
  obtain ⟨role, ok⟩ := action
  cases role with
  | creator =>
    obtain ⟨⟨after, position⟩, stepped, rfl⟩ := Option.map_eq_some_iff.mp accepted
    rw [invariant.creatorMove_inTime (SharedMemory.creatorStep?_move stepped)]
    simp [StoresInTime]
  | joiner =>
    obtain ⟨⟨after, position⟩, stepped, rfl⟩ := Option.map_eq_some_iff.mp accepted
    exact invariant.joinerMove_inTime (SharedMemory.joinerStep?_move stepped)

/-- When both ends have finished, they agree exactly if the joiner was in time. -/
theorem Invariant.agree_iff_inTime (invariant : attachment.Invariant) {installed : Bool}
    {segment : Option SegmentObject} (creatorDone : attachment.creator = .finished installed)
    (joinerDone : attachment.joiner = .finished segment) :
    (installed = true ↔ segment.isSome = true) ↔ attachment.InTime := by
  have joined : attachment.joiner.joined = segment := by simp [joinerDone, JoinerStep.joined]
  have awaiting : attachment.creator.Awaiting ↔ installed = true := by
    simp [creatorDone, CreatorStep.Awaiting]
  have onSegment (creatorInstalled : installed = true) : segment = some .created := by
    rw [← joined]
    exact invariant.joinerPidStored.mp (invariant.creatorSeen (creatorInstalled ▸ creatorDone))
  constructor
  · intro agree object isJoined hasCreator
    rw [joined] at isJoined
    have creatorInstalled : installed = true := agree.mpr (by simp [isJoined])
    have same := onSegment creatorInstalled
    rw [isJoined, Option.some.injEq] at same
    exact ⟨same, awaiting.mpr creatorInstalled⟩
  · intro inTime
    constructor
    · intro creatorInstalled
      simp [onSegment creatorInstalled]
    · intro isSome
      obtain ⟨object, isJoined⟩ := Option.isSome_iff_exists.mp isSome
      have hasCreator := invariant.joinerSeen (joinerDone.trans (congrArg _ isJoined))
      exact awaiting.mp (inTime object (joined.trans isJoined) hasCreator).2

end InTime

/--
Both ends end on the same transport exactly in the runs in which the joiner
stores its pid into the creator's segment while the creator is still waiting
for it, unless that segment never had a creator.
-/
theorem same_transport_iff
    (pid : Role → ProcessId)
    (leaked : Option (Bool × SegmentHeader))
    {actions : List AttachAction}
    {final : Attachment}
    (reached : run? (step? pid) (initial leaked) actions = some final)
    {installed : Bool}
    {segment : Option SegmentObject}
    (creatorDone : final.creator = .finished installed)
    (joinerDone : final.joiner = .finished segment) :
    (installed = true ↔ segment.isSome = true) ↔
      Along (step? pid) StoresInTime (initial leaked) actions := by
  have initially := Invariant.initial leaked
  have atEnd : final.Invariant :=
    invariant_of_run initially (fun before accepted => before.step accepted) reached
  have startsInTime : (initial leaked).InTime := by simp [InTime, initial, JoinerStep.joined]
  rw [atEnd.agree_iff_inTime creatorDone joinerDone, good_iff_along
      (fun before accepted => before.step accepted)
      (fun before accepted => before.step_inTime accepted)
      initially reached]
  exact and_iff_right startsInTime

/-- The two processes of the traces below. -/
def examplePid : Role → ProcessId
  | .creator => ⟨100, by decide⟩
  | .joiner => ⟨200, by decide⟩

/-- Successful steps of one end. -/
private def steps (role : Role) (count : Nat) : List AttachAction :=
  List.replicate count ⟨role, true⟩

/-- The joiner stores its pid before the creator's first poll. -/
def promptTrace : List AttachAction := steps .creator 8 ++ steps .joiner 9 ++ steps .creator 1

/-- The prompt run stores in time, and both ends install the connection. -/
theorem same_transport_iff_prompt :
    ∃ final, run? (step? examplePid) (initial none) promptTrace = some final ∧
      final.creator = .finished true ∧
      final.joiner = .finished (some .created) ∧
      Along (step? examplePid) StoresInTime (initial none) promptTrace := by
  obtain ⟨final, reached, creatorDone, joinerDone⟩ :=
    exists_reached_of_check
      (step? examplePid) (initial none) promptTrace
      (fun final => final.creator = .finished true ∧ final.joiner = .finished (some .created))
      (by decide +kernel)
  exact ⟨final, reached, creatorDone, joinerDone,
    (same_transport_iff examplePid none reached creatorDone joinerDone).mp (by simp)⟩

/--
The joiner has checked the header when the creator polls for the last time; it
stores its pid afterwards and goes on.
-/
def lateTrace : List AttachAction :=
  steps .creator 8 ++ steps .joiner 6 ++ steps .creator 13 ++ steps .joiner 3 ++ steps .creator 3

/-- In the late run the joiner installs the connection and the creator does not. -/
theorem different_transports_when_late :
    ∃ final, run? (step? examplePid) (initial none) lateTrace = some final ∧
      final.creator = .finished false ∧
      final.joiner = .finished (some .created) :=
  exists_reached_of_check
    (step? examplePid) (initial none) lateTrace
    (fun final => final.creator = .finished false ∧ final.joiner = .finished (some .created))
    (by decide +kernel)

/--
In every interleaving: a creator that has installed the connection has a joiner
on its own segment, so that the ends differ in the other way only, and a joiner
installs no segment but one whose header has been completed.
-/
theorem creator_never_alone
    (pid : Role → ProcessId)
    (leaked : Option (Bool × SegmentHeader))
    {actions : List AttachAction}
    {final : Attachment}
    (reached : run? (step? pid) (initial leaked) actions = some final) :
    (final.creator = .finished true → final.joiner.joined = some .created) ∧
      ∀ object,
        final.joiner = .finished (some object) →
        (final.memory.header object).magic = kShmSegmentMagic ∧
        (final.memory.header object).creatorPid ≠ 0 := by
  have invariant : final.Invariant :=
    invariant_of_run (Invariant.initial leaked) (fun before accepted => before.step accepted)
      reached
  refine ⟨?_, ?_⟩
  · intro installed
    exact invariant.joinerPidStored.mp (invariant.creatorSeen installed)
  · intro object installed
    have verified : final.joiner.verified = some object := by rw [installed, JoinerStep.verified]
    exact ⟨invariant.verified verified, invariant.joinerSeen installed⟩

/--
In the prompt run the creator installs the connection and has its joiner; in the
late run the header of the joiner's segment is complete.
-/
theorem creator_never_alone_late :
    (∃ final,
      run? (step? examplePid) (initial none) promptTrace = some final ∧
      final.creator = .finished true ∧
      final.joiner.joined = some .created) ∧
      ∃ final,
        run? (step? examplePid) (initial none) lateTrace = some final ∧
        final.joiner = .finished (some .created) ∧
        (final.memory.header .created).magic = kShmSegmentMagic := by
  constructor
  · obtain ⟨final, reached, installed⟩ :=
      exists_reached_of_check (step? examplePid) (initial none) promptTrace
        (fun final => final.creator = .finished true) (by decide +kernel)
    exact ⟨final, reached, installed, (creator_never_alone examplePid none reached).1 installed⟩
  · obtain ⟨final, reached, joined⟩ :=
      exists_reached_of_check (step? examplePid) (initial none) lateTrace
        (fun final => final.joiner = .finished (some .created)) (by decide +kernel)
    exact ⟨final, reached, joined, ((creator_never_alone examplePid none reached).2 _ joined).1⟩

end Attachment

end SocksDirect
