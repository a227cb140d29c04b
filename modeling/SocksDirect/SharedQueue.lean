import SocksDirect.LocklessQueue

namespace SocksDirect

open Function

open TombstoneRing

/-!
# The element queue, call by call

The functions of `locklessqueue_t` as they are used between two processes whose
calls do not overlap.  Besides `push_nb`, `pop_nb`, `peek` and `del` there are
`set`, which replaces an element in place, and a queue whose credits are
disabled, on which `push_nb` does not ask for room.

Between two calls the ring holds what has been pushed and not given back, and
the element at the receiver's pointer, if any, is not deleted.
-/

/-- The shared memory of a queue and the private words of its two ends. -/
structure SharedQueue (size : QueueSize) (Data : Type) where
  ringbuffer : Nat → Slot Data
  returnFlag : Bool
  sender : QueueEnd
  receiver : QueueEnd
  creditDisabled : Bool
  history : History Nat Data

namespace SharedQueue

variable {size : QueueSize} {Data : Type}

/-- The part of `push_nb` after the test for credits. -/
def write (queue : SharedQueue size Data) (data : Data) : SharedQueue size Data :=
  let localPtr := size.cell queue.sender.pointer
  { queue with
    ringbuffer := update queue.ringbuffer localPtr { data := data, isvalid := true, isdel := false }
    sender := { pointer := queue.sender.pointer + 1, credits := queue.sender.credits - 1 }
    history := queue.history.push localPtr data }

/-- The sender consumes the return flag. -/
def refill (queue : SharedQueue size Data) : SharedQueue size Data :=
  { queue with
    returnFlag := false
    sender := { queue.sender with credits := queue.sender.credits + size.creditsPerReturn } }

/-- `push_nb`; there is no result when the call returns `false`. -/
def pushNb? (queue : SharedQueue size Data) (data : Data) : Option (SharedQueue size Data) :=
  if queue.creditDisabled = false ∧ queue.sender.credits = 0 then
    if queue.returnFlag then some (queue.refill.write data) else none
  else
    some (queue.write data)

/-- `peek`: the validity flag, the deletion mark and the element. -/
def peek (queue : SharedQueue size Data) (loc : UInt32) : Bool × Bool × Data :=
  let element := queue.ringbuffer (size.cell loc)
  (element.isvalid, element.isdel, element.data)

/-- `set`: replace the element, keep its validity flag and deletion mark. -/
def set (queue : SharedQueue size Data) (loc : UInt32) (data : Data) : SharedQueue size Data :=
  let cell := size.cell loc
  { queue with
    ringbuffer := update queue.ringbuffer cell { queue.ringbuffer cell with data := data }
    history := queue.history.rewrite (queue.history.serial cell) data }

/-- The body of the loop in `del`. -/
def releaseFront (queue : SharedQueue size Data) : SharedQueue size Data :=
  let front := size.cell queue.receiver.pointer
  let credits := queue.receiver.credits + 1
  let full := decide (credits = size.creditsPerReturn)
  { queue with
    ringbuffer := update queue.ringbuffer front { queue.ringbuffer front with isvalid := false }
    returnFlag := queue.returnFlag || full
    receiver := { pointer := queue.receiver.pointer + 1, credits := if full then 0 else credits }
    history := queue.history.release }

/-- The loop of `del`; every iteration gives one of the slots back. -/
def releaseLoop : Nat → SharedQueue size Data → SharedQueue size Data
  | 0, queue => queue
  | fuel + 1, queue =>
    let element := queue.ringbuffer (size.cell queue.receiver.pointer)
    if element.isvalid ∧ element.isdel then releaseLoop fuel queue.releaseFront else queue

/-- The first store of `del`.  `inOrder` tells a `pop_nb` from a `del`. -/
def markDel (queue : SharedQueue size Data) (loc : UInt32)
    (inOrder : Bool) : SharedQueue size Data :=
  let cell := size.cell loc
  { queue with
    ringbuffer := update queue.ringbuffer cell { queue.ringbuffer cell with isdel := true }
    history := queue.history.take cell (queue.ringbuffer cell).data inOrder }

/-- `del`. -/
def del (queue : SharedQueue size Data) (loc : UInt32) (inOrder : Bool) : SharedQueue size Data :=
  let marked := queue.markDel loc inOrder
  if loc &&& size.mask = queue.receiver.pointer &&& size.mask then
    releaseLoop (size.slots + 1) marked
  else
    marked

/-- `pop_nb`; there is no result when the call returns `false`. -/
def popNb? (queue : SharedQueue size Data) : Option (Data × SharedQueue size Data) :=
  let localPtr := queue.receiver.pointer &&& size.mask
  let element := queue.ringbuffer (size.cell localPtr)
  if element.isvalid then some (element.data, queue.del localPtr true) else none

/-- The undeleted elements met from a pointer to the first invalid slot. -/
def contentsFrom (queue : SharedQueue size Data) : Nat → UInt32 → List Data
  | 0, _ => []
  | steps + 1, pointer =>
    let slot := queue.ringbuffer (size.cell pointer)
    if slot.isvalid then
      if slot.isdel then
        queue.contentsFrom steps (pointer + 1)
      else
        slot.data :: queue.contentsFrom steps (pointer + 1)
    else
      []

/-- The elements that the queue holds for its receiver. -/
def contents (queue : SharedQueue size Data) : List Data :=
  queue.contentsFrom size.slots queue.receiver.pointer

/-- Ring, history and pointers agree. -/
structure Consistent (queue : SharedQueue size Data) : Prop where
  held : Holds size.place size.slots queue.ringbuffer queue.history
  senderPointer : queue.sender.pointer = UInt32.ofNat queue.history.sent.length
  receiverPointer : queue.receiver.pointer = UInt32.ofNat queue.history.released

/-- What holds of a queue between two calls. -/
structure Sound (queue : SharedQueue size Data) : Prop
    extends Consistent queue where
  present : queue.history.HeadPresent

/-- The account of the credits of a queue between two calls. -/
structure Balanced (queue : SharedQueue size Data) : Prop where
  account : queue.sender.credits.toNat + queue.history.sent.length +
        queue.receiver.credits.toNat +
        size.flagCredits queue.returnFlag = size.slots + queue.history.released
  counted : queue.receiver.credits.toNat < size.creditsPerReturn.toNat

/-- A `del` moves the front but changes neither elements nor their removals. -/
structure SameElements (before after : History Nat Data) : Prop where
  sent : after.sent = before.sent
  serial : after.serial = before.serial
  taken : after.taken = before.taken

theorem SameElements.pendingIndices_eq {before after : History Nat Data}
    (same : SameElements before after) :
    after.pendingIndices = before.pendingIndices := by
  have sameTaken : ∀ index, after.IsTaken index ↔ before.IsTaken index := by
    intro index
    rw [History.IsTaken, same.taken]
    exact Iff.rfl
  rw [History.pendingIndices, same.sent]
  refine List.filter_congr fun index _ => ?_
  exact decide_eq_decide.mpr (not_congr (sameTaken index))

namespace Consistent

variable {queue : SharedQueue size Data}

section

variable (consistent : queue.Consistent)

include consistent

theorem write (room : queue.history.sent.length < queue.history.released + size.slots) (data : Data) :
    (queue.write data).Consistent := by
  have cell : size.cell queue.sender.pointer = size.place queue.history.sent.length := by
    rw [consistent.senderPointer, size.cell_ofNat]
  constructor
  case held =>
    simp only [SharedQueue.write, cell]
    exact consistent.held.push size.spaced_place room data
  case senderPointer =>
    simp only [SharedQueue.write, consistent.senderPointer, History.push,
      List.length_append, List.length_singleton]
    exact (UInt32.ofNat_add _ 1).symm
  case receiverPointer => exact consistent.receiverPointer

theorem exists_of_peek {loc : UInt32} (valid : (queue.peek loc).1 = true)
    (undeleted : (queue.peek loc).2.1 = false) :
    ∃ index, size.place index = size.cell loc ∧ queue.history.released ≤ index ∧
      index < queue.history.sent.length ∧ ¬ queue.history.IsTaken index := by
  obtain ⟨index, released, inside, placed⟩ := consistent.held.exists_of_isvalid valid
  refine ⟨index, placed, released, inside, ?_⟩
  intro taken
  have deleted := (consistent.held.marked index released inside).mpr taken
  rw [placed] at deleted
  exact Bool.noConfusion (undeleted.symm.trans deleted)

theorem cell_front : size.cell queue.receiver.pointer = size.place queue.history.released := by
  rw [consistent.receiverPointer, size.cell_ofNat]

theorem releaseFront (inside : queue.history.released < queue.history.sent.length)
    (taken : queue.history.IsTaken queue.history.released) :
    queue.releaseFront.Consistent := by
  constructor
  case held =>
    simp only [SharedQueue.releaseFront, consistent.cell_front]
    exact consistent.held.release size.spaced_place inside taken
  case senderPointer => exact consistent.senderPointer
  case receiverPointer =>
    simp only [SharedQueue.releaseFront, consistent.receiverPointer]
    exact (UInt32.ofNat_add _ 1).symm

theorem contents_eq : queue.contents = queue.history.pending := by
  have walks : ∀ steps index, queue.contentsFrom steps (UInt32.ofNat index) =
          walk queue.ringbuffer size.place steps index := by
    intro steps
    induction steps with
    | zero => exact fun _ => rfl
    | succ steps inductionHypothesis =>
      intro index
      have next : UInt32.ofNat index + 1 = UInt32.ofNat (index + 1) :=
        (UInt32.ofNat_add index 1).symm
      rw [contentsFrom, walk, next, inductionHypothesis, size.cell_ofNat]
  rw [contents, consistent.receiverPointer, walks]
  exact consistent.held.walk_eq_pending size.spaced_place

end

end Consistent

variable {queue : SharedQueue size Data}

theorem Balanced.set (balanced : queue.Balanced) (loc : UInt32) (data : Data) :
    (queue.set loc data).Balanced where
  account := by
    simp only [SharedQueue.set, History.rewrite, List.length_set]
    exact balanced.account
  counted := balanced.counted

/-- Giving one slot back keeps the account. -/
theorem Balanced.releaseFront (balanced : queue.Balanced)
    (inside : queue.history.released < queue.history.sent.length) :
    queue.releaseFront.Balanced := by
  have account := balanced.account
  have counted := balanced.counted
  have twice := size.slots_lt_two_returns
  have bound := size.creditsPerReturn.toNat_lt
  have sum : (queue.receiver.credits + 1).toNat = queue.receiver.credits.toNat + 1 :=
    CircularWindow.toNat_add_word32 (show queue.receiver.credits.toNat + 1 < 2 ^ 32 by omega)
  by_cases full : queue.receiver.credits + 1 = size.creditsPerReturn
  · have reached := congrArg UInt32.toNat full
    have consumed : queue.returnFlag = false := by
      cases flag : queue.returnFlag with
      | false => rfl
      | true =>
        rw [flag, QueueSize.flagCredits, if_pos rfl] at account
        omega
    rw [consumed, QueueSize.flagCredits, if_neg Bool.false_ne_true] at account
    constructor
    · simp [SharedQueue.releaseFront, full, History.release, QueueSize.flagCredits]
      omega
    · simp [SharedQueue.releaseFront, full]
      omega
  · have below : queue.receiver.credits.toNat + 1 ≠
        size.creditsPerReturn.toNat := by
      intro equal
      exact full (UInt32.toNat_inj.mp (sum.trans equal))
    constructor
    · simp [SharedQueue.releaseFront, full, History.release, sum]
      omega
    · simp [SharedQueue.releaseFront, full, sum]
      omega

/-- The loop of `del` gives back every deleted element at the front. -/
theorem releaseLoop_spec {fuel : Nat} (consistent : queue.Consistent)
    (enough : queue.history.sent.length < queue.history.released + fuel) :
    (releaseLoop fuel queue).Sound ∧ SameElements queue.history (releaseLoop fuel queue).history ∧
      (releaseLoop fuel queue).sender = queue.sender ∧
      (releaseLoop fuel queue).creditDisabled = queue.creditDisabled ∧
      (queue.Balanced → (releaseLoop fuel queue).Balanced) := by
  induction fuel generalizing queue with
  | zero =>
    have ordered := consistent.held.ordered
    omega
  | succ fuel inductionHypothesis =>
    rw [releaseLoop]
    split
    · next ready =>
        rw [consistent.cell_front] at ready
        have inside := consistent.held.isvalid_released_iff.mp ready.1
        have taken := (consistent.held.marked _ (Nat.le_refl _) inside).mp ready.2
        have released := consistent.releaseFront inside taken
        obtain ⟨sound, same, sender, disabled, balanced⟩ :=
          inductionHypothesis released
            (by
              simp only [releaseFront, History.release]
              omega)
        exact ⟨sound, ⟨same.sent, same.serial, same.taken⟩, sender,
          disabled, fun before => balanced (before.releaseFront inside)⟩
    · next stays =>
        rw [consistent.cell_front] at stays
        refine ⟨{ consistent with present := ?_ }, ⟨rfl, rfl, rfl⟩, rfl, rfl, id⟩
        intro inside taken
        exact stays
          ⟨consistent.held.isvalid_released_iff.mpr inside,
            (consistent.held.marked _ (Nat.le_refl _) inside).mpr taken⟩

namespace Sound

variable {queue : SharedQueue size Data}

section

variable (sound : queue.Sound)

include sound

theorem markDel {loc : UInt32} {index : Nat} (placed : size.place index = size.cell loc)
    (released : queue.history.released ≤ index) (inside : index < queue.history.sent.length)
    (fresh : ¬ queue.history.IsTaken index) {inOrder : Bool}
    (oldest : inOrder = true → index = queue.history.released) :
    (queue.markDel loc inOrder).Consistent := by
  constructor
  case held =>
    simp only [SharedQueue.markDel, ← placed]
    exact sound.held.take size.spaced_place released inside fresh oldest
  case senderPointer => exact sound.senderPointer
  case receiverPointer => exact sound.receiverPointer

/-- `del` on an element that is not deleted. -/
theorem del {loc : UInt32} {index : Nat} (placed : size.place index = size.cell loc)
    (released : queue.history.released ≤ index) (inside : index < queue.history.sent.length)
    (fresh : ¬ queue.history.IsTaken index) {inOrder : Bool}
    (oldest : inOrder = true → index = queue.history.released) :
    (queue.del loc inOrder).Sound ∧
      SameElements (queue.markDel loc inOrder).history (queue.del loc inOrder).history ∧
      (queue.del loc inOrder).creditDisabled = queue.creditDisabled ∧
      (queue.Balanced → (queue.del loc inOrder).Balanced) := by
  have marked := sound.markDel placed released inside fresh oldest
  have bounded := sound.held.bounded
  rw [SharedQueue.del]
  split
  · next atFront =>
      obtain ⟨after, same, -, disabled, balanced⟩ :=
        releaseLoop_spec marked
          (show
            (queue.markDel loc inOrder).history.sent.length <
              (queue.markDel loc inOrder).history.released + (size.slots + 1)
            by
              simp only [SharedQueue.markDel, History.take]
              omega)
      exact ⟨after, same, disabled, fun before => balanced ⟨before.account, before.counted⟩⟩
  · next elsewhere =>
      refine ⟨{ marked with present := ?_ }, ⟨rfl, rfl, rfl⟩, rfl,
        fun before => ⟨before.account, before.counted⟩⟩
      intro within taken
      rcases History.isTaken_take_iff.mp taken with before | now
      · exact sound.present within before
      · rw [← placed, sound.held.serial index released inside] at now
        apply elsewhere
        apply UInt32.toNat_inj.mp
        change size.cell loc = size.cell queue.receiver.pointer
        rw [sound.cell_front, ← placed]
        exact congrArg size.place now.symm

/-- `set` on an element that is not deleted. -/
theorem set {loc : UInt32} {index : Nat} (placed : size.place index = size.cell loc)
    (released : queue.history.released ≤ index) (inside : index < queue.history.sent.length)
    (fresh : ¬ queue.history.IsTaken index) (data : Data) : (queue.set loc data).Sound ∧
      (queue.set loc data).history = queue.history.rewrite index data := by
  have serial := sound.held.serial index released inside
  have rewritten : (queue.set loc data).history = queue.history.rewrite index data := by
    simp only [SharedQueue.set, ← placed, serial]
  have sameLength : (queue.history.rewrite index data).sent.length = queue.history.sent.length :=
    List.length_set
  refine ⟨?_, rewritten⟩
  constructor
  case present =>
    rw [rewritten, History.HeadPresent, sameLength]
    exact sound.present
  case toConsistent =>
    constructor
    case held =>
      rw [rewritten]
      simp only [SharedQueue.set, ← placed]
      exact sound.held.rewrite size.spaced_place released inside fresh data
    case senderPointer =>
      rw [rewritten, sameLength]
      exact sound.senderPointer
    case receiverPointer =>
      exact sound.receiverPointer

theorem write (room : queue.history.sent.length < queue.history.released + size.slots) (data : Data) :
    (queue.write data).Sound :=
  { sound.toConsistent.write room data with
    present := sound.present.push sound.held.delivered _ data }

/-- A pop obtains the oldest element; none is obtained when none is held. -/
theorem popNb?_eq : (queue.history.pending = [] ∧ queue.popNb? = none) ∨ ∃ data next,
      queue.popNb? = some (data, next) ∧ next.Sound ∧ next.creditDisabled = queue.creditDisabled ∧
      (queue.history.Contiguous → next.history.Contiguous) ∧
      queue.history.pending = data :: next.history.pending := by
  have sameCell :
      size.cell (queue.receiver.pointer &&& size.mask) = size.place queue.history.released := by
    rw [← sound.cell_front]
    simp [QueueSize.cell, UInt32.and_assoc]
  simp only [popNb?, sameCell]
  by_cases inside : queue.history.released < queue.history.sent.length
  · right
    have valid := sound.held.isvalid_released_iff.mpr inside
    have content := sound.held.content _ (Nat.le_refl _) inside
    have serial := sound.held.serial _ (Nat.le_refl _) inside
    obtain ⟨after, same, disabled, -⟩ :=
      sound.del sameCell.symm (Nat.le_refl _) inside (sound.present inside)
        (fun (_ : true = true) => rfl)
    obtain ⟨later, pending⟩ := sound.held.pendingIndices_cons sound.present inside
    refine ⟨_, _, if_pos valid, after, disabled, ?_, ?_⟩
    · refine sound.held.contiguous_pop after.held after.present fun index => ?_
      rw [History.IsTaken, same.taken]
      simp only [SharedQueue.markDel, sameCell]
      exact History.isTaken_take_iff.trans (by rw [serial])
    have notLater : queue.history.released ∉ later := by
      have distinct := queue.history.nodup_pendingIndices
      rw [pending] at distinct
      exact (List.nodup_cons.mp distinct).1
    have remaining : (queue.del (queue.receiver.pointer &&& size.mask)
            true).history.pendingIndices = later := by
      rw [same.pendingIndices_eq]
      simp only [SharedQueue.markDel, sameCell]
      rw [History.pendingIndices_take, serial, pending,
        List.filter_cons_of_neg (by simp), List.filter_eq_self]
      intro index member
      exact decide_eq_true fun equal => notLater (equal ▸ member)
    rw [History.pending_eq_filterMap, History.pending_eq_filterMap,
      remaining, pending, List.filterMap_cons_some content, same.sent]
    rfl
  · left
    have nothing : queue.history.pendingIndices = [] := by
      refine List.eq_nil_iff_forall_not_mem.mpr fun index member => ?_
      obtain ⟨sent, fresh⟩ := History.mem_pendingIndices.mp member
      exact inside (Nat.lt_of_le_of_lt (sound.held.released_le_of_not_isTaken fresh) sent)
    refine ⟨?_, if_neg fun valid => inside (sound.held.isvalid_released_iff.mp valid)⟩
    rw [History.pending_eq_filterMap, nothing]
    rfl

/-- `push_nb` on a queue with credits. -/
theorem pushNb?_spec (balanced : queue.Balanced) (enabled : queue.creditDisabled = false)
    {data : Data} {next : SharedQueue size Data} (accepted : queue.pushNb? data = some next) :
    next.Sound ∧ next.Balanced ∧ next.creditDisabled = false ∧
      next.history = queue.history.push (size.place queue.history.sent.length) data := by
  have account := balanced.account
  have counted := balanced.counted
  have cell : size.cell queue.sender.pointer = size.place queue.history.sent.length := by
    rw [sound.senderPointer, size.cell_ofNat]
  have writes : ∀ {filled : SharedQueue size Data}, filled.Sound → filled.Balanced →
          0 < filled.sender.credits.toNat → filled.history = queue.history →
              filled.sender.pointer = queue.sender.pointer → filled.creditDisabled = false →
                  (filled.write data).Sound ∧ (filled.write data).Balanced ∧
                    (filled.write data).creditDisabled = false ∧ (filled.write data).history =
                      queue.history.push (size.place queue.history.sent.length) data := by
    intro filled filledSound filledBalanced positive sameHistory samePointer stillEnabled
    have filledAccount := filledBalanced.account
    have spent : (filled.sender.credits - 1).toNat = filled.sender.credits.toNat - 1 :=
      UInt32.toNat_sub_of_le _ _ (UInt32.le_iff_toNat_le.mpr positive)
    refine ⟨filledSound.write (by omega) data, ⟨?_, filledBalanced.counted⟩, stillEnabled, ?_⟩
    · simp only [SharedQueue.write, History.push, List.length_append, List.length_singleton, spent]
      omega
    · simp only [SharedQueue.write, samePointer, cell, sameHistory]
  rw [pushNb?] at accepted
  split at accepted
  · next blocked =>
      split at accepted
      · next flag =>
          obtain rfl := Option.some.inj accepted
          rw [flag, QueueSize.flagCredits, if_pos rfl, blocked.2] at account
          have added : (queue.sender.credits + size.creditsPerReturn).toNat =
                size.creditsPerReturn.toNat := by
            rw [blocked.2, UInt32.zero_add]
          refine writes { sound with } ⟨?_, counted⟩ ?_ rfl rfl enabled
          · simp only [refill, added, QueueSize.flagCredits, Bool.false_eq_true, if_false]
            simp only [UInt32.toNat_zero] at account
            omega
          · simp only [refill, added]
            rw [size.toNat_creditsPerReturn]
            exact Nat.succ_pos _
      · cases accepted
  · next allowed =>
      obtain rfl := Option.some.inj accepted
      refine writes sound balanced ?_ rfl rfl enabled
      refine Nat.pos_of_ne_zero fun zero => ?_
      exact allowed ⟨enabled, UInt32.toNat_inj.mp zero⟩

end

end Sound

/-- A queue without credits from which elements are taken in order only. -/
structure Uncredited (queue : SharedQueue size Data) : Prop
    extends Sound queue where
  disabled : queue.creditDisabled = true
  contiguous : queue.history.Contiguous

namespace Uncredited

variable {queue : SharedQueue size Data}

theorem popNb?_eq (uncredited : queue.Uncredited) :
    (queue.history.pending = [] ∧ queue.popNb? = none) ∨ ∃ data next,
      queue.popNb? = some (data, next) ∧ next.Uncredited ∧
      queue.history.pending = data :: next.history.pending := by
  rcases uncredited.toSound.popNb?_eq with
    none | ⟨data, next, popped, sound, disabled, contiguous, pending⟩
  · exact Or.inl none
  · have uncreditedNext : next.Uncredited :=
      { sound with
        disabled := disabled.trans uncredited.disabled
        contiguous := contiguous uncredited.contiguous }
    exact Or.inr ⟨data, next, popped, uncreditedNext, pending⟩

theorem pushNb?_eq (uncredited : queue.Uncredited)
    (room : queue.history.pending.length < size.slots) (data : Data) :
    queue.pushNb? data = some (queue.write data) ∧ (queue.write data).Uncredited ∧
      (queue.write data).history.pending = queue.history.pending ++ [data] := by
  have length := uncredited.contiguous.length_le
  have sound :=
    uncredited.toSound.write
      (show queue.history.sent.length < queue.history.released + size.slots by omega)
      data
  refine ⟨?_, ?_, uncredited.held.delivered.pending_push _ data⟩
  · rw [pushNb?, if_neg]
    rintro ⟨enabled, -⟩
    exact Bool.noConfusion (uncredited.disabled.symm.trans enabled)
  · exact { sound with disabled := uncredited.disabled, contiguous := uncredited.contiguous }

end Uncredited

end SharedQueue

end SocksDirect
