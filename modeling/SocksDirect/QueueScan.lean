import SocksDirect.SharedQueue
import SocksDirect.SoloRun

namespace SocksDirect

open Function Machine

open TombstoneRing

/-!
# Scanning a queue while removing elements

A receiver of `locklessqueue_t` may look at all elements without taking them: it
keeps a cursor of its own, passes over some elements, calls `del` on others, and
stops at the first element of interest.  After a `del` it puts the cursor to the
`pointer` of the queue, and in every round it then goes on to the next slot.

A `del` of the element at the front moves `pointer` to the next element that is
not deleted, and the cursor goes on behind it: this one element is never looked
at.
-/

namespace QueueSize

variable {size : QueueSize}

theorem cell_add (size : QueueSize) (pointer : UInt32) (offset : Nat) :
    size.cell (pointer + UInt32.ofNat offset) = size.place (pointer.toNat + offset) := by
  rw [← size.cell_ofNat, UInt32.ofNat_add, UInt32.ofNat_toNat]

theorem place_add_inj {base first second : Nat} (firstInside : first < size.slots)
    (secondInside : second < size.slots)
    (same : size.place (base + first) = size.place (base + second)) :
    first = second := by
  rcases Nat.lt_trichotomy first second with less | equal | greater
  · exact absurd same (size.spaced_place _ _ (by omega) (by omega))
  · exact equal
  · exact absurd same.symm (size.spaced_place _ _ (by omega) (by omega))

theorem place_add_slots (size : QueueSize) (index : Nat) :
    size.place (index + size.slots) = size.place index :=
  Nat.add_mod_right index size.slots

end QueueSize

/-- An element in a queue, with its deletion mark. -/
structure QueueEntry (Data : Type) where
  data : Data
  isdel : Bool
  deriving Repr, DecidableEq

namespace SharedQueue

variable {size : QueueSize} {Data : Type}

/-- The slot at a distance from the receiver's pointer. -/
def slotAt (queue : SharedQueue size Data) (offset : Nat) : Slot Data :=
  queue.ringbuffer (size.cell (queue.receiver.pointer + UInt32.ofNat offset))

/--
The queue holds these elements from its receiver's pointer on, and nothing else.
-/
structure Holding
    (queue : SharedQueue size Data)
    (entries : List (QueueEntry Data)) : Prop where
  fits : entries.length ≤ size.slots
  present : ∀ {offset entry}, entries[offset]? = some entry →
      queue.slotAt offset = { data := entry.data, isvalid := true, isdel := entry.isdel }
  absent : ∀ {offset}, entries.length ≤ offset → offset < size.slots →
      (queue.slotAt offset).isvalid = false

/-- The elements of a history that have not been given back. -/
def heldEntries (history : History Nat Data) : List (QueueEntry Data) :=
  (history.sent.drop history.released).mapIdx fun offset data =>
    { data := data, isdel := decide (history.IsTaken (history.released + offset)) }

/-- Whatever has happened to a queue, it holds what has not been given back. -/
theorem Consistent.holding {queue : SharedQueue size Data} (consistent : queue.Consistent) :
    queue.Holding (heldEntries queue.history) := by
  have held := consistent.held
  have bounded := held.bounded
  have length :
      (heldEntries queue.history).length = queue.history.sent.length - queue.history.released := by
    simp [heldEntries]
  have slot : ∀ offset,
        queue.slotAt offset = queue.ringbuffer (size.place (queue.history.released + offset)) := by
    intro offset
    rw [slotAt, consistent.receiverPointer, ← UInt32.ofNat_add, size.cell_ofNat]
  constructor
  case fits => omega
  case present =>
    intro offset entry found
    have inside := (List.getElem?_eq_some_iff.mp found).1
    simp only [heldEntries, List.getElem?_mapIdx, List.getElem?_drop,
      Option.map_eq_some_iff] at found
    obtain ⟨data, sent, rfl⟩ := found
    have released := Nat.le_add_right queue.history.released offset
    have within : queue.history.released + offset < queue.history.sent.length := by omega
    have valid := held.valid _ released within
    have content := held.content _ released within
    have marked := held.marked _ released within
    rw [sent, Option.some.injEq] at content
    rw [slot]
    generalize
      queue.ringbuffer (size.place (queue.history.released + offset)) = cell
      at valid content marked
    obtain ⟨cellData, cellValid, cellDel⟩ := cell
    subst valid content
    refine congrArg (Slot.mk data true) ?_
    rw [Bool.eq_iff_iff, marked, decide_eq_true_iff]
  case absent =>
    intro offset behind within
    rw [slot]
    refine held.vacant _ fun index released inside same => ?_
    exact absurd same (size.spaced_place _ _ (by omega) (by omega))

section Updates

variable {queue : SharedQueue size Data} {entries rest : List (QueueEntry Data)}
variable {entry : QueueEntry Data} {offset : Nat} {inOrder : Bool}

theorem Holding.offset_lt (holding : queue.Holding entries)
    (found : entries[offset]? = some entry) :
    offset < size.slots :=
  Nat.lt_of_lt_of_le (List.getElem?_eq_some_iff.mp found).1 holding.fits

theorem slotAt_markDel (queue : SharedQueue size Data) (inside : offset < size.slots) {other : Nat}
    (otherInside : other < size.slots) :
    (queue.markDel (queue.receiver.pointer + UInt32.ofNat offset)
        inOrder).slotAt other = if other = offset then
        { queue.slotAt offset with isdel := true }
      else
        queue.slotAt other := by
  simp only [slotAt, markDel, size.cell_add]
  by_cases same : other = offset
  · rw [same, if_pos rfl, update_self]
  · rw [if_neg same, update_of_ne]
    intro sameSlot
    exact same (QueueSize.place_add_inj otherInside inside sameSlot)

/-- `del` marks an element. -/
theorem Holding.markDel (holding : queue.Holding entries) (found : entries[offset]? = some entry) :
    (queue.markDel (queue.receiver.pointer + UInt32.ofNat offset)
      inOrder).Holding (entries.set offset { entry with isdel := true }) := by
  have inside := holding.offset_lt found
  constructor
  case fits =>
    rw [List.length_set]
    exact holding.fits
  case present =>
    intro other later foundLater
    have otherInside :=
      Nat.lt_of_lt_of_le (List.getElem?_eq_some_iff.mp foundLater).1
        (List.length_set ▸ holding.fits)
    rw [queue.slotAt_markDel inside otherInside]
    by_cases same : other = offset
    · subst same
      rw [List.getElem?_set_self (List.getElem?_eq_some_iff.mp found).1,
        Option.some.injEq] at foundLater
      subst foundLater
      rw [if_pos rfl, holding.present found]
    · rw [List.getElem?_set_ne (Ne.symm same)] at foundLater
      rw [if_neg same]
      exact holding.present foundLater
  case absent =>
    intro other behind otherInside
    rw [List.length_set] at behind
    rw [queue.slotAt_markDel inside otherInside, if_neg]
    · exact holding.absent behind otherInside
    · have bound := (List.getElem?_eq_some_iff.mp found).1
      omega

/-- The loop of `del` gives back the slot of the first element. -/
theorem Holding.releaseFront (holding : queue.Holding (entry :: rest)) :
    queue.releaseFront.Holding rest := by
  have fits := holding.fits
  rw [List.length_cons] at fits
  have slot : ∀ other < size.slots, queue.releaseFront.slotAt other = if other + 1 = size.slots then
            { queue.slotAt 0 with isvalid := false }
          else
            queue.slotAt (other + 1) := by
    intro other inside
    have next : size.cell (queue.receiver.pointer + 1 + UInt32.ofNat other) =
          size.place (queue.receiver.pointer.toNat + (other + 1)) := by
      rw [← size.cell_add, Nat.add_comm other, UInt32.ofNat_add, UInt32.add_assoc]
      rfl
    have front :
        size.cell queue.receiver.pointer = size.place (queue.receiver.pointer.toNat + 0) := by
      rw [← size.cell_add]
      exact congrArg size.cell (UInt32.add_zero _).symm
    simp only [slotAt, SharedQueue.releaseFront, next, front, size.cell_add]
    by_cases last : other + 1 = size.slots
    · rw [if_pos last, last, size.place_add_slots, Nat.add_zero, update_self]
    · rw [if_neg last, update_of_ne]
      intro same
      have equal := QueueSize.place_add_inj (by omega) size.slots_pos same
      omega
  constructor
  case fits => omega
  case present =>
    intro other later found
    have inside := (List.getElem?_eq_some_iff.mp found).1
    rw [slot other (by omega), if_neg (by omega)]
    exact holding.present found
  case absent =>
    intro other behind inside
    rw [slot other inside]
    by_cases last : other + 1 = size.slots
    · rw [if_pos last]
    · rw [if_neg last]
      exact holding.absent (by simpa using behind) (by omega)

/-- The loop of `del` gives back all deleted elements at the front. -/
theorem Holding.releaseLoop (holding : queue.Holding entries) {fuel : Nat}
    (enough : (entries.takeWhile QueueEntry.isdel).length < fuel) :
    (releaseLoop fuel queue).Holding (entries.dropWhile QueueEntry.isdel) ∧
      (SharedQueue.releaseLoop fuel queue).receiver.pointer =
      queue.receiver.pointer + UInt32.ofNat (entries.takeWhile QueueEntry.isdel).length := by
  have front : queue.ringbuffer (size.cell queue.receiver.pointer) = queue.slotAt 0 := by
    exact congrArg (fun loc => queue.ringbuffer (size.cell loc)) (UInt32.add_zero _).symm
  induction entries generalizing queue fuel with
  | nil =>
    cases fuel with
    | zero => exact absurd enough (Nat.not_lt_zero _)
    | succ fuel =>
      have empty := holding.absent (Nat.zero_le 0) size.slots_pos
      rw [SharedQueue.releaseLoop, if_neg (by simp [front, empty])]
      exact ⟨holding, (UInt32.add_zero _).symm⟩
  | cons entry rest inductionHypothesis =>
    cases fuel with
    | zero => exact absurd enough (Nat.not_lt_zero _)
    | succ fuel =>
      have slot := holding.present (List.getElem?_cons_zero)
      cases deleted : entry.isdel with
      | false =>
        rw [SharedQueue.releaseLoop, if_neg (by simp [front, slot, deleted]),
          List.dropWhile_cons_of_neg (by simp [deleted]),
          List.takeWhile_cons_of_neg (by simp [deleted])]
        exact ⟨holding, (UInt32.add_zero _).symm⟩
      | true =>
        rw [List.takeWhile_cons_of_pos deleted, List.length_cons] at enough
        obtain ⟨after, pointer⟩ :=
          inductionHypothesis holding.releaseFront
            (Nat.lt_of_succ_lt_succ enough)
            (by
              exact congrArg
                (fun loc => queue.releaseFront.ringbuffer (size.cell loc))
                (UInt32.add_zero _).symm)
        rw [SharedQueue.releaseLoop, if_pos (by simp [front, slot, deleted]),
          List.dropWhile_cons_of_pos deleted, List.takeWhile_cons_of_pos deleted]
        refine ⟨after, pointer.trans ?_⟩
        rw [List.length_cons, Nat.add_comm, UInt32.ofNat_add, ← UInt32.add_assoc]
        rfl

/-- `del` on an element that is not at the front. -/
theorem Holding.del_later (holding : queue.Holding entries) (found : entries[offset]? = some entry)
    (later : 0 < offset) (inOrder : Bool) :
    (queue.del (queue.receiver.pointer + UInt32.ofNat offset)
      inOrder).Holding (entries.set offset { entry with isdel := true }) ∧
      (queue.del (queue.receiver.pointer + UInt32.ofNat offset)
      inOrder).receiver.pointer = queue.receiver.pointer := by
  have elsewhere : ¬ (queue.receiver.pointer + UInt32.ofNat offset) &&& size.mask =
        queue.receiver.pointer &&& size.mask := by
    intro same
    have sameSlot := congrArg UInt32.toNat same
    rw [← UInt32.add_zero queue.receiver.pointer] at sameSlot
    change size.cell (_ + 0 + _) = size.cell (_ + UInt32.ofNat 0) at sameSlot
    rw [UInt32.add_zero, size.cell_add, size.cell_add] at sameSlot
    have equal := QueueSize.place_add_inj (holding.offset_lt found) size.slots_pos sameSlot
    omega
  rw [SharedQueue.del, if_neg elsewhere]
  exact ⟨holding.markDel found, rfl⟩

/-- `del` on the element at the front. -/
theorem Holding.del_front (holding : queue.Holding (entry :: rest)) (inOrder : Bool) :
    (queue.del queue.receiver.pointer inOrder).Holding
      (rest.dropWhile QueueEntry.isdel) ∧
      (queue.del queue.receiver.pointer inOrder).receiver.pointer =
      queue.receiver.pointer + UInt32.ofNat ((rest.takeWhile QueueEntry.isdel).length + 1) := by
  have marked : (queue.markDel queue.receiver.pointer inOrder).Holding
        ({ entry with isdel := true } :: rest) := by
    have atZero : (queue.markDel (queue.receiver.pointer + UInt32.ofNat 0)
          inOrder).Holding ({ entry with isdel := true } :: rest) :=
      holding.markDel (show (entry :: rest)[0]? = some entry from rfl)
    rw [show queue.receiver.pointer + UInt32.ofNat 0 =
      queue.receiver.pointer from UInt32.add_zero _] at atZero
    exact atZero
  have fits := marked.fits
  have short :=
    (List.takeWhile_prefix (p := QueueEntry.isdel)
      (l := { entry with isdel := true } :: rest)).length_le
  obtain ⟨after, pointer⟩ := marked.releaseLoop (Nat.lt_succ_of_le (Nat.le_trans short fits))
  rw [SharedQueue.del, if_pos rfl]
  exact ⟨after, pointer⟩

theorem del_congr {loc other : UInt32} (same : size.cell loc = size.cell other) :
    queue.del loc inOrder = queue.del other inOrder := by
  have sameWord : loc &&& size.mask = other &&& size.mask := UInt32.toNat_inj.mp same
  unfold SharedQueue.del SharedQueue.markDel
  rw [same, sameWord]

end Updates

end SharedQueue

/-- What a scan does with an element that is not deleted. -/
inductive Verdict where
  | pass
  | remove
  | stop
  deriving Repr, DecidableEq

/-- A queue and the place at which its receiver looks. -/
structure QueueCursor (size : QueueSize) (Data : Type) where
  queue : SharedQueue size Data
  pointer : UInt32

namespace QueueCursor

variable {size : QueueSize} {Data : Type}

/--
One round of a scan that neither stops nor reaches the end.  There is no next
cursor if the slot is empty or the scan stops at its element.
-/
def look? (verdict : Data → Verdict) (cursor : QueueCursor size Data) :
    Option (QueueCursor size Data × Option Unit) :=
  let element := cursor.queue.peek cursor.pointer
  if element.1 = false then
    none
  else if element.2.1 = true then
    some ({ cursor with pointer := cursor.pointer + 1 }, none)
  else
    match verdict element.2.2 with
    | .pass => some ({ cursor with pointer := cursor.pointer + 1 }, none)
    | .remove =>
      let queue := cursor.queue.del cursor.pointer false
      some
        ({ queue := queue
           pointer := queue.receiver.pointer + 1 }, none)
    | .stop => none

end QueueCursor

namespace QueueEntry

variable {Data : Type}

/-- The scan leaves the element alone and goes on. -/
def Quiet (verdict : Data → Verdict) (entry : QueueEntry Data) : Prop :=
  entry.isdel = true ∨ verdict entry.data = .pass

/-- The scan removes the element and goes on. -/
def Removed (verdict : Data → Verdict) (entry : QueueEntry Data) : Prop :=
  entry.isdel = false ∧ verdict entry.data = .remove

/-- The scan stops at the element. -/
def Stops (verdict : Data → Verdict) (entry : QueueEntry Data) : Prop :=
  entry.isdel = false ∧ verdict entry.data = .stop

variable {verdict : Data → Verdict}

theorem quiet_or_removed_or_stops (verdict : Data → Verdict) (entry : QueueEntry Data) :
    entry.Quiet verdict ∨ entry.Removed verdict ∨ entry.Stops verdict := by
  cases deleted : entry.isdel with
  | true => exact .inl (.inl deleted)
  | false =>
    cases decided : verdict entry.data with
    | pass => exact .inl (.inr decided)
    | remove => exact .inr (.inl ⟨deleted, decided⟩)
    | stop => exact .inr (.inr ⟨deleted, decided⟩)

theorem Quiet.not_removed {entry : QueueEntry Data} (quiet : entry.Quiet verdict) :
    ¬ entry.Removed verdict := by
  rintro ⟨undeleted, decided⟩
  rcases quiet with deleted | passed
  · cases undeleted.symm.trans deleted
  · cases decided.symm.trans passed

end QueueEntry

section Skips

variable {Data : Type}

/-- The scan removes the first element. -/
def HeadRemoved (verdict : Data → Verdict) (entries : List (QueueEntry Data)) : Prop :=
  ∃ entry, entries[0]? = some entry ∧ entry.Removed verdict

/--
The scan never looks at the element: it is the first one that is not deleted
behind a first element that the scan removes.
-/
def Skipped (verdict : Data → Verdict) (entries : List (QueueEntry Data)) (offset : Nat) : Prop :=
  HeadRemoved verdict entries ∧ 0 < offset ∧ ∀ between entry, 0 < between → between < offset →
      entries[between]? = some entry → entry.isdel = true

end Skips

namespace SharedQueue

variable {size : QueueSize} {Data : Type}

/-- The cursor at a distance from the receiver's pointer. -/
def cursorAt (queue : SharedQueue size Data) (offset : Nat) : QueueCursor size Data where
  queue := queue
  pointer := queue.receiver.pointer + UInt32.ofNat offset

section Rounds

variable {verdict : Data → Verdict} {queue : SharedQueue size Data}
variable {entries rest : List (QueueEntry Data)} {entry : QueueEntry Data} {offset : Nat}

theorem Holding.peek (holding : queue.Holding entries) (found : entries[offset]? = some entry) :
    queue.peek (queue.cursorAt offset).pointer = (true, entry.isdel, entry.data) := by
  have slot := holding.present found
  simp only [slotAt] at slot
  simp only [SharedQueue.peek, cursorAt, slot]

theorem Holding.peek_absent (holding : queue.Holding entries) (behind : entries.length ≤ offset)
    (inside : offset < size.slots) : (queue.peek (queue.cursorAt offset).pointer).1 = false :=
  holding.absent behind inside

theorem cursorAt_zero (queue : SharedQueue size Data) :
    (queue.cursorAt 0).pointer = queue.receiver.pointer :=
  UInt32.add_zero _

theorem cursorAt_succ (queue : SharedQueue size Data) (offset : Nat) :
    (queue.cursorAt offset).pointer + 1 = (queue.cursorAt (offset + 1)).pointer := by
  simp only [cursorAt]
  rw [UInt32.ofNat_add, ← UInt32.add_assoc]
  rfl

theorem look?_quiet
    (seen : queue.peek (queue.cursorAt offset).pointer = (true, entry.isdel, entry.data))
    (quiet : entry.Quiet verdict) :
    (queue.cursorAt offset).look? verdict = some (queue.cursorAt (offset + 1), none) := by
  have next := queue.cursorAt_succ offset
  simp only [QueueCursor.look?]
  rw [next, show (queue.cursorAt offset).queue = queue from rfl, seen, if_neg (by simp)]
  rcases quiet with deleted | passed
  · rw [if_pos deleted]
    rfl
  · rw [passed]
    split <;> rfl

theorem look?_removed
    (seen : queue.peek (queue.cursorAt offset).pointer = (true, entry.isdel, entry.data))
    (removed : entry.Removed verdict) : (queue.cursorAt offset).look? verdict =
      some ((queue.del (queue.cursorAt offset).pointer false).cursorAt 1, none) := by
  simp only [QueueCursor.look?]
  rw [show (queue.cursorAt offset).queue = queue from rfl, seen,
    if_neg (by simp), if_neg (by simp [removed.1])]
  rw [removed.2]
  rfl

/-- The scan passes a row of elements that it leaves alone. -/
theorem Holding.passes_quiet (holding : queue.Holding entries) {goal : Nat}
    (ordered : offset ≤ goal)
    (quiet : ∀ between, offset ≤ between → between < goal →
      ∃ entry, entries[between]? = some entry ∧ entry.Quiet verdict) :
    Passes (QueueCursor.look? verdict) (queue.cursorAt offset) (queue.cursorAt goal) := by
  induction goal with
  | zero =>
    obtain rfl : offset = 0 := Nat.le_zero.mp ordered
    exact .refl _
  | succ goal inductionHypothesis =>
    rcases Nat.eq_or_lt_of_le ordered with rfl | earlier
    · exact .refl _
    · have reached :=
        inductionHypothesis (Nat.le_of_lt_succ earlier)
          fun between starts before => quiet between starts (Nat.lt_succ_of_lt before)
      obtain ⟨last, found, passed⟩ := quiet goal (Nat.le_of_lt_succ earlier) (Nat.lt_succ_self goal)
      exact reached.trans (.single (look?_quiet (holding.peek found) passed))

/-- Behind the front the scan reaches every element that none stops it before. -/
theorem Holding.passes_on (holding : queue.Holding entries) (distance : Nat)
    (behindFront : 0 < offset) (inside : offset + distance ≤ entries.length)
    (quiet : ∀ between, 0 < between → between < offset →
      ∃ entry, entries[between]? = some entry ∧ entry.Quiet verdict)
    (noStop : ∀ between entry, offset ≤ between → between < offset + distance →
      entries[between]? = some entry → ¬ entry.Stops verdict) :
    ∃ next after, Holding next after ∧ next.receiver.pointer = queue.receiver.pointer ∧
      after.length = entries.length ∧
      (∀ later, offset + distance ≤ later → after[later]? = entries[later]?) ∧
      Passes (QueueCursor.look? verdict) (queue.cursorAt offset)
      (next.cursorAt (offset + distance)) := by
  induction distance generalizing queue entries offset with
  | zero => exact ⟨queue, entries, holding, rfl, rfl, fun _ _ => rfl, .refl _⟩
  | succ distance inductionHypothesis =>
    have bound : offset < entries.length := by omega
    obtain ⟨entry, found⟩ : ∃ entry, entries[offset]? = some entry :=
      ⟨_, List.getElem?_eq_getElem bound⟩
    rw [Nat.add_comm distance, ← Nat.add_assoc] at inside noStop ⊢
    rcases entry.quiet_or_removed_or_stops verdict with passed | removed | stops
    · obtain ⟨next, after, later, pointer, length, same, passes⟩ :=
        inductionHypothesis holding (Nat.succ_pos offset) inside
          (by
            intro between positive before
            rcases Nat.lt_succ_iff_lt_or_eq.mp before with earlier | rfl
            · exact quiet between positive earlier
            · exact ⟨entry, found, passed⟩)
          (by
            intro between other start
            exact noStop between other (Nat.le_of_succ_le start))
      exact ⟨next, after, later, pointer, length, same,
        passes.head (look?_quiet (holding.peek found) passed)⟩
    · obtain ⟨marked, stays⟩ := holding.del_later found behindFront false
      have round := look?_removed (holding.peek found) removed
      have passedAgain : ∀ between, 0 < between → between < offset + 1 → ∃ other,
              (entries.set offset { entry with isdel := true })[between]? = some other ∧
                other.Quiet verdict := by
        intro between positive before
        rcases Nat.lt_succ_iff_lt_or_eq.mp before with earlier | rfl
        · rw [List.getElem?_set_ne (Nat.ne_of_gt earlier)]
          exact quiet between positive earlier
        · exact ⟨_, List.getElem?_set_self bound, .inl rfl⟩
      obtain ⟨next, after, later, pointer, length, same, passes⟩ :=
        inductionHypothesis marked (Nat.succ_pos offset)
          (by
            rw [List.length_set]
            exact inside)
          passedAgain
          (by
            intro between other start
            rw [List.getElem?_set_ne (Nat.ne_of_lt start)]
            exact noStop between other (Nat.le_of_succ_le start))
      rw [List.length_set] at length
      refine ⟨next, after, later, pointer.trans stays, length, ?_, ?_⟩
      · intro position behind
        rw [same position behind, List.getElem?_set_ne (by omega)]
      · have back := marked.passes_quiet (Nat.succ_pos offset) passedAgain
        exact (back.trans passes).head round
    · exact absurd stops (noStop offset entry (Nat.le_refl _) (by omega) found)

end Rounds

end SharedQueue

section Front

variable {Data : Type} {verdict : Data → Verdict} {rest : List (QueueEntry Data)}
variable {entry other : QueueEntry Data} {offset : Nat}

/-- How many deleted elements there are at the front. -/
def deletedFront (rest : List (QueueEntry Data)) : Nat := (rest.takeWhile QueueEntry.isdel).length

theorem getElem?_dropWhile_isdel (rest : List (QueueEntry Data)) (offset : Nat) :
    (rest.dropWhile QueueEntry.isdel)[offset]? = rest[deletedFront rest + offset]? := by
  calc
    (rest.dropWhile QueueEntry.isdel)[offset]? = (rest.takeWhile QueueEntry.isdel ++
          rest.dropWhile QueueEntry.isdel)[deletedFront rest + offset]? := by
      rw [deletedFront, List.getElem?_append_right (Nat.le_add_right _ _), Nat.add_sub_cancel_left]
    _ = rest[deletedFront rest + offset]? := by rw [List.takeWhile_append_dropWhile]

theorem isdel_of_lt_deletedFront (found : rest[offset]? = some other)
    (front : offset < deletedFront rest) :
    other.isdel = true := by
  rw [← List.takeWhile_append_dropWhile (p := QueueEntry.isdel) (l := rest),
    List.getElem?_append_left front] at found
  exact List.all_eq_true.mp List.all_takeWhile other (List.mem_of_getElem? found)

theorem isdel_at_deletedFront (found : rest[deletedFront rest]? = some other) :
    other.isdel = false := by
  have first := getElem?_dropWhile_isdel rest 0
  rw [Nat.add_zero, found, ← List.head?_eq_getElem?] at first
  have kept := List.head?_dropWhile_not QueueEntry.isdel rest
  rw [first] at kept
  simpa using kept

/-- Which element is skipped behind a first one that is removed. -/
theorem skipped_cons_iff (removed : entry.Removed verdict)
    (found : (entry :: rest)[offset]? = some other) (undeleted : other.isdel = false) :
    Skipped verdict (entry :: rest) offset ↔ offset = deletedFront rest + 1 := by
  constructor
  · rintro ⟨_, positive, between⟩
    obtain ⟨position, rfl⟩ := Nat.exists_eq_succ_of_ne_zero (Nat.ne_of_gt positive)
    rw [List.getElem?_cons_succ] at found
    rcases Nat.lt_trichotomy position (deletedFront rest) with front | same | later
    · have deleted := isdel_of_lt_deletedFront found front
      cases undeleted.symm.trans deleted
    · rw [same]
    · have bound := (List.getElem?_eq_some_iff.mp found).1
      obtain ⟨first, foundFirst⟩ : ∃ first, rest[deletedFront rest]? = some first :=
        ⟨_, List.getElem?_eq_getElem (Nat.lt_trans later bound)⟩
      have deleted :=
        between (deletedFront rest + 1) first (Nat.succ_pos _)
          (Nat.succ_lt_succ later)
          (List.getElem?_cons_succ.trans foundFirst)
      cases (isdel_at_deletedFront foundFirst).symm.trans deleted
  · rintro rfl
    refine ⟨⟨entry, rfl, removed⟩, Nat.succ_pos _, ?_⟩
    intro between passed positive before foundPassed
    obtain ⟨position, rfl⟩ := Nat.exists_eq_succ_of_ne_zero (Nat.ne_of_gt positive)
    rw [List.getElem?_cons_succ] at foundPassed
    exact isdel_of_lt_deletedFront foundPassed (Nat.lt_of_succ_lt_succ before)

theorem not_skipped_of_quiet (quiet : entry.Quiet verdict) :
    ¬ Skipped verdict (entry :: rest) offset := by
  rintro ⟨⟨first, found, removed⟩, _⟩
  rw [List.getElem?_cons_zero, Option.some.injEq] at found
  subst found
  exact quiet.not_removed removed

end Front

namespace SharedQueue

section Scans

variable {size : QueueSize} {Data : Type} {verdict : Data → Verdict} {queue : SharedQueue size Data}
variable {entries rest : List (QueueEntry Data)} {entry : QueueEntry Data} {offset : Nat}

/--
The queue after the first round: it holds the elements from `base` on, and the
scan goes on at the second one of them.
-/
structure AfterFirst
    (verdict : Data → Verdict)
    (queue : SharedQueue size Data)
    (entries : List (QueueEntry Data))
    (next : SharedQueue size Data)
    (left : List (QueueEntry Data))
    (base : Nat) : Prop where
  holding : next.Holding left
  pointer : next.receiver.pointer = queue.receiver.pointer + UInt32.ofNat base
  same : ∀ place, left[place]? = entries[base + place]?
  ahead : ∀ {place other}, 0 < place → left[place]? = some other → other.isdel = false →
      ¬ Skipped verdict entries (base + place)
  covers : ∀ {offset other}, 0 < offset → entries[offset]? = some other → other.isdel = false →
      ¬ Skipped verdict entries offset → base < offset
  ends : entries.length < size.slots ∨ HeadRemoved verdict entries → left.length < size.slots
  passes : Passes (QueueCursor.look? verdict) (queue.cursorAt 0) (next.cursorAt 1)

/-- The first round leaves the first element alone. -/
theorem Holding.afterFirst_of_quiet (holding : queue.Holding (entry :: rest))
    (quiet : entry.Quiet verdict) :
    AfterFirst verdict queue (entry :: rest) queue (entry :: rest) 0 where
  holding := holding
  pointer := (UInt32.add_zero _).symm
  same := by
    intro place
    rw [Nat.zero_add]
  ahead := fun _ _ _ => not_skipped_of_quiet quiet
  covers := fun positive _ _ _ => positive
  ends := by
    rintro (short | ⟨other, found, removed⟩)
    · exact short
    · rw [List.getElem?_cons_zero, Option.some.injEq] at found
      subst found
      exact absurd removed quiet.not_removed
  passes := .single (look?_quiet (holding.peek rfl) quiet)

/-- The first round removes the first element. -/
theorem Holding.afterFirst_of_removed (holding : queue.Holding (entry :: rest))
    (removed : entry.Removed verdict) :
    ∃ next, AfterFirst verdict queue (entry :: rest) next
      (rest.dropWhile QueueEntry.isdel) (deletedFront rest + 1) := by
  have round :=
    look?_removed (holding.peek (show (entry :: rest)[0]? = some entry from rfl)) removed
  rw [queue.cursorAt_zero] at round
  obtain ⟨after, pointer⟩ := holding.del_front false
  have same : ∀ place, (rest.dropWhile QueueEntry.isdel)[place]? =
          (entry :: rest)[deletedFront rest + 1 + place]? := by
    intro place
    rw [getElem?_dropWhile_isdel, Nat.add_right_comm, List.getElem?_cons_succ]
  refine ⟨_, after, pointer, same, ?_, ?_, ?_, .single round⟩
  · intro place other positive found undeleted
    rw [same] at found
    rw [skipped_cons_iff removed found undeleted]
    omega
  · intro offset other positive found undeleted unskipped
    rw [skipped_cons_iff removed found undeleted] at unskipped
    refine Nat.lt_of_le_of_ne (Nat.not_lt.mp fun front => ?_) (Ne.symm unskipped)
    obtain ⟨position, rfl⟩ := Nat.exists_eq_succ_of_ne_zero (Nat.ne_of_gt positive)
    have deleted :=
      isdel_of_lt_deletedFront
        (List.getElem?_cons_succ.symm.trans found)
        (Nat.lt_of_succ_lt_succ front)
    cases undeleted.symm.trans deleted
  · intro _
    have fits := holding.fits
    rw [List.length_cons] at fits
    have shorter := (List.dropWhile_suffix (p := QueueEntry.isdel) (l := rest)).length_le
    omega

theorem Holding.exists_afterFirst (holding : queue.Holding (entry :: rest))
    (goesOn : ¬ entry.Stops verdict) :
    ∃ next left base, AfterFirst verdict queue (entry :: rest) next left base := by
  rcases entry.quiet_or_removed_or_stops verdict with quiet | removed | stops
  · exact ⟨_, _, _, holding.afterFirst_of_quiet quiet⟩
  · obtain ⟨next, after⟩ := holding.afterFirst_of_removed removed
    exact ⟨next, _, _, after⟩
  · exact absurd stops goesOn

/-- How far the scan gets after its first round. -/
theorem AfterFirst.reaches {next : SharedQueue size Data} {left : List (QueueEntry Data)}
    {base : Nat} (after : AfterFirst verdict queue entries next left base) (distance : Nat)
    (inside : 1 + distance ≤ left.length)
    (skips : ∀ place other, 0 < place → place < 1 + distance → left[place]? = some other →
      other.Stops verdict → Skipped verdict entries (base + place)) :
    ∃ final later, Holding final later ∧
      final.receiver.pointer = queue.receiver.pointer + UInt32.ofNat base ∧
      later.length = left.length ∧ later[1 + distance]? = left[1 + distance]? ∧
      Passes (QueueCursor.look? verdict) (queue.cursorAt 0)
      (final.cursorAt (1 + distance)) := by
  obtain ⟨final, later, holding, pointer, length, same, passes⟩ :=
    after.holding.passes_on distance Nat.one_pos inside
      (fun place positive before => absurd before (Nat.not_lt.mpr positive))
      (fun place other positive before found stops =>
        after.ahead positive found stops.1 (skips place other positive before found stops))
  exact ⟨final, later, holding, pointer.trans after.pointer, length,
    same _ (Nat.le_refl _), after.passes.trans passes⟩

/-- The scan stops at the first element of interest that it does not skip. -/
theorem Holding.scan_stops (holding : queue.Holding entries) (found : entries[offset]? = some entry)
    (stops : entry.Stops verdict) (unskipped : ¬ Skipped verdict entries offset)
    (first : ∀ earlier other, earlier < offset → entries[earlier]? = some other →
      other.Stops verdict → Skipped verdict entries earlier) :
    ∃ final : QueueCursor size Data, Passes (QueueCursor.look? verdict) (queue.cursorAt 0) final ∧
      final.pointer = queue.receiver.pointer + UInt32.ofNat offset ∧
      final.queue.peek final.pointer = (true, false, entry.data) := by
  rcases Nat.eq_zero_or_pos offset with rfl | positive
  · refine ⟨queue.cursorAt 0, .refl _, rfl, ?_⟩
    rw [← stops.1]
    exact holding.peek found
  cases entries with
  | nil => cases found
  | cons head rest =>
    obtain ⟨next, left, base, after⟩ :=
      holding.exists_afterFirst fun headStops =>
        absurd (first 0 head positive rfl headStops).2.1 (Nat.lt_irrefl 0)
    obtain ⟨distance, rfl⟩ :=
      Nat.exists_eq_add_of_le (after.covers positive found stops.1 unskipped)
    rw [Nat.succ_eq_add_one, Nat.add_assoc] at found first ⊢
    have target := (after.same (1 + distance)).trans found
    obtain ⟨final, later, held, pointer, _, same, passes⟩ :=
      after.reaches distance
        (Nat.le_of_lt (List.getElem?_eq_some_iff.mp target).1)
        (fun place other _ before foundOther otherStops =>
          first (base + place) other (Nat.add_lt_add_left before base)
            ((after.same place).symm.trans foundOther) otherStops)
    refine ⟨final.cursorAt (1 + distance), passes, ?_, ?_⟩
    · rw [cursorAt, pointer, UInt32.add_assoc, ← UInt32.ofNat_add]
    · rw [← stops.1]
      exact held.peek (same.trans target)

/-- The scan comes to an empty slot if it skips all elements of interest. -/
theorem Holding.scan_exhausts (holding : queue.Holding entries) (room : 1 < size.slots)
    (skips : ∀ offset other, entries[offset]? = some other → other.Stops verdict →
      Skipped verdict entries offset)
    (ends : entries.length < size.slots ∨ HeadRemoved verdict entries) :
    ∃ final : QueueCursor size Data, Passes (QueueCursor.look? verdict) (queue.cursorAt 0) final ∧
      (final.queue.peek final.pointer).1 = false := by
  cases entries with
  | nil => exact ⟨queue.cursorAt 0, .refl _, holding.peek_absent (Nat.zero_le 0) size.slots_pos⟩
  | cons head rest =>
    obtain ⟨next, left, base, after⟩ :=
      holding.exists_afterFirst fun headStops =>
        absurd (skips 0 head rfl headStops).2.1 (Nat.lt_irrefl 0)
    have short := after.ends ends
    rcases Nat.eq_zero_or_pos left.length with empty | positive
    · exact ⟨next.cursorAt 1, after.passes, after.holding.peek_absent (by omega) room⟩
    · obtain ⟨distance, length⟩ := Nat.exists_eq_add_of_le positive
      obtain ⟨final, later, held, _, sameLength, _, passes⟩ :=
        after.reaches distance (Nat.le_of_eq length.symm)
          (fun place other _ _ foundOther otherStops =>
            skips (base + place) other ((after.same place).symm.trans foundOther) otherStops)
      exact ⟨final.cursorAt (1 + distance), passes, held.peek_absent (by omega) (by omega)⟩

end Scans

end SharedQueue

/--
A cursor in a full queue whose first element stays and which has no element of
interest.
-/
def QueueCursor.Circling {size : QueueSize} {Data : Type} (verdict : Data → Verdict)
    (cursor : QueueCursor size Data) : Prop :=
  ∃ entries offset, cursor.queue.Holding entries ∧ cursor = cursor.queue.cursorAt offset ∧
      entries.length = size.slots ∧ ¬ HeadRemoved verdict entries ∧
      ∀ entry ∈ entries, ¬ entry.Stops verdict

/-- In such a queue the scan goes round and round. -/
theorem QueueCursor.Circling.step {size : QueueSize} {Data : Type} {verdict : Data → Verdict}
    {cursor : QueueCursor size Data} (circling : cursor.Circling verdict) :
    ∃ next, cursor.look? verdict = some (next, none) ∧ next.Circling verdict := by
  obtain ⟨entries, offset, holding, standing, full, stays, noStop⟩ := circling
  obtain ⟨queue, pointer⟩ := cursor
  have inside : offset % size.slots < entries.length := by
    rw [full]
    exact Nat.mod_lt _ size.slots_pos
  have sameSlot : size.cell (queue.cursorAt offset).pointer =
        size.cell (queue.cursorAt (offset % size.slots)).pointer := by
    simp only [SharedQueue.cursorAt, size.cell_add, QueueSize.place]
    rw [Nat.add_mod_mod]
  obtain ⟨entry, found⟩ : ∃ entry, entries[offset % size.slots]? = some entry :=
    ⟨_, List.getElem?_eq_getElem inside⟩
  have seen : queue.peek (queue.cursorAt offset).pointer = (true, entry.isdel, entry.data) := by
    rw [← holding.peek found]
    simp only [SharedQueue.peek, sameSlot]
  rw [standing]
  rcases entry.quiet_or_removed_or_stops verdict with quiet | removed | stops
  · refine ⟨queue.cursorAt (offset + 1), ?_, entries, offset + 1, holding, rfl, full, stays, noStop⟩
    exact SharedQueue.look?_quiet seen quiet
  · have later : 0 < offset % size.slots := by
      refine Nat.pos_of_ne_zero fun front => stays ⟨entry, ?_, removed⟩
      rw [← front]
      exact found
    have marked : (queue.del (queue.cursorAt offset).pointer false).Holding
          (entries.set (offset % size.slots) { entry with isdel := true }) := by
      rw [SharedQueue.del_congr sameSlot]
      exact (holding.del_later found later false).1
    refine ⟨_, SharedQueue.look?_removed seen removed,
      entries.set (offset % size.slots) { entry with isdel := true }, 1, marked, rfl, ?_, ?_, ?_⟩
    · rw [List.length_set]
      exact full
    · rintro ⟨head, foundHead, headRemoved⟩
      rw [List.getElem?_set_ne (Nat.ne_of_gt later)] at foundHead
      exact stays ⟨head, foundHead, headRemoved⟩
    · intro other member otherStops
      rcases List.mem_or_eq_of_mem_set member with old | rfl
      · exact noStop other old otherStops
      · cases otherStops.1
  · exact absurd stops (noStop entry (List.mem_of_getElem? found))

/-- If some element of interest is not skipped, there is a first one. -/
theorem exists_first_unskipped {Data : Type} {verdict : Data → Verdict}
    {entries : List (QueueEntry Data)} {offset : Nat} {entry : QueueEntry Data}
    (found : entries[offset]? = some entry) (stops : entry.Stops verdict)
    (unskipped : ¬ Skipped verdict entries offset) :
    ∃ first other, entries[first]? = some other ∧ other.Stops verdict ∧
      ¬ Skipped verdict entries first ∧ ∀ earlier passed, earlier < first →
      entries[earlier]? = some passed → passed.Stops verdict → Skipped verdict entries earlier := by
  induction offset using Nat.strongRecOn generalizing entry with
  | ind offset inductionHypothesis =>
    by_cases least : ∀ earlier passed, earlier < offset → entries[earlier]? = some passed →
          passed.Stops verdict → Skipped verdict entries earlier
    · exact ⟨offset, entry, found, stops, unskipped, least⟩
    · push Not at least
      obtain ⟨earlier, passed, before, foundPassed, passedStops, passedUnskipped⟩ := least
      exact inductionHypothesis earlier before foundPassed passedStops passedUnskipped

/-- A scan stops at an element, comes to an empty slot, or goes round in a full queue. -/
theorem SharedQueue.Holding.scan_cases {size : QueueSize} {Data : Type}
    {queue : SharedQueue size Data} {entries : List (QueueEntry Data)}
    (holding : queue.Holding entries) (room : 1 < size.slots) (verdict : Data → Verdict) :
    (∃ offset entry, entries[offset]? = some entry ∧ entry.Stops verdict ∧
      ¬ Skipped verdict entries offset ∧ ∃ final : QueueCursor size Data,
      Passes (QueueCursor.look? verdict) (queue.cursorAt 0)
      final ∧ final.pointer = queue.receiver.pointer + UInt32.ofNat offset ∧
      final.queue.peek final.pointer = (true, false, entry.data)) ∨
      (∀ offset entry, entries[offset]? = some entry → entry.Stops verdict →
      Skipped verdict entries offset) ∧
      ((entries.length < size.slots ∨ HeadRemoved verdict entries) ∧
      (∃ final : QueueCursor size Data, Passes (QueueCursor.look? verdict) (queue.cursorAt 0)
      final ∧ (final.queue.peek final.pointer).1 = false) ∨
      ¬ (entries.length < size.slots ∨ HeadRemoved verdict entries) ∧
      (queue.cursorAt 0).Circling verdict) := by
  by_cases skips : ∀ offset entry, entries[offset]? = some entry → entry.Stops verdict →
        Skipped verdict entries offset
  · refine .inr ⟨skips, ?_⟩
    by_cases ends : entries.length < size.slots ∨ HeadRemoved verdict entries
    · exact .inl ⟨ends, holding.scan_exhausts room skips ends⟩
    · refine .inr ⟨ends, entries, 0, holding, rfl, ?_, ?_, ?_⟩
      · exact Nat.le_antisymm holding.fits (Nat.not_lt.mp fun short => ends (.inl short))
      · exact fun removed => ends (.inr removed)
      · intro entry member stops
        obtain ⟨offset, found⟩ := List.getElem?_of_mem member
        exact ends (.inr (skips offset entry found stops).1)
  · push Not at skips
    obtain ⟨offset, entry, found, stops, unskipped⟩ := skips
    obtain ⟨first, other, foundFirst, firstStops, firstUnskipped, least⟩ :=
      exists_first_unskipped found stops unskipped
    exact .inl ⟨first, other, foundFirst, firstStops, firstUnskipped,
      holding.scan_stops foundFirst firstStops firstUnskipped least⟩

end SocksDirect
