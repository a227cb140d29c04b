import SocksDirect.LocklessQueueV2Delivery

namespace SocksDirect

open Machine

open CircularWindow

/-!
# The credits of the variable-size message queue

`push_nb` and `del` of `locklessq_v2` as steps that interleave: every access to
the shared ring and to the return flag is a step of its own, and the private
pointers and counters are updated together with the access next to them.  The
messages have any size that `uint16_t` allows, and `del` is called for any
message that has been pushed and not been deleted, in any order.

`push_nb` takes one lump of credits when it has too few and goes on without
testing again, and the loop of `del` releases whatever looks like a deleted
header.
-/

/-- A message as the sender passes it to `push_nb`, of any size. -/
structure RingMessage where
  header : MetaElement
  payload : List UInt8
  valid : header.flags = bitmapIsValid
  sized : payload.length = header.size.toNat

/-- `slots_occupied`. -/
def RingMessage.slots (message : RingMessage) : Nat := message.header.slotsOccupied

theorem MetaElement.toNat_slotsOccupied (element : MetaElement) :
    (UInt32.ofNat element.slotsOccupied).toNat = element.slotsOccupied := by
  apply UInt32.toNat_ofNat_of_lt'
  have bound := element.size.toNat_lt
  show (element.size.toNat + 15) / 16 + 1 < 2 ^ 32
  omega

theorem RingMessage.toNat_slots (message : RingMessage) :
    (UInt32.ofNat message.slots).toNat = message.slots :=
  message.header.toNat_slotsOccupied

/-- A `push_nb` in progress, by its next step. -/
inductive PushStep where
  | testCredits (message : RingMessage)
  | readFlag (message : RingMessage)
  | takeFlag (message : RingMessage)
  | copyPayload (message : RingMessage)
  | copyHeader (message : RingMessage)

/-- A `del` in progress behind its deletion mark, by its next step. -/
inductive DelStep where
  | testValid
  | testDel
  | clearValid
  | release
  | returnCredits
  deriving Repr, DecidableEq

/--
The shared memory, the two sides and their calls.  `undeleted`, which no step
reads, lists the messages that have been pushed and not been deleted.
-/
structure MessageRing where
  bytesArr : Nat → UInt8
  returnFlag : Bool
  sender : QueueEnd
  receiver : QueueEnd
  push : Option PushStep
  del : Option DelStep
  undeleted : List (UInt32 × MetaElement)

/--
A call of `push_nb`, its next step, a `del` of one of the messages that have
not been deleted, and its next step.
-/
inductive MessageRingAction where
  | pushNb (message : RingMessage)
  | sender
  | del (index : Nat)
  | receiver

namespace MessageRing

open LocklessQueueV2 (metaAt setFlags creditsPerReturn flagCredits)

/-- `init` on both sides and `init_mem`. -/
def initial : MessageRing where
  bytesArr := fun _ => 0
  returnFlag := false
  sender := { pointer := 0, credits := locklessqSize.word }
  receiver := { pointer := 0, credits := 0 }
  push := none
  del := none
  undeleted := []

/-- The header in the slot that a location selects. -/
def peekMeta (ring : MessageRing) (loc : UInt32) : MetaElement :=
  metaAt ring.bytesArr (locklessqSize.cell loc)

/-- The `memcpy` of the payload behind the slot at the pointer. -/
def copyPayload (bytes : Nat → UInt8) (pointer : UInt32) (payload : List UInt8) : Nat → UInt8 :=
  store locklessqBytes bytes (16 * locklessqSize.cell (pointer + 1))
    payload.length fun offset => payload.getD offset 0

/-- The 16-byte copy of the header to the slot at the pointer. -/
def copyHeader (bytes : Nat → UInt8) (pointer : UInt32) (header : MetaElement) : Nat → UInt8 :=
  store locklessqBytes bytes (16 * locklessqSize.cell pointer) 16 header.byteAt

/-- The next step of `push_nb`. -/
def senderStep (ring : MessageRing) : PushStep → MessageRing
  | .testCredits message =>
    { ring with
      push := some
        (if ring.sender.credits < UInt32.ofNat message.slots then
          .readFlag message
        else
          .copyPayload message) }
  | .readFlag message =>
    { ring with push := if ring.returnFlag then some (.takeFlag message) else none }
  | .takeFlag message =>
    { ring with
      returnFlag := false
      sender := { ring.sender with credits := ring.sender.credits + creditsPerReturn }
      push := some (.copyPayload message) }
  | .copyPayload message =>
    { ring with
      bytesArr := copyPayload ring.bytesArr ring.sender.pointer message.payload
      push := some (.copyHeader message) }
  | .copyHeader message =>
    { ring with
      bytesArr := copyHeader ring.bytesArr ring.sender.pointer message.header
      sender :=
        { pointer := ring.sender.pointer + UInt32.ofNat message.slots
          credits := ring.sender.credits - UInt32.ofNat message.slots }
      push := none
      undeleted := ring.undeleted ++ [(ring.sender.pointer, message.header)] }

/-- The next step of `del` behind its deletion mark. -/
def receiverStep (ring : MessageRing) : DelStep → MessageRing
  | .testValid =>
    { ring with
      del :=
        if (ring.peekMeta ring.receiver.pointer).IsValid then some .testDel else none }
  | .testDel =>
    { ring with
      del :=
        if (ring.peekMeta ring.receiver.pointer).IsDel then some .clearValid else none }
  | .clearValid =>
    { ring with
      bytesArr :=
        setFlags ring.bytesArr (locklessqSize.cell ring.receiver.pointer)
          ((ring.peekMeta ring.receiver.pointer).flags &&& ~~~bitmapIsValid)
      del := some .release }
  | .release =>
    let slots := UInt32.ofNat (ring.peekMeta ring.receiver.pointer).slotsOccupied
    let credits := ring.receiver.credits + slots
    { ring with
      receiver := { pointer := ring.receiver.pointer + slots, credits := credits }
      del := some
        (if creditsPerReturn ≤ credits then .returnCredits else .testValid) }
  | .returnCredits =>
    { ring with
      returnFlag := true
      receiver := { ring.receiver with credits := ring.receiver.credits - creditsPerReturn }
      del := some .testValid }

/-- `del` up to its comparison with the receiver's pointer. -/
def markDel (ring : MessageRing) (index : Nat) (loc : UInt32) : MessageRing :=
  { ring with
    bytesArr :=
      setFlags ring.bytesArr (locklessqSize.cell loc) ((ring.peekMeta loc).flags ||| bitmapIsDel)
    del :=
      if locklessqSize.cell loc = locklessqSize.cell ring.receiver.pointer then
        some .testValid
      else
        none
    undeleted := ring.undeleted.eraseIdx index }

/-- One step of one side. -/
def step? (ring : MessageRing) : MessageRingAction → Option MessageRing
  | .pushNb message =>
    match ring.push with
    | none => some { ring with push := some (.testCredits message) }
    | some _ => none
  | .sender => ring.push.map ring.senderStep
  | .del index =>
    match ring.del, ring.undeleted[index]? with
    | none, some (loc, _) => some (ring.markDel index loc)
    | _, _ => none
  | .receiver => ring.del.map ring.receiverStep

/-- The slots of the messages that have not been deleted. -/
def undeletedSlots (ring : MessageRing) : Nat :=
  (ring.undeleted.map fun message => message.2.slotsOccupied).sum

/-- The message that `push_nb` has accepted and will return true for. -/
def accepted? (ring : MessageRing) : Option RingMessage :=
  match ring.push with
  | some (.copyPayload message) => some message
  | some (.copyHeader message) => some message
  | _ => none

/--
An accepted message fits in the slots that no undeleted message occupies, and
the sender has the credits that it will subtract.
-/
def NeverOverCommits (ring : MessageRing) : Prop :=
  ∀ message, ring.accepted? = some message →
    message.slots + ring.undeletedSlots ≤ locklessqSize.slots ∧
      message.slots ≤ ring.sender.credits.toNat

/-- The header looks like that of a deleted message. -/
def LooksDeleted (element : MetaElement) : Prop := element.IsValid ∧ element.IsDel

instance (element : MetaElement) : Decidable (LooksDeleted element) :=
  inferInstanceAs (Decidable (_ ∧ _))

/--
One lump of credits is enough for the message that takes it, and a message ends in
front of a slot that does not look deleted, or fills the ring.
-/
def SenderCondition (ring : MessageRing) : PushStep → Prop
  | .takeFlag message => message.slots ≤ ring.sender.credits.toNat + creditsPerReturn.toNat
  | .copyHeader message =>
    let tail := ring.sender.pointer + UInt32.ofNat message.slots
    tail - ring.receiver.pointer = locklessqSize.word ∨ ¬ LooksDeleted (ring.peekMeta tail)
  | .testCredits _ => True
  | .readFlag _ => True
  | .copyPayload _ => True

instance (ring : MessageRing) (place : PushStep) : Decidable (ring.SenderCondition place) := by
  unfold SenderCondition
  split <;> infer_instance

/-- The condition on a step. -/
def LumpSufficesAndTailIsClean (ring : MessageRing) : MessageRingAction → Prop
  | .sender => ring.push.all fun place => decide (ring.SenderCondition place)
  | .pushNb _ => True
  | .del _ => True
  | .receiver => True

instance (ring : MessageRing) (action : MessageRingAction) :
    Decidable (ring.LumpSufficesAndTailIsClean action) := by
  unfold LumpSufficesAndTailIsClean
  split <;> infer_instance

section Bytes

open LocklessQueueV2 (byte_cell locklessqBytes_eq metaAt_congr)

variable {bytes : Nat → UInt8} {position other : Nat}

theorem metaAt_add_ring (bytes : Nat → UInt8) (position : Nat) :
    metaAt bytes (position + 512) = metaAt bytes position := by
  have sameByte : ∀ offset, (16 * (position + 512) + offset) % locklessqBytes =
          (16 * position + offset) % locklessqBytes := by
    intro offset
    rw [locklessqBytes_eq]
    omega
  simp only [metaAt, sameByte]

theorem metaAt_setFlags_of_ne (flags : UInt8) (different : other % 512 ≠ position % 512) :
    metaAt (setFlags bytes position flags) other = metaAt bytes other := by
  apply metaAt_congr
  intro offset inside
  refine Function.update_of_ne ?_ _ _
  rw [locklessqBytes_eq]
  omega

theorem metaAt_copyPayload {payload : List UInt8} {slots : Nat}
    (fits : payload.length ≤ 16 * (slots - 1)) (positive : 0 < slots)
    (behind : position + slots ≤ other) (near : other ≤ position + 512) :
    metaAt (copyPayload bytes (UInt32.ofNat position) payload) other = metaAt bytes other := by
  have next : UInt32.ofNat position + 1 = UInt32.ofNat (position + 1) :=
    (UInt32.ofNat_add position 1).symm
  have start : 16 * locklessqSize.cell (UInt32.ofNat (position + 1)) %
          locklessqBytes = 16 * (position + 1) % locklessqBytes :=
    byte_cell (position + 1) 0
  apply metaAt_congr
  intro offset inside
  rw [copyPayload, next, store_congr_start start]
  apply store_behind
  · omega
  · rw [locklessqBytes_eq]
    omega

theorem metaAt_copyHeader (bytes : Nat → UInt8) (position : Nat) (header : MetaElement) :
    metaAt (copyHeader bytes (UInt32.ofNat position) header) position = header := by
  have start : 16 * locklessqSize.cell (UInt32.ofNat position) % locklessqBytes =
        16 * position % locklessqBytes :=
    byte_cell position 0
  rw [← header.ofBytes_byteAt]
  apply MetaElement.ofBytes_congr
  intro offset inside
  rw [copyHeader, store_congr_start start, header.ofBytes_byteAt]
  exact store_inside _ _ (by rw [locklessqBytes_eq]; omega) inside

theorem metaAt_copyHeader_of_ne {header : MetaElement} (behind : position < other)
    (near : other < position + 512) :
    metaAt (copyHeader bytes (UInt32.ofNat position) header) other = metaAt bytes other := by
  have start : 16 * locklessqSize.cell (UInt32.ofNat position) % locklessqBytes =
        16 * position % locklessqBytes :=
    byte_cell position 0
  apply metaAt_congr
  intro offset inside
  rw [copyHeader, store_congr_start start]
  apply store_behind
  · omega
  · rw [locklessqBytes_eq]
    omega

end Bytes

/-- What has become of a message whose slots have not been released. -/
inductive HeldStatus where
  | live
  | deleted
  | cleared
  deriving Repr, DecidableEq

/-- The flags in the ring. -/
def HeldStatus.flags : HeldStatus → UInt8
  | .live => bitmapIsValid
  | .deleted => bitmapIsValid ||| bitmapIsDel
  | .cleared => bitmapIsDel

/-- A message whose slots have not been released. -/
structure Held where
  header : MetaElement
  status : HeldStatus

namespace Held

/-- The slots of a held message. -/
def slots (held : Held) : Nat := held.header.slotsOccupied

/-- The header as it is in the ring. -/
def stored (held : Held) : MetaElement := { held.header with flags := held.status.flags }

/-- The slots of held messages. -/
def totalSlots : List Held → Nat
  | [] => 0
  | held :: rest => held.slots + totalSlots rest

@[simp] theorem totalSlots_append (first second : List Held) :
    totalSlots (first ++ second) = totalSlots first + totalSlots second := by
  induction first with
  | nil => simp [totalSlots]
  | cons held rest inductionHypothesis => simp [totalSlots, inductionHypothesis, Nat.add_assoc]

theorem slots_pos (held : Held) : 0 < held.slots := Nat.succ_pos _

/-- The headers lie behind each other from the slot of a position on. -/
def StoredFrom (bytes : Nat → UInt8) : Nat → List Held → Prop
  | _, [] => True
  | position, held :: rest =>
    metaAt bytes position = held.stored ∧ StoredFrom bytes (position + held.slots) rest

/-- The places and headers of the live messages. -/
def liveFrom : Nat → List Held → List (UInt32 × MetaElement)
  | _, [] => []
  | position, held :: rest =>
    if held.status = .live then
      (UInt32.ofNat position, held.header) :: liveFrom (position + held.slots) rest
    else
      liveFrom (position + held.slots) rest

variable {bytes other : Nat → UInt8} {position : Nat} {window front back : List Held}

theorem storedFrom_append : StoredFrom bytes position (front ++ back) ↔
      StoredFrom bytes position front ∧ StoredFrom bytes (position + totalSlots front) back := by
  induction front generalizing position with
  | nil => simp [StoredFrom, totalSlots]
  | cons held rest inductionHypothesis =>
    simp [StoredFrom, totalSlots, inductionHypothesis, and_assoc, Nat.add_assoc]

theorem StoredFrom.congr (stored : StoredFrom bytes position window)
    (same : ∀ slot, position ≤ slot → slot < position + totalSlots window →
        metaAt other slot = metaAt bytes slot) :
    StoredFrom other position window := by
  induction window generalizing position with
  | nil => exact trivial
  | cons held rest inductionHypothesis =>
    have positive := held.slots_pos
    simp only [totalSlots] at same
    refine ⟨?_, inductionHypothesis stored.2 ?_⟩
    · rw [same position (Nat.le_refl position) (by omega)]
      exact stored.1
    · intro slot lower upper
      exact same slot (by omega) (by omega)

theorem liveFrom_append : liveFrom position (front ++ back) =
      liveFrom position front ++ liveFrom (position + totalSlots front) back := by
  induction front generalizing position with
  | nil => simp [liveFrom, totalSlots]
  | cons held rest inductionHypothesis =>
    simp only [List.cons_append, liveFrom, totalSlots, inductionHypothesis, Nat.add_assoc]
    split <;> rfl

/-- A live message is found in the window, and may be marked there. -/
theorem exists_of_getElem?_liveFrom {index : Nat} {loc : UInt32} {header : MetaElement}
    (found : (liveFrom position window)[index]? = some (loc, header)) :
    ∃ front held back, window = front ++ held :: back ∧ held.status = .live ∧
        loc = UInt32.ofNat (position + totalSlots front) ∧
        (liveFrom position window).eraseIdx index =
          liveFrom position (front ++ { held with status := .deleted } :: back) := by
  induction window generalizing position index with
  | nil => simp [liveFrom] at found
  | cons first rest inductionHypothesis =>
    by_cases isLive : first.status = .live
    · rw [liveFrom, if_pos isLive] at found ⊢
      cases index with
      | zero =>
        simp only [List.getElem?_cons_zero, Option.some.injEq, Prod.mk.injEq] at found
        refine ⟨[], first, rest, rfl, isLive, ?_, ?_⟩
        · exact found.1.symm
        · simp [liveFrom, slots]
      | succ index =>
        obtain ⟨front, held, back, split, live, isLoc, erased⟩ := inductionHypothesis found
        refine ⟨first :: front, held, back, ?_, live, ?_, ?_⟩
        · rw [split, List.cons_append]
        · rw [isLoc, totalSlots, Nat.add_assoc]
        · rw [List.eraseIdx_cons_succ, erased, List.cons_append, liveFrom, if_pos isLive]
    · rw [liveFrom, if_neg isLive] at found ⊢
      obtain ⟨front, held, back, split, live, isLoc, erased⟩ := inductionHypothesis found
      refine ⟨first :: front, held, back, ?_, live, ?_, ?_⟩
      · rw [split, List.cons_append]
      · rw [isLoc, totalSlots, Nat.add_assoc]
      · rw [erased, List.cons_append, liveFrom, if_neg isLive]

theorem sum_liveFrom_le (position : Nat) (window : List Held) :
    ((liveFrom position window).map fun message =>
        message.2.slotsOccupied).sum ≤ totalSlots window := by
  induction window generalizing position with
  | nil => simp [liveFrom]
  | cons held rest inductionHypothesis =>
    have below := inductionHypothesis (position + held.slots)
    rw [liveFrom, totalSlots]
    split
    · exact Nat.add_le_add_left below held.slots
    · omega

end Held

open Held (totalSlots StoredFrom liveFrom)

/-- What `push_nb` has found out on the way to its next step. -/
def PushReady (ring : MessageRing) : Option PushStep → Prop
  | some (.takeFlag _) => ring.returnFlag = true
  | some (.copyPayload message) => message.slots ≤ ring.sender.credits.toNat
  | some (.copyHeader message) => message.slots ≤ ring.sender.credits.toNat
  | _ => True

/-- What `del` has found out on the way to its next step. -/
def DelReady (bytes : Nat → UInt8) (credits : UInt32) (released : Nat) (window : List Held) :
    Option DelStep → Prop
  | some .returnCredits => 257 ≤ credits.toNat
  | some .testDel => credits.toNat < 257 ∧ (metaAt bytes released).IsValid
  | some .clearValid => ∃ held rest, window = held :: rest ∧ held.status = .deleted
  | some .release => ∃ held rest, window = held :: rest ∧ held.status = .cleared
  | _ => credits.toNat < 257

theorem DelReady.append {bytes other : Nat → UInt8} {credits : UInt32} {released : Nat}
    {window : List Held} {place : Option DelStep}
    (ready : DelReady bytes credits released window place) (back : List Held)
    (valid : (metaAt bytes released).IsValid → (metaAt other released).IsValid) :
    DelReady other credits released (window ++ back) place := by
  rcases place with _ | _ | _ | _ | _ | _
  case some.testDel => exact ⟨ready.1, valid ready.2⟩
  case some.clearValid | some.release =>
    obtain ⟨held, rest, rfl, status⟩ := ready
    exact ⟨held, rest ++ back, rfl, status⟩
  all_goals exact ready

/--
The held messages lie between the two pointers, every credit is accounted for, and
the slot behind the last message does not look like a deleted header unless the
ring is full.
-/
structure Tracks
    (released : Nat)
    (window : List Held)
    (ring : MessageRing) : Prop where
  senderPointer : ring.sender.pointer = UInt32.ofNat (released + totalSlots window)
  receiverPointer : ring.receiver.pointer = UInt32.ofNat released
  stored : StoredFrom ring.bytesArr released window
  undeleted : ring.undeleted = liveFrom released window
  account : ring.sender.credits.toNat + totalSlots window +
        ring.receiver.credits.toNat + flagCredits ring.returnFlag = 512
  pushing : ring.PushReady ring.push
  deleting : DelReady ring.bytesArr ring.receiver.credits released window ring.del
  clean :
    totalSlots window = 512 ∨ ¬ LooksDeleted (metaAt ring.bytesArr (released + totalSlots window))

namespace Tracks

variable {released : Nat} {window : List Held} {ring : MessageRing} {message : RingMessage}

theorem initially : Tracks 0 [] initial where
  senderPointer := rfl
  receiverPointer := rfl
  stored := trivial
  undeleted := rfl
  account := rfl
  pushing := trivial
  deleting := by show (0 : UInt32).toNat < 257; decide
  clean := Or.inr (by decide)

section

variable (tracks : Tracks released window ring)

include tracks

/-- An accepted message fits, and its credits are there. -/
theorem neverOverCommits : ring.NeverOverCommits := by
  intro message accepted
  have enough : message.slots ≤ ring.sender.credits.toNat := by
    have ready := tracks.pushing
    rw [accepted?] at accepted
    split at accepted
    case h_1 place | h_2 place =>
        cases accepted
        rw [place] at ready
        exact ready
    case h_3 => cases accepted
  have account := tracks.account
  refine ⟨?_, enough⟩
  have below := Held.sum_liveFrom_le released window
  rw [← tracks.undeleted] at below
  rw [undeletedSlots, LocklessQueueV2.slots_locklessqSize]
  omega

/-- The payload goes into slots that no held message occupies. -/
theorem copyPayload (enough : message.slots ≤ ring.sender.credits.toNat) :
    Tracks released window (ring.senderStep (.copyPayload message)) := by
  have account := tracks.account
  have positive : 0 < message.slots := Nat.succ_pos _
  have fits : message.payload.length ≤ 16 * (message.slots - 1) := by
    rw [message.sized, RingMessage.slots, MetaElement.slotsOccupied]
    omega
  have same : ∀ slot, released ≤ slot → slot ≤ released + totalSlots window →
        metaAt (MessageRing.copyPayload ring.bytesArr ring.sender.pointer message.payload) slot =
          metaAt ring.bytesArr slot := by
    intro slot lower upper
    rw [tracks.senderPointer, ← metaAt_add_ring, ← metaAt_add_ring _ slot]
    exact metaAt_copyPayload fits positive (by omega) (by omega)
  have atFront := same released (Nat.le_refl _) (Nat.le_add_right ..)
  exact { tracks with
    stored := tracks.stored.congr fun slot lower upper => same slot lower (Nat.le_of_lt upper)
    pushing := enough
    deleting := by
      have ready := tracks.deleting.append [] fun valid => atFront ▸ valid
      rwa [List.append_nil] at ready
    clean := by
      rw [senderStep, same _ (Nat.le_add_right ..) (Nat.le_refl _)]
      exact tracks.clean }

/-- The message is held from the copy of its header on. -/
theorem copyHeader (enough : message.slots ≤ ring.sender.credits.toNat)
    (clean : totalSlots window + message.slots = 512 ∨
        ¬ LooksDeleted (metaAt ring.bytesArr (released + totalSlots window + message.slots))) :
    Tracks released (window ++ [⟨message.header, .live⟩])
      (ring.senderStep (.copyHeader message)) := by
  have account := tracks.account
  have positive : 0 < message.slots := Nat.succ_pos _
  have total :
      totalSlots (window ++ [⟨message.header, .live⟩]) = totalSlots window + message.slots := by
    simp [totalSlots, Held.slots, RingMessage.slots]
  have spent : (ring.sender.credits - UInt32.ofNat message.slots).toNat =
        ring.sender.credits.toNat - message.slots := by
    rw [UInt32.toNat_sub_of_le _ _
      (UInt32.le_iff_toNat_le.mpr (by rw [message.toNat_slots]; exact enough)), message.toNat_slots]
  have isStored : (⟨message.header, .live⟩ : Held).stored = message.header := by
    rw [Held.stored, HeldStatus.flags, ← message.valid]
  have written : metaAt (MessageRing.copyHeader ring.bytesArr ring.sender.pointer message.header)
          (released + totalSlots window) = message.header := by
    rw [tracks.senderPointer]
    exact metaAt_copyHeader _ _ _
  have earlier : ∀ slot, released ≤ slot → slot < released + totalSlots window →
        metaAt (MessageRing.copyHeader ring.bytesArr ring.sender.pointer message.header) slot =
          metaAt ring.bytesArr slot := by
    intro slot lower upper
    rw [tracks.senderPointer, ← metaAt_add_ring, ← metaAt_add_ring _ slot]
    exact metaAt_copyHeader_of_ne (by omega) (by omega)
  constructor
  case senderPointer =>
    simp only [senderStep, tracks.senderPointer]
    rw [← UInt32.ofNat_add, total, Nat.add_assoc]
  case receiverPointer => exact tracks.receiverPointer
  case stored =>
    refine Held.storedFrom_append.mpr ⟨tracks.stored.congr earlier, ?_, trivial⟩
    rw [isStored]
    exact written
  case undeleted =>
    simp only [senderStep]
    rw [Held.liveFrom_append, tracks.undeleted, tracks.senderPointer]
    rfl
  case account =>
    simp only [senderStep, spent, total]
    omega
  case pushing => trivial
  case deleting =>
    refine tracks.deleting.append _ fun valid => ?_
    simp only [senderStep]
    cases window with
    | nil =>
      simp only [totalSlots, Nat.add_zero] at written
      rw [written, MetaElement.IsValid, message.valid]
      decide
    | cons held rest =>
      have heldPositive := held.slots_pos
      rw [earlier released (Nat.le_refl _) (by simp only [totalSlots]; omega)]
      exact valid
  case clean =>
    rw [total]
    by_cases whole : message.slots = 512
    · left
      omega
    · refine clean.imp_right fun notDeleted => ?_
      simp only [senderStep]
      rw [tracks.senderPointer, ← Nat.add_assoc, metaAt_copyHeader_of_ne (by omega) (by omega)]
      exact notDeleted

/-- The condition on the tail, in terms of positions. -/
theorem clean_of_condition (enough : message.slots ≤ ring.sender.credits.toNat)
    (condition : ring.SenderCondition (.copyHeader message)) :
    totalSlots window + message.slots = 512 ∨
      ¬ LooksDeleted (metaAt ring.bytesArr (released + totalSlots window + message.slots)) := by
  have account := tracks.account
  have tail : ring.sender.pointer + UInt32.ofNat message.slots =
        UInt32.ofNat (released + totalSlots window + message.slots) := by
    rw [tracks.senderPointer, ← UInt32.ofNat_add]
  rcases condition with full | notDeleted
  · left
    rw [tail, tracks.receiverPointer] at full
    have distance :=
      toNat_ofNat_sub_ofNat_word32
        (show released ≤ released + totalSlots window + message.slots by omega)
        (by omega)
    rw [full, QueueSize.toNat_word, LocklessQueueV2.slots_locklessqSize] at distance
    omega
  · right
    rw [peekMeta, tail, LocklessQueueV2.metaAt_cell] at notDeleted
    exact notDeleted

/-- The steps of `push_nb`. -/
theorem sender {place : PushStep} (isPlace : ring.push = some place)
    (condition : ring.SenderCondition place) :
    ∃ next, Tracks released next (ring.senderStep place) := by
  have account := tracks.account
  have ready := tracks.pushing
  rw [isPlace] at ready
  cases place with
  | testCredits message =>
    refine ⟨window, { tracks with pushing := ?_ }⟩
    by_cases short : ring.sender.credits < UInt32.ofNat message.slots
    · simp only [senderStep, if_pos short, PushReady]
    · simp only [senderStep, if_neg short, PushReady]
      rw [UInt32.lt_iff_toNat_lt, message.toNat_slots] at short
      omega
  | readFlag message =>
    refine ⟨window, { tracks with pushing := ?_ }⟩
    by_cases flag : ring.returnFlag = true
    · simp only [senderStep, if_pos flag, PushReady]
      exact flag
    · simp only [senderStep, if_neg flag, PushReady]
  | takeFlag message =>
    -- The lump goes from the flag to the sender.
    have flag : ring.returnFlag = true := ready
    rw [flag, flagCredits, if_pos rfl] at account
    have added : (ring.sender.credits + creditsPerReturn).toNat = ring.sender.credits.toNat + 257 :=
      toNat_add_word32 (show ring.sender.credits.toNat + 257 < 2 ^ 32 by omega)
    refine ⟨window, { tracks with account := ?_, pushing := ?_ }⟩
    · simp only [senderStep, added, flagCredits, Bool.false_eq_true, if_false]
      omega
    · simp only [senderStep, PushReady, added]
      exact condition
  | copyPayload message => exact ⟨window, tracks.copyPayload ready⟩
  | copyHeader message =>
    exact ⟨_, tracks.copyHeader ready (tracks.clean_of_condition ready condition)⟩

theorem peekMeta_receiver :
    ring.peekMeta ring.receiver.pointer = metaAt ring.bytesArr released := by
  rw [peekMeta, tracks.receiverPointer, LocklessQueueV2.metaAt_cell]

/-- A slot at the pointer that looks deleted is the oldest held message. -/
theorem front_of_looksDeleted (looksDeleted : LooksDeleted (metaAt ring.bytesArr released)) :
    ∃ held rest, window = held :: rest ∧ held.status = .deleted := by
  cases window with
  | nil =>
    exfalso
    rcases tracks.clean with full | notDeleted
    · cases full
    · exact notDeleted looksDeleted
  | cons held rest =>
    refine ⟨held, rest, rfl, ?_⟩
    rw [tracks.stored.1] at looksDeleted
    obtain ⟨valid, del⟩ := looksDeleted
    cases status : held.status with
    | live =>
      rw [MetaElement.IsDel, Held.stored, status] at del
      exact absurd (show HeldStatus.live.flags &&& bitmapIsDel = 0 by decide) del
    | deleted => rfl
    | cleared =>
      rw [MetaElement.IsValid, Held.stored, status] at valid
      exact absurd (show HeldStatus.cleared.flags &&& bitmapIsValid = 0 by decide) valid

end

/-- New flags for one held message leave the others and the tail alone. -/
theorem setStatus {front back : List Held} {held : Held} {place : Option DelStep}
    {undeleted : List (UInt32 × MetaElement)}
    (tracks : Tracks released (front ++ held :: back) ring) (status : HeldStatus)
    (isLive : undeleted = liveFrom released (front ++ { held with status := status } :: back))
    (deleting : DelReady (setFlags ring.bytesArr (released + totalSlots front) status.flags)
        ring.receiver.credits released (front ++ { held with status := status } :: back) place) :
    Tracks released (front ++ { held with status := status } :: back)
      { ring with
        bytesArr := setFlags ring.bytesArr (released + totalSlots front) status.flags
        del := place
        undeleted := undeleted } := by
  have account := tracks.account
  have positive := held.slots_pos
  have stored := Held.storedFrom_append.mp tracks.stored
  have total : totalSlots (front ++ { held with status := status } :: back) =
        totalSlots (front ++ held :: back) := by
    simp [totalSlots, Held.slots]
  refine
    { senderPointer := by rw [total]; exact tracks.senderPointer
      receiverPointer := tracks.receiverPointer
      stored := Held.storedFrom_append.mpr ⟨?_, ?_, ?_⟩
      undeleted := isLive
      account := by rw [total]; exact account
      pushing := tracks.pushing
      deleting := deleting
      clean := ?_ }
  all_goals simp only [Held.totalSlots_append, totalSlots] at account
  · refine stored.1.congr fun slot lower upper => ?_
    exact metaAt_setFlags_of_ne _ (by omega)
  · rw [LocklessQueueV2.metaAt_setFlags _ _ rfl, stored.2.1]
    rfl
  · refine stored.2.2.congr fun slot lower upper => ?_
    exact metaAt_setFlags_of_ne _ (by omega)
  · rw [total]
    refine (Nat.lt_or_ge (totalSlots (front ++ held :: back)) 512).elim (fun notFull => ?_)
      fun full => Or.inl (by simp only [Held.totalSlots_append, totalSlots] at full ⊢; omega)
    rw [metaAt_setFlags_of_ne _
      (by simp only [Held.totalSlots_append, totalSlots] at notFull ⊢; omega)]
    exact tracks.clean

/-- The loop clears the valid bit of the oldest held message. -/
theorem clearValid {held : Held} (tracks : Tracks released (held :: window) ring)
    (isDeleted : held.status = .deleted) :
    Tracks released ({ held with status := .cleared } :: window)
      (ring.receiverStep .clearValid) := by
  have flags : (ring.peekMeta ring.receiver.pointer).flags &&& ~~~bitmapIsValid =
        HeldStatus.cleared.flags := by
    rw [tracks.peekMeta_receiver, tracks.stored.1, Held.stored, isDeleted]
    show HeldStatus.deleted.flags &&& ~~~bitmapIsValid = _
    decide
  have sameLive : ring.undeleted =
        liveFrom released ([] ++ { held with status := HeldStatus.cleared } :: window) := by
    rw [tracks.undeleted]
    simp [liveFrom, isDeleted, Held.slots]
  rw [receiverStep, flags, tracks.receiverPointer, LocklessQueueV2.setFlags_cell]
  have inFront : Tracks released ([] ++ held :: window) ring := tracks
  exact inFront.setStatus .cleared sameLive ⟨_, window, rfl, rfl⟩

/-- The loop releases the slots of the oldest held message. -/
theorem release {held : Held} (tracks : Tracks released (held :: window) ring)
    (isCleared : held.status = .cleared) :
    Tracks (released + held.slots) window (ring.receiverStep .release) := by
  have account := tracks.account
  have clean := tracks.clean
  simp only [totalSlots] at account clean
  have slots : (ring.peekMeta ring.receiver.pointer).slotsOccupied = held.slots := by
    rw [tracks.peekMeta_receiver, tracks.stored.1]
    rfl
  have sum : (ring.receiver.credits + UInt32.ofNat held.slots).toNat =
        ring.receiver.credits.toNat + held.slots := by
    rw [UInt32.toNat_add,
      show (UInt32.ofNat held.slots).toNat = held.slots from held.header.toNat_slotsOccupied]
    exact Nat.mod_eq_of_lt (show ring.receiver.credits.toNat + held.slots < 2 ^ 32 by omega)
  have perReturn : creditsPerReturn.toNat = 257 := rfl
  rw [receiverStep, slots]
  constructor
  case senderPointer => rw [tracks.senderPointer, totalSlots, Nat.add_assoc]
  case receiverPointer => rw [tracks.receiverPointer, ← UInt32.ofNat_add]
  case stored => exact tracks.stored.2
  case undeleted => rw [tracks.undeleted, liveFrom, isCleared, if_neg (by rintro ⟨⟩)]
  case account =>
    simp only [sum]
    omega
  case pushing => exact tracks.pushing
  case deleting =>
    split
    all_goals
      rename_i full
      rw [UInt32.le_iff_toNat_le, sum, perReturn] at full
      simp only [DelReady, sum]
      omega
  case clean =>
    right
    rw [Nat.add_assoc]
    rcases clean with full | notDeleted
    · rw [full, metaAt_add_ring, tracks.stored.1, Held.stored, isCleared]
      rintro ⟨valid, -⟩
      exact absurd (show HeldStatus.cleared.flags &&& bitmapIsValid = 0 by decide) valid
    · exact notDeleted

/-- One lump of credits goes from the receiver to the flag. -/
theorem returnCredits (tracks : Tracks released window ring)
    (enough : 257 ≤ ring.receiver.credits.toNat) :
    Tracks released window (ring.receiverStep .returnCredits) := by
  have account := tracks.account
  have perReturn : creditsPerReturn.toNat = 257 := rfl
  have flag : ring.returnFlag = false := by
    cases isSet : ring.returnFlag with
    | false => rfl
    | true =>
      rw [isSet, flagCredits, if_pos rfl] at account
      omega
  rw [flag, flagCredits, if_neg Bool.false_ne_true] at account
  have spent :
      (ring.receiver.credits - creditsPerReturn).toNat = ring.receiver.credits.toNat - 257 := by
    rw [UInt32.toNat_sub_of_le _ _
      (UInt32.le_iff_toNat_le.mpr (by rw [perReturn]; exact enough)), perReturn]
  refine { tracks with account := ?_, pushing := ?_, deleting := ?_ }
  · simp only [receiverStep, spent, flagCredits, if_true]
    omega
  · have ready := tracks.pushing
    rw [receiverStep]
    rcases push : ring.push with _ | _ | _ | _ | _ | _ <;> rw [push] at ready
    case some.takeFlag => rfl
    all_goals exact ready
  · simp only [receiverStep, DelReady, spent]
    omega

/-- `del` marks a live message. -/
theorem markDel {index : Nat} {loc : UInt32} {header : MetaElement}
    (tracks : Tracks released window ring) (idle : ring.del = none)
    (found : ring.undeleted[index]? = some (loc, header)) :
    ∃ next, Tracks released next (ring.markDel index loc) := by
  have counted := tracks.deleting
  rw [idle] at counted
  rw [tracks.undeleted] at found
  obtain ⟨front, held, back, rfl, isLive, rfl, erased⟩ := Held.exists_of_getElem?_liveFrom found
  have stored := (Held.storedFrom_append.mp tracks.stored).2.1
  have flags : (ring.peekMeta (UInt32.ofNat (released + totalSlots front))).flags ||| bitmapIsDel =
        HeldStatus.deleted.flags := by
    rw [peekMeta, LocklessQueueV2.metaAt_cell, stored, Held.stored, isLive]
    show HeldStatus.live.flags ||| bitmapIsDel = _
    decide
  refine ⟨front ++ { held with status := .deleted } :: back, ?_⟩
  rw [MessageRing.markDel, flags, LocklessQueueV2.setFlags_cell, tracks.undeleted]
  refine tracks.setStatus .deleted erased ?_
  split <;> exact counted

/-- The steps of `del` behind its mark. -/
theorem receiver {place : DelStep} (tracks : Tracks released window ring)
    (isPlace : ring.del = some place) :
    ∃ nextReleased next, Tracks nextReleased next (ring.receiverStep place) := by
  have ready := tracks.deleting
  rw [isPlace] at ready
  cases place with
  | testValid =>
    refine ⟨released, window, { tracks with deleting := ?_ }⟩
    rw [receiverStep, tracks.peekMeta_receiver]
    split
    · next valid => exact ⟨ready, valid⟩
    · exact ready
  | testDel =>
    refine ⟨released, window, { tracks with deleting := ?_ }⟩
    rw [receiverStep, tracks.peekMeta_receiver]
    split
    · next del => exact tracks.front_of_looksDeleted ⟨ready.2, del⟩
    · exact ready.1
  | clearValid =>
    obtain ⟨held, rest, rfl, isDeleted⟩ := ready
    exact ⟨released, _, tracks.clearValid isDeleted⟩
  | release =>
    obtain ⟨held, rest, rfl, isCleared⟩ := ready
    exact ⟨_, rest, tracks.release isCleared⟩
  | returnCredits => exact ⟨released, window, tracks.returnCredits ready⟩

end Tracks

/-- Some held messages account for the state. -/
def Tracked (ring : MessageRing) : Prop := ∃ released window, Tracks released window ring

/-- Every step that meets the condition keeps the account. -/
theorem Tracked.step {ring next : MessageRing} {action : MessageRingAction} (tracked : ring.Tracked)
    (condition : ring.LumpSufficesAndTailIsClean action) (stepped : ring.step? action = some next) :
    next.Tracked := by
  obtain ⟨released, window, tracks⟩ := tracked
  revert stepped
  fun_cases step? with (intro stepped; try cases stepped)
  | case1 => exact ⟨released, window, { tracks with pushing := trivial }⟩
  | case3 =>
    obtain ⟨place, isPlace, rfl⟩ := Option.map_eq_some_iff.mp stepped
    rw [LumpSufficesAndTailIsClean, isPlace, Option.all_some, decide_eq_true_eq] at condition
    exact ⟨released, tracks.sender isPlace condition⟩
  | case4 index loc header found idle => exact ⟨released, tracks.markDel idle found⟩
  | case6 =>
    obtain ⟨place, isPlace, rfl⟩ := Option.map_eq_some_iff.mp stepped
    exact tracks.receiver isPlace

/--
In every interleaving of `push_nb` and `del` in which one lump of credits is
enough for every push that takes it, and every message ends in front of a slot
that does not look like a deleted header or fills the ring, an accepted message
fits in the slots that no undeleted message occupies, and the sender's credits
do not wrap.
-/
theorem never_overCommits_of_condition
    {actions : List MessageRingAction}
    (along : Along step? LumpSufficesAndTailIsClean initial actions)
    {ring : MessageRing}
    (reached : ReachedBy step? initial actions ring) :
    ring.NeverOverCommits := by
  obtain ⟨earlier, later, rfl, accepted⟩ := reached
  have tracked : ring.Tracked :=
    invariant_along ⟨0, [], Tracks.initially⟩ Tracked.step accepted along.left
  obtain ⟨released, window, tracks⟩ := tracked
  exact tracks.neverOverCommits

/-- A message of zeros. -/
def zeros (size : UInt16) : RingMessage where
  header := { size := size, flags := bitmapIsValid, command := 3, fd := 6, raw := fun _ => 0 }
  payload := List.replicate size.toNat 0
  valid := rfl
  sized := List.length_replicate

/-- A message of 257 slots is pushed and deleted, which sets the flag. -/
def fillFlag : List MessageRingAction :=
  [.pushNb (zeros 4096), .sender, .sender, .sender,
    .del 0, .receiver, .receiver, .receiver, .receiver, .receiver, .receiver]

/-- A message of 300 slots takes the lump, which is enough. -/
def enoughLump : List MessageRingAction :=
  fillFlag ++ [.pushNb (zeros 4784), .sender, .sender, .sender, .sender]

/-- The message fits. -/
theorem never_overCommits_enoughLump :
    ∃ ring, run? step? initial enoughLump = some ring ∧
      ring.accepted?.isSome ∧
      ring.NeverOverCommits := by
  obtain ⟨ring, accepted, isAccepted⟩ :=
    exists_reached_of_check step? initial enoughLump
      (fun ring => ring.accepted?.isSome) (by decide +kernel)
  refine ⟨ring, accepted, isAccepted, ?_⟩
  exact never_overCommits_of_condition
    (show Along step? LumpSufficesAndTailIsClean initial enoughLump by decide +kernel)
    ⟨enoughLump, [], (List.append_nil _).symm, accepted⟩

/-- Behind a message of 200 slots a message of 400 slots takes the lump. -/
def shortLump : List MessageRingAction :=
  fillFlag ++
    [.pushNb (zeros 3184), .sender, .sender, .sender,
      .pushNb (zeros 6384), .sender, .sender, .sender]

/-- A message of one payload slot that looks like a deleted header. -/
def disguised : RingMessage where
  header := { size := 16, flags := bitmapIsValid, command := 3, fd := 5, raw := fun _ => 0 }
  payload := 255 :: 255 :: 3 :: List.replicate 13 0
  valid := rfl
  sized := rfl

/-- The steps of a `del` that releases one message and returns no credits. -/
def delOne : List MessageRingAction :=
  [.del 0, .receiver, .receiver, .receiver, .receiver, .receiver]

/--
A message ends in front of the payload of the first one, which `del` then takes
for a deleted message of 4097 slots.
-/
def staleTail : List MessageRingAction :=
  List.flatten
    [[.pushNb disguised, .sender, .sender, .sender], delOne,
      [.pushNb (zeros 4784), .sender, .sender, .sender], delOne, [.receiver],
      [.pushNb (zeros 3360), .sender, .sender, .sender, .sender, .sender],
      delOne, [.receiver, .receiver, .receiver, .receiver, .receiver],
      [.pushNb (zeros 4080), .sender, .sender, .sender],
      [.pushNb (zeros 4096), .sender, .sender, .sender]]

/-- An accepted message for which there are not enough free slots. -/
def overCommitted (ring : MessageRing) : Bool :=
  ring.accepted?.any fun message => 512 < message.slots + ring.undeletedSlots

theorem not_neverOverCommits {ring : MessageRing} (overCommitted : ring.overCommitted = true) :
    ¬ ring.NeverOverCommits := by
  obtain ⟨message, isAccepted, slots⟩ := (Option.any_eq_true _ _).mp overCommitted
  intro fits
  have room := (fits message isAccepted).1
  have tooMany := of_decide_eq_true slots
  rw [LocklessQueueV2.slots_locklessqSize] at room
  omega

/--
With 55 credits and one lump of 257 a message of 400 slots is accepted into 312
free slots; and behind a stale payload slot that looks like a deleted header
one of 257 slots is accepted into 256 although the lump is enough for it.
-/
theorem overCommits_shortLump_and_staleTail :
    (∃ ring, run? step? initial shortLump = some ring ∧ ¬ ring.NeverOverCommits) ∧
      ∃ ring, run? step? initial staleTail = some ring ∧ ¬ ring.NeverOverCommits := by
  obtain ⟨first, firstReached, firstFull⟩ :=
    exists_reached_of_check step? initial shortLump
      (fun ring => ring.overCommitted = true) (by decide +kernel)
  obtain ⟨second, secondReached, secondFull⟩ :=
    exists_reached_of_check step? initial staleTail
      (fun ring => ring.overCommitted = true) (by decide +kernel)
  exact ⟨⟨first, firstReached, not_neverOverCommits firstFull⟩,
    ⟨second, secondReached, not_neverOverCommits secondFull⟩⟩

end MessageRing

end SocksDirect
