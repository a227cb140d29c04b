import SocksDirect.LocklessQueue
import SocksDirect.SoloRun

namespace SocksDirect.LocklessQueue

open Machine

open TombstoneRing

/-!
# Credits and delivery of the element queue

A credit is at any time with the sender, spent on a slot in use, with the
receiver, or under way in the return flag.  The phase of each side says which
credit is just being moved, and with these the account is exact in every state.

A return carries more than half of the ring, so two of them cannot be under way
together.
-/

variable {size : QueueSize} {Data : Type}

/-- Credits of the sender that do not count, by the phase of its call. -/
def senderDoubled (size : QueueSize) : Option (PushNb Data) → Nat
  | some (.clearFlag _) => size.creditsPerReturn.toNat
  | some .advance => 1
  | some .spend => 1
  | _ => 0

/-- Credits of the receiver that do not count, by the phase of its call. -/
def receiverDoubled (size : QueueSize) : Option (QueueReceive Data) → Nat
  | some .resetCredits => size.creditsPerReturn.toNat
  | _ => 0

/-- The credit of a slot that the receiver has given back but not counted. -/
def receiverUncounted : Option (QueueReceive Data) → Nat
  | some .countCredit => 1
  | _ => 0

/-- The slot that the sender has written behind its pointer. -/
def senderBehind : Option (PushNb Data) → Nat
  | some .advance => 1
  | _ => 0

/--
The slots from the receiver's to the sender's pointer, with the one that the
sender has written and not stepped over yet.
-/
def occupied (queue : LocklessQueue size Data) : Nat :=
  (queue.sender.pointer + UInt32.ofNat (senderBehind queue.pushing) - queue.receiver.pointer).toNat

/--
The account of all credits.  The corrections are for the transfers in progress:
a return that the sender has added while the flag is still set, the credit of a
written slot that has not been spent yet, a return that the receiver has
flagged while its counter is not reset yet, and the credit of an advanced
pointer that the receiver has not counted yet.
-/
def Conserved (queue : LocklessQueue size Data) : Prop :=
  queue.sender.credits.toNat + queue.occupied +
        queue.receiver.credits.toNat +
        size.flagCredits queue.returnFlag +
        receiverUncounted queue.receiving =
    size.slots + senderDoubled size queue.pushing + receiverDoubled size queue.receiving

/-- What holds of the sender's credits and the flag in each phase. -/
def SenderPhase (size : QueueSize) (credits sentCount : Nat)
    (returnFlag : Bool) : Option (PushNb Data) → Prop
  | none => True
  | some (.testCredits _) => True
  | some (.readFlag _) => credits = 0
  | some (.addCredits _) => credits = 0 ∧ returnFlag = true
  | some (.clearFlag _) => credits = size.creditsPerReturn.toNat ∧ returnFlag = true
  | some (.write _) => 0 < credits
  | some .advance => 0 < credits ∧ 0 < sentCount
  | some .spend => 0 < credits

theorem SenderPhase.setFlag {credits sentCount : Nat} {returnFlag : Bool}
    {call : Option (PushNb Data)} (phase : SenderPhase size credits sentCount returnFlag call) :
    SenderPhase size credits sentCount true call := by
  cases call with
  | none => exact trivial
  | some call =>
    cases call with
    | addCredits | clearFlag => exact ⟨phase.1, rfl⟩
    | _ => exact phase

/-- What holds of the receiver's credits and the ring in each phase. -/
def ReceiverPhase (size : QueueSize) (credits : Nat)
    (history : History Nat Data) : Option (QueueReceive Data) → Prop
  | none => credits < size.creditsPerReturn.toNat ∧ history.HeadPresent
  | some .readHead => credits < size.creditsPerReturn.toNat ∧ history.HeadPresent
  | some (.markDel loc popped) =>
    credits < size.creditsPerReturn.toNat ∧ history.HeadPresent ∧ ∃ index,
        size.place index = size.cell loc ∧ history.released ≤ index ∧ index < history.sent.length ∧
          ¬ history.IsTaken index ∧
          ∀ data, popped = some data → index = history.released ∧ history.sent[index]? = some data
  | some (.compareHead loc) =>
    credits < size.creditsPerReturn.toNat ∧
      (loc.toNat ≠ size.place history.released → history.HeadPresent)
  | some .testValid => credits < size.creditsPerReturn.toNat
  | some .testDel => credits < size.creditsPerReturn.toNat ∧ history.released < history.sent.length
  | some .clearValid =>
    credits < size.creditsPerReturn.toNat ∧ history.released < history.sent.length ∧
      history.IsTaken history.released
  | some .advance => credits < size.creditsPerReturn.toNat ∧ 0 < history.released
  | some .countCredit => credits < size.creditsPerReturn.toNat
  | some .compareCredits => credits ≤ size.creditsPerReturn.toNat
  | some .setFlag => credits = size.creditsPerReturn.toNat
  | some .resetCredits => credits = size.creditsPerReturn.toNat

/-- The receiver's phase is not affected by a slot that the sender writes. -/
theorem ReceiverPhase.push {credits : Nat} {history : History Nat Data}
    {call : Option (QueueReceive Data)} (phase : ReceiverPhase size credits history call)
    (delivered : history.Delivered) (cell : Nat) (data : Data) :
    ReceiverPhase size credits (history.push cell data) call := by
  have grows : history.sent.length < (history.push cell data).sent.length := by simp [History.push]
  cases call with
  | none => exact ⟨phase.1, phase.2.push delivered cell data⟩
  | some call =>
    cases call with
    | readHead => exact ⟨phase.1, phase.2.push delivered cell data⟩
    | markDel loc popped =>
      obtain ⟨few, present, index, placed, released, inside, fresh, oldest⟩ := phase
      refine ⟨few, present.push delivered cell data, index, placed,
        released, Nat.lt_trans inside grows, fresh, ?_⟩
      intro element read
      obtain ⟨front, content⟩ := oldest element read
      refine ⟨front, ?_⟩
      change (history.sent ++ [data])[index]? = some element
      rw [List.getElem?_append_left inside]
      exact content
    | compareHead loc => exact ⟨phase.1, fun other => (phase.2 other).push delivered cell data⟩
    | testValid | advance | countCredit | compareCredits | setFlag | resetCredits => exact phase
    | testDel => exact ⟨phase.1, Nat.lt_trans phase.2 grows⟩
    | clearValid => exact ⟨phase.1, Nat.lt_trans phase.2.1 grows, phase.2.2⟩

/-- The distance of the receiver's pointer from the slots it has given back. -/
def receiverBehind : Option (QueueReceive Data) → Nat
  | some .advance => 1
  | _ => 0

/-- What holds in every reachable state of the queue. -/
structure Invariant (queue : LocklessQueue size Data) : Prop where
  held : Holds size.place size.slots queue.ringbuffer queue.history
  senderPointer : queue.sender.pointer + UInt32.ofNat (senderBehind queue.pushing) =
      UInt32.ofNat queue.history.sent.length
  receiverPointer : queue.receiver.pointer + UInt32.ofNat (receiverBehind queue.receiving) =
      UInt32.ofNat queue.history.released
  account : queue.sender.credits.toNat + queue.history.sent.length +
          queue.receiver.credits.toNat +
          size.flagCredits queue.returnFlag +
          (receiverUncounted queue.receiving + receiverBehind queue.receiving) =
      size.slots + queue.history.released +
        senderDoubled size queue.pushing +
        receiverDoubled size queue.receiving
  senderPhase : SenderPhase size queue.sender.credits.toNat
      queue.history.sent.length queue.returnFlag queue.pushing
  receiverPhase : ReceiverPhase size queue.receiver.credits.toNat queue.history queue.receiving

namespace Invariant

variable {queue : LocklessQueue size Data}

theorem initially (size : QueueSize) (zero : Data) : (initial size zero).Invariant where
  held := Holds.empty fun _ => rfl
  senderPointer := rfl
  receiverPointer := rfl
  account := by
    simp [initial, QueueSize.flagCredits, receiverUncounted, receiverBehind,
      senderDoubled, receiverDoubled, History.empty, size.toNat_word]
  senderPhase := trivial
  receiverPhase := by
    refine ⟨?_, ?_⟩
    · rw [QueueSize.toNat_creditsPerReturn]
      exact Nat.zero_lt_succ _
    · intro impossible
      exact absurd impossible (Nat.lt_irrefl 0)

theorem sender_pointer (inv : queue.Invariant) (upToDate : senderBehind queue.pushing = 0) :
    queue.sender.pointer = UInt32.ofNat queue.history.sent.length := by
  have pointer := inv.senderPointer
  rw [upToDate] at pointer
  exact (UInt32.add_zero _).symm.trans pointer

theorem receiver_pointer (inv : queue.Invariant) (upToDate : receiverBehind queue.receiving = 0) :
    queue.receiver.pointer = UInt32.ofNat queue.history.released := by
  have pointer := inv.receiverPointer
  rw [upToDate] at pointer
  exact (UInt32.add_zero _).symm.trans pointer

/-- A slot about to be written is one of a ring with room. -/
theorem room_of_write (inv : queue.Invariant) {data : Data}
    (writing : queue.pushing = some (.write data)) :
    queue.history.sent.length < queue.history.released + size.slots := by
  have account := inv.account
  have phase := inv.senderPhase
  have receiverPhase := inv.receiverPhase
  rw [writing] at account phase
  simp only [SenderPhase, senderDoubled] at account phase
  have covered : receiverDoubled size queue.receiving ≤
        queue.receiver.credits.toNat := by
    cases receiving : queue.receiving with
    | none => exact Nat.zero_le _
    | some call =>
      rw [receiving] at receiverPhase
      cases call with
      | resetCredits => exact Nat.le_of_eq receiverPhase.symm
      | _ => exact Nat.zero_le _
  omega

/-- A receiver about to set the flag finds it consumed. -/
theorem flag_of_setFlag (inv : queue.Invariant) (setting : queue.receiving = some .setFlag) :
    queue.returnFlag = false := by
  have account := inv.account
  have phase := inv.senderPhase
  have receiverPhase := inv.receiverPhase
  have ordered := inv.held.ordered
  have twice := size.slots_lt_two_returns
  rw [setting] at account receiverPhase
  simp only [ReceiverPhase, receiverUncounted, receiverBehind,
    receiverDoubled] at account receiverPhase
  have covered : senderDoubled size queue.pushing ≤ queue.sender.credits.toNat := by
    cases pushing : queue.pushing with
    | none => exact Nat.zero_le _
    | some call =>
      rw [pushing] at phase
      cases call with
      | clearFlag data => exact Nat.le_of_eq phase.1.symm
      | advance => exact phase.1
      | spend => exact phase
      | _ => exact Nat.zero_le _
  cases flag : queue.returnFlag with
  | false => rfl
  | true =>
    rw [flag, QueueSize.flagCredits, if_pos rfl] at account
    omega

variable {next : LocklessQueue size Data}

section

variable (inv : queue.Invariant)

include inv

/-- Every step of the sender keeps the invariant. -/
theorem senderStep {result : Option Bool} (stepped : queue.senderStep? = some (next, result)) :
    next.Invariant := by
  obtain ⟨ringbuffer, returnFlag, sender, receiver, pushing, receiving, history⟩ := queue
  rcases pushing with _ | call
  · cases stepped
  have account := inv.account
  have phase := inv.senderPhase
  cases call with
  | testCredits data =>
    by_cases none : sender.credits = 0
    · simp only [senderStep?, if_pos none] at stepped
      cases stepped
      exact { inv with senderPhase := congrArg UInt32.toNat none }
    · simp only [senderStep?, if_neg none] at stepped
      cases stepped
      exact { inv with
        senderPhase := Nat.pos_of_ne_zero fun zero => none (UInt32.toNat_inj.mp zero) }
  | readFlag data =>
    by_cases flag : returnFlag = true
    · simp only [senderStep?, if_pos flag] at stepped
      cases stepped
      exact { inv with senderPhase := ⟨phase, flag⟩ }
    · simp only [senderStep?, if_neg flag] at stepped
      cases stepped
      exact { inv with senderPhase := trivial }
  | addCredits data =>
    -- The credits of the return count twice until the flag is cleared.
    cases stepped
    obtain ⟨zero, flag⟩ := phase
    have added : (sender.credits + size.creditsPerReturn).toNat = size.creditsPerReturn.toNat := by
      rw [show sender.credits = 0 from UInt32.toNat_inj.mp zero, UInt32.zero_add]
    refine { inv with account := ?_, senderPhase := ⟨added, flag⟩ }
    simp only [senderDoubled] at account zero ⊢
    omega
  | clearFlag data =>
    cases stepped
    obtain ⟨full, flag⟩ := phase
    refine { inv with account := ?_, senderPhase := ?_ }
    · rw [flag] at account
      simp only [senderDoubled, QueueSize.flagCredits, if_true,
        Bool.false_eq_true, if_false] at account ⊢
      omega
    · rw [SenderPhase, full, QueueSize.toNat_creditsPerReturn]
      exact Nat.succ_pos _
  | write data =>
    cases stepped
    have atNext := inv.sender_pointer rfl
    have grown : (history.push (size.place history.sent.length) data).sent.length =
          history.sent.length + 1 := by
      simp [History.push]
    rw [atNext, size.cell_ofNat]
    refine
      { inv with
        held := inv.held.push size.spaced_place (inv.room_of_write rfl) data
        senderPointer := ?_
        account := ?_
        senderPhase := ⟨phase, by rw [grown]; exact Nat.succ_pos _⟩
        receiverPhase := inv.receiverPhase.push inv.held.delivered _ data }
    · rw [grown, UInt32.ofNat_add, atNext]
      rfl
    · simp only [senderDoubled, History.push, List.length_append, List.length_singleton]
        at account ⊢
      omega
  | advance =>
    cases stepped
    refine
      { inv with
        senderPointer := by simpa [senderBehind] using inv.senderPointer
        account := ?_
        senderPhase := phase.1 }
    simp only [senderDoubled] at account ⊢
    omega
  | spend =>
    cases stepped
    have spent : (sender.credits - 1).toNat = sender.credits.toNat - 1 :=
      UInt32.toNat_sub_of_le _ _ (UInt32.le_iff_toNat_le.mpr phase)
    refine { inv with account := ?_, senderPhase := trivial }
    simp only [senderDoubled, SenderPhase] at account phase ⊢
    omega

/-- Every step of the receiver keeps the invariant. -/
theorem receiverStep (stepped : queue.receiverStep? = some next) : next.Invariant := by
  obtain ⟨ringbuffer, returnFlag, sender, receiver, pushing, receiving, history⟩ := queue
  rcases receiving with _ | call
  · cases stepped
  have account := inv.account
  have phase := inv.receiverPhase
  have front : receiverBehind (some call) = 0 →
      size.cell receiver.pointer = size.place history.released := by
    intro upToDate
    rw [show receiver.pointer = _ from inv.receiver_pointer upToDate, size.cell_ofNat]
  cases call with
  | readHead =>
    obtain ⟨few, present⟩ := phase
    simp only [receiverStep?, front rfl] at stepped
    by_cases valid : (ringbuffer (size.place history.released)).isvalid = true
    · rw [if_pos valid] at stepped
      cases stepped
      have inside := inv.held.isvalid_released_iff.mp valid
      refine { inv with
        receiverPhase := ⟨few, present, history.released, ?_, Nat.le_refl _, inside,
          present inside, ?_⟩ }
      · rw [← front rfl]
        simp [QueueSize.cell, UInt32.and_assoc]
      · rintro data ⟨⟩
        exact ⟨rfl, inv.held.content _ (Nat.le_refl _) inside⟩
    · rw [if_neg valid] at stepped
      cases stepped
      exact { inv with receiverPhase := ⟨few, present⟩ }
  | markDel loc popped =>
    obtain ⟨few, present, index, placed, released, inside, fresh, oldest⟩ := phase
    simp only [receiverStep?, ← placed] at stepped
    cases stepped
    have content := inv.held.content index released inside
    have item : popped.getD (ringbuffer (size.place index)).data =
          (ringbuffer (size.place index)).data := by
      cases popped with
      | none => rfl
      | some data => exact Option.some.inj ((oldest data rfl).2.symm.trans content)
    rw [item]
    refine
      { inv with
        held := inv.held.take size.spaced_place released inside fresh ?_
        receiverPhase := ⟨few, ?_⟩ }
    · intro isSome
      obtain ⟨data, read⟩ := Option.isSome_iff_exists.mp isSome
      exact (oldest data read).1
    · intro other within taken
      rcases History.isTaken_take_iff.mp taken with before | now
      · exact present within before
      · rw [inv.held.serial index released inside] at now
        apply other
        exact placed.symm.trans (congrArg size.place now.symm)
  | compareHead loc =>
    obtain ⟨few, present⟩ := phase
    by_cases same : loc = receiver.pointer &&& size.mask
    · simp only [receiverStep?, if_pos same] at stepped
      cases stepped
      exact { inv with receiverPhase := few }
    · simp only [receiverStep?, if_neg same] at stepped
      cases stepped
      refine { inv with receiverPhase := ⟨few, present fun equal => same ?_⟩ }
      rw [← front rfl] at equal
      exact UInt32.toNat_inj.mp equal
  | testValid =>
    simp only [receiverStep?, front rfl] at stepped
    by_cases valid : (ringbuffer (size.place history.released)).isvalid = true
    · rw [if_pos valid] at stepped
      cases stepped
      exact { inv with receiverPhase := ⟨phase, inv.held.isvalid_released_iff.mp valid⟩ }
    · rw [if_neg valid] at stepped
      cases stepped
      exact { inv with receiverPhase := ⟨phase, fun inside =>
        absurd (inv.held.isvalid_released_iff.mpr inside) valid⟩ }
  | testDel =>
    obtain ⟨few, inside⟩ := phase
    have marked := inv.held.marked _ (Nat.le_refl _) inside
    simp only [receiverStep?, front rfl] at stepped
    by_cases deleted : (ringbuffer (size.place history.released)).isdel = true
    · rw [if_pos deleted] at stepped
      cases stepped
      exact { inv with receiverPhase := ⟨few, inside, marked.mp deleted⟩ }
    · rw [if_neg deleted] at stepped
      cases stepped
      exact { inv with receiverPhase := ⟨few, fun _ taken => deleted (marked.mpr taken)⟩ }
  | clearValid =>
    obtain ⟨few, inside, taken⟩ := phase
    simp only [receiverStep?, front rfl] at stepped
    cases stepped
    refine
      { inv with
        held := inv.held.release size.spaced_place inside taken
        receiverPointer := ?_
        account := ?_
        receiverPhase := ⟨few, Nat.succ_pos _⟩ }
    · rw [show receiver.pointer = _ from inv.receiver_pointer rfl]
      exact (UInt32.ofNat_add _ 1).symm
    · simp only [receiverUncounted, receiverBehind, receiverDoubled, History.release] at account ⊢
      omega
  | advance =>
    cases stepped
    refine
      { inv with
        receiverPointer := by simpa [receiverBehind] using inv.receiverPointer
        account := ?_
        receiverPhase := phase.1 }
    simp only [receiverUncounted, receiverBehind, receiverDoubled] at account ⊢
    omega
  | countCredit =>
    cases stepped
    simp only [ReceiverPhase] at phase
    have bound := size.creditsPerReturn.toNat_lt
    have counted : (receiver.credits + 1).toNat = receiver.credits.toNat + 1 :=
      CircularWindow.toNat_add_word32 (show receiver.credits.toNat + 1 < 2 ^ 32 by omega)
    refine { inv with account := ?_, receiverPhase := counted.trans_le phase }
    simp only [receiverUncounted, receiverBehind, receiverDoubled, counted] at account ⊢
    omega
  | compareCredits =>
    by_cases full : receiver.credits = size.creditsPerReturn
    · simp only [receiverStep?, if_pos full] at stepped
      cases stepped
      exact { inv with receiverPhase := congrArg UInt32.toNat full }
    · simp only [receiverStep?, if_neg full] at stepped
      cases stepped
      exact { inv with receiverPhase :=
        Nat.lt_of_le_of_ne phase fun equal => full (UInt32.toNat_inj.mp equal) }
  | setFlag =>
    cases stepped
    refine { inv with
      account := ?_
      senderPhase := inv.senderPhase.setFlag
      receiverPhase := phase }
    rw [inv.flag_of_setFlag rfl] at account
    simp only [receiverUncounted, receiverBehind, receiverDoubled,
      QueueSize.flagCredits, if_true, Bool.false_eq_true, if_false] at account ⊢
    omega
  | resetCredits =>
    cases stepped
    simp only [ReceiverPhase] at phase
    refine { inv with account := ?_, receiverPhase := ?_ }
    · simp only [receiverUncounted, receiverBehind, receiverDoubled, UInt32.toNat_zero] at account ⊢
      omega
    · simp only [ReceiverPhase, UInt32.toNat_zero]
      rw [QueueSize.toNat_creditsPerReturn]
      exact Nat.succ_pos _

/-- Every action keeps the invariant. -/
theorem step {action : QueueAction Data} (stepped : queue.step? action = some next) :
    next.Invariant := by
  cases action with
  | senderStep =>
    obtain ⟨⟨_, result⟩, moved, rfl⟩ := Option.map_eq_some_iff.mp stepped
    exact inv.senderStep moved
  | receiverStep => exact inv.receiverStep stepped
  | pushNb data =>
    obtain ⟨ringbuffer, returnFlag, sender, receiver, _ | call, receiving, history⟩ := queue
    · cases stepped
      exact { inv with senderPhase := trivial }
    · cases stepped
  | popNb =>
    obtain ⟨ringbuffer, returnFlag, sender, receiver, pushing, _ | call, history⟩ := queue
    · cases stepped
      exact { inv with receiverPhase := inv.receiverPhase }
    · cases stepped
  | del loc =>
    obtain ⟨ringbuffer, returnFlag, sender, receiver, pushing, _ | call, history⟩ := queue
    · simp only [step?, peek, Option.isNone_none, true_and,
        Option.ite_none_right_eq_some] at stepped
      obtain ⟨⟨valid, undeleted⟩, stepped⟩ := stepped
      cases stepped
      have phase := inv.receiverPhase
      obtain ⟨index, released, inside, placed⟩ := inv.held.exists_of_isvalid valid
      refine { inv with
        receiverPhase := ⟨phase.1, phase.2, index, placed, released, inside, ?_, by rintro _ ⟨⟩⟩ }
      intro taken
      have deleted := (inv.held.marked index released inside).mpr taken
      rw [placed, undeleted] at deleted
      cases deleted
    · cases stepped

/-- The slots between the pointers are those written and not given back. -/
theorem occupied_eq : queue.occupied =
      queue.history.sent.length - (queue.history.released - receiverBehind queue.receiving) := by
  have behind : receiverBehind queue.receiving ≤ queue.history.released := by
    have phase := inv.receiverPhase
    cases receiving : queue.receiving with
    | none => exact Nat.zero_le _
    | some call =>
      rw [receiving] at phase
      cases call with
      | advance => exact phase.2
      | _ => exact Nat.zero_le _
  have pointer : queue.receiver.pointer =
        UInt32.ofNat (queue.history.released - receiverBehind queue.receiving) := by
    have sum : UInt32.ofNat queue.history.released = UInt32.ofNat
              (queue.history.released - receiverBehind queue.receiving) +
            UInt32.ofNat (receiverBehind queue.receiving) := by
      rw [← UInt32.ofNat_add, Nat.sub_add_cancel behind]
    exact (UInt32.add_left_inj _).mp (inv.receiverPointer.trans sum)
  have ordered := inv.held.ordered
  have bounded := inv.held.bounded
  have atMostOne : receiverBehind queue.receiving ≤ 1 := by
    unfold receiverBehind
    split <;> decide
  have slotsBound := size.slots_le
  rw [occupied, inv.senderPointer, pointer]
  exact CircularWindow.toNat_ofNat_sub_ofNat_word32 (by omega) (by omega)

/-- The account holds in terms of the code's own counters. -/
theorem conserved : queue.Conserved := by
  have account := inv.account
  have ordered := inv.held.ordered
  have phase := inv.receiverPhase
  rw [Conserved, inv.occupied_eq]
  cases receiving : queue.receiving with
  | none =>
    rw [receiving] at account
    simp only [receiverUncounted, receiverBehind, receiverDoubled] at account ⊢
    omega
  | some call =>
    rw [receiving] at account phase
    cases call with
    | advance =>
      have positive := phase.2
      simp only [receiverUncounted, receiverBehind, receiverDoubled] at account ⊢
      omega
    | _ =>
      simp only [receiverUncounted, receiverBehind, receiverDoubled] at account ⊢
      omega

end

end Invariant

/-- The receiver starts a call or takes a step inside one. -/
def ReceiverMove (queue next : LocklessQueue size Data) : Prop :=
  queue.step? .popNb = some next ∨
  (∃ loc, queue.step? (.del loc) = some next) ∨
  queue.step? .receiverStep = some next

/-- A call with this element is in progress and has appended it if its slot is written. -/
def Appended (queue : LocklessQueue size Data) (data : Data) (before : List Data) : Prop :=
  match queue.pushing with
  | none => False
  | some (.testCredits pushed)
  | some (.readFlag pushed)
  | some (.addCredits pushed)
  | some (.clearFlag pushed)
  | some (.write pushed) => pushed = data ∧ queue.history.sent = before
  | some .advance
  | some .spend => queue.history.sent = before ++ [data]

section Push

variable {queue next : LocklessQueue size Data} {data : Data} {before : List Data}

/-- The sender's last step returns what its call has appended. -/
theorem Appended.senderStep {result : Option Bool}
    (appended : queue.Appended data before)
    (stepped : queue.senderStep? = some (next, result)) :
    match result with
    | none => next.Appended data before
    | some result => next.history.sent = before ++ if result then [data] else [] := by
  obtain ⟨ringbuffer, returnFlag, sender, receiver, pushing, receiving, history⟩ := queue
  rcases pushing with _ | call
  · cases stepped
  cases call with
  | testCredits pushed =>
    simp only [senderStep?] at stepped
    split at stepped <;> cases stepped <;> exact appended
  | readFlag pushed =>
    simp only [senderStep?] at stepped
    split at stepped <;> cases stepped
    · exact appended
    · exact appended.2.trans (List.append_nil before).symm
  | addCredits pushed | clearFlag pushed =>
    cases stepped
    exact appended
  | write pushed =>
    obtain ⟨rfl, unchanged⟩ := appended
    cases stepped
    exact congrArg (· ++ [pushed]) unchanged
  | advance | spend =>
    cases stepped
    exact appended

/-- The receiver neither appends elements nor touches the sender's call. -/
theorem ReceiverMove.sender (move : queue.ReceiverMove next) :
    next.pushing = queue.pushing ∧ next.history.sent = queue.history.sent := by
  obtain ⟨ringbuffer, returnFlag, sender, receiver, pushing, receiving, history⟩ := queue
  rcases move with popped | ⟨loc, deleted⟩ | stepped
  · obtain ⟨-, begun⟩ := Option.ite_none_right_eq_some.mp popped
    cases begun
    exact ⟨rfl, rfl⟩
  · obtain ⟨-, begun⟩ := Option.ite_none_right_eq_some.mp deleted
    cases begun
    exact ⟨rfl, rfl⟩
  · rcases receiving with _ | call
    · cases stepped
    simp only [step?] at stepped
    cases call with
    | markDel | clearValid | advance | countCredit | setFlag | resetCredits =>
      cases stepped
      exact ⟨rfl, rfl⟩
    | readHead | compareHead | testValid | testDel | compareCredits =>
      simp only [receiverStep?] at stepped
      split at stepped <;> cases stepped <;> exact ⟨rfl, rfl⟩

end Push

end SocksDirect.LocklessQueue
