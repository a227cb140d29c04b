import SocksDirect.CircularWindow
import SocksDirect.ShmRing

namespace SocksDirect.RingSystem

/-!
# The inductive invariant of the byte ring

The two counters stand for unbounded stream positions: `tail` for the number
of accepted bytes and `head` for the number of received bytes, both counted
from the common starting value.  All other facts are stated over these
positions, so the wrap of the 64-bit words disappears from the argument.

The producer owns `tail`, so the value it loaded is exact, and the free space it
computed from a stale `head` can only have grown.  The consumer owns `head`, and
the `tail` it loaded is some earlier publication.
-/

variable {capacity : Capacity}

/-- What a producer call in progress has established. -/
def ProducerReady (start : UInt64) (system : RingSystem capacity) : SendSome → Prop
  | .loadTail _ => True
  | .loadHead _ t => t = system.ring.tail
  | .copy buf t n copied =>
    t = system.ring.tail ∧ n ≤ buf.length ∧ copied ≤ n ∧
      system.accepted.length + n ≤ system.received.length + capacity.kBufBytes ∧
      ∀ index, index < copied → system.ring.data
            ((start.toNat + system.accepted.length + index) % capacity.kBufBytes) = buf.getD index 0

/-- What a consumer call in progress has established. -/
def ConsumerReady (start : UInt64) (system : RingSystem capacity) : RecvSome → Prop
  | .loadTail _ => True
  | .loadHead _ t =>
    ∃ published, t = UInt64.ofNat (start.toNat + published) ∧ system.received.length ≤ published ∧
        published ≤ system.accepted.length
  | .copy h n buf =>
    h = system.ring.head ∧ system.received.length + n ≤ system.accepted.length ∧ buf.length ≤ n ∧
      buf = (system.accepted.drop system.received.length).take buf.length

/-- The invariant of the ring with its two parties. -/
structure Invariant
    (start : UInt64)
    (system : RingSystem capacity) : Prop where
  tailValue : system.ring.tail = UInt64.ofNat (start.toNat + system.accepted.length)
  headValue : system.ring.head = UInt64.ofNat (start.toNat + system.received.length)
  receivedPrefix : system.received <+: system.accepted
  bounded : system.accepted.length ≤ system.received.length + capacity.kBufBytes
  stored : ∀ {position byte}, system.received.length ≤ position →
      system.accepted[position]? = some byte →
      system.ring.data ((start.toNat + position) % capacity.kBufBytes) = byte
  producerReady : ∀ {call}, system.producer = some call → ProducerReady start system call
  consumerReady : ∀ {call}, system.consumer = some call → ConsumerReady start system call

section Arithmetic

theorem kBufBytes_lt (capacity : Capacity) : capacity.kBufBytes < 2 ^ 64 :=
  Nat.pow_lt_pow_right (by decide) capacity.representable

theorem toNat_and_kMask (capacity : Capacity) (position : Nat) :
    (UInt64.ofNat position &&& capacity.kMask).toNat = position % capacity.kBufBytes :=
  CircularWindow.toNat_ofNat_and_mask capacity.representable position

theorem copyCell_ofNat {position n index : Nat} (fits : n ≤ capacity.kBufBytes)
    (inside : index < n) :
    ShmRing.copyCell capacity (UInt64.ofNat position) n index =
      (position + index) % capacity.kBufBytes := by
  simp only [ShmRing.copyCell, toNat_and_kMask]
  exact CircularWindow.segmented_eq_mod fits inside

/-- A position to be filled has another cell than every unconsumed one. -/
theorem fresh_cell_ne (start : UInt64) {accepted received position index : Nat}
    (inside : accepted + index < received + capacity.kBufBytes) (unconsumed : received ≤ position)
    (published : position < accepted) : (start.toNat + position) % capacity.kBufBytes ≠
      (start.toNat + accepted + index) % capacity.kBufBytes := by
  intro sameCell
  have samePosition := CircularWindow.eq_of_mod_eq sameCell (by omega) (by omega)
  omega

end Arithmetic

namespace Invariant

variable {start : UInt64} {system next : RingSystem capacity}

theorem initial (start : UInt64) (data : Nat → UInt8) :
    Invariant start (RingSystem.initial capacity start data) where
  tailValue := by simp [RingSystem.initial]
  headValue := by simp [RingSystem.initial]
  receivedPrefix := List.prefix_rfl
  bounded := by simp [RingSystem.initial]
  stored := by
    intro position byte _ atPosition
    simp [RingSystem.initial] at atPosition
  producerReady := by
    intro call inProgress
    simp [RingSystem.initial] at inProgress
  consumerReady := by
    intro call inProgress
    simp [RingSystem.initial] at inProgress

section

variable (invariant : Invariant start system)

include invariant

theorem received_le_accepted : system.received.length ≤ system.accepted.length :=
  invariant.receivedPrefix.length_le

theorem readable_eq : system.ring.readable = system.accepted.length - system.received.length := by
  have ordered := invariant.received_le_accepted
  have bounded := invariant.bounded
  have small := kBufBytes_lt capacity
  rw [ShmRing.readable, invariant.tailValue, invariant.headValue,
    CircularWindow.toNat_ofNat_sub_ofNat (by omega) (by omega)]
  omega

theorem free_eq : (capacity.word -
      (system.ring.tail - system.ring.head)).toNat = system.received.length + capacity.kBufBytes -
      system.accepted.length := by
  have ordered := invariant.received_le_accepted
  have bounded := invariant.bounded
  have small := kBufBytes_lt capacity
  have distance := invariant.readable_eq
  have asWord : system.ring.tail - system.ring.head =
        UInt64.ofNat (system.accepted.length - system.received.length) := by
    rw [← distance, ShmRing.readable, UInt64.ofNat_toNat]
  rw [asWord, Capacity.word, CircularWindow.toNat_ofNat_sub_ofNat (by omega) (by omega)]
  omega

theorem writable_eq : system.ring.writable = system.received.length + capacity.kBufBytes -
      system.accepted.length :=
  invariant.free_eq

end

variable {buf : List UInt8}

section

variable (invariant : Invariant start system)

include invariant

theorem copyCell_eq {t : UInt64} {n copied : Nat}
    (inProgress : system.producer = some (.copy buf t n copied)) (unfinished : copied < n) :
    ShmRing.copyCell capacity t n copied = (start.toNat + system.accepted.length + copied) %
      capacity.kBufBytes := by
  have ordered := invariant.received_le_accepted
  obtain ⟨tailLoaded, _, _, fits, _⟩ := invariant.producerReady inProgress
  rw [tailLoaded, invariant.tailValue, copyCell_ofNat (by omega) unfinished]

/-- A consumer call in progress does not notice that more bytes are published. -/
theorem consumerReady_publish {call : RecvSome} (ready : ConsumerReady start system call)
    {more : List UInt8} (accepted : next.accepted = system.accepted ++ more)
    (received : next.received = system.received) (head : next.ring.head = system.ring.head) :
    ConsumerReady start next call := by
  cases call with
  | loadTail len => trivial
  | loadHead len t =>
    obtain ⟨published, loaded, lower, upper⟩ := ready
    refine ⟨published, loaded, received ▸ lower, ?_⟩
    rw [accepted, List.length_append]
    omega
  | copy h amount fetched =>
    obtain ⟨headLoaded, available, within, bytes⟩ := ready
    refine ⟨headLoaded.trans head.symm, ?_, within, ?_⟩
    · rw [accepted, received, List.length_append]
      omega
    · rw [accepted, received, List.drop_append_of_le_length invariant.received_le_accepted,
        List.take_append_of_le_length (by simp only [List.length_drop]; omega)]
      exact bytes

/-- The bytes copied into the ring are stored once they are published. -/
theorem stored_publish
    {n : Nat}
    (copied :
      ∀ index < n,
        system.ring.data ((start.toNat + system.accepted.length + index) % capacity.kBufBytes) =
          buf.getD index 0)
    {position : Nat}
    {byte : UInt8}
    (unconsumed : system.received.length ≤ position)
    (atPosition : (system.accepted ++ buf.take n)[position]? = some byte) :
    system.ring.data ((start.toNat + position) % capacity.kBufBytes) = byte := by
  by_cases old : position < system.accepted.length
  · rw [List.getElem?_append_left old] at atPosition
    exact invariant.stored unconsumed atPosition
  · rw [List.getElem?_append_right (by omega)] at atPosition
    have fresh : position - system.accepted.length < n := by
      have inside := (List.getElem?_eq_some_iff.mp atPosition).1
      rw [List.length_take] at inside
      omega
    rw [List.getElem?_take_of_lt fresh] at atPosition
    have copiedByte := copied _ fresh
    rw [show start.toNat + system.accepted.length +
        (position - system.accepted.length) = start.toNat + position by omega] at copiedByte
    rw [copiedByte, List.getD_eq_getElem?_getD, atPosition]
    rfl

/-- Producer steps keep the invariant. -/
theorem producer_move {returned : Option Nat} (move : ProducerMove system next returned) :
    Invariant start next := by
  cases move with
  | @loadTail buf inProgress =>
    exact { invariant with
      producerReady := by
        rintro call ⟨⟩
        rfl
      consumerReady := invariant.consumerReady }
  | @full buf t inProgress noSpace =>
    exact { invariant with
      producerReady := by rintro call ⟨⟩
      consumerReady := invariant.consumerReady }
  | @loadHead buf t n inProgress space amount =>
    have tailLoaded : t = system.ring.tail := invariant.producerReady inProgress
    rw [tailLoaded, invariant.free_eq] at amount space
    refine { invariant with producerReady := ?_, consumerReady := invariant.consumerReady }
    rintro call ⟨⟩
    refine ⟨tailLoaded, by omega, by omega, ?_, ?_⟩
    · change system.accepted.length + n ≤ system.received.length + capacity.kBufBytes
      omega
    · intro index before
      omega
  | @store buf t n copied inProgress unfinished =>
    obtain ⟨tailLoaded, withinBuf, _, fits, copiedBytes⟩ := invariant.producerReady inProgress
    have cell := invariant.copyCell_eq inProgress unfinished
    refine { invariant with
      stored := ?_
      producerReady := ?_
      consumerReady := invariant.consumerReady }
    · intro position byte unconsumed atPosition
      have published : position < system.accepted.length :=
        (List.getElem?_eq_some_iff.mp atPosition).1
      have inside :
          system.accepted.length + copied < system.received.length + capacity.kBufBytes := by
        omega
      have different := fresh_cell_ne start inside unconsumed published
      simp only [ShmRing.writeCell, cell, if_neg different]
      exact invariant.stored unconsumed atPosition
    · rintro call ⟨⟩
      refine ⟨tailLoaded, withinBuf, unfinished, fits, ?_⟩
      intro index before
      simp only [ShmRing.writeCell, cell]
      by_cases current : index = copied
      · simp [current]
      · have different : (start.toNat + system.accepted.length + index) %
                capacity.kBufBytes ≠
              (start.toNat + system.accepted.length + copied) %
                capacity.kBufBytes := by
          have ordered := invariant.received_le_accepted
          intro sameCell
          have samePosition := CircularWindow.eq_of_mod_eq sameCell (by omega) (by omega)
          omega
        rw [if_neg different]
        exact copiedBytes index (by omega)
  | @publish buf t n copied inProgress finished =>
    obtain ⟨tailLoaded, withinBuf, copiedLe, fits, copiedBytes⟩ :=
      invariant.producerReady inProgress
    have publishedLength : (buf.take n).length = n := by simp [withinBuf]
    exact {
      tailValue := by
        simp only [tailLoaded, invariant.tailValue, List.length_append, publishedLength]
        rw [← Nat.add_assoc, UInt64.ofNat_add _ n]
      headValue := invariant.headValue
      receivedPrefix := invariant.receivedPrefix.trans (List.prefix_append _ _)
      bounded := by
        simp only [List.length_append, publishedLength]
        exact fits
      stored := by
        refine invariant.stored_publish fun index before => ?_
        exact copiedBytes index (by omega)
      producerReady := by rintro call ⟨⟩
      consumerReady := by
        intro call consuming
        exact invariant.consumerReady_publish (invariant.consumerReady consuming) rfl rfl rfl }

theorem fetched_eq
    {h : UInt64}
    {n : Nat}
    (inProgress : system.consumer = some (.copy h n buf))
    (unfinished : buf.length < n) :
    system.accepted[system.received.length + buf.length]? =
      some (system.ring.data (ShmRing.copyCell capacity h n buf.length)) := by
  obtain ⟨headLoaded, available, _, _⟩ := invariant.consumerReady inProgress
  have bounded := invariant.bounded
  have inside : system.received.length + buf.length < system.accepted.length := by omega
  have byte := List.getElem?_eq_getElem inside
  rw [headLoaded, invariant.headValue, copyCell_ofNat (by omega) unfinished, Nat.add_assoc,
    invariant.stored (by omega) byte]
  exact byte

/-- Consumer steps keep the invariant. -/
theorem consumer_move {returned : Option (List UInt8)} (move : ConsumerMove system next returned) :
    Invariant start next := by
  cases move with
  | @loadTail len inProgress =>
    refine { invariant with producerReady := invariant.producerReady, consumerReady := ?_ }
    rintro call ⟨⟩
    exact ⟨system.accepted.length, invariant.tailValue,
      invariant.received_le_accepted, Nat.le_refl _⟩
  | @empty len t inProgress noData =>
    exact { invariant with
      producerReady := invariant.producerReady
      consumerReady := by rintro call ⟨⟩ }
  | @loadHead len n t inProgress data amount =>
    obtain ⟨published, loaded, lower, upper⟩ := invariant.consumerReady inProgress
    have bounded := invariant.bounded
    have small := kBufBytes_lt capacity
    rw [loaded, invariant.headValue,
      CircularWindow.toNat_ofNat_sub_ofNat (by omega) (by omega)] at amount
    refine { invariant with producerReady := invariant.producerReady, consumerReady := ?_ }
    rintro call ⟨⟩
    refine ⟨rfl, ?_, by simp, by simp⟩
    change system.received.length + n ≤ system.accepted.length
    omega
  | @fetch h n buf inProgress unfinished =>
    obtain ⟨headLoaded, available, within, bytes⟩ := invariant.consumerReady inProgress
    have fetched := invariant.fetched_eq inProgress unfinished
    refine { invariant with producerReady := invariant.producerReady, consumerReady := ?_ }
    rintro call ⟨⟩
    refine ⟨headLoaded, available, ?_, ?_⟩
    · simp only [List.length_append, List.length_singleton]
      omega
    · rw [← List.getElem?_drop] at fetched
      rw [List.length_append, List.length_singleton, List.take_add_one, ← bytes, fetched]
      rfl
  | @publish h n buf inProgress finished =>
    obtain ⟨headLoaded, available, within, bytes⟩ := invariant.consumerReady inProgress
    have complete : buf.length = n := by omega
    exact {
      tailValue := invariant.tailValue
      headValue := by
        simp only [headLoaded, invariant.headValue, List.length_append, complete]
        rw [← Nat.add_assoc, UInt64.ofNat_add _ n]
      receivedPrefix := by
        obtain ⟨rest, split⟩ := invariant.receivedPrefix
        refine ⟨rest.drop n, ?_⟩
        rw [← split, List.drop_left] at bytes
        rw [bytes, complete, List.append_assoc, List.take_append_drop, split]
      bounded := by
        have bounded := invariant.bounded
        simp only [List.length_append]
        omega
      stored := by
        intro position byte unconsumed atPosition
        simp only [List.length_append] at unconsumed
        exact invariant.stored (by omega) atPosition
      producerReady := by
        intro call producing
        have ready := invariant.producerReady producing
        cases call with
        | loadTail source => trivial
        | loadHead source t => exact ready
        | copy source t amount copied =>
          obtain ⟨tailLoaded, withinBuf, copiedLe, fits, copiedBytes⟩ := ready
          refine ⟨tailLoaded, withinBuf, copiedLe, ?_, copiedBytes⟩
          simp only [List.length_append]
          omega
      consumerReady := by rintro call ⟨⟩ }

theorem markClosed : Invariant start { system with ring := system.ring.markClosed } :=
  { invariant with
    producerReady := by
      intro call inProgress
      have ready := invariant.producerReady inProgress
      cases call <;> exact ready
    consumerReady := by
      intro call inProgress
      have ready := invariant.consumerReady inProgress
      cases call <;> exact ready }

/-- Every step of the ring system keeps the invariant. -/
theorem step {action : RingAction} (accepted : system.step? action = some next) :
    Invariant start next := by
  revert accepted
  fun_cases step? with (intro accepted; try cases accepted)
  | case1 =>
    exact { invariant with
      producerReady := by
        rintro call ⟨⟩
        trivial
      consumerReady := invariant.consumerReady }
  | case3 =>
    obtain ⟨⟨moved, returned⟩, stepped, rfl⟩ := Option.map_eq_some_iff.mp accepted
    exact invariant.producer_move (producerStep?_move stepped)
  | case4 =>
    exact { invariant with
      producerReady := invariant.producerReady
      consumerReady := by
        rintro call ⟨⟩
        trivial }
  | case6 =>
    obtain ⟨⟨moved, returned⟩, stepped, rfl⟩ := Option.map_eq_some_iff.mp accepted
    exact invariant.consumer_move (consumerStep?_move stepped)
  | case7 => exact invariant.markClosed

end

theorem of_run {data : Nat → UInt8} {actions : List RingAction}
    (accepted : Machine.run? step? (RingSystem.initial capacity start data) actions = some system) :
    Invariant start system :=
  Machine.invariant_of_run
    (Invariant.initial start data)
    (fun holds first => holds.step first)
    accepted

end Invariant

end SocksDirect.RingSystem
