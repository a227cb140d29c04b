import Mathlib.Data.List.Nodup
import Mathlib.Tactic.Common

namespace SocksDirect.AllocationLedger

open Function

/-!
# Ledgers of obtained and returned blocks

An allocator is used well if every block that is given back is one that is
outstanding, and if it is given back with the size it was obtained with.  A
ledger lists what has happened, the newest event first; the outstanding blocks
are computed from it, so that the property speaks of whole histories.

Blocks and sizes are arbitrary types.
-/

variable {Block Size : Type}

/-- What the user of an allocator does with a block. -/
inductive Event (Block Size : Type) where
  | obtained (block : Block) (size : Size)
  | returned (block : Block) (size : Size)
  deriving Repr, DecidableEq

/-- The block that an event is about. -/
def Event.block : Event Block Size → Block
  | .obtained block _ => block
  | .returned block _ => block

section Outstanding

variable [DecidableEq Block]

/-- The blocks that have been obtained and not been returned since. -/
def outstanding : List (Event Block Size) → List (Block × Size)
  | [] => []
  | .obtained block size :: earlier => (block, size) :: outstanding earlier
  | .returned block _ :: earlier => (outstanding earlier).filter fun entry => entry.1 ≠ block

/--
Only outstanding blocks are returned, with the size they were obtained with,
and no outstanding block is handed out again.
-/
def Sound : List (Event Block Size) → Prop
  | [] => True
  | .obtained block _ :: earlier => block ∉ (outstanding earlier).map Prod.fst ∧ Sound earlier
  | .returned block size :: earlier => (block, size) ∈ outstanding earlier ∧ Sound earlier

variable {ledger : List (Event Block Size)} {block : Block} {size : Size} {entry : Block × Size}

@[simp] theorem mem_outstanding_obtained : entry ∈ outstanding (.obtained block size :: ledger) ↔
      entry = (block, size) ∨ entry ∈ outstanding ledger := by
  simp [outstanding]

@[simp] theorem mem_outstanding_returned : entry ∈ outstanding (.returned block size :: ledger) ↔
      entry ∈ outstanding ledger ∧ entry.1 ≠ block := by
  simp [outstanding]

/-- An outstanding block has been obtained, and nothing has happened to it since. -/
theorem exists_obtained_of_mem_outstanding (member : (block, size) ∈ outstanding ledger)
    (sound : Sound ledger) :
    ∃ later earlier,
      ledger = later ++ .obtained block size :: earlier ∧ ∀ event ∈ later, event.block ≠ block := by
  induction ledger with
  | nil => cases member
  | cons event rest inductionHypothesis =>
    cases event with
    | obtained fresh freshSize =>
      obtain ⟨absent, soundRest⟩ := sound
      rw [mem_outstanding_obtained] at member
      rcases member with same | member
      · obtain ⟨rfl, rfl⟩ := same
        exact ⟨[], rest, rfl, by simp⟩
      · obtain ⟨later, earlier, split, untouched⟩ := inductionHypothesis member soundRest
        have different : fresh ≠ block := by
          rintro rfl
          exact absent (List.mem_map_of_mem member)
        refine ⟨.obtained fresh freshSize :: later, earlier, ?_, ?_⟩
        · rw [split, List.cons_append]
        · exact List.forall_mem_cons.mpr ⟨different, untouched⟩
    | returned gone goneSize =>
      rw [mem_outstanding_returned] at member
      obtain ⟨later, earlier, split, untouched⟩ := inductionHypothesis member.1 sound.2
      refine ⟨.returned gone goneSize :: later, earlier, ?_, ?_⟩
      · rw [split, List.cons_append]
      · exact List.forall_mem_cons.mpr ⟨member.2.symm, untouched⟩

theorem Sound.earlier {later earlier : List (Event Block Size)} (sound : Sound (later ++ earlier)) :
    Sound earlier := by
  induction later with
  | nil => exact sound
  | cons event rest inductionHypothesis =>
    cases event with
    | obtained | returned => exact inductionHypothesis sound.2

/-- Before a block is returned it was last obtained, with the same size. -/
theorem Sound.returned_matches {later earlier : List (Event Block Size)}
    (sound : Sound (later ++ .returned block size :: earlier)) :
    ∃ between before, earlier = between ++ .obtained block size :: before ∧
      ∀ event ∈ between, event.block ≠ block :=
  exists_obtained_of_mem_outstanding sound.earlier.1 sound.earlier.2

/-- Enter the return of several blocks, the first of them first. -/
def returnAll : List (Block × Size) → List (Event Block Size) → List (Event Block Size)
  | [], ledger => ledger
  | entry :: rest, ledger => returnAll rest (.returned entry.1 entry.2 :: ledger)

theorem mem_outstanding_returnAll {entries : List (Block × Size)} :
    entry ∈ outstanding (returnAll entries ledger) ↔
      entry ∈ outstanding ledger ∧ entry.1 ∉ entries.map Prod.fst := by
  induction entries generalizing ledger with
  | nil => simp [returnAll]
  | cons first rest inductionHypothesis =>
    rw [returnAll, inductionHypothesis, mem_outstanding_returned,
      List.map_cons, List.mem_cons, not_or, and_assoc]

/-- Different outstanding blocks may be returned one after the other. -/
theorem Sound.returnAll {entries : List (Block × Size)} (sound : Sound ledger)
    (distinct : (entries.map Prod.fst).Nodup)
    (present : ∀ entry ∈ entries, entry ∈ outstanding ledger) :
    Sound (returnAll entries ledger) := by
  induction entries generalizing ledger with
  | nil => exact sound
  | cons first rest inductionHypothesis =>
    rw [List.map_cons, List.nodup_cons] at distinct
    apply inductionHypothesis
    · exact ⟨present first List.mem_cons_self, sound⟩
    · exact distinct.2
    · intro entry member
      rw [mem_outstanding_returned]
      refine ⟨present entry (List.mem_cons_of_mem first member), ?_⟩
      intro same
      exact distinct.1 (same ▸ List.mem_map_of_mem member)

end Outstanding

/-- Holders have lists of entries, and no key occurs twice in them. -/
structure Separate {Holder Entry Key : Type} (key : Entry → Key)
    (holdings : Holder → List Entry) : Prop where
  apart : ∀ {first second entry other}, entry ∈ holdings first → other ∈ holdings second →
      key entry = key other → first = second
  distinct : ∀ holder, ((holdings holder).map key).Nodup

namespace Separate

variable {Holder Entry Key : Type} {key : Entry → Key} {holdings : Holder → List Entry}
variable {holder target : Holder} {entry : Entry} {gone left : List Entry}

theorem unique {first second : Holder} {other : Entry} (separate : Separate key holdings)
    (held : entry ∈ holdings first) (otherHeld : other ∈ holdings second)
    (same : key entry = key other) :
    first = second ∧ entry = other := by
  obtain rfl := separate.apart held otherHeld same
  exact ⟨rfl, List.inj_on_of_nodup_map (separate.distinct first) held otherHeld same⟩

variable [DecidableEq Holder]

theorem mem_insert_iff {other : Holder} {some : Entry} :
    some ∈ update holdings holder (entry :: holdings holder) other ↔
      other = holder ∧ some = entry ∨ some ∈ holdings other := by
  by_cases same : other = holder
  · subst same
    simp
  · simp [same]

/-- A holder gets an entry with a new key. -/
theorem insert (separate : Separate key holdings)
    (isNew : ∀ {other some}, some ∈ holdings other → key some ≠ key entry) (holder : Holder) :
    Separate key (update holdings holder (entry :: holdings holder)) where
  apart := by
    intro first second some other firstHolds secondHolds same
    rcases mem_insert_iff.mp firstHolds with ⟨rfl, rfl⟩ | held
    · rcases mem_insert_iff.mp secondHolds with ⟨rfl, rfl⟩ | otherHeld
      · rfl
      · exact absurd same.symm (isNew otherHeld)
    · rcases mem_insert_iff.mp secondHolds with ⟨rfl, rfl⟩ | otherHeld
      · exact absurd same (isNew held)
      · exact separate.apart held otherHeld same
  distinct := by
    refine (forall_update_iff holdings fun _ held => (held.map key).Nodup).mpr
      ⟨List.nodup_cons.mpr ⟨?_, separate.distinct holder⟩, fun other _ => separate.distinct other⟩
    intro member
    obtain ⟨other, held, same⟩ := List.mem_map.mp member
    exact isNew held same

/-- When a holder gives entries up, every holder keeps the entries with other keys. -/
theorem mem_drop_iff {other : Holder} {some : Entry} (separate : Separate key holdings)
    (split : (holdings holder).Perm (gone ++ left)) :
    some ∈ update holdings holder left other ↔ some ∈ holdings other ∧ key some ∉ gone.map key := by
  have distinct := (split.map key).nodup_iff.mp (separate.distinct holder)
  rw [List.map_append, List.nodup_append'] at distinct
  have mem_iff : ∀ {entry}, entry ∈ holdings holder ↔ entry ∈ gone ∨ entry ∈ left := by
    intro entry
    rw [split.mem_iff, List.mem_append]
  by_cases same : other = holder
  · subst same
    rw [update_self, mem_iff]
    constructor
    · intro member
      exact ⟨.inr member, fun isGone => distinct.2.2 isGone (List.mem_map_of_mem member)⟩
    · rintro ⟨isGone | member, stays⟩
      · exact absurd (List.mem_map_of_mem isGone) stays
      · exact member
  · rw [update_of_ne same, iff_self_and]
    intro member isGone
    obtain ⟨goneEntry, isGone, sameKey⟩ := List.mem_map.mp isGone
    exact same (separate.apart member (mem_iff.mpr (.inl isGone)) sameKey.symm)

theorem drop (separate : Separate key holdings) (split : (holdings holder).Perm (gone ++ left)) :
    Separate key (update holdings holder left) where
  apart := fun held otherHeld =>
    separate.apart ((separate.mem_drop_iff split).mp held).1
      ((separate.mem_drop_iff split).mp otherHeld).1
  distinct := by
    have distinct := (split.map key).nodup_iff.mp (separate.distinct holder)
    rw [List.map_append] at distinct
    exact (forall_update_iff holdings fun _ held => (held.map key).Nodup).mpr
      ⟨distinct.of_append_right, fun other _ => separate.distinct other⟩

/-- The holdings after a holder has handed one of its entries to another one. -/
def handedOver (holdings : Holder → List Entry) (holder target : Holder) (entry : Entry)
    (left : List Entry) : Holder → List Entry :=
  update (update holdings holder left) target (entry :: holdings target)

section

variable (separate : Separate key holdings) (split : (holdings holder).Perm (entry :: left))
variable (different : target ≠ holder)

include separate split different

theorem handOver : Separate key (handedOver holdings holder target entry left) := by
  have split : (holdings holder).Perm ([entry] ++ left) := split
  have isNew : ∀ {other some}, some ∈ update holdings holder left other → key some ≠ key entry := by
    intro other some held
    simpa using ((separate.mem_drop_iff split).mp held).2
  have inserted := (separate.drop split).insert isNew target
  rwa [update_of_ne different] at inserted

/-- Somebody holds what somebody held before an entry was handed over. -/
theorem exists_mem_handedOver_iff {some : Entry} :
    (∃ other, some ∈ handedOver holdings holder target entry left other) ↔
      ∃ other, some ∈ holdings other := by
  have split : (holdings holder).Perm ([entry] ++ left) := split
  have isHeld : entry ∈ holdings holder := split.mem_iff.mpr List.mem_cons_self
  have member : ∀ {other}, some ∈ handedOver holdings holder target entry left other ↔
        other = target ∧ some = entry ∨ some ∈ update holdings holder left other := by
    intro other
    rw [handedOver, ← update_of_ne different left holdings, mem_insert_iff]
  simp only [member, separate.mem_drop_iff split, exists_or, exists_eq_left, exists_and_right]
  constructor
  · rintro (rfl | ⟨held, -⟩)
    · exact ⟨holder, isHeld⟩
    · exact held
  · rintro ⟨other, held⟩
    by_cases same : key some = key entry
    · exact .inl (separate.unique held isHeld same).2
    · exact .inr ⟨⟨other, held⟩, by simpa using same⟩

end

end Separate

section Divided

variable [DecidableEq Block] {Holder : Type}

/--
The outstanding blocks are divided among holders: every one of them is held,
and no block is held twice.
-/
structure Divided (ledger : List (Event Block Size)) (holdings : Holder → List (Block × Size)) : Prop
    extends Separate Prod.fst holdings where
  sound : Sound ledger
  mem_iff : ∀ entry, entry ∈ outstanding ledger ↔ ∃ holder, entry ∈ holdings holder

namespace Divided

variable [DecidableEq Holder] {ledger : List (Event Block Size)} {block : Block}
variable {holdings : Holder → List (Block × Size)} {holder : Holder}

theorem obtain (divided : Divided ledger holdings) (size : Size)
    (absent : block ∉ (outstanding ledger).map Prod.fst) (holder : Holder) :
    Divided (.obtained block size :: ledger)
      (update holdings holder ((block, size) :: holdings holder)) where
  toSeparate := divided.toSeparate.insert (by
    rintro other entry member rfl
    exact absent (List.mem_map_of_mem ((divided.mem_iff entry).mpr ⟨other, member⟩))) holder
  sound := ⟨absent, divided.sound⟩
  mem_iff := by
    intro entry
    simp only [mem_outstanding_obtained, divided.mem_iff, Separate.mem_insert_iff, exists_or,
      exists_eq_left]

theorem returnAll {gone left : List (Block × Size)} (divided : Divided ledger holdings)
    (split : (holdings holder).Perm (gone ++ left)) :
    Divided (returnAll gone ledger) (update holdings holder left) where
  toSeparate := divided.toSeparate.drop split
  sound := by
    have distinct := (split.map Prod.fst).nodup_iff.mp (divided.distinct holder)
    rw [List.map_append] at distinct
    refine divided.sound.returnAll distinct.of_append_left ?_
    intro entry isGone
    exact (divided.mem_iff entry).mpr ⟨holder, split.mem_iff.mpr (List.mem_append_left left isGone)⟩
  mem_iff := by
    intro entry
    simp only [mem_outstanding_returnAll, divided.mem_iff, divided.toSeparate.mem_drop_iff split,
      exists_and_right]

theorem handOver {entry : Block × Size} {left : List (Block × Size)} {target : Holder}
    (divided : Divided ledger holdings) (split : (holdings holder).Perm (entry :: left))
    (different : target ≠ holder) :
    Divided ledger (Separate.handedOver holdings holder target entry left) where
  toSeparate := divided.toSeparate.handOver split different
  sound := divided.sound
  mem_iff := fun some =>
    (divided.mem_iff some).trans (divided.toSeparate.exists_mem_handedOver_iff split different).symm

end Divided

end Divided

end SocksDirect.AllocationLedger
