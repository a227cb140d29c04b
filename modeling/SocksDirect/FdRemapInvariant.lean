import Mathlib.Algebra.Group.Nat.Defs
import Mathlib.Data.Finset.Card
import Mathlib.Data.Finset.Range
import SocksDirect.FdRemap
import SocksDirect.MachineRun

namespace SocksDirect

open Function

/-!
# What the descriptor table represents

The forward map, the reverse map, the reference counts, the free list and the
watermark of `FdRemapTable` are updated one by one.  Between the operations they
agree: the virtual descriptors below the watermark are those that are bound and
those on the free list, a count is the number of virtual descriptors bound to
its target, and the reverse map names one of them.

The operations take any `int`; -1 and other negative numbers are never stored.
-/

namespace FdRemapTable

/-- `dup`, on a virtual descriptor that is not negative. -/
def dup (table : FdRemapTable) (virtualFd : Nat) : Option (FdRemapTable × Nat) :=
  match table.forward virtualFd with
  | ⟨.kUnknown, _⟩ => none
  | ⟨_, none⟩ => none
  | ⟨type, some realFd⟩ =>
    let (table, newVfd) := table.allocLocked
    some
      ({ table with
          forward := update table.forward newVfd ⟨type, some realFd⟩
          refcount := setEntry table.refcount type realFd (table.refcount type realFd + 1) },
        newVfd)

/-- `live_count`. -/
def liveCount (table : FdRemapTable) : Nat := table.watermark - table.freeList.length

/-- The virtual descriptors that are bound to a target. -/
def boundTo (table : FdRemapTable) (type : FdType) (realFd : Nat) : Finset Nat :=
  (Finset.range table.watermark).filter fun v => table.forward v = ⟨type, some realFd⟩

/-- The virtual descriptors that are bound to anything. -/
def bound (table : FdRemapTable) : Finset Nat :=
  (Finset.range table.watermark).filter fun v => table.forward v ≠ .unused

/-- What holds of the table between its operations. -/
structure Invariant (table : FdRemapTable) : Prop where
  freeNodup : table.freeList.Nodup
  memFree : ∀ v, v ∈ table.freeList ↔ v < table.watermark ∧ table.forward v = .unused
  below : ∀ v, table.forward v ≠ .unused → v < table.watermark
  sized : table.watermark ≤ table.size
  nonempty : 0 < table.size
  targeted : ∀ v, table.forward v ≠ .unused → (table.forward v).realFd ≠ none
  counted :
    ∀ type realFd, type ≠ .kUnknown → table.refcount type realFd = (table.boundTo type realFd).card
  reverseNone : ∀ type realFd, type ≠ .kUnknown →
      (table.reverse type realFd = none ↔ table.boundTo type realFd = ∅)
  reverseSome : ∀ type realFd v, type ≠ .kUnknown → table.reverse type realFd = some v →
      table.forward v = ⟨type, some realFd⟩

section Growth

private theorem le_doubled (needed fuel size : Nat) : size ≤ doubled needed fuel size := by
  induction fuel generalizing size with
  | zero => exact Nat.le_refl size
  | succ fuel inductionHypothesis =>
    rw [doubled]
    split
    · exact Nat.le_trans (Nat.le_mul_of_pos_right size (by decide)) (inductionHypothesis (size * 2))
    · exact Nat.le_refl size

private theorem needed_le_doubled {needed fuel size : Nat} (enough : needed ≤ size * 2 ^ fuel) :
    needed ≤ doubled needed fuel size := by
  induction fuel generalizing size with
  | zero => simpa [doubled] using enough
  | succ fuel inductionHypothesis =>
    rw [doubled]
    split
    · apply inductionHypothesis
      rwa [Nat.mul_assoc, Nat.mul_comm 2]
    · rename_i large
      exact Nat.not_lt.mp large

theorem lt_size_ensureCapacityLocked {table : FdRemapTable} (nonempty : 0 < table.size)
    (virtualFd : Nat) :
    virtualFd < (table.ensureCapacityLocked virtualFd).size := by
  apply needed_le_doubled
  calc virtualFd + 1
      ≤ 2 ^ (virtualFd + 1) := Nat.le_of_lt Nat.lt_two_pow_self
    _ ≤ table.size * 2 ^ (virtualFd + 1) := Nat.le_mul_of_pos_left _ nonempty

theorem size_le_ensureCapacityLocked (table : FdRemapTable) (virtualFd : Nat) :
    table.size ≤ (table.ensureCapacityLocked virtualFd).size :=
  le_doubled _ _ _

end Growth

section Bound

variable {table next : FdRemapTable} {type otherType : FdType} {realFd otherFd v : Nat}

/-- Nothing is bound at or above the watermark. -/
def BelowWatermark (table : FdRemapTable) : Prop :=
  ∀ v, table.forward v ≠ .unused → v < table.watermark

theorem ne_unused_of_eq {mapping : FdMapping} (target : mapping = ⟨type, some realFd⟩) :
    mapping ≠ .unused := by
  rw [target]
  simp [FdMapping.unused]

theorem mem_boundTo (below : table.BelowWatermark) :
    v ∈ table.boundTo type realFd ↔ table.forward v = ⟨type, some realFd⟩ := by
  simp only [boundTo, Finset.mem_filter, Finset.mem_range, and_iff_right_iff_imp]
  intro target
  exact below v (ne_unused_of_eq target)

/-- The bound virtual descriptors after one of them has been bound. -/
theorem boundTo_bind (below : table.BelowWatermark) (nextBelow : next.BelowWatermark)
    (unbound : table.forward v = .unused)
    (forward : next.forward = update table.forward v ⟨type, some realFd⟩) :
    next.boundTo otherType otherFd = if otherType = type ∧ otherFd = realFd then
        insert v (table.boundTo otherType otherFd)
      else
        table.boundTo otherType otherFd := by
  ext w
  rw [mem_boundTo nextBelow, forward]
  by_cases same : w = v
  · subst same
    rw [update_self]
    split
    · rename_i target
      simp [target]
    · rename_i target
      rw [mem_boundTo below, unbound]
      constructor
      · rintro ⟨⟩
        exact absurd ⟨rfl, rfl⟩ target
      · rintro ⟨⟩
  · rw [update_of_ne same]
    split
    · rw [Finset.mem_insert, mem_boundTo below, or_iff_right same]
    · rw [mem_boundTo below]

/-- Unbinding takes one number from those bound to its target. -/
theorem boundTo_unbind (below : table.BelowWatermark) (nextBelow : next.BelowWatermark)
    (target : table.forward v = ⟨type, some realFd⟩)
    (forward : next.forward = update table.forward v .unused) :
    next.boundTo otherType otherFd = if otherType = type ∧ otherFd = realFd then
        (table.boundTo otherType otherFd).erase v
      else
        table.boundTo otherType otherFd := by
  ext w
  rw [mem_boundTo nextBelow, forward]
  by_cases same : w = v
  · subst same
    rw [update_self]
    split
    · simp [FdMapping.unused]
    · rename_i other
      rw [mem_boundTo below, target]
      constructor
      · rintro ⟨⟩
      · rintro ⟨⟩
        exact absurd ⟨rfl, rfl⟩ other
  · rw [update_of_ne same]
    split
    · rw [Finset.mem_erase, mem_boundTo below, and_iff_right same]
    · rw [mem_boundTo below]

end Bound

section Alloc

variable {table : FdRemapTable} {type otherType : FdType} {realFd otherFd v : Nat}

/-- What `alloc_locked` does to the free list and the watermark. -/
structure Fresh
    (table next : FdRemapTable)
    (v : Nat) : Prop where
  forward : next.forward = table.forward
  reverse : next.reverse = table.reverse
  refcount : next.refcount = table.refcount
  unbound : table.forward v = .unused
  below : v < next.watermark
  freeNodup : next.freeList.Nodup
  memFree : ∀ w, w ∈ next.freeList ↔ w ≠ v ∧ w < next.watermark ∧ table.forward w = .unused
  grown : table.watermark ≤ next.watermark
  bounded : next.watermark ≤ table.watermark + 1
  sized : next.watermark ≤ next.size
  nonempty : 0 < next.size

/-- `alloc_locked` takes a virtual descriptor that is not bound. -/
theorem Invariant.allocLocked (invariant : table.Invariant) :
    Fresh table table.allocLocked.1 table.allocLocked.2 := by
  unfold FdRemapTable.allocLocked
  split
  · rename_i v rest free
    have nodup := invariant.freeNodup
    rw [free, List.nodup_cons] at nodup
    have member (w : Nat) : w = v ∨ w ∈ rest ↔ w < table.watermark ∧ table.forward w = .unused := by
      rw [← List.mem_cons, ← free]
      exact invariant.memFree w
    have ofHead := (member v).mp (.inl rfl)
    have larger := size_le_ensureCapacityLocked { table with freeList := rest } v
    exact {
      forward := rfl
      reverse := rfl
      refcount := rfl
      unbound := ofHead.2
      below := ofHead.1
      freeNodup := nodup.2
      memFree := by
        intro w
        constructor
        · intro inRest
          refine ⟨?_, (member w).mp (.inr inRest)⟩
          rintro rfl
          exact nodup.1 inRest
        · rintro ⟨different, isFree⟩
          exact ((member w).mpr isFree).resolve_left different
      grown := Nat.le_refl _
      bounded := Nat.le_succ _
      sized := Nat.le_trans invariant.sized larger
      nonempty := Nat.lt_of_lt_of_le invariant.nonempty larger }
  · rename_i free
    have noneFree (w : Nat) : w < table.watermark → table.forward w ≠ .unused := by
      intro isBelow isUnused
      have member := (invariant.memFree w).mpr ⟨isBelow, isUnused⟩
      rw [free] at member
      cases member
    have unbound : table.forward table.watermark = .unused := by
      by_contra isBound
      exact Nat.lt_irrefl _ (invariant.below _ isBound)
    have room :=
      lt_size_ensureCapacityLocked
        (show 0 < { table with watermark := table.watermark + 1 }.size from invariant.nonempty)
        table.watermark
    exact {
      forward := rfl
      reverse := rfl
      refcount := rfl
      unbound := unbound
      below := Nat.lt_succ_self _
      freeNodup := by simp [ensureCapacityLocked, free]
      memFree := by
        intro w
        simp only [ensureCapacityLocked, free, List.not_mem_nil, false_iff]
        rintro ⟨different, isBelow, isUnused⟩
        rcases Nat.lt_succ_iff_lt_or_eq.mp isBelow with before | same
        · exact noneFree w before isUnused
        · exact different same
      grown := Nat.le_succ _
      bounded := Nat.le_refl _
      sized := room
      nonempty := Nat.lt_of_le_of_lt (Nat.zero_le _) room }

theorem setEntry_apply {Value : Type} (map : FdType → Nat → Value) (value : Value) :
    setEntry map type realFd value otherType otherFd = if otherType = type ∧ otherFd = realFd then
        value
      else
        map otherType otherFd := by
  unfold setEntry
  by_cases sameType : otherType = type
  · subst sameType
    by_cases sameFd : otherFd = realFd
    · subst sameFd
      simp
    · simp [sameFd]
  · simp [sameType]

/-- Bind a virtual descriptor and count its target: the end of `alloc`. -/
def bindEntry (table : FdRemapTable) (vfd : Nat) (type : FdType) (realFd : Nat) : FdRemapTable :=
  let table := { table with forward := update table.forward vfd ⟨type, some realFd⟩ }
  if type = .kUnknown then
    table
  else
    { table with
      reverse :=
        if table.reverse type realFd = none then
          setEntry table.reverse type realFd (some vfd)
        else
          table.reverse
      refcount := setEntry table.refcount type realFd (table.refcount type realFd + 1) }

theorem alloc_eq (table : FdRemapTable) (type : FdType) (realFd : Nat) : table.alloc type realFd =
      (table.allocLocked.1.bindEntry table.allocLocked.2 type realFd, table.allocLocked.2) := by
  unfold alloc bindEntry
  dsimp only
  split <;> rfl

theorem bindEntry_fields (table : FdRemapTable) (v : Nat) (type : FdType) (realFd : Nat) :
    (table.bindEntry v type realFd).forward = update table.forward v ⟨type, some realFd⟩ ∧
      (table.bindEntry v type realFd).freeList = table.freeList ∧
      (table.bindEntry v type realFd).watermark = table.watermark ∧
      (table.bindEntry v type realFd).size = table.size := by
  unfold bindEntry
  split <;> exact ⟨rfl, rfl, rfl, rfl⟩

theorem bindEntry_refcount (table : FdRemapTable) (v : Nat) (type : FdType) (realFd : Nat)
    (known : otherType ≠ .kUnknown) : (table.bindEntry v type realFd).refcount otherType otherFd =
      table.refcount otherType otherFd + if otherType = type ∧ otherFd = realFd then 1 else 0 := by
  unfold bindEntry
  split
  · rename_i unknown
    rw [if_neg]
    · rfl
    · rintro ⟨rfl, -⟩
      exact known unknown
  · dsimp only
    rw [setEntry_apply]
    split
    · rename_i same
      rw [same.1, same.2]
    · rfl

/-- A name keeps the number that it leads to; only a name that leads nowhere gets the new one. -/
theorem bindEntry_reverse (table : FdRemapTable) (v : Nat) (type : FdType) (realFd : Nat)
    (known : otherType ≠ .kUnknown) : (table.bindEntry v type realFd).reverse otherType otherFd =
      if otherType = type ∧ otherFd = realFd then
        some ((table.reverse otherType otherFd).getD v)
      else
        table.reverse otherType otherFd := by
  unfold bindEntry
  dsimp only
  split
  · rename_i unknown
    rw [if_neg]
    rintro ⟨rfl, -⟩
    exact known unknown
  · split
    · rename_i absent
      dsimp only
      rw [setEntry_apply]
      split
      · rename_i same
        rw [same.1, same.2, absent]
        rfl
      · rfl
    · rename_i present
      split
      · rename_i same
        rw [same.1, same.2]
        obtain ⟨w, found⟩ := Option.ne_none_iff_exists'.mp present
        rw [found]
        rfl
      · rfl

theorem alloc_refcount (table : FdRemapTable) (type : FdType) (realFd : Nat)
    (known : otherType ≠ .kUnknown) : (table.alloc type realFd).1.refcount otherType otherFd =
      table.allocLocked.1.refcount otherType otherFd +
        if otherType = type ∧ otherFd = realFd then 1 else 0 := by
  rw [alloc_eq]
  exact bindEntry_refcount _ _ type realFd known

theorem Invariant.alloc_unbound (invariant : table.Invariant) (type : FdType) (realFd : Nat) :
    table.forward (table.alloc type realFd).2 = .unused := by
  rw [alloc_eq]
  exact invariant.allocLocked.unbound

section BindFresh

variable {next : FdRemapTable}

theorem Fresh.bindEntry_below (fresh : Fresh table next v) (invariant : table.Invariant)
    (type : FdType) (realFd : Nat) : (next.bindEntry v type realFd).BelowWatermark := by
  obtain ⟨forward, -, watermark, -⟩ := bindEntry_fields next v type realFd
  intro w isBound
  rw [watermark]
  rw [forward, fresh.forward] at isBound
  by_cases same : w = v
  · rw [same]
    exact fresh.below
  · rw [update_of_ne same] at isBound
    exact Nat.lt_of_lt_of_le (invariant.below w isBound) fresh.grown

theorem Fresh.bindEntry_boundTo (fresh : Fresh table next v) (invariant : table.Invariant)
    (type : FdType) (realFd : Nat) : (next.bindEntry v type realFd).boundTo otherType otherFd =
      if otherType = type ∧ otherFd = realFd then
        insert v (table.boundTo otherType otherFd)
      else
        table.boundTo otherType otherFd := by
  apply boundTo_bind invariant.below (fresh.bindEntry_below invariant type realFd) fresh.unbound
  rw [(bindEntry_fields next v type realFd).1, fresh.forward]

/-- Binding a fresh number keeps the invariant. -/
theorem Fresh.bindEntry (fresh : Fresh table next v) (invariant : table.Invariant) (type : FdType)
    (realFd : Nat) : (next.bindEntry v type realFd).Invariant := by
  obtain ⟨forward, freeList, watermark, size⟩ := bindEntry_fields next v type realFd
  rw [fresh.forward] at forward
  have notMember (otherType : FdType) (otherFd : Nat) : v ∉ table.boundTo otherType otherFd := by
    intro member
    exact ne_unused_of_eq ((mem_boundTo invariant.below).mp member) fresh.unbound
  refine ⟨?_, ?_, fresh.bindEntry_below invariant type realFd, ?_, ?_, ?_, ?_, ?_, ?_⟩
  · rw [freeList]
    exact fresh.freeNodup
  · intro w
    rw [freeList, watermark, fresh.memFree, forward]
    by_cases same : w = v
    · subst same
      simp [FdMapping.unused]
    · simp [same]
  · rw [watermark, size]
    exact fresh.sized
  · rw [size]
    exact fresh.nonempty
  · intro w isBound
    rw [forward] at isBound ⊢
    by_cases same : w = v
    · rw [same, update_self]
      simp
    · rw [update_of_ne same] at isBound ⊢
      exact invariant.targeted w isBound
  · intro otherType otherFd known
    rw [bindEntry_refcount next v type realFd known, fresh.refcount,
      invariant.counted otherType otherFd known, fresh.bindEntry_boundTo invariant type realFd]
    split
    · rw [Finset.card_insert_of_notMem (notMember otherType otherFd)]
    · rfl
  · intro otherType otherFd known
    rw [bindEntry_reverse next v type realFd known, fresh.reverse,
      fresh.bindEntry_boundTo invariant type realFd]
    split
    · simp
    · exact invariant.reverseNone otherType otherFd known
  · intro otherType otherFd w known found
    have old (u : Nat) (before : table.reverse otherType otherFd = some u) :
        (next.bindEntry v type realFd).forward u = ⟨otherType, some otherFd⟩ := by
      have target := invariant.reverseSome otherType otherFd u known before
      rw [forward, update_of_ne]
      · exact target
      · rintro rfl
        exact ne_unused_of_eq target fresh.unbound
    rw [bindEntry_reverse next v type realFd known, fresh.reverse] at found
    split at found
    · rename_i same
      cases before : table.reverse otherType otherFd with
      | none =>
        rw [before, Option.getD_none, Option.some.injEq] at found
        rw [forward, ← found, update_self, same.1, same.2]
      | some u =>
        rw [before] at found
        cases found
        exact old u before
    · exact old w found

end BindFresh

theorem Invariant.alloc (invariant : table.Invariant) (type : FdType) (realFd : Nat) :
    (table.alloc type realFd).1.Invariant := by
  rw [alloc_eq]
  exact invariant.allocLocked.bindEntry invariant type realFd

/-- `dup` of a bound number is `alloc` with its target. -/
theorem Invariant.dup_eq (invariant : table.Invariant) (known : type ≠ .kUnknown)
    (target : table.forward v = ⟨type, some realFd⟩) :
    table.dup v = some (table.alloc type realFd) := by
  have present : table.allocLocked.1.reverse type realFd ≠ none := by
    rw [invariant.allocLocked.reverse]
    intro absent
    have none := (invariant.reverseNone type realFd known).mp absent
    have member := (mem_boundTo invariant.below).mpr target
    rw [none] at member
    cases member
  unfold FdRemapTable.dup FdRemapTable.alloc
  rw [target]
  dsimp only
  rw [if_neg known, if_neg present]
  split
  · rename_i same
    cases same
    exact absurd rfl known
  · rename_i same
    cases same
  · rename_i same
    cases same
    rfl

theorem dup_eq_none
    (noTarget : ∀ type realFd, type ≠ .kUnknown → table.forward v ≠ ⟨type, some realFd⟩) :
    table.dup v = none := by
  unfold FdRemapTable.dup
  split
  · rfl
  · rfl
  · rename_i type realFd known mapping
    exact absurd mapping (noTarget type realFd (by simpa using known))

end Alloc

section Free

variable {table : FdRemapTable} {type otherType : FdType} {realFd otherFd v : Nat}

/-- The table of `free` before the reference is dropped. -/
def unbind (table : FdRemapTable) (v : Nat) : FdRemapTable :=
  { table with forward := update table.forward v .unused, freeList := v :: table.freeList }

theorem free_eq (target : table.forward v = ⟨type, some realFd⟩) :
    table.free v = (table.unbind v).decrefLocked type realFd v := by
  unfold FdRemapTable.free
  rw [if_neg (ne_unused_of_eq target), target]
  rfl

theorem free_unbound (unbound : table.forward v = .unused) : table.free v = (table, 0) := by
  unfold FdRemapTable.free
  rw [if_pos unbound]

theorem decrefLocked_fields (table : FdRemapTable) (type : FdType) (realFd v : Nat) :
    (table.decrefLocked type realFd v).1.forward = table.forward ∧
      (table.decrefLocked type realFd v).1.freeList = table.freeList ∧
      (table.decrefLocked type realFd v).1.watermark = table.watermark ∧
      (table.decrefLocked type realFd v).1.size = table.size := by
  unfold decrefLocked
  split
  · exact ⟨rfl, rfl, rfl, rfl⟩
  · split
    · exact ⟨rfl, rfl, rfl, rfl⟩
    · split <;> exact ⟨rfl, rfl, rfl, rfl⟩

theorem decrefLocked_counted (known : type ≠ .kUnknown) (counted : table.refcount type realFd ≠ 0) :
    (table.decrefLocked type realFd v).2 = table.refcount type realFd - 1 ∧
      (table.decrefLocked type realFd v).1.refcount =
        setEntry table.refcount type realFd (table.refcount type realFd - 1) ∧
      (table.decrefLocked type realFd v).1.reverse = if table.reverse type realFd = some v then
          setEntry table.reverse type realFd
            (if table.refcount type realFd - 1 = 0 then none else table.replacement type realFd)
        else
          table.reverse := by
  unfold decrefLocked
  rw [if_neg known, if_neg counted]
  split <;> exact ⟨rfl, rfl, rfl⟩

theorem replacement_spec (below : table.BelowWatermark) (sized : table.watermark ≤ table.size)
    (nonempty : table.boundTo type realFd ≠ ∅) :
    ∃ w, table.replacement type realFd = some w ∧ table.forward w = ⟨type, some realFd⟩ := by
  obtain ⟨w, member⟩ := Finset.nonempty_iff_ne_empty.mpr nonempty
  have target := (mem_boundTo below).mp member
  have inside : w < table.size := Nat.lt_of_lt_of_le (below w (ne_unused_of_eq target)) sized
  have isFound : (table.replacement type realFd).isSome := by
    apply List.find?_isSome.mpr
    exact ⟨w, List.mem_range.mpr inside, by simp [target]⟩
  obtain ⟨found, search⟩ := Option.isSome_iff_exists.mp isFound
  have holds := List.find?_some search
  exact ⟨found, search, by simpa using holds⟩

theorem free_fields (target : table.forward v = ⟨type, some realFd⟩) : (table.free v).1.forward =
      update table.forward v .unused ∧ (table.free v).1.freeList = v :: table.freeList ∧
      (table.free v).1.watermark = table.watermark ∧ (table.free v).1.size = table.size := by
  rw [free_eq target]
  exact decrefLocked_fields (table.unbind v) type realFd v

section

variable (invariant : table.Invariant)

include invariant

theorem Invariant.free_below (target : table.forward v = ⟨type, some realFd⟩) :
    (table.free v).1.BelowWatermark := by
  obtain ⟨forward, -, watermark, -⟩ := free_fields target
  intro w isBound
  rw [watermark]
  apply invariant.below w
  intro unbound
  apply isBound
  rw [forward]
  by_cases same : w = v
  · rw [same, update_self]
  · rw [update_of_ne same, unbound]

theorem Invariant.free_boundTo (target : table.forward v = ⟨type, some realFd⟩) :
    (table.free v).1.boundTo otherType otherFd = if otherType = type ∧ otherFd = realFd then
        (table.boundTo otherType otherFd).erase v
      else
        table.boundTo otherType otherFd :=
  boundTo_unbind invariant.below (invariant.free_below target) target (free_fields target).1

theorem Invariant.counted_pos (known : type ≠ .kUnknown)
    (target : table.forward v = ⟨type, some realFd⟩) :
    0 < table.refcount type realFd := by
  rw [invariant.counted type realFd known, Finset.card_pos]
  exact ⟨v, (mem_boundTo invariant.below).mpr target⟩

theorem Invariant.card_erase (known : type ≠ .kUnknown)
    (target : table.forward v = ⟨type, some realFd⟩) :
    ((table.boundTo type realFd).erase v).card = table.refcount type realFd - 1 := by
  rw [invariant.counted type realFd known]
  exact Finset.card_erase_of_mem ((mem_boundTo invariant.below).mpr target)

theorem Invariant.free_refs (known : type ≠ .kUnknown)
    (target : table.forward v = ⟨type, some realFd⟩) :
    (table.free v).2 = ((table.free v).1.boundTo type realFd).card := by
  have counted : (table.unbind v).refcount type realFd ≠ 0 :=
    Nat.ne_of_gt (invariant.counted_pos known target)
  rw [invariant.free_boundTo target, if_pos ⟨rfl, rfl⟩,
    invariant.card_erase known target, free_eq target]
  exact (decrefLocked_counted known counted).1

/-- The counts that `free` leaves. -/
theorem Invariant.free_counted (target : table.forward v = ⟨type, some realFd⟩)
    (otherKnown : otherType ≠ .kUnknown) :
    (table.free v).1.refcount otherType otherFd =
      ((table.free v).1.boundTo otherType otherFd).card := by
  rw [invariant.free_boundTo target]
  by_cases known : type = .kUnknown
  · have different : ¬ (otherType = type ∧ otherFd = realFd) := by
      rintro ⟨rfl, -⟩
      exact otherKnown known
    rw [if_neg different, free_eq target, decrefLocked, if_pos known]
    exact invariant.counted otherType otherFd otherKnown
  · have counted : (table.unbind v).refcount type realFd ≠ 0 :=
      Nat.ne_of_gt (invariant.counted_pos known target)
    rw [free_eq target, (decrefLocked_counted known counted).2.1, setEntry_apply]
    split
    · rename_i same
      rw [same.1, same.2]
      exact (invariant.card_erase known target).symm
    · exact invariant.counted otherType otherFd otherKnown

end

/-- The reverse map names a bound virtual descriptor if there is one. -/
def Names (table : FdRemapTable) (type : FdType) (realFd : Nat) : Prop :=
  table.reverse type realFd = none ∧ table.boundTo type realFd = ∅ ∨
    ∃ w, table.reverse type realFd = some w ∧ table.forward w = ⟨type, some realFd⟩

theorem Names.reverseNone (names : table.Names type realFd) (below : table.BelowWatermark) :
    table.reverse type realFd = none ↔ table.boundTo type realFd = ∅ := by
  rcases names with ⟨absent, empty⟩ | ⟨w, found, bound⟩
  · exact iff_of_true absent empty
  · refine iff_of_false ?_ ?_
    · rw [found]
      simp
    · intro empty
      have member := (mem_boundTo below).mpr bound
      rw [empty] at member
      cases member

theorem Names.reverseSome (names : table.Names type realFd)
    (found : table.reverse type realFd = some v) :
    table.forward v = ⟨type, some realFd⟩ := by
  rcases names with ⟨absent, -⟩ | ⟨w, named, bound⟩
  · rw [absent] at found
    cases found
  · rw [named] at found
    cases found
    exact bound

section

variable (invariant : table.Invariant)

include invariant

theorem Invariant.names (known : type ≠ .kUnknown) (realFd : Nat) : table.Names type realFd := by
  cases found : table.reverse type realFd with
  | none => exact .inl ⟨found, (invariant.reverseNone type realFd known).mp found⟩
  | some w => exact .inr ⟨w, found, invariant.reverseSome type realFd w known found⟩

/-- `free` leaves what the reverse map says about other targets. -/
theorem Invariant.free_names_elsewhere (target : table.forward v = ⟨type, some realFd⟩)
    (otherKnown : otherType ≠ .kUnknown) (different : ¬ (otherType = type ∧ otherFd = realFd)) :
    (table.free v).1.Names otherType otherFd := by
  have same : (table.free v).1.reverse otherType otherFd = table.reverse otherType otherFd := by
    rw [free_eq target, decrefLocked]
    split
    · rfl
    · split
      · rfl
      · split
        · dsimp only
          rw [setEntry_apply, if_neg different]
          rfl
        · rfl
  unfold Names
  rw [same, invariant.free_boundTo target, if_neg different]
  rcases invariant.names otherKnown otherFd with unnamed | ⟨w, found, bound⟩
  · exact .inl unnamed
  · refine .inr ⟨w, found, ?_⟩
    rw [(free_fields target).1, update_of_ne]
    · exact bound
    · rintro rfl
      rw [target] at bound
      cases bound
      exact different ⟨rfl, rfl⟩

/-- `free` leaves a name of its target if there is one. -/
theorem Invariant.free_names_target (known : type ≠ .kUnknown)
    (target : table.forward v = ⟨type, some realFd⟩) : (table.free v).1.Names type realFd := by
  obtain ⟨forward, -, watermark, size⟩ := free_fields target
  have counted : (table.unbind v).refcount type realFd ≠ 0 :=
    Nat.ne_of_gt (invariant.counted_pos known target)
  obtain ⟨-, -, reverse⟩ := decrefLocked_counted (v := v) known counted
  rw [← free_eq target] at reverse
  have left : (table.free v).1.boundTo type realFd = (table.boundTo type realFd).erase v := by
    rw [invariant.free_boundTo target, if_pos ⟨rfl, rfl⟩]
  have count := invariant.card_erase known target
  rw [← left] at count
  have present : v ∈ table.boundTo type realFd := (mem_boundTo invariant.below).mpr target
  by_cases named : table.reverse type realFd = some v
  · rw [if_pos (show (table.unbind v).reverse type realFd = some v from named)] at reverse
    by_cases last : table.refcount type realFd - 1 = 0
    · refine .inl ⟨?_, ?_⟩
      · rw [reverse, setEntry_apply, if_pos ⟨rfl, rfl⟩]
        exact if_pos last
      · rw [← Finset.card_eq_zero, count]
        exact last
    · have below : (table.unbind v).BelowWatermark := by
        have freed := invariant.free_below target
        unfold BelowWatermark at freed
        rwa [forward, watermark] at freed
      have nonempty : (table.unbind v).boundTo type realFd ≠ ∅ := by
        have same :
            (table.unbind v).boundTo type realFd = (table.free v).1.boundTo type realFd := by
          unfold boundTo
          rw [forward, watermark]
          rfl
        intro empty
        rw [← same, empty] at count
        exact last count.symm
      obtain ⟨w, search, bound⟩ := replacement_spec below invariant.sized nonempty
      refine .inr ⟨w, ?_, ?_⟩
      · rw [reverse, setEntry_apply, if_pos ⟨rfl, rfl⟩]
        exact (if_neg last).trans search
      · rw [forward]
        exact bound
  · rw [if_neg (show (table.unbind v).reverse type realFd ≠ some v from named)] at reverse
    cases found : table.reverse type realFd with
    | none =>
      have empty := (invariant.reverseNone type realFd known).mp found
      rw [empty] at present
      cases present
    | some w =>
      refine .inr ⟨w, ?_, ?_⟩
      · rw [reverse]
        exact found
      · rw [forward, update_of_ne]
        · exact invariant.reverseSome type realFd w known found
        · rintro rfl
          exact named found

/-- `free` keeps the invariant. -/
theorem Invariant.free (v : Nat) : (table.free v).1.Invariant := by
  by_cases unbound : table.forward v = .unused
  · rw [free_unbound unbound]
    exact invariant
  obtain ⟨realFd, hasFd⟩ := Option.ne_none_iff_exists'.mp (invariant.targeted v unbound)
  have target : table.forward v = ⟨(table.forward v).type, some realFd⟩ := by rw [← hasFd]
  obtain ⟨forward, freeList, watermark, size⟩ := free_fields target
  have below := invariant.free_below target
  have names
      (type : FdType)
      (fd : Nat)
      (known : type ≠ .kUnknown) :
      (table.free v).1.Names type fd := by
    by_cases same : type = (table.forward v).type ∧ fd = realFd
    · obtain ⟨rfl, rfl⟩ := same
      exact invariant.free_names_target known target
    · exact invariant.free_names_elsewhere target known same
  refine ⟨?_, ?_, below, ?_, ?_, ?_, ?_, ?_, ?_⟩
  · rw [freeList, List.nodup_cons]
    refine ⟨?_, invariant.freeNodup⟩
    intro member
    exact unbound ((invariant.memFree v).mp member).2
  · intro w
    rw [freeList, List.mem_cons, watermark, forward, invariant.memFree]
    by_cases same : w = v
    · subst same
      simp [invariant.below w unbound]
    · simp [same]
  · rw [watermark, size]
    exact invariant.sized
  · rw [size]
    exact invariant.nonempty
  · intro w isBound
    rw [forward] at isBound ⊢
    by_cases same : w = v
    · rw [same, update_self] at isBound
      exact absurd rfl isBound
    · rw [update_of_ne same] at isBound ⊢
      exact invariant.targeted w isBound
  · intro type fd known
    exact invariant.free_counted target known
  · intro type fd known
    exact (names type fd known).reverseNone below
  · intro type fd w known found
    exact (names type fd known).reverseSome found

end

end Free

/-- The table of a process that has just started keeps the invariant. -/
theorem Invariant.empty : FdRemapTable.empty.Invariant where
  freeNodup := List.nodup_nil
  memFree := by
    intro v
    simp [FdRemapTable.empty]
  below := by
    intro v isBound
    exact absurd rfl isBound
  sized := Nat.zero_le _
  nonempty := by decide
  targeted := by
    intro v isBound
    exact absurd rfl isBound
  counted := by
    intro type realFd _
    rfl
  reverseNone := by
    intro type realFd _
    exact iff_of_true rfl rfl
  reverseSome := by
    intro type realFd v _ found
    cases found

theorem Invariant.free_add_bound {table : FdRemapTable} (invariant : table.Invariant) :
    table.freeList.length + table.bound.card = table.watermark := by
  have free : table.freeList.toFinset =
        (Finset.range table.watermark).filter fun v => ¬ table.forward v ≠ .unused := by
    ext v
    rw [List.mem_toFinset, invariant.memFree]
    simp
  have split :=
    Finset.card_filter_add_card_filter_not
      (s := Finset.range table.watermark)
      (fun v => table.forward v ≠ .unused)
  rw [← free, List.toFinset_card_of_nodup invariant.freeNodup,
    Finset.card_range, Nat.add_comm] at split
  exact split

theorem Invariant.liveCount_eq {table : FdRemapTable} (invariant : table.Invariant) :
    table.liveCount = table.bound.card := by
  have split := invariant.free_add_bound
  rw [liveCount]
  omega

end FdRemapTable

/-- An operation with the `int` arguments of the source. -/
inductive FdTableOp where
  | alloc (type : FdType) (realFd : Int)
  | dup (virtualFd : Int)
  | free (virtualFd : Int)
  deriving Repr, DecidableEq

namespace FdRemapTable

/-- The table after an operation, and the `int` that is returned. -/
def apply (table : FdRemapTable) : FdTableOp → FdRemapTable × Int
  | .alloc type (.ofNat realFd) =>
    let (table, vfd) := table.alloc type realFd
    (table, vfd)
  | .alloc _ (.negSucc n) => (table, .negSucc n)
  | .dup (.ofNat vfd) =>
    match table.dup vfd with
    | none => (table, -1)
    | some (table, newVfd) => (table, newVfd)
  | .dup (.negSucc _) => (table, -1)
  | .free (.ofNat vfd) =>
    let (table, refs) := table.free vfd
    (table, refs)
  | .free (.negSucc _) => (table, 0)

/-- The table after a sequence of operations. -/
def applyAll (table : FdRemapTable) (ops : List FdTableOp) : FdRemapTable :=
  ops.foldl (fun table op => (table.apply op).1) table

section Operations

variable {table : FdRemapTable}

section

variable (invariant : table.Invariant)

include invariant

theorem Invariant.apply_dup (virtualFd : Int) : table.apply (.dup virtualFd) = (table, -1) ∨
      ∃ type realFd, table.apply (.dup virtualFd) = table.apply (.alloc type (.ofNat realFd)) := by
  cases virtualFd with
  | negSucc n => exact .inl rfl
  | ofNat v =>
    by_cases counted : ∃ type realFd, type ≠ .kUnknown ∧ table.forward v = ⟨type, some realFd⟩
    · obtain ⟨type, realFd, known, target⟩ := counted
      refine .inr ⟨type, realFd, ?_⟩
      dsimp only [FdRemapTable.apply]
      rw [invariant.dup_eq known target]
    · refine .inl ?_
      dsimp only [FdRemapTable.apply]
      rw [dup_eq_none]
      intro type realFd known target
      exact counted ⟨type, realFd, known, target⟩

theorem Invariant.apply (op : FdTableOp) : (table.apply op).1.Invariant := by
  cases op with
  | alloc type realFd =>
    cases realFd with
    | ofNat realFd => exact invariant.alloc type realFd
    | negSucc n => exact invariant
  | dup virtualFd =>
    rcases invariant.apply_dup virtualFd with failed | ⟨type, realFd, same⟩
    · rw [failed]
      exact invariant
    · rw [same]
      exact invariant.alloc type realFd
  | free virtualFd =>
    cases virtualFd with
    | ofNat v => exact invariant.free v
    | negSucc n => exact invariant

theorem Invariant.watermark_free (v : Nat) : (table.free v).1.watermark = table.watermark := by
  by_cases unbound : table.forward v = .unused
  · rw [free_unbound unbound]
  · obtain ⟨realFd, hasFd⟩ := Option.ne_none_iff_exists'.mp (invariant.targeted v unbound)
    have target : table.forward v = ⟨(table.forward v).type, some realFd⟩ := by rw [← hasFd]
    exact (free_fields target).2.2.1

/-- One operation raises the watermark by at most one. -/
theorem Invariant.watermark_apply (op : FdTableOp) :
    (table.apply op).1.watermark ≤ table.watermark + 1 := by
  have allocated (type : FdType) (realFd : Nat) :
      (table.alloc type realFd).1.watermark ≤ table.watermark + 1 := by
    rw [alloc_eq, (bindEntry_fields _ _ type realFd).2.2.1]
    exact invariant.allocLocked.bounded
  cases op with
  | alloc type realFd =>
    cases realFd with
    | ofNat realFd => exact allocated type realFd
    | negSucc n => exact Nat.le_succ _
  | dup virtualFd =>
    rcases invariant.apply_dup virtualFd with failed | ⟨type, realFd, same⟩
    · rw [failed]
      exact Nat.le_succ _
    · rw [same]
      exact allocated type realFd
  | free virtualFd =>
    cases virtualFd with
    | ofNat v => exact Nat.le_succ_of_le (Nat.le_of_eq (invariant.watermark_free v))
    | negSucc n => exact Nat.le_succ _

theorem Invariant.applyAll (ops : List FdTableOp) : (table.applyAll ops).Invariant ∧
      (table.applyAll ops).watermark ≤ table.watermark + ops.length := by
  induction ops generalizing table with
  | nil => exact ⟨invariant, Nat.le_refl _⟩
  | cons op rest inductionHypothesis =>
    obtain ⟨restInvariant, restBound⟩ := inductionHypothesis (invariant.apply op)
    have opBound := invariant.watermark_apply op
    refine ⟨restInvariant, ?_⟩
    calc ((table.apply op).1.applyAll rest).watermark
        ≤ (table.apply op).1.watermark + rest.length := restBound
      _ ≤ table.watermark + 1 + rest.length := Nat.add_le_add_right opBound _
      _ = table.watermark + (op :: rest).length := by
          rw [List.length_cons, Nat.add_right_comm, Nat.add_assoc]

/-- `alloc` and a successful `dup` return a number that was not bound. -/
theorem Invariant.apply_unbound {op : FdTableOp}
    (binds : (∃ type realFd, 0 ≤ realFd ∧ op = .alloc type realFd) ∨
      ∃ virtualFd, op = .dup virtualFd ∧ (table.apply op).2 ≠ -1) :
    ∃ v : Nat, (table.apply op).2 = v ∧ table.forward v = .unused := by
  have allocated (type : FdType) (realFd : Nat) :
      ∃ v : Nat, (table.apply (.alloc type (.ofNat realFd))).2 = v ∧ table.forward v = .unused :=
    ⟨_, rfl, invariant.alloc_unbound type realFd⟩
  rcases binds with ⟨type, realFd, notNegative, rfl⟩ | ⟨virtualFd, rfl, succeeds⟩
  · cases realFd with
    | ofNat realFd => exact allocated type realFd
    | negSucc n => exact absurd notNegative (by simp)
  · rcases invariant.apply_dup virtualFd with failed | ⟨type, realFd, same⟩
    · rw [failed] at succeeds
      exact absurd rfl succeeds
    · rw [same]
      exact allocated type realFd

end

/--
After any sequence of operations: the free list has no duplicates and consists
of the virtual descriptors below the watermark that are not bound; `live_count`
is the number of the bound ones; the counts and the reverse map agree with the
forward map; `alloc` and a successful `dup` return a number that was not bound;
and `free` returns how many virtual descriptors are still bound to the target,
or 0 if nothing was bound or the target has no type.  Every virtual descriptor
is below the number of operations.
-/
theorem representation
    (ops : List FdTableOp) :
    let table := FdRemapTable.empty.applyAll ops
    table.watermark ≤ ops.length ∧ table.freeList.Nodup ∧
      (∀ v, v ∈ table.freeList ↔ v < table.watermark ∧ table.lookup v = .unused) ∧
      (∀ v, table.lookup v ≠ .unused → v < table.watermark) ∧ table.liveCount = table.bound.card ∧
      (∀ type realFd, type ≠ .kUnknown →
        table.refcount type realFd = (table.boundTo type realFd).card ∧
          (table.reverseLookup type realFd = none ↔ (table.boundTo type realFd).card = 0) ∧
          ∀ v, table.reverseLookup type realFd = some v → table.lookup v = ⟨type, some realFd⟩) ∧
      (∀ op, ((∃ type realFd, 0 ≤ realFd ∧ op = .alloc type realFd) ∨
          ∃ virtualFd, op = .dup virtualFd ∧ (table.apply op).2 ≠ -1) →
        ∃ v : Nat, (table.apply op).2 = v ∧ table.lookup v = .unused) ∧
      (∀ v type realFd, table.lookup v = ⟨type, some realFd⟩ → (table.apply (.free v)).2 =
          if type = .kUnknown then 0 else ((table.apply (.free v)).1.boundTo type realFd).card) ∧
      ∀ virtualFd : Int, (∀ v : Nat, virtualFd = v → table.lookup v = .unused) →
        table.apply (.free virtualFd) = (table, 0) := by
  intro table
  obtain ⟨invariant, watermark⟩ := Invariant.empty.applyAll ops
  refine ⟨?_, invariant.freeNodup, invariant.memFree, invariant.below,
    invariant.liveCount_eq, ?_, ?_, ?_, ?_⟩
  · rwa [show FdRemapTable.empty.watermark = 0 from rfl, Nat.zero_add] at watermark
  · intro type realFd known
    refine ⟨invariant.counted type realFd known, ?_, ?_⟩
    · rw [Finset.card_eq_zero]
      exact invariant.reverseNone type realFd known
    · intro v found
      exact invariant.reverseSome type realFd v known found
  · intro op binds
    exact invariant.apply_unbound binds
  · intro v type realFd target
    split
    · rename_i unknown
      change ((table.free v).2 : Int) = 0
      rw [free_eq target, decrefLocked, if_pos unknown]
      rfl
    · rename_i known
      exact congrArg Nat.cast (invariant.free_refs known target)
  · intro virtualFd unbound
    cases virtualFd with
    | ofNat v =>
      dsimp only [FdRemapTable.apply]
      rw [free_unbound (unbound v rfl)]
      rfl
    | negSucc n => rfl

/--
A target without type is not counted: `free` returns 0 although another virtual
descriptor is bound to it.
-/
theorem free_uncounted :
    let table := FdRemapTable.empty.applyAll [.alloc .kUnknown 5, .alloc .kUnknown 5]
    table.lookup 0 = ⟨.kUnknown, some 5⟩ ∧ (table.apply (.free 0)).2 = 0 ∧
      ((table.apply (.free 0)).1.boundTo .kUnknown 5).card = 1 := by
  decide

end Operations

end FdRemapTable

end SocksDirect
