import SocksDirect.FdRemapInvariant

namespace SocksDirect

open Function Machine

/-!
# Binding a virtual descriptor that the caller names

`set` and `dup_to` of `FdRemapTable`.  Both write the entry of a number that
`alloc_locked` did not hand out.  Two things follow from the order of their
updates.

`dup_to` drops the old binding while the forward entry still shows it, so that
the search for another holder can return the number that is being rebound.

Neither of them takes the number from the free list or puts the numbers that it
jumps over there.
-/

/-- The entry has a target that is counted. -/
def FdMapping.Counted (mapping : FdMapping) : Prop :=
  mapping.type ≠ .kUnknown ∧ mapping.realFd ≠ none

instance (mapping : FdMapping) : Decidable mapping.Counted := inferInstanceAs (Decidable (_ ∧ _))

/-- What `dup_to` returns, with the count in `out_prev_refs`. -/
inductive DupToResult where
  | badFd
  | same (refs : Nat)
  | rebound (prev : FdMapping) (prevRefs : Option Nat)
  deriving Repr, DecidableEq

namespace FdRemapTable

/-- Drop the reference of the old binding, if that is counted. -/
def dropBinding (table : FdRemapTable) (virtualFd : Nat) : FdRemapTable × Option Nat :=
  match table.forward virtualFd with
  | ⟨.kUnknown, _⟩ => (table, none)
  | ⟨_, none⟩ => (table, none)
  | ⟨type, some realFd⟩ =>
    let (table, refs) := table.decrefLocked type realFd virtualFd
    (table, some refs)

/-- The watermark is raised past a number that has been bound. -/
def raiseWatermark (table : FdRemapTable) (virtualFd : Nat) : FdRemapTable :=
  { table with
    watermark :=
      if virtualFd ≥ table.watermark then virtualFd + 1 else table.watermark }

/-- `set`, for arguments that are not negative. -/
def set (table : FdRemapTable) (virtualFd : Nat) (type : FdType) (realFd : Nat) : FdRemapTable :=
  let table := table.ensureCapacityLocked virtualFd
  let (table, _) := table.dropBinding virtualFd
  (table.bindEntry virtualFd type realFd).raiseWatermark virtualFd

/-- `dup_to`, for numbers that are not negative. -/
def dupTo (table : FdRemapTable) (srcVfd dstVfd : Nat) : FdRemapTable × DupToResult :=
  match table.forward srcVfd with
  | ⟨.kUnknown, _⟩ => (table, .badFd)
  | ⟨_, none⟩ => (table, .badFd)
  | ⟨type, some realFd⟩ =>
    if srcVfd = dstVfd then
      (table, .same (table.refcount type realFd))
    else
      let table := table.ensureCapacityLocked dstVfd
      let prev := table.forward dstVfd
      let (table, prevRefs) := table.dropBinding dstVfd
      ((table.bindEntry dstVfd type realFd).raiseWatermark dstVfd, .rebound prev prevRefs)

/-- `lookup` of any `int`. -/
def lookupInt (table : FdRemapTable) : Int → FdMapping
  | .ofNat v => table.lookup v
  | .negSucc _ => .unused

end FdRemapTable

/-- An operation of the table, the two explicit ones included. -/
inductive FdBindOp where
  | table (op : FdTableOp)
  | set (virtualFd : Int) (type : FdType) (realFd : Int)
  | dupTo (srcVfd dstVfd : Int)
  deriving Repr, DecidableEq

namespace FdRemapTable

/-- The table after an operation. -/
def perform (table : FdRemapTable) : FdBindOp → FdRemapTable
  | .table op => (table.apply op).1
  | .set (.ofNat v) type (.ofNat realFd) => table.set v type realFd
  | .set _ _ _ => table
  | .dupTo (.ofNat src) (.ofNat dst) => (table.dupTo src dst).1
  | .dupTo _ _ => table

/--
The operations without `set`, where `dup_to` is called for a destination that is
bound and is not the source.
-/
def rebindStep? (table : FdRemapTable) (op : FdBindOp) : Option FdRemapTable :=
  match op with
  | .table _ => some (table.perform op)
  | .set _ _ _ => none
  | .dupTo src dst =>
    if table.lookupInt dst ≠ .unused ∧ dst ≠ src then some (table.perform op) else none

/-- The operations, where `set` and `dup_to` bind numbers that are not bound. -/
def bindStep? (table : FdRemapTable) (op : FdBindOp) : Option FdRemapTable :=
  match op with
  | .table _ => some (table.perform op)
  | .set virtualFd _ _ =>
    if table.lookupInt virtualFd = .unused then some (table.perform op) else none
  | .dupTo _ dst =>
    if table.lookupInt dst = .unused then some (table.perform op) else none

section Moves

variable {table : FdRemapTable} {type prevType : FdType} {realFd prevFd src dst : Nat}

theorem exists_of_counted {mapping : FdMapping} (counted : mapping.Counted) :
    ∃ type realFd, type ≠ .kUnknown ∧ mapping = ⟨type, some realFd⟩ := by
  obtain ⟨known, hasFd⟩ := counted
  obtain ⟨realFd, found⟩ := Option.ne_none_iff_exists'.mp hasFd
  refine ⟨mapping.type, realFd, known, ?_⟩
  rw [← found]

theorem dropBinding_counted (known : type ≠ .kUnknown)
    (target : table.forward dst = ⟨type, some realFd⟩) :
    (table.dropBinding dst).1 = (table.decrefLocked type realFd dst).1 := by
  unfold dropBinding
  rw [target]
  split
  · rename_i same
    cases same
    exact absurd rfl known
  · rename_i same
    cases same
  · rename_i same
    cases same
    rfl

theorem dropBinding_uncounted (uncounted : ¬ (table.forward dst).Counted) :
    (table.dropBinding dst).1 = table := by
  unfold dropBinding
  split
  · rfl
  · rfl
  · rename_i type realFd known target
    rw [target] at uncounted
    exact absurd ⟨by simpa using known, by simp⟩ uncounted

theorem dropBinding_fields (table : FdRemapTable) (dst : Nat) :
    (table.dropBinding dst).1.forward = table.forward ∧
      (table.dropBinding dst).1.freeList = table.freeList ∧
      (table.dropBinding dst).1.watermark = table.watermark ∧
      (table.dropBinding dst).1.size = table.size := by
  by_cases counted : (table.forward dst).Counted
  · obtain ⟨type, realFd, known, target⟩ := exists_of_counted counted
    rw [dropBinding_counted known target]
    exact decrefLocked_fields table type realFd dst
  · rw [dropBinding_uncounted counted]
    exact ⟨rfl, rfl, rfl, rfl⟩

theorem dupTo_uncounted (uncounted : ¬ (table.forward src).Counted) (dst : Nat) :
    (table.dupTo src dst).1 = table := by
  unfold dupTo
  split
  · rfl
  · rfl
  · rename_i type realFd known target
    rw [target] at uncounted
    exact absurd ⟨by simpa using known, by simp⟩ uncounted

theorem dupTo_counted (known : type ≠ .kUnknown) (target : table.forward src = ⟨type, some realFd⟩)
    (different : src ≠ dst) : (table.dupTo src dst).1 =
      (((table.ensureCapacityLocked dst).dropBinding dst).1.bindEntry
      dst type realFd).raiseWatermark dst := by
  unfold dupTo
  rw [target]
  split
  · rename_i same
    cases same
    exact absurd rfl known
  · rename_i same
    cases same
  · rename_i same
    cases same
    rw [if_neg different]

theorem raiseWatermark_below (below : dst < table.watermark) :
    table.raiseWatermark dst = table := by
  unfold raiseWatermark
  rw [if_neg (Nat.not_le.mpr below)]

theorem replacement_eq_some_iff : table.replacement type realFd = some dst ↔ dst < table.size ∧
      table.forward dst = ⟨type, some realFd⟩ ∧
      ∀ i < dst, table.forward i ≠ ⟨type, some realFd⟩ := by
  unfold replacement
  rw [List.find?_range_eq_some]
  simp only [List.mem_range, decide_eq_true_eq, Bool.not_eq_true', decide_eq_false_iff_not]
  tauto

end Moves

section Rebind

variable {table : FdRemapTable} {type prevType : FdType} {realFd prevFd src dst : Nat}

/--
`dup_to` would leave a false name for the old target of the destination: the
destination is the name, other numbers share the target, none of them is smaller,
and the destination gets another target.
-/
def LosesName (table : FdRemapTable) (src dst : Nat) : Prop :=
  (table.lookup src).Counted ∧ table.lookup src ≠ table.lookup dst ∧
    (table.lookup dst).type ≠ .kUnknown ∧ ∃ prevFd ∈ (table.lookup dst).realFd,
      table.reverseLookup (table.lookup dst).type prevFd = some dst ∧
        1 < table.refcount (table.lookup dst).type prevFd ∧
        ∀ i < dst, table.lookup i ≠ table.lookup dst

instance (table : FdRemapTable) (src dst : Nat) : Decidable (table.LosesName src dst) :=
  inferInstanceAs (Decidable (_ ∧ _ ∧ _ ∧ _))

/-- The condition on an operation under which the reverse map stays sound. -/
def KeepsName (table : FdRemapTable) : FdBindOp → Prop
  | .dupTo (.ofNat src) (.ofNat dst) => ¬ table.LosesName src dst
  | _ => True

instance (table : FdRemapTable) : DecidablePred table.KeepsName := by
  intro op
  unfold KeepsName
  split <;> infer_instance

/--
The reverse map names a number that is bound to the target if there is one, and
none otherwise.
-/
def ReverseSound (table : FdRemapTable) : Prop :=
  ∀ type realFd, type ≠ .kUnknown → ((∃ v, table.lookup v = ⟨type, some realFd⟩) →
      ∃ v, table.reverseLookup type realFd = some v ∧ table.lookup v = ⟨type, some realFd⟩) ∧
      ((¬ ∃ v, table.lookup v = ⟨type, some realFd⟩) → table.reverseLookup type realFd = none)

theorem Invariant.reverseSound (invariant : table.Invariant) : table.ReverseSound := by
  intro type realFd known
  cases found : table.reverse type realFd with
  | none =>
    have empty := (invariant.reverseNone type realFd known).mp found
    refine ⟨?_, fun _ => found⟩
    rintro ⟨v, target⟩
    have member := (mem_boundTo invariant.below).mpr target
    rw [empty] at member
    cases member
  | some w =>
    have target := invariant.reverseSome type realFd w known found
    exact ⟨fun _ => ⟨w, found, target⟩, fun unbound => absurd ⟨w, target⟩ unbound⟩

theorem bindEntry_congr {first second : FdRemapTable} {v : Nat}
    (forward : update first.forward v ⟨type, some realFd⟩ =
      update second.forward v ⟨type, some realFd⟩)
    (reverse : first.reverse = second.reverse)
    (refcount : first.refcount = second.refcount)
    (freeList : first.freeList = second.freeList)
    (watermark : first.watermark = second.watermark)
    (size : first.size = second.size) :
    first.bindEntry v type realFd = second.bindEntry v type realFd := by
  unfold bindEntry
  rw [forward, reverse, refcount, freeList, watermark, size]

section

variable (invariant : table.Invariant)

include invariant

theorem Invariant.replacement_grown (target : table.forward src = ⟨type, some realFd⟩) (dst : Nat) :
    ∃ w, (table.ensureCapacityLocked dst).replacement type realFd = some w ∧
      table.forward w = ⟨type, some realFd⟩ := by
  have below : (table.ensureCapacityLocked dst).BelowWatermark := invariant.below
  have sized : table.watermark ≤ (table.ensureCapacityLocked dst).size :=
    Nat.le_trans invariant.sized (size_le_ensureCapacityLocked table dst)
  apply replacement_spec below sized
  exact Finset.ne_empty_of_mem ((mem_boundTo below).mpr target)

/-- The search is not disturbed by an entry that is not the first one. -/
theorem Invariant.replacement_unbind {i : Nat} (before : i < dst)
    (target : table.forward i = ⟨type, some realFd⟩) :
    (table.ensureCapacityLocked dst).replacement type realFd =
      (table.unbind dst).replacement type realFd := by
  obtain ⟨w, found, holds⟩ := invariant.replacement_grown target dst
  have first := (replacement_eq_some_iff.mp found).2.2
  have smaller : w < dst := by
    by_contra notBefore
    exact first i (by omega) target
  have inside : w < table.size :=
    Nat.lt_of_lt_of_le (invariant.below w (ne_unused_of_eq holds)) invariant.sized
  rw [found]
  symm
  apply replacement_eq_some_iff.mpr
  refine ⟨inside, ?_, ?_⟩
  · change update table.forward dst .unused w = _
    rw [update_of_ne (Nat.ne_of_lt smaller)]
    exact holds
  · intro j isBefore
    change update table.forward dst .unused j ≠ _
    rw [update_of_ne (by omega)]
    exact first j isBefore

/-- The counts and the names after a counted binding has been dropped. -/
theorem Invariant.dropBinding_spec (known : prevType ≠ .kUnknown)
    (bound : table.forward dst = ⟨prevType, some prevFd⟩) :
    ((table.ensureCapacityLocked dst).dropBinding dst).1.refcount =
        setEntry table.refcount prevType prevFd (table.refcount prevType prevFd - 1) ∧
      ((table.ensureCapacityLocked dst).dropBinding dst).1.reverse =
        if table.reverse prevType prevFd = some dst then
          setEntry table.reverse prevType prevFd
            (if table.refcount prevType prevFd - 1 = 0 then
              none
            else
              (table.ensureCapacityLocked dst).replacement prevType prevFd)
        else
          table.reverse := by
  have counted : (table.ensureCapacityLocked dst).refcount prevType prevFd ≠ 0 :=
    Nat.ne_of_gt (invariant.counted_pos known bound)
  have target : (table.ensureCapacityLocked dst).forward dst = ⟨prevType, some prevFd⟩ := bound
  rw [dropBinding_counted known target]
  exact (decrefLocked_counted known counted).2

/-- Dropping the binding of a number leaves the counts that `free` leaves. -/
theorem Invariant.dropBinding_eq_free (bound : table.forward dst = ⟨prevType, some prevFd⟩)
    (elsewhere : prevType ≠ .kUnknown → table.reverse prevType prevFd = some dst →
      1 < table.refcount prevType prevFd → ∃ i < dst, table.forward i = ⟨prevType, some prevFd⟩) :
    ((table.ensureCapacityLocked dst).dropBinding dst).1.reverse = (table.free dst).1.reverse ∧
      ((table.ensureCapacityLocked dst).dropBinding dst).1.refcount =
      (table.free dst).1.refcount := by
  rw [free_eq bound]
  by_cases known : prevType = .kUnknown
  · have uncounted : ¬ ((table.ensureCapacityLocked dst).forward dst).Counted := by
      change ¬ (table.forward dst).Counted
      rw [bound]
      exact fun counted => counted.1 known
    rw [dropBinding_uncounted uncounted, decrefLocked, if_pos known]
    exact ⟨rfl, rfl⟩
  · have counted : (table.unbind dst).refcount prevType prevFd ≠ 0 :=
      Nat.ne_of_gt (invariant.counted_pos known bound)
    obtain ⟨refcount, reverse⟩ := invariant.dropBinding_spec known bound
    have freeRefcount : ((table.unbind dst).decrefLocked prevType prevFd dst).1.refcount =
          setEntry table.refcount prevType prevFd (table.refcount prevType prevFd - 1) :=
      (decrefLocked_counted known counted).2.1
    have freeReverse : ((table.unbind dst).decrefLocked prevType prevFd dst).1.reverse =
          if table.reverse prevType prevFd = some dst then
            setEntry table.reverse prevType prevFd
              (if table.refcount prevType prevFd - 1 = 0 then
                none
              else
                (table.unbind dst).replacement prevType prevFd)
          else
            table.reverse :=
      (decrefLocked_counted known counted).2.2
    rw [refcount, reverse, freeRefcount, freeReverse]
    refine ⟨?_, rfl⟩
    by_cases named : table.reverse prevType prevFd = some dst
    · by_cases shared : 1 < table.refcount prevType prevFd
      · obtain ⟨i, before, target⟩ := elsewhere known named shared
        rw [invariant.replacement_unbind before target]
      · have last : table.refcount prevType prevFd - 1 = 0 := by omega
        rw [if_pos last, if_pos last]
    · rw [if_neg named, if_neg named]

/-- Unless a name is lost, `dup_to` onto a bound number frees it and allocates it anew. -/
theorem Invariant.dupTo_eq_alloc (known : type ≠ .kUnknown)
    (target : table.forward src = ⟨type, some realFd⟩) (different : src ≠ dst)
    (bound : table.forward dst = ⟨prevType, some prevFd⟩)
    (elsewhere : prevType ≠ .kUnknown → table.reverse prevType prevFd = some dst →
      1 < table.refcount prevType prevFd → ∃ i < dst, table.forward i = ⟨prevType, some prevFd⟩) :
    (table.dupTo src dst).1 = ((table.free dst).1.alloc type realFd).1 := by
  obtain ⟨reverse, refcount⟩ := invariant.dropBinding_eq_free bound elsewhere
  obtain ⟨forward, freeList, watermark, size⟩ := free_fields bound
  have taken : (table.free dst).1.allocLocked =
        ({ (table.free dst).1 with freeList := table.freeList }.ensureCapacityLocked dst, dst) := by
    unfold FdRemapTable.allocLocked
    rw [freeList]
  have grown := dropBinding_fields (table.ensureCapacityLocked dst) dst
  have below : dst < table.watermark := invariant.below dst (ne_unused_of_eq bound)
  rw [dupTo_counted known target different, raiseWatermark_below, alloc_eq, taken]
  · apply bindEntry_congr
    · rw [grown.1]
      change _ = update (table.free dst).1.forward dst _
      rw [forward, update_idem]
      rfl
    · exact reverse
    · exact refcount
    · rw [grown.2.1]
      rfl
    · rw [grown.2.2.1]
      exact watermark.symm
    · rw [grown.2.2.2]
      change _ = doubled (dst + 1) (dst + 1) (table.free dst).1.size
      rw [size]
      rfl
  · rw [(bindEntry_fields _ dst type realFd).2.2.1, grown.2.2.1]
    exact below

end

variable {next : FdRemapTable}

section

variable (invariant : table.Invariant)

include invariant

/-- A table with the same bindings, the same counts and sound names. -/
theorem Invariant.of_names (forward : next.forward = table.forward)
    (freeList : next.freeList = table.freeList) (watermark : next.watermark = table.watermark)
    (size : table.size ≤ next.size)
    (refcount : ∀ type realFd, type ≠ .kUnknown →
      next.refcount type realFd = table.refcount type realFd)
    (names : ∀ type realFd, type ≠ .kUnknown → next.Names type realFd) :
    next.Invariant := by
  have boundTo (type : FdType) (realFd : Nat) :
      next.boundTo type realFd = table.boundTo type realFd := by
    unfold FdRemapTable.boundTo
    rw [forward, watermark]
  have below : next.BelowWatermark := by
    unfold BelowWatermark
    rw [forward, watermark]
    exact invariant.below
  refine ⟨?_, ?_, below, ?_, ?_, ?_, ?_, ?_, ?_⟩
  · rw [freeList]
    exact invariant.freeNodup
  · rw [freeList, watermark, forward]
    exact invariant.memFree
  · rw [watermark]
    exact Nat.le_trans invariant.sized size
  · exact Nat.lt_of_lt_of_le invariant.nonempty size
  · rw [forward]
    exact invariant.targeted
  · intro type realFd known
    rw [refcount type realFd known, boundTo]
    exact invariant.counted type realFd known
  · intro type realFd known
    exact (names type realFd known).reverseNone below
  · intro type realFd w known found
    exact (names type realFd known).reverseSome found

theorem Invariant.one_lt_refcount (known : type ≠ .kUnknown)
    (target : table.forward src = ⟨type, some realFd⟩) (different : src ≠ dst)
    (bound : table.forward dst = ⟨type, some realFd⟩) :
    1 < table.refcount type realFd := by
  rw [invariant.counted type realFd known, Finset.one_lt_card]
  exact ⟨src, (mem_boundTo invariant.below).mpr target,
    dst, (mem_boundTo invariant.below).mpr bound, different⟩

/-- `dup_to` between two numbers with the same target keeps the invariant. -/
theorem Invariant.dupTo_same (known : type ≠ .kUnknown)
    (target : table.forward src = ⟨type, some realFd⟩) (different : src ≠ dst)
    (bound : table.forward dst = ⟨type, some realFd⟩) : (table.dupTo src dst).1.Invariant := by
  have shared := invariant.one_lt_refcount known target different bound
  have grown := dropBinding_fields (table.ensureCapacityLocked dst) dst
  have fields :=
    bindEntry_fields ((table.ensureCapacityLocked dst).dropBinding dst).1 dst type realFd
  obtain ⟨refcount, reverse⟩ := invariant.dropBinding_spec known bound
  rw [dupTo_counted known target different, raiseWatermark_below]
  · have forward : (((table.ensureCapacityLocked dst).dropBinding dst).1.bindEntry
          dst type realFd).forward = table.forward := by
      rw [fields.1, grown.1, ← bound]
      exact update_eq_self dst table.forward
    refine invariant.of_names forward ?_ ?_ ?_ ?_ ?_
    · rw [fields.2.1, grown.2.1]
      rfl
    · rw [fields.2.2.1, grown.2.2.1]
      rfl
    · rw [fields.2.2.2, grown.2.2.2]
      exact size_le_ensureCapacityLocked table dst
    · intro otherType otherFd otherKnown
      rw [bindEntry_refcount _ dst type realFd otherKnown, refcount, setEntry_apply]
      split
      · rename_i same
        rw [same.1, same.2]
        exact Nat.sub_add_cancel (Nat.le_of_lt shared)
      · rfl
    · intro otherType otherFd otherKnown
      have old := invariant.names otherKnown otherFd
      have boundTo : (((table.ensureCapacityLocked dst).dropBinding dst).1.bindEntry
              dst type realFd).boundTo otherType otherFd = table.boundTo otherType otherFd := by
        unfold FdRemapTable.boundTo
        rw [forward, fields.2.2.1, grown.2.2.1]
        rfl
      unfold Names
      rw [forward, boundTo, bindEntry_reverse _ dst type realFd otherKnown]
      split
      · rename_i same
        obtain ⟨rfl, rfl⟩ := same
        refine .inr ⟨_, rfl, ?_⟩
        rw [reverse]
        split
        · obtain ⟨w, search, holds⟩ := invariant.replacement_grown target dst
          rw [setEntry_apply, if_pos ⟨rfl, rfl⟩, if_neg (by omega), search]
          exact holds
        · rcases old with ⟨-, empty⟩ | ⟨w, found, holds⟩
          · exact absurd ((mem_boundTo invariant.below).mpr target)
              (Finset.eq_empty_iff_forall_notMem.mp empty src)
          · rw [found]
            exact holds
      · rename_i other
        rw [reverse]
        split
        · rw [setEntry_apply, if_neg other]
          exact old
        · exact old
  · rw [fields.2.2.1, grown.2.2.1]
    exact invariant.below dst (ne_unused_of_eq bound)

theorem Invariant.exists_of_bound (bound : table.forward dst ≠ .unused) :
    ∃ prevType prevFd, table.forward dst = ⟨prevType, some prevFd⟩ := by
  obtain ⟨prevFd, hasFd⟩ := Option.ne_none_iff_exists'.mp (invariant.targeted dst bound)
  refine ⟨(table.forward dst).type, prevFd, ?_⟩
  rw [← hasFd]

/-- `dup_to` onto a bound number keeps the invariant unless a name is lost. -/
theorem Invariant.dupTo (bound : table.forward dst ≠ .unused) (different : src ≠ dst)
    (kept : ¬ table.LosesName src dst) :
    (table.dupTo src dst).1.Invariant := by
  by_cases counted : (table.forward src).Counted
  · obtain ⟨type, realFd, known, target⟩ := exists_of_counted counted
    obtain ⟨prevType, prevFd, old⟩ := invariant.exists_of_bound bound
    by_cases same : table.forward src = table.forward dst
    · exact invariant.dupTo_same known target different (same.symm.trans target)
    · rw [invariant.dupTo_eq_alloc known target different old]
      · exact (invariant.free dst).alloc type realFd
      · intro prevKnown named shared
        by_contra notBefore
        apply kept
        refine ⟨counted, same, ?_⟩
        unfold lookup
        rw [old]
        refine ⟨prevKnown, prevFd, rfl, named, shared, ?_⟩
        intro i before holds
        exact notBefore ⟨i, before, holds⟩
  · rw [dupTo_uncounted counted]
    exact invariant

/-- A name that is lost makes the reverse map unsound. -/
theorem Invariant.not_reverseSound (loses : table.LosesName src dst) :
    ¬ (table.dupTo src dst).1.ReverseSound := by
  obtain ⟨counted, unlike, prevKnown, prevFd, hasFd, named, shared, first⟩ := loses
  obtain ⟨type, realFd, known, target⟩ := exists_of_counted counted
  unfold lookup reverseLookup at *
  have old : table.forward dst = ⟨(table.forward dst).type, some prevFd⟩ := by
    rw [← Option.mem_def.mp hasFd]
  generalize (table.forward dst).type = prevType at *
  have different : src ≠ dst := by
    rintro rfl
    exact unlike rfl
  rw [target, old] at unlike
  have notSame : ¬ (prevType = type ∧ prevFd = realFd) := by
    rintro ⟨rfl, rfl⟩
    exact unlike rfl
  have grown := dropBinding_fields (table.ensureCapacityLocked dst) dst
  have fields :=
    bindEntry_fields ((table.ensureCapacityLocked dst).dropBinding dst).1 dst type realFd
  have forward :
      (table.dupTo src dst).1.forward = update table.forward dst ⟨type, some realFd⟩ := by
    rw [dupTo_counted known target different]
    change (FdRemapTable.bindEntry _ _ _ _).forward = _
    rw [fields.1, grown.1]
    rfl
  have stale : (table.dupTo src dst).1.reverse prevType prevFd = some dst := by
    rw [dupTo_counted known target different]
    change (FdRemapTable.bindEntry _ _ _ _).reverse _ _ = _
    rw [bindEntry_reverse _ dst type realFd prevKnown, if_neg notSame,
      (invariant.dropBinding_spec prevKnown old).2, if_pos named,
      setEntry_apply, if_pos ⟨rfl, rfl⟩, if_neg (by omega)]
    apply replacement_eq_some_iff.mpr
    refine ⟨lt_size_ensureCapacityLocked invariant.nonempty dst, old, ?_⟩
    intro i before holds
    exact first i before (holds.trans old.symm)
  rw [invariant.counted prevType prevFd prevKnown] at shared
  obtain ⟨other, member, notDst⟩ := Finset.exists_mem_ne shared dst
  have holds := (mem_boundTo invariant.below).mp member
  intro sound
  obtain ⟨v, found, isBound⟩ :=
    (sound prevType prevFd prevKnown).1
      ⟨other, by
        unfold lookup
        rw [forward, update_of_ne notDst]
        exact holds⟩
  unfold lookup reverseLookup at *
  rw [stale] at found
  cases found
  rw [forward, update_self] at isBound
  exact unlike isBound

/-- A step that loses no name keeps the invariant. -/
theorem Invariant.rebindStep {op : FdBindOp} (stepped : table.rebindStep? op = some next)
    (kept : table.KeepsName op) :
    next.Invariant := by
  cases op with
  | table op =>
    cases stepped
    exact invariant.apply op
  | set virtualFd type realFd => cases stepped
  | dupTo src dst =>
    simp only [rebindStep?, Option.ite_none_right_eq_some, Option.some.injEq] at stepped
    obtain ⟨⟨bound, different⟩, rfl⟩ := stepped
    cases dst with
    | negSucc n => exact absurd rfl bound
    | ofNat dst =>
      cases src with
      | negSucc n => exact invariant
      | ofNat src =>
        apply invariant.dupTo bound _ kept
        rintro rfl
        exact different rfl

/-- A step leaves the reverse map sound exactly if it loses no name. -/
theorem Invariant.rebindStep_iff {op : FdBindOp} (stepped : table.rebindStep? op = some next) :
    next.ReverseSound ↔ table.KeepsName op := by
  refine ⟨?_, fun kept => (invariant.rebindStep stepped kept).reverseSound⟩
  intro sound
  cases op with
  | table op => exact trivial
  | set virtualFd type realFd => cases stepped
  | dupTo src dst =>
    simp only [rebindStep?, Option.ite_none_right_eq_some, Option.some.injEq] at stepped
    obtain ⟨-, rfl⟩ := stepped
    cases src with
    | negSucc n => exact trivial
    | ofNat src =>
      cases dst with
      | negSucc n => exact trivial
      | ofNat dst =>
        intro loses
        exact invariant.not_reverseSound loses sound

end

/--
In a run of `alloc`, `dup`, `free` and of `dup_to` onto bound numbers other than
the source, the reverse map is sound in every state exactly if no `dup_to`
rebinds the name of a shared target to which no smaller number is bound.
-/
theorem reverse_sound_iff_keeps_name
    {ops : List FdBindOp}
    {final : FdRemapTable}
    (accepted : run? rebindStep? FdRemapTable.empty ops = some final) :
    (∀ table, ReachedBy rebindStep? FdRemapTable.empty ops table → table.ReverseSound) ↔
      Along rebindStep? KeepsName FdRemapTable.empty ops :=
  forall_reachedBy_iff_along_of_kept
    (fun invariant => invariant.reverseSound)
    (fun invariant stepped => invariant.rebindStep_iff stepped)
    (fun invariant stepped kept => invariant.rebindStep stepped kept)
    Invariant.empty accepted

/-- Rebinding the number that is not the name keeps the reverse map sound. -/
theorem reverse_sound_other_number : let ops : List FdBindOp :=
      [.table (.alloc .kSocket 5), .table (.dup 0),
        .table (.alloc .kSocket 6), .dupTo 2 1, .table (.free 1)]
    ∃ final, run? rebindStep? FdRemapTable.empty ops = some final ∧
        ∀ table, ReachedBy rebindStep? FdRemapTable.empty ops table → table.ReverseSound := by
  refine ⟨_, rfl, ?_⟩
  exact (reverse_sound_iff_keeps_name rfl).mpr (by decide +kernel)

/--
Two numbers share a socket and the name is rebound: the reverse map still leads
to it, although it has another target and the second number holds the socket.
-/
theorem stale_name_after_dup_to : let ops : List FdBindOp :=
      [.table (.alloc .kSocket 5), .table (.dup 0), .table (.alloc .kSocket 6), .dupTo 2 0]
    ∃ final, run? rebindStep? FdRemapTable.empty ops = some final ∧
        final.lookup 1 = ⟨.kSocket, some 5⟩ ∧ final.reverseLookup .kSocket 5 = some 0 ∧
        final.lookup 0 = ⟨.kSocket, some 6⟩ ∧ ¬ final.ReverseSound := by
  refine ⟨_, rfl, by decide +kernel, by decide +kernel, by decide +kernel, ?_⟩
  intro sound
  obtain ⟨v, found, bound⟩ := (sound .kSocket 5 (by decide)).1 ⟨1, by decide +kernel⟩
  obtain rfl : v = 0 := Option.some.inj (found.symm.trans (by decide +kernel))
  exact absurd bound (by decide +kernel)

end Rebind

section Bind

variable {table : FdRemapTable} {type : FdType} {realFd v src : Nat}

/--
`alloc` and a successful `dup` return numbers that are not bound, and
`live_count` is the number of bound ones.
-/
structure AllocationSound (table : FdRemapTable) : Prop where
  unbound : ∀ op, ((∃ type realFd, 0 ≤ realFd ∧ op = .alloc type realFd) ∨
        ∃ virtualFd, op = .dup virtualFd ∧ (table.apply op).2 ≠ -1) →
      ∃ v : Nat, (table.apply op).2 = v ∧ table.lookup v = .unused
  complete : ∀ v, v ∈ table.bound ↔ table.lookup v ≠ .unused
  live : table.liveCount = table.bound.card

/-- An explicit binding takes the number at the watermark. -/
def BindsAtWatermark (table : FdRemapTable) : FdBindOp → Prop
  | .set (.ofNat v) _ (.ofNat _) => v = table.watermark
  | .dupTo (.ofNat src) (.ofNat dst) => (table.lookup src).Counted → dst = table.watermark
  | _ => True

instance (table : FdRemapTable) : DecidablePred table.BindsAtWatermark := by
  intro op
  unfold BindsAtWatermark
  split <;> infer_instance

/-- What `set` and `dup_to` do to a number that is not bound. -/
def bindUnbound (table : FdRemapTable) (v : Nat) (type : FdType) (realFd : Nat) : FdRemapTable :=
  ((table.ensureCapacityLocked v).bindEntry v type realFd).raiseWatermark v

theorem set_unbound (unbound : table.forward v = .unused) (type : FdType) (realFd : Nat) :
    table.set v type realFd = table.bindUnbound v type realFd := by
  unfold set bindUnbound
  dsimp only
  rw [dropBinding_uncounted]
  change ¬ (table.forward v).Counted
  rw [unbound]
  decide

theorem dupTo_unbound (known : type ≠ .kUnknown) (target : table.forward src = ⟨type, some realFd⟩)
    (unbound : table.forward v = .unused) :
    (table.dupTo src v).1 = table.bindUnbound v type realFd := by
  rw [dupTo_counted known target, dropBinding_uncounted]
  · rfl
  · change ¬ (table.forward v).Counted
    rw [unbound]
    decide
  · rintro rfl
    exact ne_unused_of_eq target unbound

/-- The number at the watermark is fresh. -/
theorem Invariant.fresh_watermark (invariant : table.Invariant) : Fresh table
      ((table.ensureCapacityLocked table.watermark).raiseWatermark table.watermark)
      table.watermark := by
  have unbound : table.forward table.watermark = .unused := by
    by_contra bound
    exact Nat.lt_irrefl _ (invariant.below _ bound)
  have raised : ((table.ensureCapacityLocked table.watermark).raiseWatermark
        table.watermark).watermark = table.watermark + 1 :=
    if_pos (Nat.le_refl _)
  have room := lt_size_ensureCapacityLocked invariant.nonempty table.watermark
  exact {
    forward := rfl
    reverse := rfl
    refcount := rfl
    unbound := unbound
    below := by
      rw [raised]
      exact Nat.lt_succ_self _
    freeNodup := invariant.freeNodup
    memFree := by
      intro w
      rw [raised]
      change w ∈ table.freeList ↔ _
      rw [invariant.memFree]
      constructor
      · rintro ⟨below, unused⟩
        exact ⟨Nat.ne_of_lt below, Nat.lt_succ_of_lt below, unused⟩
      · rintro ⟨different, below, unused⟩
        exact ⟨by omega, unused⟩
    grown := by
      rw [raised]
      exact Nat.le_succ _
    bounded := Nat.le_of_eq raised
    sized := by
      rw [raised]
      exact room
    nonempty := Nat.lt_of_le_of_lt (Nat.zero_le _) room }

theorem Invariant.bindUnbound_watermark (invariant : table.Invariant) (type : FdType)
    (realFd : Nat) : (table.bindUnbound table.watermark type realFd).Invariant := by
  have moved : table.bindUnbound table.watermark type realFd =
        ((table.ensureCapacityLocked table.watermark).raiseWatermark
          table.watermark).bindEntry table.watermark type realFd := by
    unfold bindUnbound bindEntry raiseWatermark
    split <;> rfl
  rw [moved]
  exact invariant.fresh_watermark.bindEntry invariant type realFd

theorem bindUnbound_fields (table : FdRemapTable) (v : Nat) (type : FdType) (realFd : Nat) :
    (table.bindUnbound v type realFd).forward = update table.forward v ⟨type, some realFd⟩ ∧
      (table.bindUnbound v type realFd).freeList = table.freeList ∧
      (table.bindUnbound v type realFd).watermark =
        if v ≥ table.watermark then v + 1 else table.watermark := by
  obtain ⟨forward, freeList, watermark, -⟩ :=
    bindEntry_fields (table.ensureCapacityLocked v) v type realFd
  refine ⟨forward, freeList, ?_⟩
  unfold bindUnbound raiseWatermark
  rw [watermark]
  rfl

section

variable (invariant : table.Invariant)

include invariant

/-- A number that was not bound is one more bound number. -/
theorem Invariant.card_bound_bindUnbound (unbound : table.forward v = .unused) (type : FdType)
    (realFd : Nat) :
    (table.bindUnbound v type realFd).bound.card = table.bound.card + 1 := by
  obtain ⟨forward, -, watermark⟩ := bindUnbound_fields table v type realFd
  have notMember : v ∉ table.bound := by simp [FdRemapTable.bound, unbound]
  have inserted : (table.bindUnbound v type realFd).bound = insert v table.bound := by
    ext w
    simp only [FdRemapTable.bound, Finset.mem_insert, Finset.mem_filter, Finset.mem_range]
    rw [forward, watermark]
    by_cases same : w = v
    · subst same
      rw [update_self]
      refine iff_of_true ⟨?_, ne_unused_of_eq rfl⟩ (.inl rfl)
      split
      · exact Nat.lt_succ_self w
      · omega
    · rw [update_of_ne same, or_iff_right same]
      refine and_congr_left fun isBound => ?_
      have below := invariant.below w isBound
      refine iff_of_true ?_ below
      split
      · omega
      · exact below
  rw [inserted, Finset.card_insert_of_notMem notMember]

theorem Invariant.live_bindUnbound (unbound : table.forward v = .unused)
    (live :
      (table.bindUnbound v type realFd).liveCount = (table.bindUnbound v type realFd).bound.card) :
    v = table.watermark := by
  obtain ⟨-, freeList, watermark⟩ := bindUnbound_fields table v type realFd
  have split := invariant.free_add_bound
  rw [invariant.card_bound_bindUnbound unbound, liveCount, freeList, watermark] at live
  by_cases above : v ≥ table.watermark
  · rw [if_pos above] at live
    omega
  · rw [if_neg above] at live
    omega

theorem Invariant.allocationSound : table.AllocationSound where
  unbound := by
    intro op binds
    exact invariant.apply_unbound binds
  complete := by
    intro v
    simp only [FdRemapTable.bound, Finset.mem_filter, Finset.mem_range]
    exact and_iff_right_of_imp (invariant.below v)
  live := invariant.liveCount_eq

/-- A step that binds at the watermark keeps the invariant. -/
theorem Invariant.bindStep {next : FdRemapTable} {op : FdBindOp}
    (stepped : table.bindStep? op = some next) (atWatermark : table.BindsAtWatermark op) :
    next.Invariant := by
  cases op with
  | table op =>
    cases stepped
    exact invariant.apply op
  | set virtualFd type realFd =>
    simp only [bindStep?, Option.ite_none_right_eq_some, Option.some.injEq] at stepped
    obtain ⟨unbound, rfl⟩ := stepped
    cases virtualFd with
    | negSucc n => exact invariant
    | ofNat v =>
      cases realFd with
      | negSucc n => exact invariant
      | ofNat realFd =>
        obtain rfl : v = table.watermark := atWatermark
        change (table.set table.watermark type realFd).Invariant
        rw [set_unbound unbound]
        exact invariant.bindUnbound_watermark type realFd
  | dupTo src dst =>
    simp only [bindStep?, Option.ite_none_right_eq_some, Option.some.injEq] at stepped
    obtain ⟨unbound, rfl⟩ := stepped
    cases src with
    | negSucc n => exact invariant
    | ofNat src =>
      cases dst with
      | negSucc n => exact invariant
      | ofNat dst =>
        change (table.dupTo src dst).1.Invariant
        by_cases counted : (table.forward src).Counted
        · obtain rfl : dst = table.watermark := atWatermark counted
          obtain ⟨type, realFd, known, target⟩ := exists_of_counted counted
          rw [dupTo_unbound known target unbound]
          exact invariant.bindUnbound_watermark type realFd
        · rw [dupTo_uncounted counted]
          exact invariant

/-- A step keeps allocation sound exactly if it binds at the watermark. -/
theorem Invariant.bindStep_iff {next : FdRemapTable} {op : FdBindOp}
    (stepped : table.bindStep? op = some next) :
    next.AllocationSound ↔ table.BindsAtWatermark op := by
  refine ⟨?_, fun atWatermark => (invariant.bindStep stepped atWatermark).allocationSound⟩
  intro sound
  cases op with
  | table op => exact trivial
  | set virtualFd type realFd =>
    simp only [bindStep?, Option.ite_none_right_eq_some, Option.some.injEq] at stepped
    obtain ⟨unbound, rfl⟩ := stepped
    cases virtualFd with
    | negSucc n => exact trivial
    | ofNat v =>
      cases realFd with
      | negSucc n => exact trivial
      | ofNat realFd =>
        change (table.set v type realFd).AllocationSound at sound
        rw [set_unbound unbound] at sound
        exact invariant.live_bindUnbound unbound sound.live
  | dupTo src dst =>
    simp only [bindStep?, Option.ite_none_right_eq_some, Option.some.injEq] at stepped
    obtain ⟨unbound, rfl⟩ := stepped
    cases src with
    | negSucc n => exact trivial
    | ofNat src =>
      cases dst with
      | negSucc n => exact trivial
      | ofNat dst =>
        intro counted
        obtain ⟨type, realFd, known, target⟩ := exists_of_counted counted
        change (table.dupTo src dst).1.AllocationSound at sound
        rw [dupTo_unbound known target unbound] at sound
        exact invariant.live_bindUnbound unbound sound.live

end

/--
In a run in which `set` and `dup_to` bind numbers that are not bound, allocation
is sound in every state exactly if each of them that takes effect binds the
number at the watermark.
-/
theorem allocation_sound_iff_at_watermark
    {ops : List FdBindOp}
    {final : FdRemapTable}
    (accepted : run? bindStep? FdRemapTable.empty ops = some final) :
    (∀ table, ReachedBy bindStep? FdRemapTable.empty ops table → table.AllocationSound) ↔
      Along bindStep? BindsAtWatermark FdRemapTable.empty ops :=
  forall_reachedBy_iff_along_of_kept
    (fun invariant => invariant.allocationSound)
    (fun invariant stepped => invariant.bindStep_iff stepped)
    (fun invariant stepped atWatermark => invariant.bindStep stepped atWatermark)
    Invariant.empty accepted

/-- Explicit bindings that follow the watermark keep allocation sound. -/
theorem allocation_sound_in_order : let ops : List FdBindOp :=
      [.set 0 .kSocket 5, .dupTo 0 1, .table (.free 0), .table (.alloc .kSocket 6)]
    ∃ final, run? bindStep? FdRemapTable.empty ops = some final ∧
        ∀ table, ReachedBy bindStep? FdRemapTable.empty ops table → table.AllocationSound := by
  refine ⟨_, rfl, ?_⟩
  exact (allocation_sound_iff_at_watermark rfl).mpr (by decide +kernel)

/--
A number that was freed is bound again by `set` and stays on the free list:
`live_count` does not count it, and the next `alloc` returns it and drops the
binding.
-/
theorem alloc_returns_bound_number :
    let ops : List FdBindOp := [.table (.alloc .kSocket 5), .table (.free 0), .set 0 .kSocket 6]
    ∃ final, run? bindStep? FdRemapTable.empty ops = some final ∧
        final.lookup 0 = ⟨.kSocket, some 6⟩ ∧ final.liveCount = 0 ∧ final.bound.card = 1 ∧
        (final.apply (.alloc .kSocket 7)).2 = 0 ∧
        (final.apply (.alloc .kSocket 7)).1.lookup 0 = ⟨.kSocket, some 7⟩ := by
  refine ⟨_, rfl, ?_⟩
  decide +kernel

end Bind

end FdRemapTable

end SocksDirect
