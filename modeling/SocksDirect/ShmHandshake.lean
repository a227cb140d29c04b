import SocksDirect.ByteText

namespace SocksDirect

/-!
# The monitor's registry of shared-memory pairs

`include/socksdirect/shm_handshake.hpp`.  The registry maps a pair of endpoints
to the key of its segment and to the pids of the two ends.  Its `std::map` is
ordered by `ConnId::operator<`, which compares the two endpoint strings as
unsigned bytes.
-/

open ByteText

/-- `std::string::operator<`. -/
def ByteText.less (s t : Text) : Bool := compare s t = .lt

/-- `ShmHandshakeRegistry::ConnId`. -/
structure ConnId where
  a : Text
  b : Text
  deriving Repr, DecidableEq

namespace ConnId

/-- `ConnId::operator<`. -/
def less (x y : ConnId) : Bool := if x.a ≠ y.a then ByteText.less x.a y.a else ByteText.less x.b y.b

/-- The comparison that a `std::map` derives from `operator<`. -/
def order (x y : ConnId) : Ordering := if x.less y then .lt else if y.less x then .gt else .eq

/-- `ShmHandshakeRegistry::make`: the smaller endpoint comes first. -/
def make (side₁ side₂ : Text) : ConnId :=
  if ByteText.less side₁ side₂ then ⟨side₁, side₂⟩ else ⟨side₂, side₁⟩

end ConnId

/-- `ShmHandshakeRegistry::Role`. -/
inductive HandshakeRole where
  | kCreator
  | kJoiner
  deriving Repr, DecidableEq

/-- `ShmHandshakeRegistry::Entry`. -/
structure HandshakeEntry where
  key : UInt64
  creatorPid : Int32
  joinerPid : Int32
  deriving Repr, DecidableEq

/-- `ShmHandshakeRegistry::Result`. -/
structure HandshakeResult where
  key : UInt64
  role : HandshakeRole
  pidA : Int32
  pidB : Int32
  deriving Repr, DecidableEq

/-- The pid is one of the two that the entry records. -/
def HandshakeEntry.hasPid (entry : HandshakeEntry) (pid : Int32) : Bool :=
  entry.creatorPid = pid || entry.joinerPid = pid

/--
The values of the random generator.  It keeps producing values other than 0:
one of the draws from position `i` to position `i + patience i` is not 0.
-/
structure RandomStream where
  draw : Nat → UInt64
  patience : Nat → Nat
  productive : ∀ i, draw (i + patience i) ≠ 0

namespace RandomStream

/-- The loop of `next_key`: the first value other than 0 and the next position. -/
def drawNonzero (rng : RandomStream) : Nat → Nat → UInt64 × Nat
  | 0, position => (rng.draw position, position + 1)
  | rounds + 1, position =>
    if rng.draw position = 0 then
      rng.drawNonzero rounds (position + 1)
    else
      (rng.draw position, position + 1)

/-- `next_key`. -/
def nextKey (rng : RandomStream) (position : Nat) : UInt64 × Nat :=
  rng.drawNonzero (rng.patience position) position

private theorem drawNonzero_ne_zero (rng : RandomStream) (rounds position : Nat)
    (productive : rng.draw (position + rounds) ≠ 0) : (rng.drawNonzero rounds position).1 ≠ 0 := by
  induction rounds generalizing position with
  | zero => exact productive
  | succ rounds inductionHypothesis =>
    rw [drawNonzero]
    split
    · refine inductionHypothesis (position + 1) ?_
      rwa [Nat.add_assoc, Nat.add_comm 1 rounds]
    · assumption

theorem nextKey_ne_zero (rng : RandomStream) (position : Nat) : (rng.nextKey position).1 ≠ 0 :=
  rng.drawNonzero_ne_zero _ position (rng.productive position)

end RandomStream

/-- The registry: its map and how far the random generator has been read. -/
structure ShmHandshakeRegistry where
  active : Std.TreeMap ConnId HandshakeEntry ConnId.order
  drawn : Nat

namespace ShmHandshakeRegistry

/-- The registry of a monitor that has just started. -/
def empty : ShmHandshakeRegistry where
  active := ∅
  drawn := 0

/-- `register_endpoint`. -/
def registerEndpoint (rng : RandomStream) (registry : ShmHandshakeRegistry) (id : ConnId)
    (callerPid : Int32) : ShmHandshakeRegistry × HandshakeResult :=
  match registry.active[id]? with
  | none =>
    let (key, drawn) := rng.nextKey registry.drawn
    let entry : HandshakeEntry := ⟨key, callerPid, 0⟩
    (⟨registry.active.insert id entry, drawn⟩, ⟨key, .kCreator, callerPid, 0⟩)
  | some entry =>
    let joined :=
      if entry.joinerPid = 0 then { entry with joinerPid := callerPid } else entry
    ({ registry with active := registry.active.insert id joined },
      ⟨joined.key, .kJoiner, joined.creatorPid, joined.joinerPid⟩)

/-- `unregister_endpoint`. -/
def unregisterEndpoint (registry : ShmHandshakeRegistry)
    (id : ConnId) : ShmHandshakeRegistry × Bool :=
  ({ registry with active := registry.active.erase id }, registry.active.contains id)

/-- The loop of `reap_pid` over the entries of the map. -/
def reapLoop (pid : Int32) : List (ConnId × HandshakeEntry) →
    Std.TreeMap ConnId HandshakeEntry ConnId.order × Nat →
    Std.TreeMap ConnId HandshakeEntry ConnId.order × Nat
  | [], result => result
  | (id, entry) :: rest, (active, removed) =>
    if entry.hasPid pid then
      reapLoop pid rest (active.erase id, removed + 1)
    else
      reapLoop pid rest (active, removed)

/-- `reap_pid`. -/
def reapPid (registry : ShmHandshakeRegistry) (pid : Int32) : ShmHandshakeRegistry × Nat :=
  let (active, removed) := reapLoop pid registry.active.toList (registry.active, 0)
  ({ registry with active := active }, removed)

end ShmHandshakeRegistry

namespace ConnId

private theorem compare_eq_of_less (s t : Text) : (if ByteText.less s t then Ordering.lt
      else if ByteText.less t s then .gt
      else .eq) = compare s t := by
  have mirrored : compare t s = .lt ↔ compare s t = .gt := Std.OrientedCmp.gt_iff_lt.symm
  simp only [ByteText.less, decide_eq_true_eq, mirrored]
  cases compare s t <;> simp

theorem order_eq_compareLex (x y : ConnId) :
    x.order y = compareLex (compareOn ConnId.a) (compareOn ConnId.b) x y := by
  by_cases same : x.a = y.a
  · have first : compare y.a y.a = .eq := by simp
    simp only [order, less, compareLex, compareOn, first, same,
      ne_eq, not_true_eq_false, if_false, Ordering.then]
    exact compare_eq_of_less x.b y.b
  · simp only [order, less, compareLex, compareOn, same, Ne.symm same,
      ne_eq, not_false_eq_true, if_true]
    rw [compare_eq_of_less]
    cases comparison : compare x.a y.a <;> simp_all

instance : Std.TransCmp ConnId.order := by
  have same : ConnId.order = compareLex (compareOn ConnId.a) (compareOn ConnId.b) :=
    funext fun x => funext fun y => order_eq_compareLex x y
  rw [same]
  infer_instance

instance : Std.LawfulEqCmp ConnId.order where
  eq_of_compare := by
    intro x y equal
    rw [order_eq_compareLex, compareLex_eq_eq] at equal
    obtain ⟨first, second⟩ := equal
    simp only [compareOn, Std.LawfulEqCmp.compare_eq_iff_eq] at first second
    cases x
    cases y
    simp_all

theorem make_comm (x y : Text) : make x y = make y x := by
  have mirrored : compare y x = .lt ↔ compare x y = .gt := Std.OrientedCmp.gt_iff_lt.symm
  simp only [make, ByteText.less, decide_eq_true_eq, mirrored]
  cases comparison : compare x y with
  | lt | gt => simp
  | eq =>
    have same : x = y := by simpa using comparison
    simp [same]

end ConnId

namespace ShmHandshakeRegistry

variable (rng : RandomStream) (registry : ShmHandshakeRegistry)

theorem registerEndpoint_other {id other : ConnId} (different : other ≠ id) (pid : Int32) :
    (registry.registerEndpoint rng id pid).1.active[other]? = registry.active[other]? := by
  have notSame : ConnId.order id other ≠ .eq := by simpa using Ne.symm different
  unfold registerEndpoint
  split <;> simp [Std.TreeMap.getElem?_insert, notSame]

theorem registerEndpoint_first {id : ConnId} (absent : registry.active[id]? = none) (pid : Int32) :
    ∃ key, key ≠ 0 ∧ (registry.registerEndpoint rng id pid).2 = ⟨key, .kCreator, pid, 0⟩ ∧
      (registry.registerEndpoint rng id pid).1.active[id]? = some ⟨key, pid, 0⟩ := by
  refine ⟨(rng.nextKey registry.drawn).1, rng.nextKey_ne_zero registry.drawn, ?_, ?_⟩
  · simp [registerEndpoint, absent]
  · simp [registerEndpoint, absent]

/-- A further registration joins with the same key; only the first is recorded. -/
theorem registerEndpoint_again {id : ConnId} {entry : HandshakeEntry}
    (present : registry.active[id]? = some entry) (pid : Int32) :
    (registry.registerEndpoint rng id pid).2.key = entry.key ∧
      (registry.registerEndpoint rng id pid).2.role = .kJoiner ∧
      (registry.registerEndpoint rng id pid).1.active[id]? = some
          (if entry.joinerPid = 0 then
            { entry with joinerPid := pid }
          else
            entry) := by
  refine ⟨?_, ?_, ?_⟩
  · simp only [registerEndpoint, present]
    split <;> rfl
  · simp [registerEndpoint, present]
  · simp [registerEndpoint, present]

theorem unregisterEndpoint_lookup (id other : ConnId) :
    (registry.unregisterEndpoint id).1.active[other]? =
      if other = id then none else registry.active[other]? := by
  rw [unregisterEndpoint, Std.TreeMap.getElem?_erase]
  by_cases same : other = id
  · simp [same]
  · simp [same, Ne.symm same]

theorem unregisterEndpoint_result (id : ConnId) :
    (registry.unregisterEndpoint id).2 = registry.active[id]?.isSome :=
  Std.TreeMap.contains_eq_isSome_getElem?

/-- The reaping loop erases the listed entries that have the pid. -/
private theorem reapLoop_lookup (pid : Int32) (id : ConnId)
    (entries : List (ConnId × HandshakeEntry))
    (active : Std.TreeMap ConnId HandshakeEntry ConnId.order) (removed : Nat) :
    (reapLoop pid entries (active, removed)).1[id]? =
      if entries.any (fun listed => listed.1 = id && listed.2.hasPid pid) then
        none
      else
        active[id]? := by
  induction entries generalizing active removed with
  | nil => simp [reapLoop]
  | cons head rest inductionHypothesis =>
    obtain ⟨headId, headEntry⟩ := head
    rw [reapLoop]
    split
    · rename_i reaped
      rw [inductionHypothesis, Std.TreeMap.getElem?_erase, List.any_cons]
      by_cases same : headId = id
      · simp [same, reaped]
      · have notSame : ConnId.order headId id ≠ .eq := by simpa using same
        rw [decide_eq_false same, Bool.false_and, Bool.false_or, if_neg notSame]
    · rename_i kept
      rw [inductionHypothesis, List.any_cons,
        Bool.eq_false_iff.mpr kept, Bool.and_false, Bool.false_or]

/-- `reap_pid` removes exactly the entries that record the pid. -/
theorem reapPid_lookup (pid : Int32) (id : ConnId) : (registry.reapPid pid).1.active[id]? =
      registry.active[id]?.filter (fun entry => !entry.hasPid pid) := by
  have lookup := reapLoop_lookup pid id registry.active.toList registry.active 0
  have listed : registry.active.toList.any
          (fun listed => listed.1 = id && listed.2.hasPid pid) = true ↔
        ∃ entry, registry.active[id]? = some entry ∧ entry.hasPid pid = true := by
    simp [List.any_eq_true]
  refine lookup.trans ?_
  cases found : registry.active[id]? with
  | none => simp
  | some entry =>
    simp only [found, Option.some.injEq, exists_eq_left'] at listed
    by_cases reaped : entry.hasPid pid = true
    · rw [if_pos (listed.mpr reaped), Option.filter_some, if_neg (by simp [reaped])]
    · rw [if_neg (fun any => reaped (listed.mp any)), Option.filter_some, if_pos (by simp [reaped])]

end ShmHandshakeRegistry

end SocksDirect
