import Mathlib.Algebra.BigOperators.Group.Finset.Basic
import Mathlib.Algebra.BigOperators.Group.Finset.Piecewise
import Mathlib.Algebra.Order.BigOperators.Group.Finset
import SocksDirect.ByteText
import SocksDirect.MachineRun

namespace SocksDirect

open Function Machine

/-!
# The counters of the preloaded library

`render_lib_metrics` in `src/lib/metrics_dump.cpp` against the counter updates of
`shm_send` and `shm_recv` and against `close`, which takes a connection out of the
registry and then adds its counters to the totals of the closed connections, one
after the other.  Every access to a shared variable is one step: the snapshot of
the registry, each load, each `fetch_add`.

Counters are natural numbers that are reduced modulo 2^64 when they are rendered.
`leaving` lists the connections that a snapshot misses because they are being
closed, and `updates` adds up all updates of a counter; the source keeps neither.
-/

open ByteText

/-- The counters of a connection, in the order in which they are read and added. -/
inductive ConnCounter where
  | bytesSent
  | bytesRecv
  | ringFullBlocks
  | ringEmptyBlocks
  deriving Repr, DecidableEq

/-- All of them. -/
def ConnCounter.all : List ConnCounter :=
  [.bytesSent, .bytesRecv, .ringFullBlocks, .ringEmptyBlocks]

theorem ConnCounter.mem_all (kind : ConnCounter) : kind ∈ ConnCounter.all := by
  cases kind <;> decide

/--
A connection; while it is being closed, with the counters left to be added and the
value that has been loaded of the first of them.
-/
inductive ConnPhase where
  | live
  | closing (loaded : Option Nat) (left : List ConnCounter)
  | closed
  deriving Repr, DecidableEq

/-- The counter has not been added to the total of the closed connections. -/
def ConnPhase.owes : ConnPhase → ConnCounter → Bool
  | .live, _ => true
  | .closing _ left, kind => kind ∈ left
  | .closed, _ => false

/-- `close` is between the registry and its last counter. -/
def ConnPhase.isClosing : ConnPhase → Bool
  | .closing _ _ => true
  | _ => false

/-- The counter that `close` has loaded and not yet added. -/
def ConnPhase.loaded? : ConnPhase → Option ConnCounter
  | .closing (some _) (kind :: _) => some kind
  | _ => none

/-- The locals of `render_lib_metrics`. -/
structure Render where
  snapshot : List Nat
  leaving : Finset Nat
  todo : List (Nat × ConnCounter)
  live : ConnCounter → Nat
  closedTodo : List ConnCounter
  total : ConnCounter → Nat

/-- The values that `render_lib_metrics` prints. -/
structure Rendered where
  total : ConnCounter → Nat
  connsTotal : Nat
  connClosedTotal : Nat
  connsLive : Nat

/-- `emit_counter` and `emit_gauge`; their buffer has 256 bytes. -/
def emitMetric (type name help : Text) (value : Nat) (pid : Int32) : Text :=
  (ascii "# HELP " ++ name ++ ascii " " ++ help ++ ascii "\n# TYPE " ++
    name ++ ascii " " ++ type ++ ascii "\n" ++ name ++ ascii "\x7bpid=\"" ++
    formatInt pid ++ ascii "\"\x7d " ++ decimal value ++ ascii "\n").take 255

/-- `emit_counter`. -/
def emitCounter : Text → Text → Nat → Int32 → Text := emitMetric (ascii "counter")

/-- `emit_gauge`. -/
def emitGauge : Text → Text → Nat → Int32 → Text := emitMetric (ascii "gauge")

/-- What `render_lib_metrics` returns. -/
def Rendered.text (rendered : Rendered) (pid : Int32) : Text :=
  emitCounter (ascii "socksdirect_lib_shm_bytes_sent_total")
      (ascii "bytes sent through the SHM data plane")
      (rendered.total .bytesSent) pid ++
    emitCounter (ascii "socksdirect_lib_shm_bytes_recv_total")
      (ascii "bytes received through the SHM data plane")
      (rendered.total .bytesRecv) pid ++
    emitCounter (ascii "socksdirect_lib_shm_ring_full_blocks_total")
      (ascii "send blocked because the SHM ring was full")
      (rendered.total .ringFullBlocks) pid ++
    emitCounter (ascii "socksdirect_lib_shm_ring_empty_blocks_total")
      (ascii "recv blocked because the SHM ring was empty")
      (rendered.total .ringEmptyBlocks) pid ++
    emitCounter (ascii "socksdirect_lib_shm_conns_total")
      (ascii "SHM connections opened by this process")
      rendered.connsTotal pid ++
    emitCounter (ascii "socksdirect_lib_shm_conn_closed_total")
      (ascii "SHM connections closed by this process")
      rendered.connClosedTotal pid ++
    emitGauge (ascii "socksdirect_lib_shm_conns_live")
      (ascii "currently-open SHM connections")
      rendered.connsLive pid

/-- The counters of a process, with the render that is under way. -/
structure LibMetrics where
  size : Nat
  conn : Nat → ConnPhase
  counter : ConnCounter → Nat → Nat
  closedTotal : ConnCounter → Nat
  connsTotal : Nat
  connClosedTotal : Nat
  render : Option Render
  rendered : List Rendered
  updates : ConnCounter → Nat

/-- One step of a sender, a receiver, a closing thread or the rendering thread. -/
inductive MetricsAction where
  | install
  | add (kind : ConnCounter) (conn amount : Nat)
  | close (conn : Nat)
  | snapshot (order : List Nat)
  | render
  deriving Repr, DecidableEq

namespace LibMetrics

/-- A process without connections. -/
def initial : LibMetrics where
  size := 0
  conn := fun _ => .closed
  counter := fun _ _ => 0
  closedTotal := fun _ => 0
  connsTotal := 0
  connClosedTotal := 0
  render := none
  rendered := []
  updates := fun _ => 0

/-- The connections that are being closed. -/
def closing (state : LibMetrics) : Finset Nat :=
  {conn ∈ Finset.range state.size | (state.conn conn).isClosing}

/-- The connections in the registry. -/
def registry (state : LibMetrics) : List Nat :=
  (List.range state.size).filter fun conn => state.conn conn = .live

/-- A connection is attached and installed. -/
def install (state : LibMetrics) : LibMetrics :=
  { state with
    size := state.size + 1
    conn := update state.conn state.size .live
    counter := fun kind => update (state.counter kind) state.size 0
    connsTotal := state.connsTotal + 1 }

/-- `fetch_add` on a counter of a connection. -/
def add (state : LibMetrics) (kind : ConnCounter) (conn amount : Nat) : LibMetrics :=
  { state with
    counter :=
      update state.counter kind
        (update (state.counter kind) conn (state.counter kind conn + amount))
    updates := update state.updates kind (state.updates kind + amount) }

/-- The phase of a connection changes. -/
def setConn (state : LibMetrics) (conn : Nat) (phase : ConnPhase) : LibMetrics :=
  { state with conn := update state.conn conn phase }

@[simp] theorem conn_setConn_self (state : LibMetrics) (conn : Nat) (phase : ConnPhase) :
    (state.setConn conn phase).conn conn = phase :=
  update_self ..

theorem conn_setConn_of_ne (state : LibMetrics) {conn other : Nat} (different : other ≠ conn)
    (phase : ConnPhase) : (state.setConn conn phase).conn other = state.conn other :=
  update_of_ne different ..

/-- The closing thread adds what it has loaded of a counter. -/
def fold (state : LibMetrics) (conn value : Nat) (kind : ConnCounter)
    (left : List ConnCounter) : LibMetrics :=
  { state.setConn conn (.closing none left) with
    closedTotal := update state.closedTotal kind (state.closedTotal kind + value) }

/-- The next step of the thread that closes a connection. -/
def close? (state : LibMetrics) (conn : Nat) : Option LibMetrics :=
  match state.conn conn with
  | .live => some (state.setConn conn (.closing none ConnCounter.all))
  | .closing none (kind :: left) =>
    some (state.setConn conn (.closing (some (state.counter kind conn)) (kind :: left)))
  | .closing (some value) (kind :: left) => some (state.fold conn value kind left)
  | .closing _ [] =>
    some { state.setConn conn .closed with connClosedTotal := state.connClosedTotal + 1 }
  | .closed => none

/-- The snapshot of the registry, in the order of its hash table. -/
def beginRender (state : LibMetrics) (order : List Nat) : LibMetrics :=
  { state with
    render := some
      { snapshot := order
        leaving := state.closing
        todo := order.flatMap fun conn => ConnCounter.all.map (conn, ·)
        live := fun _ => 0
        closedTodo := ConnCounter.all
        total := fun _ => 0 } }

/-- The next load of `render_lib_metrics`, and its return. -/
def advance (state : LibMetrics) (render : Render) : LibMetrics :=
  match render.todo, render.closedTodo with
  | (conn, kind) :: todo, _ =>
    { state with
      render := some
        { render with
          todo := todo
          live := update render.live kind (render.live kind + state.counter kind conn) } }
  | [], kind :: closedTodo =>
    { state with
      render := some
        { render with
          closedTodo := closedTodo
          total :=
            update render.total kind
              ((render.live kind + state.closedTotal kind) % 2 ^ 64) } }
  | [], [] =>
    { state with
      render := none
      rendered := state.rendered ++
        [{ total := render.total
           connsTotal := state.connsTotal
           connClosedTotal := state.connClosedTotal
           connsLive := render.snapshot.length }] }

/-- One step. -/
def step? (state : LibMetrics) : MetricsAction → Option LibMetrics
  | .install => some state.install
  | .add kind conn amount =>
    if conn < state.size then some (state.add kind conn amount) else none
  | .close conn =>
    if conn < state.size then state.close? conn else none
  | .snapshot order =>
    if state.render.isNone ∧ order.Perm state.registry then some (state.beginRender order) else none
  | .render => state.render.map state.advance

/-- Every value is at least the one before and at most the sum of the updates. -/
structure Sound (state : LibMetrics) : Prop where
  increasing :
    state.rendered.Pairwise fun earlier later => ∀ kind, earlier.total kind ≤ later.total kind
  bounded : ∀ rendered ∈ state.rendered, ∀ kind, rendered.total kind ≤ state.updates kind

/--
`close` and the render do not meet: no counter is added to a total that the render
has still to load if the connection is in its snapshot, and the total is not
loaded before the counters of all connections that had left the registry by the
snapshot have been added.  No counter is updated between its load by `close` and
the addition, and the sum of the updates stays below 2^64.
-/
def Undisturbed (state : LibMetrics) : MetricsAction → Prop
  | .add kind conn amount => kind ∉ (state.conn conn).loaded? ∧ state.updates kind + amount < 2 ^ 64
  | .close conn =>
    ∀ render ∈ state.render,
      ∀ kind ∈ (state.conn conn).loaded?, kind ∈ render.closedTodo → conn ∉ render.snapshot
  | .render =>
    ∀ render ∈ state.render, render.todo = [] →
      ∀ kind ∈ render.closedTodo.head?, ∀ conn ∈ render.leaving, (state.conn conn).owes kind = false
  | _ => True

/-- The condition on a step can be evaluated. -/
instance decidableUndisturbed (state : LibMetrics) (action : MetricsAction) :
    Decidable (state.Undisturbed action) := by
  unfold Undisturbed
  split <;> infer_instance

section Sums

variable {Index : Type} [DecidableEq Index]

theorem sum_eq_add_sum {indices : Finset Index} {index : Index} (member : index ∈ indices)
    (extra : Nat) {first second : Index → Nat}
    (equal : ∀ other ∈ indices, first other = (if other = index then extra else 0) + second other) :
    ∑ other ∈ indices, first other = extra + ∑ other ∈ indices, second other := by
  rw [Finset.sum_congr rfl equal, Finset.sum_add_distrib, Finset.sum_ite_eq', if_pos member]

theorem sum_le_add_sum (indices : Finset Index) (index : Index) (extra : Nat)
    {lower upper : Index → Nat}
    (ordered :
      ∀ other ∈ indices, lower other ≤ (if other = index then extra else 0) + upper other) :
    ∑ other ∈ indices, lower other ≤ extra + ∑ other ∈ indices, upper other := by
  refine (Finset.sum_le_sum ordered).trans ?_
  rw [Finset.sum_add_distrib, Finset.sum_ite_eq']
  split
  · exact Nat.le_refl _
  · exact Nat.add_le_add_right (Nat.zero_le _) _

end Sums

/-- What a connection has still to add to the total of a counter. -/
def debt (state : LibMetrics) (kind : ConnCounter) (conn : Nat) : Nat :=
  if (state.conn conn).owes kind then state.counter kind conn else 0

/-- What all connections together have counted, as far as it can be found. -/
def value (state : LibMetrics) (kind : ConnCounter) : Nat :=
  state.closedTotal kind + ∑ conn ∈ Finset.range state.size, state.debt kind conn

/-- The connections of the snapshot whose counter has not been loaded. -/
def unread (render : Render) (kind : ConnCounter) : List Nat :=
  (render.todo.filter fun entry => entry.2 = kind).map Prod.fst

/-- The total of the counter has not been loaded. -/
structure Reading
    (state : LibMetrics)
    (render : Render)
    (kind : ConnCounter) : Prop where
  owed : ∀ conn ∈ render.snapshot, conn < state.size ∧ (state.conn conn).owes kind = true
  upper : ∃ read, render.snapshot = read ++ unread render kind ∧
        render.live kind ≤ (read.map (state.counter kind)).sum
  lower : ∀ rendered ∈ state.rendered, rendered.total kind ≤
        state.closedTotal kind + render.live kind +
          ((unread render kind).map (state.counter kind)).sum +
          ∑ conn ∈ render.leaving, state.debt kind conn

/-- The total of the counter has been loaded. -/
structure Loaded
    (state : LibMetrics)
    (render : Render)
    (kind : ConnCounter) : Prop where
  lower : ∀ rendered ∈ state.rendered, rendered.total kind ≤ render.total kind
  upper : render.total kind ≤ state.value kind

/-- A render that is under way. -/
structure UnderWay
    (state : LibMetrics)
    (render : Render) : Prop where
  nodup : render.snapshot.Nodup
  kinds : render.closedTodo.Nodup
  leaving : ∀ conn ∈ render.leaving, conn < state.size
  reading : ∀ kind ∈ render.closedTodo, Reading state render kind
  loaded : ∀ kind, kind ∉ render.closedTodo → Loaded state render kind

/-- What the steps keep as long as they are undisturbed. -/
structure Invariant (state : LibMetrics) : Prop where
  fits : ∀ kind, state.updates kind < 2 ^ 64
  counted : ∀ kind, state.value kind ≤ state.updates kind
  loaded : ∀ conn < state.size,
      ∀ amount kind left, state.conn conn = .closing (some amount) (kind :: left) →
        amount = state.counter kind conn
  left : ∀ conn < state.size, ∀ loaded left, state.conn conn = .closing loaded left → left.Nodup
  increasing :
    state.rendered.Pairwise fun earlier later => ∀ kind, earlier.total kind ≤ later.total kind
  shown : ∀ rendered ∈ state.rendered, ∀ kind, rendered.total kind ≤ state.value kind
  render : ∀ render ∈ state.render, UnderWay state render

/-- A step outside of the render that adds nothing to the totals. -/
structure Grows (state next : LibMetrics) : Prop where
  render : next.render = state.render
  rendered : next.rendered = state.rendered
  size : state.size ≤ next.size
  closedTotal : next.closedTotal = state.closedTotal
  owes : ∀ conn < state.size, (next.conn conn).owes = (state.conn conn).owes
  counter : ∀ kind, ∀ conn < state.size, state.counter kind conn ≤ next.counter kind conn

section Steps

variable {state next : LibMetrics} {render : Render} {kind : ConnCounter} {conn : Nat}

theorem Grows.debt (grows : Grows state next) (known : conn < state.size) :
    state.debt kind conn ≤ next.debt kind conn := by
  unfold LibMetrics.debt
  rw [grows.owes conn known]
  split
  · exact grows.counter kind conn known
  · exact Nat.le_refl _

theorem Grows.value (grows : Grows state next) (kind : ConnCounter) :
    state.value kind ≤ next.value kind := by
  unfold LibMetrics.value
  rw [grows.closedTotal]
  refine Nat.add_le_add_left ?_ _
  refine (Finset.sum_le_sum ?_).trans
    (Finset.sum_le_sum_of_subset (Finset.range_subset_range.mpr grows.size))
  intro conn member
  exact grows.debt (Finset.mem_range.mp member)

theorem Grows.sum_counter (grows : Grows state next) (kind : ConnCounter) {conns : List Nat}
    (known : ∀ conn ∈ conns, conn < state.size) :
    (conns.map (state.counter kind)).sum ≤ (conns.map (next.counter kind)).sum := by
  refine List.sum_le_sum ?_
  intro conn member
  exact grows.counter kind conn (known conn member)

/-- The part of a render before the total is loaded. -/
theorem Reading.grow (reading : Reading state render kind) (grows : Grows state next)
    (leaving : ∀ conn ∈ render.leaving, conn < state.size) :
    Reading next render kind := by
  have known : ∀ conn ∈ render.snapshot, conn < state.size :=
    fun conn member => (reading.owed conn member).1
  obtain ⟨read, split, live⟩ := reading.upper
  refine ⟨?_, ⟨read, split, ?_⟩, ?_⟩
  · intro conn member
    obtain ⟨inside, owed⟩ := reading.owed conn member
    exact ⟨inside.trans_le grows.size, by rw [grows.owes conn inside, owed]⟩
  · refine live.trans (grows.sum_counter kind ?_)
    intro conn member
    exact known conn (split ▸ List.mem_append_left _ member)
  · intro rendered member
    rw [grows.rendered] at member
    refine (reading.lower rendered member).trans ?_
    rw [grows.closedTotal]
    refine Nat.add_le_add (Nat.add_le_add_left ?_ _) ?_
    · refine grows.sum_counter kind ?_
      intro conn member
      exact known conn (split ▸ List.mem_append_right _ member)
    · exact Finset.sum_le_sum fun conn member => grows.debt (leaving conn member)

theorem Loaded.grow (loaded : Loaded state render kind) (rendered : next.rendered = state.rendered)
    (value : state.value kind ≤ next.value kind) :
    Loaded next render kind := by
  refine ⟨?_, loaded.upper.trans value⟩
  rw [rendered]
  exact loaded.lower

theorem UnderWay.grow (underWay : UnderWay state render) (grows : Grows state next) :
    UnderWay next render where
  nodup := underWay.nodup
  kinds := underWay.kinds
  leaving := fun conn member => (underWay.leaving conn member).trans_le grows.size
  reading := fun kind member => (underWay.reading kind member).grow grows underWay.leaving
  loaded := fun kind notMember =>
    (underWay.loaded kind notMember).grow grows.rendered (grows.value kind)

/-- A step outside of the render keeps the invariant with the bounds. -/
theorem Invariant.grow (invariant : state.Invariant) (grows : Grows state next)
    (fits : ∀ kind, next.updates kind < 2 ^ 64)
    (counted : ∀ kind, next.value kind ≤ next.updates kind)
    (loaded : ∀ conn < next.size, ∀ amount kind left,
      next.conn conn = .closing (some amount) (kind :: left) → amount = next.counter kind conn)
    (left : ∀ conn < next.size, ∀ loaded left, next.conn conn = .closing loaded left → left.Nodup) :
    next.Invariant where
  fits := fits
  counted := counted
  loaded := loaded
  left := left
  increasing := by
    rw [grows.rendered]
    exact invariant.increasing
  shown := by
    rw [grows.rendered]
    intro rendered member kind
    exact (invariant.shown rendered member kind).trans (grows.value kind)
  render := by
    rw [grows.render]
    intro render member
    exact (invariant.render render member).grow grows

/-- A connection is installed. -/
theorem Invariant.install (invariant : state.Invariant) : state.install.Invariant := by
  have old
      {conn : Nat}
      (known : conn < state.size) :
      state.install.conn conn = state.conn conn ∧
        ∀ kind, state.install.counter kind conn = state.counter kind conn := by
    constructor
    · exact update_of_ne known.ne _ _
    · intro kind
      exact update_of_ne known.ne _ _
  have grows : Grows state state.install := by
    refine ⟨rfl, rfl, Nat.le_succ _, rfl, ?_, ?_⟩
    · intro conn known
      rw [(old known).1]
    · intro kind conn known
      exact ((old known).2 kind).ge
  have debts : ∀ kind, ∀ conn ∈ Finset.range state.size,
      state.install.debt kind conn = state.debt kind conn := by
    intro kind conn member
    have known := Finset.mem_range.mp member
    rw [debt, debt, (old known).1, (old known).2 kind]
  have fresh : ∀ kind, state.install.debt kind state.size = 0 := by
    intro kind
    simp [debt, LibMetrics.install]
  have sameValue : ∀ kind, state.install.value kind = state.value kind := by
    intro kind
    change state.closedTotal kind + ∑ conn ∈ Finset.range (state.size + 1), _ = _
    rw [Finset.sum_range_succ, fresh kind, Nat.add_zero, Finset.sum_congr rfl (debts kind)]
    rfl
  have isLive : state.install.conn state.size = .live := update_self ..
  refine invariant.grow grows invariant.fits ?_ ?_ ?_
  · intro kind
    rw [sameValue kind]
    exact invariant.counted kind
  · intro conn known amount kind left phase
    rcases Nat.lt_succ_iff_lt_or_eq.mp known with before | isNew
    · rw [(old before).1] at phase
      rw [(old before).2 kind]
      exact invariant.loaded conn before amount kind left phase
    · rw [isNew, isLive] at phase
      cases phase
  · intro conn known loaded left phase
    rcases Nat.lt_succ_iff_lt_or_eq.mp known with before | isNew
    · rw [(old before).1] at phase
      exact invariant.left conn before loaded left phase
    · rw [isNew, isLive] at phase
      cases phase

theorem counter_add (state : LibMetrics) (kind other : ConnCounter) (conn amount index : Nat) :
    (state.add kind conn amount).counter other index =
      (if other = kind ∧ index = conn then amount else 0) + state.counter other index := by
  by_cases sameKind : other = kind
  · subst sameKind
    by_cases sameConn : index = conn
    · subst sameConn
      simp [add, Nat.add_comm]
    · simp [add, sameConn]
  · simp [add, sameKind]

variable {amount : Nat}

/-- A counter is updated. -/
theorem Invariant.add (invariant : state.Invariant) (unloaded : kind ∉ (state.conn conn).loaded?)
    (fits : state.updates kind + amount < 2 ^ 64) :
    (state.add kind conn amount).Invariant := by
  have grows : Grows state (state.add kind conn amount) := by
    refine ⟨rfl, rfl, Nat.le_refl _, rfl, fun _ _ => rfl, ?_⟩
    intro other index _
    rw [counter_add]
    exact Nat.le_add_left _ _
  have debts : ∀ other, ∀ index ∈ Finset.range state.size,
      (state.add kind conn amount).debt other index ≤
        (if index = conn then (if other = kind then amount else 0) else 0) +
          state.debt other index := by
    intro other index _
    have sameConn : (state.add kind conn amount).conn = state.conn := rfl
    rw [debt, debt, counter_add, sameConn]
    split
    · refine Nat.add_le_add_right ?_ _
      split
      · rename_i same
        rw [if_pos same.2, if_pos same.1]
      · exact Nat.zero_le _
    · exact Nat.zero_le _
  have updates : ∀ other, (state.add kind conn amount).updates other =
        (if other = kind then amount else 0) + state.updates other := by
    intro other
    by_cases same : other = kind
    · subst same
      simp [LibMetrics.add, Nat.add_comm]
    · simp [LibMetrics.add, same]
  refine invariant.grow grows ?_ ?_ ?_ invariant.left
  · intro other
    rw [updates other]
    by_cases same : other = kind
    · rw [if_pos same, same, Nat.add_comm]
      exact fits
    · rw [if_neg same, Nat.zero_add]
      exact invariant.fits other
  · intro other
    have before := invariant.counted other
    have added := sum_le_add_sum (Finset.range state.size) conn _ (debts other)
    rw [updates other]
    unfold value at before ⊢
    change state.closedTotal other + ∑ index ∈ Finset.range state.size, _ ≤ _
    omega
  · intro index known loaded other left phase
    have before := invariant.loaded index known loaded other left phase
    rw [counter_add, if_neg, Nat.zero_add]
    · exact before
    · rintro ⟨rfl, rfl⟩
      refine unloaded ?_
      change state.conn index = _ at phase
      rw [phase]
      rfl

/-- A connection changes its phase and owes the same. -/
theorem Invariant.setConn {phase : ConnPhase} (invariant : state.Invariant)
    (owes : phase.owes = (state.conn conn).owes)
    (loaded : ∀ amount kind left, phase = .closing (some amount) (kind :: left) →
      amount = state.counter kind conn)
    (nodup : ∀ loaded left, phase = .closing loaded left → left.Nodup) :
    (state.setConn conn phase).Invariant := by
  have sameOwes :
      ∀ index, ((state.setConn conn phase).conn index).owes = (state.conn index).owes := by
    intro index
    by_cases same : index = conn
    · rw [same, conn_setConn_self, owes]
    · rw [conn_setConn_of_ne state same]
  have grows : Grows state (state.setConn conn phase) :=
    ⟨rfl, rfl, Nat.le_refl _, rfl, fun index _ => sameOwes index, fun _ _ _ => Nat.le_refl _⟩
  have sameValue : ∀ kind, (state.setConn conn phase).value kind = state.value kind := by
    intro kind
    unfold value debt
    simp only [sameOwes]
    rfl
  refine invariant.grow grows invariant.fits ?_ ?_ ?_
  · intro kind
    rw [sameValue kind]
    exact invariant.counted kind
  · intro index known amount kind left isClosing
    by_cases same : index = conn
    · rw [same, conn_setConn_self] at isClosing
      rw [same]
      exact loaded amount kind left isClosing
    · rw [conn_setConn_of_ne state same] at isClosing
      exact invariant.loaded index known amount kind left isClosing
  · intro index known amount left isClosing
    by_cases same : index = conn
    · rw [same, conn_setConn_self] at isClosing
      exact nodup amount left isClosing
    · rw [conn_setConn_of_ne state same] at isClosing
      exact invariant.left index known amount left isClosing

theorem Invariant.withConnClosedTotal (invariant : state.Invariant) (number : Nat) :
    { state with connClosedTotal := number }.Invariant :=
  invariant.grow
    ⟨rfl, rfl, Nat.le_refl _, rfl, fun _ _ => rfl, fun _ _ _ => Nat.le_refl _⟩
    invariant.fits invariant.counted invariant.loaded invariant.left

variable {left : List ConnCounter}

/-- A counter moves from its connection to the total. -/
theorem debt_fold (phase : state.conn conn = .closing (some amount) (kind :: left))
    (loaded : amount = state.counter kind conn) (nodup : (kind :: left).Nodup) (other : ConnCounter)
    (index : Nat) :
    state.debt other index = (if index = conn then (if other = kind then amount else 0) else 0) +
        (state.fold conn amount kind left).debt other index := by
  by_cases sameConn : index = conn
  · have after : (state.fold conn amount kind left).conn conn = .closing none left :=
      conn_setConn_self ..
    rw [sameConn, if_pos rfl, debt, debt, phase, after]
    by_cases sameKind : other = kind
    · have absent : other ∉ left := by
        rw [sameKind]
        exact (List.nodup_cons.mp nodup).1
      simp [ConnPhase.owes, sameKind, loaded] at absent ⊢
      simp [absent]
    · simp [ConnPhase.owes, sameKind]
      rfl
  · rw [if_neg sameConn, Nat.zero_add, debt, debt]
    have after : (state.fold conn amount kind left).conn index = state.conn index :=
      conn_setConn_of_ne state sameConn _
    rw [after]
    rfl

theorem closedTotal_fold (state : LibMetrics) (conn amount : Nat) (kind other : ConnCounter)
    (left : List ConnCounter) : (state.fold conn amount kind left).closedTotal other =
      state.closedTotal other + if other = kind then amount else 0 := by
  by_cases same : other = kind
  · subst same
    simp [fold]
  · simp [fold, same]

theorem owes_fold {index : Nat} {other : ConnCounter}
    (phase : state.conn conn = .closing (some amount) (kind :: left))
    (apart : ¬ (other = kind ∧ index = conn)) :
    ((state.fold conn amount kind left).conn index).owes other = (state.conn index).owes other := by
  by_cases sameConn : index = conn
  · have different : other ≠ kind := fun same => apart ⟨same, sameConn⟩
    have after : (state.fold conn amount kind left).conn conn = .closing none left :=
      conn_setConn_self ..
    rw [sameConn, after, phase]
    simp [ConnPhase.owes, different]
  · exact congrArg (fun phase => ConnPhase.owes phase other) (conn_setConn_of_ne state sameConn _)

theorem value_fold (known : conn < state.size)
    (phase : state.conn conn = .closing (some amount) (kind :: left))
    (loaded : amount = state.counter kind conn) (nodup : (kind :: left).Nodup) (other : ConnCounter)
    :
    (state.fold conn amount kind left).value other = state.value other := by
  have moved :=
    sum_eq_add_sum (Finset.mem_range.mpr known) _
      fun index _ => debt_fold phase loaded nodup other index
  unfold value
  rw [closedTotal_fold, moved]
  exact Nat.add_assoc ..

/-- A render goes on if it does not wait for the total. -/
theorem UnderWay.fold (underWay : UnderWay state render) (known : conn < state.size)
    (phase : state.conn conn = .closing (some amount) (kind :: left))
    (loaded : amount = state.counter kind conn) (nodup : (kind :: left).Nodup)
    (apart : kind ∈ render.closedTodo → conn ∉ render.snapshot) :
    UnderWay (state.fold conn amount kind left) render := by
  refine ⟨underWay.nodup, underWay.kinds, underWay.leaving, ?_, ?_⟩
  · intro other isTodo
    have reading := underWay.reading other isTodo
    refine ⟨?_, reading.upper, ?_⟩
    · intro index inSnapshot
      obtain ⟨inside, owed⟩ := reading.owed index inSnapshot
      refine ⟨inside, ?_⟩
      rw [owes_fold phase, owed]
      rintro ⟨rfl, rfl⟩
      exact apart isTodo inSnapshot
    · intro rendered isShown
      have before := reading.lower rendered isShown
      have moved :=
        sum_le_add_sum render.leaving conn _
          fun index _ => (debt_fold phase loaded nodup other index).le
      rw [closedTotal_fold]
      change _ ≤ _ + _ + ((unread render other).map (state.counter other)).sum + _
      omega
  · intro other notTodo
    exact (underWay.loaded other notTodo).grow rfl (value_fold known phase loaded nodup other).ge

/-- A counter is added to a total that no render waits for. -/
theorem Invariant.fold (invariant : state.Invariant) (known : conn < state.size)
    (phase : state.conn conn = .closing (some amount) (kind :: left))
    (apart : ∀ render ∈ state.render, kind ∈ render.closedTodo → conn ∉ render.snapshot) :
    (state.fold conn amount kind left).Invariant := by
  have loaded := invariant.loaded conn known amount kind left phase
  have nodup := invariant.left conn known _ _ phase
  have sameValue := value_fold known phase loaded nodup
  have after : (state.fold conn amount kind left).conn conn = .closing none left :=
    conn_setConn_self ..
  have others
      {index : Nat}
      (different : index ≠ conn) :
      (state.fold conn amount kind left).conn index = state.conn index :=
    conn_setConn_of_ne state different _
  refine ⟨invariant.fits, ?_, ?_, ?_, invariant.increasing, ?_, ?_⟩
  · intro other
    rw [sameValue other]
    exact invariant.counted other
  · intro index inside value other rest isClosing
    by_cases same : index = conn
    · rw [same, after] at isClosing
      cases isClosing
    · rw [others same] at isClosing
      exact invariant.loaded index inside value other rest isClosing
  · intro index inside value rest isClosing
    by_cases same : index = conn
    · rw [same, after] at isClosing
      cases isClosing
      exact (List.nodup_cons.mp nodup).2
    · rw [others same] at isClosing
      exact invariant.left index inside value rest isClosing
  · intro rendered member other
    rw [sameValue other]
    exact invariant.shown rendered member other
  · intro render member
    exact (invariant.render render member).fold known phase loaded nodup (apart render member)

/-- The next step of a closing thread. -/
theorem Invariant.close (invariant : state.Invariant) (known : conn < state.size)
    (undisturbed : state.Undisturbed (.close conn)) (closed : state.close? conn = some next) :
    next.Invariant := by
  unfold close? at closed
  split at closed
  · rename_i phase
    cases closed
    refine invariant.setConn ?_ nofun ?_
    · rw [phase]
      funext kind
      exact decide_eq_true kind.mem_all
    · rintro _ _ ⟨⟩
      decide
  · rename_i kind left phase
    cases closed
    refine invariant.setConn ?_ ?_ ?_
    · rw [phase]
      rfl
    · rintro _ _ _ ⟨⟩
      rfl
    · rintro _ _ ⟨⟩
      exact invariant.left conn known _ _ phase
  · rename_i amount kind left phase
    cases closed
    refine invariant.fold known phase ?_
    intro render member
    refine undisturbed render member kind ?_
    rw [phase]
    rfl
  · rename_i loaded phase
    cases closed
    have settled : (state.setConn conn .closed).Invariant := by
      refine invariant.setConn ?_ nofun nofun
      rw [phase]
      funext kind
      rfl
    exact settled.withConnClosedTotal _
  · cases closed

variable {todo : List (Nat × ConnCounter)}

theorem unread_cons (isTodo : render.todo = (conn, kind) :: todo) (live : ConnCounter → Nat)
    (other : ConnCounter) :
    unread render other = (if other = kind then [conn] else []) ++
        unread { render with todo := todo, live := live } other := by
  unfold unread
  rw [isTodo]
  by_cases same : other = kind
  · rw [if_pos same, List.filter_cons_of_pos (by simp [same])]
    rfl
  · rw [if_neg same, List.filter_cons_of_neg (by simpa using Ne.symm same)]
    rfl

/-- The render loads the counter of a connection. -/
theorem UnderWay.read (underWay : UnderWay state render)
    (isTodo : render.todo = (conn, kind) :: todo) :
    UnderWay state
      { render with
        todo := todo
        live :=
          update render.live kind (render.live kind + state.counter kind conn) } := by
  refine ⟨underWay.nodup, underWay.kinds, underWay.leaving, ?_, ?_⟩
  · intro other isOpen
    have reading := underWay.reading other isOpen
    obtain ⟨read, split, live⟩ := reading.upper
    have rest := unread_cons isTodo
      (update render.live kind (render.live kind + state.counter kind conn)) other
    have lower := reading.lower
    rw [rest] at split lower
    refine ⟨reading.owed, ?_, ?_⟩
    · refine ⟨read ++ if other = kind then [conn] else [], ?_, ?_⟩
      · rw [List.append_assoc]
        exact split
      · by_cases same : other = kind
        · subst same
          simpa using live
        · simpa [same] using live
    · intro rendered isShown
      refine (lower rendered isShown).trans (Nat.le_of_eq ?_)
      by_cases same : other = kind
      · subst same
        simp
        omega
      · simp [same]
  · intro other notOpen
    exact ⟨(underWay.loaded other notOpen).lower, (underWay.loaded other notOpen).upper⟩

/-- All counters of the snapshot have been loaded: they are still owed. -/
theorem Reading.live_le (reading : Reading state render kind) (nodup : render.snapshot.Nodup)
    (isTodo : render.todo = []) :
    render.live kind ≤ ∑ conn ∈ Finset.range state.size, state.debt kind conn := by
  obtain ⟨read, split, live⟩ := reading.upper
  have allRead : render.snapshot = read := by
    rw [split, unread, isTodo]
    exact List.append_nil read
  rw [← allRead, ← List.sum_toFinset _ nodup] at live
  refine live.trans ?_
  have owed :
      ∀ conn ∈ render.snapshot.toFinset, state.counter kind conn = state.debt kind conn := by
    intro conn member
    rw [debt, if_pos (reading.owed conn (List.mem_toFinset.mp member)).2]
  rw [Finset.sum_congr rfl owed]
  refine Finset.sum_le_sum_of_subset ?_
  intro conn member
  exact Finset.mem_range.mpr (reading.owed conn (List.mem_toFinset.mp member)).1

/-- The render loads a total to which no connection has still to be added. -/
theorem UnderWay.load {closedTodo : List ConnCounter} (underWay : UnderWay state render)
    (fits : state.value kind < 2 ^ 64) (isTodo : render.todo = [])
    (isOpen : render.closedTodo = kind :: closedTodo)
    (settled : ∀ conn ∈ render.leaving, (state.conn conn).owes kind = false) :
    UnderWay state
      { render with
        closedTodo := closedTodo
        total :=
          update render.total kind
            ((render.live kind + state.closedTotal kind) % 2 ^ 64) } := by
  have kinds := underWay.kinds
  rw [isOpen] at kinds
  have reading := underWay.reading kind (by simp [isOpen])
  have below : render.live kind + state.closedTotal kind ≤ state.value kind := by
    have live := reading.live_le underWay.nodup isTodo
    unfold value
    omega
  have whole : (render.live kind + state.closedTotal kind) % 2 ^ 64 =
        render.live kind + state.closedTotal kind :=
    Nat.mod_eq_of_lt (below.trans_lt fits)
  have noDebt : ∑ conn ∈ render.leaving, state.debt kind conn = 0 := by
    refine Finset.sum_eq_zero ?_
    intro conn member
    rw [debt, settled conn member]
    rfl
  refine ⟨underWay.nodup, (List.nodup_cons.mp kinds).2, underWay.leaving, ?_, ?_⟩
  · intro other isOther
    have before := underWay.reading other (by rw [isOpen]; exact List.mem_cons_of_mem _ isOther)
    exact { before with }
  · intro other notOther
    by_cases same : other = kind
    · subst same
      refine ⟨?_, ?_⟩
      · intro rendered isShown
        have before := reading.lower rendered isShown
        have nothingUnread : unread render other = [] := by
          rw [unread, isTodo]
          rfl
        rw [noDebt, nothingUnread] at before
        dsimp only
        rw [update_self, whole]
        simp only [List.map_nil, List.sum_nil] at before
        omega
      · dsimp only
        rw [update_self, whole]
        exact below
    · have before := underWay.loaded other (by simp [isOpen, same, notOther])
      refine ⟨?_, ?_⟩
      · dsimp only
        rw [update_of_ne same]
        exact before.lower
      · dsimp only
        rw [update_of_ne same]
        exact before.upper

theorem Invariant.withRender {next : Render} (invariant : state.Invariant)
    (underWay : UnderWay state next) : { state with render := some next }.Invariant := by
  refine { invariant with render := ?_ }
  rintro render ⟨⟩
  refine ⟨underWay.nodup, underWay.kinds, underWay.leaving, ?_, ?_⟩
  · intro kind isOpen
    have reading := underWay.reading kind isOpen
    exact { reading with }
  · intro kind notOpen
    have loaded := underWay.loaded kind notOpen
    exact ⟨loaded.lower, loaded.upper⟩

/-- The next step of the render. -/
theorem Invariant.advance (invariant : state.Invariant) (isRender : state.render = some render)
    (undisturbed : state.Undisturbed .render) : (state.advance render).Invariant := by
  have underWay := invariant.render render isRender
  have settled := undisturbed render isRender
  unfold LibMetrics.advance
  split
  · rename_i conn kind todo isTodo
    exact invariant.withRender (underWay.read isTodo)
  · rename_i kind closedTodo isTodo isOpen
    refine invariant.withRender (underWay.load ?_ isTodo isOpen ?_)
    · exact (invariant.counted kind).trans_lt (invariant.fits kind)
    · exact settled isTodo kind (by simp [isOpen])
  · rename_i isTodo isOpen
    have loaded (kind : ConnCounter) : Loaded state render kind :=
      underWay.loaded kind (by simp [isOpen])
    refine ⟨invariant.fits, invariant.counted, invariant.loaded, invariant.left, ?_, ?_, nofun⟩
    · refine List.pairwise_append.mpr ⟨invariant.increasing, List.pairwise_singleton _ _, ?_⟩
      intro earlier isShown later isNew kind
      rw [List.mem_singleton.mp isNew]
      exact (loaded kind).lower earlier isShown
    · intro rendered member kind
      rcases List.mem_append.mp member with isShown | isNew
      · exact invariant.shown rendered isShown kind
      · rw [List.mem_singleton.mp isNew]
        exact (loaded kind).upper

theorem mem_registry : conn ∈ state.registry ↔ conn < state.size ∧ state.conn conn = .live := by
  simp [registry]

/-- A snapshot finds all that the connections that are being closed do not owe. -/
theorem value_le_snapshot {order : List Nat} (permuted : order.Perm state.registry)
    (kind : ConnCounter) :
    state.value kind ≤
      state.closedTotal kind + (order.map (state.counter kind)).sum +
      ∑ conn ∈ state.closing, state.debt kind conn := by
  have nodup : order.Nodup := permuted.nodup_iff.mpr (List.nodup_range.filter _)
  have inOrder
      {conn : Nat} :
      conn ∈ order.toFinset ↔ conn < state.size ∧ state.conn conn = .live := by
    rw [List.mem_toFinset, permuted.mem_iff, mem_registry]
  have counters : ∀ conn ∈ order.toFinset, state.debt kind conn = state.counter kind conn := by
    intro conn member
    rw [debt, (inOrder.mp member).2]
    rfl
  have others : ∑ conn ∈ Finset.range state.size
          with ¬ (state.conn conn).isClosing = true, state.debt kind conn ≤
        ∑ conn ∈ order.toFinset, state.debt kind conn := by
    refine Finset.sum_le_sum_of_ne_zero ?_
    intro conn member hasDebt
    obtain ⟨inside, notClosing⟩ := Finset.mem_filter.mp member
    refine inOrder.mpr ⟨Finset.mem_range.mp inside, ?_⟩
    cases phase : state.conn conn with
    | live => rfl
    | closing loaded left =>
      rw [phase] at notClosing
      exact absurd rfl notClosing
    | closed =>
      refine absurd ?_ hasDebt
      rw [debt, phase]
      rfl
  rw [Finset.sum_congr rfl counters, List.sum_toFinset _ nodup] at others
  have parts :=
    Finset.sum_filter_add_sum_filter_not (Finset.range state.size)
      (fun conn => (state.conn conn).isClosing = true)
      (state.debt kind)
  unfold value closing
  omega

theorem unread_flatMap (order : List Nat) (kind : ConnCounter) :
    ((order.flatMap fun conn => ConnCounter.all.map (conn, ·)).filter
      fun entry => entry.2 = kind).map Prod.fst = order := by
  induction order with
  | nil => rfl
  | cons conn rest inductionHypothesis =>
    have first : ((ConnCounter.all.map (conn, ·)).filter
            fun entry => entry.2 = kind).map Prod.fst = [conn] := by
      cases kind <;> rfl
    rw [List.flatMap_cons, List.filter_append, List.map_append, first, inductionHypothesis]
    rfl

/-- A snapshot of the registry. -/
theorem Invariant.beginRender {order : List Nat} (invariant : state.Invariant)
    (permuted : order.Perm state.registry) : (state.beginRender order).Invariant := by
  refine invariant.withRender ⟨?_, ?_, ?_, ?_, ?_⟩
  · exact permuted.nodup_iff.mpr (List.nodup_range.filter _)
  · exact (by decide : ConnCounter.all.Nodup)
  · intro conn member
    exact Finset.mem_range.mp (Finset.mem_filter.mp member).1
  · intro kind _
    have all := unread_flatMap order kind
    refine ⟨?_, ⟨[], ?_, Nat.le_refl 0⟩, ?_⟩
    · intro conn member
      obtain ⟨inside, isLive⟩ := mem_registry.mp (permuted.mem_iff.mp member)
      exact ⟨inside, by rw [isLive]; rfl⟩
    · exact all.symm
    · intro rendered isShown
      rw [unread, all]
      exact (invariant.shown rendered isShown kind).trans (value_le_snapshot permuted kind)
  · intro kind notOpen
    exact absurd kind.mem_all notOpen

/-- An undisturbed step keeps the invariant. -/
theorem Invariant.step {action : MetricsAction} (invariant : state.Invariant)
    (undisturbed : state.Undisturbed action) (stepped : state.step? action = some next) :
    next.Invariant := by
  cases action with
  | install =>
    cases stepped
    exact invariant.install
  | add kind conn amount =>
    rw [step?, Option.ite_none_right_eq_some] at stepped
    obtain ⟨_, added⟩ := stepped
    cases added
    exact invariant.add undisturbed.1 undisturbed.2
  | close conn =>
    rw [step?, Option.ite_none_right_eq_some] at stepped
    exact invariant.close stepped.1 undisturbed stepped.2
  | snapshot order =>
    rw [step?, Option.ite_none_right_eq_some] at stepped
    obtain ⟨⟨_, permuted⟩, begun⟩ := stepped
    cases begun
    exact invariant.beginRender permuted
  | render =>
    obtain ⟨render, isRender, advanced⟩ := Option.map_eq_some_iff.mp stepped
    rw [← advanced]
    exact invariant.advance isRender undisturbed

theorem invariant_initial : initial.Invariant where
  fits := fun _ => Nat.two_pow_pos 64
  counted := fun _ => Nat.le_refl 0
  loaded := nofun
  left := nofun
  increasing := List.Pairwise.nil
  shown := nofun
  render := nofun

theorem Invariant.sound (invariant : state.Invariant) : state.Sound := by
  refine ⟨invariant.increasing, ?_⟩
  intro rendered member kind
  exact (invariant.shown rendered member kind).trans (invariant.counted kind)

end Steps

/--
As long as `close` and the render do not meet, every value that is rendered is at
least the one before it and at most the sum of the updates so far, for each of the
counters.
-/
theorem renders_sound_of_undisturbed
    (actions : List MetricsAction)
    (undisturbed : Along step? Undisturbed initial actions)
    (state : LibMetrics)
    (reached : ReachedBy step? initial actions state) :
    state.Sound := by
  obtain ⟨earlier, later, rfl, toState⟩ := reached
  have invariant : state.Invariant :=
    invariant_along invariant_initial
      (fun before now stepped => Invariant.step before now stepped)
      toState undisturbed.left
  exact invariant.sound

/-- A connection on which five bytes are sent. -/
def fiveBytes : List MetricsAction := [.install, .add .bytesSent 0 5]

/-- A render that nothing interrupts, with one connection in the registry. -/
def renderOne : List MetricsAction := .snapshot [0] :: List.replicate 9 .render

/-- A render that nothing interrupts, without connections in the registry. -/
def renderNone : List MetricsAction := .snapshot [] :: List.replicate 5 .render

/-- The values of a counter in all renders. -/
def shown (state : LibMetrics) (kind : ConnCounter) : List Nat :=
  state.rendered.map fun rendered => rendered.total kind

theorem Sound.pairwise_shown {state : LibMetrics} (sound : state.Sound) (kind : ConnCounter) :
    (state.shown kind).Pairwise (· ≤ ·) :=
  List.pairwise_map.mpr (sound.increasing.imp fun ordered => ordered kind)

/-- The connection is closed between two renders. -/
def closedBetween : List MetricsAction :=
  List.flatten [fiveBytes, renderOne, List.replicate 10 (.close 0), renderNone]

/-- It is closed when a render has read its counters and not yet the totals. -/
def closedWithin : List MetricsAction :=
  List.flatten
    [fiveBytes, [.snapshot [0]], List.replicate 4 .render,
      List.replicate 10 (.close 0), List.replicate 5 .render, renderNone]

/-- A render passes when it has left the registry and has not been added. -/
def renderedWithin : List MetricsAction :=
  List.flatten [fiveBytes, renderOne, [.close 0], renderNone]

/-- A connection that is closed between two renders is shown by both. -/
theorem renders_sound_of_close_between :
    ∃ final, run? step? initial closedBetween = some final ∧
      final.shown .bytesSent = [5, 5] ∧
      final.Sound := by
  obtain ⟨final, reached, values⟩ :=
    exists_reached_of_check step? initial closedBetween
      (fun state => state.shown .bytesSent = [5, 5])
      (by decide)
  exact ⟨final, reached, values, renders_sound_of_undisturbed closedBetween (by decide) final
      ⟨_, [], (List.append_nil _).symm, reached⟩⟩

/--
The connection is counted twice, and the next render shows less; or it is not
counted at all.
-/
theorem renders_unsound_of_close_within :
    (∃ final,
      run? step? initial closedWithin = some final ∧
      final.shown .bytesSent = [10, 5] ∧
      final.updates .bytesSent = 5 ∧
      ¬ final.Sound) ∧
      ∃ final,
        run? step? initial renderedWithin = some final ∧
        final.shown .bytesSent = [5, 0] ∧
        ¬ final.Sound := by
  constructor
  · obtain ⟨final, reached, values, updated⟩ :=
      exists_reached_of_check step? initial closedWithin
        (fun state => state.shown .bytesSent = [10, 5] ∧ state.updates .bytesSent = 5)
        (by decide)
    refine ⟨final, reached, values, updated, ?_⟩
    intro sound
    have ordered := sound.pairwise_shown .bytesSent
    rw [values] at ordered
    exact absurd ordered (by decide)
  · obtain ⟨final, reached, values⟩ :=
      exists_reached_of_check step? initial renderedWithin
        (fun state => state.shown .bytesSent = [5, 0])
        (by decide)
    refine ⟨final, reached, values, ?_⟩
    intro sound
    have ordered := sound.pairwise_shown .bytesSent
    rw [values] at ordered
    exact absurd ordered (by decide)

end LibMetrics

end SocksDirect
