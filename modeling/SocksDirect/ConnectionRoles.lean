import SocksDirect.KeyAgreement
import SocksDirect.MachineRun
import Mathlib.Logic.Function.Basic

namespace SocksDirect

open Function

/-!
# Connections that come and go

Any number of loopback connections live one after the other or at the same time.
Each end registers with the monitor through `try_attach`, and is closed by the
`close` hook or by the exit of its process.  A pair of endpoints is used again
only after both ends of the earlier connection are closed.

Neither the `close` hook nor a process exit sends anything to the monitor: no
code of the library issues `shm-unregister`, and `close_ctl_conn`, which runs
when a control connection hangs up, does not call `reap_pid`.  So a step that
closes an end leaves the registry alone.
-/

open ByteText

/-- The two ends of a connection. -/
inductive End where
  | connector
  | acceptor
  deriving Repr, DecidableEq

namespace End

/-- The other end. -/
def peer : End → End
  | connector => acceptor
  | acceptor => connector

@[simp] theorem peer_peer (side : End) : side.peer.peer = side := by
  cases side <;> rfl

@[simp] theorem peer_ne (side : End) : side.peer ≠ side := by
  cases side <;> decide

theorem eq_or_eq_peer (side other : End) : other = side ∨ other = side.peer := by
  cases side <;> cases other <;> decide

/-- A statement about both ends can be evaluated. -/
instance decidableForall {property : End → Prop} [DecidablePred property] :
    Decidable (∀ side, property side) :=
  decidable_of_iff (property .connector ∧ property .acceptor)
    ⟨fun both side => by cases side; exacts [both.1, both.2],
      fun all => ⟨all .connector, all .acceptor⟩⟩

/-- A statement about one of the ends can be evaluated. -/
instance decidableExists {property : End → Prop} [DecidablePred property] :
    Decidable (∃ side, property side) :=
  decidable_of_iff (property .connector ∨ property .acceptor)
    ⟨fun either => either.elim (⟨_, ·⟩) (⟨_, ·⟩),
      fun ⟨side, holds⟩ => by cases side; exacts [.inl holds, .inr holds]⟩

end End

/--
One connection: endpoint and process of each end, what `try_attach` of that end
was told (`some none` if the request failed), and which ends are closed.
-/
structure Connection where
  endpoint : End → Text
  pid : End → Int32
  told : End → Option (Option (UInt64 × Bool))
  closed : End → Bool

namespace Connection

/-- The pair under which the monitor knows the connection. -/
def pair (connection : Connection) : ConnId :=
  ConnId.make (connection.endpoint .connector) (connection.endpoint .acceptor)

/-- Both ends have registered. -/
def Registered (connection : Connection) : Prop := ∀ side, (connection.told side).isSome

/-- Both ends are closed. -/
def Finished (connection : Connection) : Prop := ∀ side, connection.closed side = true

instance (connection : Connection) : Decidable connection.Registered := End.decidableForall

instance (connection : Connection) : Decidable connection.Finished := End.decidableForall

/-- The `is_creator` that an end was told. -/
def isCreator? (connection : Connection) (side : End) : Option Bool :=
  (connection.told side).join.map Prod.snd

/-- One end was told to create the segment and the other one to join it. -/
def OppositeRoles (connection : Connection) : Prop :=
  ∃ side, connection.isCreator? side = some true ∧ connection.isCreator? side.peer = some false

instance (connection : Connection) : Decidable connection.OppositeRoles := End.decidableExists

/-- `is_loopback` in `try_attach`. -/
def isLoopback (ep : Text) : Bool :=
  ep.take 10 = ascii "127.0.0.1:" || ep.take 10 = ascii "127.0.0.0:"

/--
The conversation of `try_attach` with the monitor, which makes no request for an
endpoint that is not on the loopback.
-/
def tryAttach (rng : RandomStream) (otherOp : MonitorIpc.CtlRequest → MonitorIpc.CtlResponse)
    (registry : ShmHandshakeRegistry) (connection : Connection)
    (side : End) : ShmHandshakeRegistry × Option (UInt64 × Bool) :=
  if isLoopback (connection.endpoint side) && isLoopback (connection.endpoint side.peer) then
    KeyRequest.requestKeyFromMonitor rng otherOp registry
      (connection.endpoint side) (connection.endpoint side.peer)
      (connection.pid side)
  else
    (registry, none)

/--
A loopback connection of two processes; `format_endpoint` writes into a buffer
of 64 bytes.
-/
def Loopback (connection : Connection) : Prop :=
  ∀ side, isLoopback (connection.endpoint side) = true ∧ (connection.endpoint side).length < 64 ∧
      0 < connection.pid side

instance (connection : Connection) : Decidable connection.Loopback := End.decidableForall

end Connection

/-- The monitor's registry and all connections so far, in order of opening. -/
structure ConnectionHistory where
  registry : ShmHandshakeRegistry
  opened : Nat
  connection : Nat → Connection

/-- What can happen to the connections. -/
inductive ConnectionAction where
  | connect (endpoint : End → Text) (pid : End → Int32)
  | attach (n : Nat) (side : End)
  | close (n : Nat) (side : End)
  | exit (pid : Int32)

namespace ConnectionHistory

/-- A fresh monitor and no connection. -/
def initial : ConnectionHistory where
  registry := .empty
  opened := 0
  connection := fun _ =>
    { endpoint := fun _ => []
      pid := fun _ => 0
      told := fun _ => none
      closed := fun _ => false }

/-- A connection on this pair may be opened. -/
def PairFree (history : ConnectionHistory) (id : ConnId) : Prop :=
  ∀ n < history.opened, (history.connection n).pair = id → (history.connection n).Finished

instance (history : ConnectionHistory) (id : ConnId) : Decidable (history.PairFree id) :=
  Nat.decidableBallLT _ _

/-- Every end of the process has registered. -/
def AllRegistered (history : ConnectionHistory) (pid : Int32) : Prop :=
  ∀ n < history.opened, ∀ side, (history.connection n).pid side = pid →
    ((history.connection n).told side).isSome

instance (history : ConnectionHistory) (pid : Int32) : Decidable (history.AllRegistered pid) :=
  Nat.decidableBallLT _ _

/-- The state after one end has been told its role. -/
def tell (history : ConnectionHistory) (registry : ShmHandshakeRegistry) (n : Nat) (side : End)
    (result : Option (UInt64 × Bool)) : ConnectionHistory :=
  { history with
    registry := registry
    connection :=
      update history.connection n
        { history.connection n with
          told := update (history.connection n).told side (some result) } }

/-- One step; an end is closed only after it has registered. -/
def step? (rng : RandomStream) (otherOp : MonitorIpc.CtlRequest → MonitorIpc.CtlResponse)
    (history : ConnectionHistory) :
    ConnectionAction → Option ConnectionHistory
  | .connect endpoint pid =>
    let connection : Connection :=
      { endpoint := endpoint, pid := pid, told := fun _ => none, closed := fun _ => false }
    if connection.Loopback ∧ history.PairFree connection.pair then
      some
        { history with
          opened := history.opened + 1
          connection := update history.connection history.opened connection }
    else
      none
  | .attach n side =>
    let connection := history.connection n
    if n < history.opened ∧ connection.told side = none then
      let (registry, result) := connection.tryAttach rng otherOp history.registry side
      some (history.tell registry n side result)
    else
      none
  | .close n side =>
    let connection := history.connection n
    if n < history.opened ∧ (connection.told side).isSome then
      some
        { history with
          connection :=
            update history.connection n
              { connection with closed := update connection.closed side true } }
    else
      none
  | .exit pid =>
    if history.AllRegistered pid then
      some
        { history with
          connection := fun n =>
            { history.connection n with
              closed := fun side =>
                (history.connection n).closed side || (history.connection n).pid side = pid } }
    else
      none

/-- What the registry and the connections have in common in every state. -/
structure Invariant (history : ConnectionHistory) : Prop where
  loopback : ∀ n < history.opened, (history.connection n).Loopback
  closedTold : ∀ n < history.opened, ∀ side, (history.connection n).closed side = true →
      ((history.connection n).told side).isSome
  finishedBefore : ∀ n < history.opened, ∀ earlier < n,
      (history.connection earlier).pair = (history.connection n).pair →
      (history.connection earlier).Finished
  keyNonzero : ∀ (id : ConnId) (entry : HandshakeEntry), history.registry.active[id]? = some entry →
      entry.key ≠ 0
  toldPresent : ∀ n < history.opened, ∀ side, ((history.connection n).told side).isSome →
      history.registry.active[(history.connection n).pair]?.isSome
  presentTold : ∀ id : ConnId, history.registry.active[id]?.isSome → ∃ n < history.opened, ∃ side,
        (history.connection n).pair = id ∧ ((history.connection n).told side).isSome
  laterJoins : ∀ n < history.opened, ∀ earlier < n,
      (history.connection earlier).pair = (history.connection n).pair →
      ∀ side, ((history.connection n).told side).isSome →
        (history.connection n).isCreator? side = some false
  firstCreates : ∀ n < history.opened,
      (∀ earlier < n, (history.connection earlier).pair ≠ (history.connection n).pair) →
      (∀ side, (history.connection n).told side = none) ∨ ∃ side,
          (history.connection n).isCreator? side = some true ∧
            ((history.connection n).told side.peer = none ∨
              (history.connection n).isCreator? side.peer = some false)

variable {rng : RandomStream} {otherOp : MonitorIpc.CtlRequest → MonitorIpc.CtlResponse}
variable {history : ConnectionHistory}

/-- Without connections there is nothing to show. -/
theorem Invariant.initially : Invariant initial where
  loopback := by
    intro n bound
    exact absurd bound (Nat.not_lt_zero n)
  closedTold := by
    intro n bound
    exact absurd bound (Nat.not_lt_zero n)
  finishedBefore := by
    intro n bound
    exact absurd bound (Nat.not_lt_zero n)
  keyNonzero := by
    intro id entry present
    simp [initial, ShmHandshakeRegistry.empty] at present
  toldPresent := by
    intro n bound
    exact absurd bound (Nat.not_lt_zero n)
  presentTold := by
    intro id present
    simp [initial, ShmHandshakeRegistry.empty] at present
  laterJoins := by
    intro n bound
    exact absurd bound (Nat.not_lt_zero n)
  firstCreates := by
    intro n bound
    exact absurd bound (Nat.not_lt_zero n)

/-- Some ends are closed that have registered; everything else stays. -/
structure Closing (before after : ConnectionHistory) : Prop where
  registry : after.registry = before.registry
  opened : after.opened = before.opened
  endpoint : ∀ n, (after.connection n).endpoint = (before.connection n).endpoint
  pid : ∀ n, (after.connection n).pid = (before.connection n).pid
  told : ∀ n, (after.connection n).told = (before.connection n).told
  kept :
    ∀ n side, (before.connection n).closed side = true → (after.connection n).closed side = true
  registered : ∀ n < before.opened, ∀ side, (after.connection n).closed side = true →
      (before.connection n).closed side = true ∨ ((before.connection n).told side).isSome

variable {n : Nat} {side : End}

/-- The `close` hook closes one end. -/
private theorem closing_of_close (isTold : ((history.connection n).told side).isSome) :
    Closing history
      { history with
        connection :=
          update history.connection n
            { history.connection n with
              closed := update (history.connection n).closed side true } } := by
  constructor
  case registry | opened => rfl
  case endpoint | pid | told =>
    intro m
    by_cases here : m = n
    · subst here
      simp
    · simp [update_of_ne here]
  case kept =>
    intro m other closed
    by_cases here : m = n
    · subst here
      by_cases same : other = side
      · simp [same]
      · simp [update_of_ne same, closed]
    · simp [update_of_ne here, closed]
  case registered =>
    intro m _ other closed
    by_cases here : m = n
    · subst here
      by_cases same : other = side
      · subst same
        exact .inr isTold
      · simp only [update_self, update_of_ne same] at closed
        exact .inl closed
    · simp only [update_of_ne here] at closed
      exact .inl closed

/-- A process that exits closes its ends and changes nothing else. -/
private theorem closing_of_exit {pid : Int32} (allTold : history.AllRegistered pid) :
    Closing history
      { history with
        connection := fun n =>
          { history.connection n with
            closed := fun side =>
              (history.connection n).closed side || (history.connection n).pid side = pid } } := by
  constructor
  case registry | opened => rfl
  case endpoint | pid | told =>
    intro n
    rfl
  case kept =>
    intro n side closed
    simp [closed]
  case registered =>
    intro n bound side closed
    simp only [Bool.or_eq_true, decide_eq_true_eq] at closed
    rcases closed with before | ofProcess
    · exact .inl before
    · exact .inr (allTold n bound side ofProcess)

/-- Closing ends keeps the invariant. -/
theorem Invariant.closing {after : ConnectionHistory} (invariant : Invariant history)
    (closing : Closing history after) :
    Invariant after := by
  obtain ⟨registry, opened, endpoint, pid, told, kept, registered⟩ := closing
  have pair (n : Nat) : (after.connection n).pair = (history.connection n).pair := by
    rw [Connection.pair, Connection.pair, endpoint]
  have isCreator (n : Nat) (side : End) :
      (after.connection n).isCreator? side = (history.connection n).isCreator? side := by
    rw [Connection.isCreator?, Connection.isCreator?, told]
  constructor
  case loopback =>
    intro n bound side
    rw [endpoint, pid]
    exact invariant.loopback n (opened ▸ bound) side
  case closedTold =>
    intro n bound side closed
    rw [opened] at bound
    rw [told]
    rcases registered n bound side closed with before | alreadyTold
    · exact invariant.closedTold n bound side before
    · exact alreadyTold
  case finishedBefore =>
    intro n bound earlier order same side
    rw [pair, pair] at same
    exact kept earlier side (invariant.finishedBefore n (opened ▸ bound) earlier order same side)
  case keyNonzero =>
    rw [registry]
    exact invariant.keyNonzero
  case toldPresent =>
    intro n bound side isTold
    rw [told] at isTold
    rw [registry, pair]
    exact invariant.toldPresent n (opened ▸ bound) side isTold
  case presentTold =>
    intro id present
    rw [registry] at present
    obtain ⟨n, bound, side, same, isTold⟩ := invariant.presentTold id present
    refine ⟨n, opened ▸ bound, side, ?_, ?_⟩
    · rw [pair, same]
    · rwa [told]
  case laterJoins =>
    intro n bound earlier order same side isTold
    rw [pair, pair] at same
    rw [told] at isTold
    rw [isCreator]
    exact invariant.laterJoins n (opened ▸ bound) earlier order same side isTold
  case firstCreates =>
    intro n bound first
    simp only [pair] at first
    simp only [told, isCreator]
    exact invariant.firstCreates n (opened ▸ bound) first

/-- A new connection keeps the invariant. -/
theorem Invariant.connect {connection : Connection} (invariant : Invariant history)
    (loopback : connection.Loopback) (free : history.PairFree connection.pair)
    (untold : ∀ side, connection.told side = none)
    (unclosed : ∀ side, connection.closed side = false) :
    Invariant
      { history with
        opened := history.opened + 1
        connection := update history.connection history.opened connection } := by
  have earlierSame {n : Nat} (bound : n < history.opened) :
      update history.connection history.opened connection n = history.connection n :=
    update_of_ne (Nat.ne_of_lt bound) _ _
  have newest : update history.connection history.opened connection
          history.opened = connection :=
    update_self _ _ _
  have splits {n : Nat} (bound : n < history.opened + 1) :
      n < history.opened ∨ n = history.opened :=
    Nat.lt_succ_iff_lt_or_eq.mp bound
  constructor
  case loopback =>
    intro n bound
    rcases splits bound with old | rfl
    · simp only [earlierSame old]
      exact invariant.loopback n old
    · simp only [newest]
      exact loopback
  case closedTold =>
    intro n bound side closed
    rcases splits bound with old | rfl
    · simp only [earlierSame old] at closed ⊢
      exact invariant.closedTold n old side closed
    · simp only [newest, unclosed] at closed
      cases closed
  case finishedBefore =>
    intro n bound earlier order same
    rcases splits bound with old | rfl
    · have older := Nat.lt_trans order old
      simp only [earlierSame old, earlierSame older] at same ⊢
      exact invariant.finishedBefore n old earlier order same
    · simp only [newest, earlierSame order] at same ⊢
      exact free earlier order same
  case keyNonzero => exact invariant.keyNonzero
  case toldPresent =>
    intro n bound side isTold
    rcases splits bound with old | rfl
    · simp only [earlierSame old] at isTold ⊢
      exact invariant.toldPresent n old side isTold
    · simp only [newest, untold] at isTold
      cases isTold
  case presentTold =>
    intro id present
    obtain ⟨n, old, side, same, isTold⟩ := invariant.presentTold id present
    refine ⟨n, Nat.lt_succ_of_lt old, side, ?_, ?_⟩
    · simp only [earlierSame old, same]
    · simp only [earlierSame old, isTold]
  case laterJoins =>
    intro n bound earlier order same side isTold
    rcases splits bound with old | rfl
    · have older := Nat.lt_trans order old
      simp only [earlierSame old, earlierSame older] at same isTold ⊢
      exact invariant.laterJoins n old earlier order same side isTold
    · simp only [newest, untold] at isTold
      cases isTold
  case firstCreates =>
    intro n bound first
    rcases splits bound with old | rfl
    · have firstBefore :
          ∀ earlier < n, (history.connection earlier).pair ≠ (history.connection n).pair := by
        intro earlier order
        have different := first earlier order
        simpa only [earlierSame old, earlierSame (Nat.lt_trans order old)] using different
      simp only [earlierSame old]
      exact invariant.firstCreates n old firstBefore
    · left
      simp only [newest]
      exact untold

/--
What a registration does: the first one for a pair creates its entry, every
further one joins, and no other pair is touched.
-/
structure RegistersPair
    (before after : ShmHandshakeRegistry)
    (id : ConnId)
    (isCreator : Bool) : Prop where
  others : ∀ other : ConnId, other ≠ id → after.active[other]? = before.active[other]?
  present : ∃ entry : HandshakeEntry, after.active[id]? = some entry ∧ entry.key ≠ 0
  creates : isCreator = true → before.active[id]? = none
  joins : isCreator = false → before.active[id]?.isSome

variable {registry : ShmHandshakeRegistry}

/-- `try_attach` on a loopback connection is told a role. -/
theorem tryAttach_registersPair {connection : Connection} (loopback : connection.Loopback)
    (keyNonzero :
      ∀ (id : ConnId) (entry : HandshakeEntry), registry.active[id]? = some entry → entry.key ≠ 0)
    (side : End) :
    ∃ key isCreator, (connection.tryAttach rng otherOp registry side).2 = some (key, isCreator) ∧
      RegistersPair registry
      (connection.tryAttach rng otherOp registry side).1
      connection.pair isCreator := by
  obtain ⟨isLoop, short, positive⟩ := loopback side
  obtain ⟨isLoopPeer, shortPeer, -⟩ := loopback side.peer
  have carried := KeyRequest.carried_of_length_lt (connection.pid side) short shortPeer
  have pair :
      connection.pair = ConnId.make (connection.endpoint side) (connection.endpoint side.peer) := by
    cases side with
    | connector => rfl
    | acceptor => exact ConnId.make_comm _ _
  have requested : connection.tryAttach rng otherOp registry side =
        KeyRequest.requestKeyFromMonitor rng otherOp registry
          (connection.endpoint side) (connection.endpoint side.peer)
          (connection.pid side) := by
    rw [Connection.tryAttach, isLoop, isLoopPeer]
    rfl
  have others (other : ConnId) (different : other ≠ connection.pair) :
      (connection.tryAttach rng otherOp registry side).1.active[other]? =
        registry.active[other]? := by
    rw [pair] at different
    rw [requested, KeyRequest.requestKeyFromMonitor_eq rng otherOp registry positive carried]
    exact ShmHandshakeRegistry.registerEndpoint_other rng registry different _
  rw [pair] at others ⊢
  rw [requested] at others ⊢
  cases found :
      registry.active[ConnId.make (connection.endpoint side) (connection.endpoint side.peer)]? with
  | none =>
    obtain ⟨key, nonzero, result, entry⟩ :=
      KeyRequest.requestKeyFromMonitor_first rng otherOp found positive carried
    exact ⟨key, true, result,
      { others := others
        present := ⟨_, entry, nonzero⟩
        creates := fun _ => found
        joins := fun absurdity => nomatch absurdity }⟩
  | some entry =>
    have nonzero := keyNonzero _ entry found
    obtain ⟨result, joined⟩ :=
      KeyRequest.requestKeyFromMonitor_again rng otherOp found nonzero positive carried
    refine ⟨entry.key, false, result,
      { others := others
        present := ⟨_, joined, ?_⟩
        creates := fun absurdity => nomatch absurdity
        joins := fun _ => ?_ }⟩
    · split
      · exact nonzero
      · exact nonzero
    · rw [found]
      rfl

section Tell

variable (registry : ShmHandshakeRegistry) (n : Nat) (side : End) (result : Option (UInt64 × Bool))

theorem tell_told
    (m : Nat)
    (other : End) :
    ((history.tell registry n side result).connection m).told other =
      if m = n ∧ other = side then some result else (history.connection m).told other := by
  by_cases same : m = n
  · subst same
    simp [tell, update_apply]
  · simp [tell, same]

/-- Telling an end its role changes nothing else of any connection. -/
theorem tell_field {α : Type} {field : Connection → α}
    (untouched : ∀ connection told, field { connection with told := told } = field connection)
    (m : Nat) : field ((history.tell registry n side result).connection m) =
      field (history.connection m) := by
  by_cases same : m = n
  · subst same
    simp [tell, untouched]
  · simp [tell, update_of_ne same]

@[simp] theorem tell_endpoint (m : Nat) :
    ((history.tell registry n side result).connection m).endpoint =
      (history.connection m).endpoint :=
  tell_field registry n side result (fun _ _ => rfl) m

@[simp] theorem tell_pid (m : Nat) :
    ((history.tell registry n side result).connection m).pid = (history.connection m).pid :=
  tell_field registry n side result (fun _ _ => rfl) m

@[simp] theorem tell_closed (m : Nat) :
    ((history.tell registry n side result).connection m).closed = (history.connection m).closed :=
  tell_field registry n side result (fun _ _ => rfl) m

@[simp] theorem tell_pair (m : Nat) :
    ((history.tell registry n side result).connection m).pair = (history.connection m).pair := by
  rw [Connection.pair, tell_endpoint]
  rfl

theorem tell_isCreator?
    (m : Nat)
    (other : End) :
    ((history.tell registry n side result).connection m).isCreator? other =
      if m = n ∧ other = side then result.map Prod.snd
      else (history.connection m).isCreator? other := by
  rw [Connection.isCreator?, tell_told]
  split <;> rfl

end Tell

/-- The end that creates the entry is the first that uses the pair. -/
theorem Invariant.untold_of_absent (invariant : Invariant history) {m : Nat}
    (bound : m < history.opened) (same : (history.connection m).pair = (history.connection n).pair)
    (absent : history.registry.active[(history.connection n).pair]? = none) (side : End) :
    (history.connection m).told side = none := by
  cases told : (history.connection m).told side with
  | none => rfl
  | some result =>
    have present := invariant.toldPresent m bound side (by rw [told]; rfl)
    rw [same, absent] at present
    cases present

/-- A pair that is registered before this end: by an earlier connection or by the other end. -/
theorem Invariant.peer_of_present (invariant : Invariant history) (bound : n < history.opened)
    (untold : (history.connection n).told side = none)
    (present : history.registry.active[(history.connection n).pair]?.isSome)
    (first : ∀ earlier < n, (history.connection earlier).pair ≠ (history.connection n).pair) :
    (history.connection n).isCreator? side.peer = some true := by
  obtain ⟨m, mBound, toldSide, same, isTold⟩ := invariant.presentTold _ present
  have isSame : m = n := by
    rcases Nat.lt_trichotomy m n with before | equal | after
    · exact absurd same (first m before)
    · exact equal
    · have finished := invariant.finishedBefore m mBound n after same.symm side
      have told := invariant.closedTold n bound side finished
      rw [untold] at told
      cases told
  subst isSame
  rcases invariant.firstCreates m bound first with none | some
  · rw [none toldSide] at isTold
    cases isTold
  · obtain ⟨creator, created, -⟩ := some
    rcases End.eq_or_eq_peer side creator with equal | equal
    · rw [equal, Connection.isCreator?, untold] at created
      cases created
    · rwa [equal] at created

variable {isCreator : Bool}

theorem Invariant.joins_of_earlier {earlier : Nat} (invariant : Invariant history)
    (bound : n < history.opened) (order : earlier < n)
    (same : (history.connection earlier).pair = (history.connection n).pair)
    (registers : RegistersPair history.registry registry (history.connection n).pair isCreator)
    (side : End) :
    isCreator = false := by
  cases isCreator with
  | false => rfl
  | true =>
    have older := Nat.lt_trans order bound
    have finished := invariant.finishedBefore n bound earlier order same side
    have told := invariant.closedTold earlier older side finished
    rw [invariant.untold_of_absent older same (registers.creates rfl) side] at told
    cases told

theorem Invariant.roles_of_first
    (invariant : Invariant history)
    (bound : n < history.opened)
    (untold : (history.connection n).told side = none)
    (registers : RegistersPair history.registry registry (history.connection n).pair isCreator)
    (first : ∀ earlier < n, (history.connection earlier).pair ≠ (history.connection n).pair) :
    isCreator = true ∧ (history.connection n).told side.peer = none ∨
    isCreator = false ∧ (history.connection n).isCreator? side.peer = some true := by
  cases isCreator with
  | true => exact .inl ⟨rfl, invariant.untold_of_absent bound rfl (registers.creates rfl) side.peer⟩
  | false => exact .inr ⟨rfl, invariant.peer_of_present bound untold (registers.joins rfl) first⟩

/-- Telling an end its role keeps the invariant. -/
theorem Invariant.tell
    {key : UInt64}
    (invariant : Invariant history)
    (bound : n < history.opened)
    (untold : (history.connection n).told side = none)
    (registers : RegistersPair history.registry registry (history.connection n).pair isCreator) :
    Invariant (history.tell registry n side (some (key, isCreator))) := by
  obtain ⟨entry, entryPresent, entryNonzero⟩ := registers.present
  have lookup (id : ConnId) : (history.tell registry n side
          (some (key, isCreator))).registry.active[id]? = if id = (history.connection n).pair then
          some entry
        else
          history.registry.active[id]? := by
    split
    · rename_i same
      rw [same]
      exact entryPresent
    · rename_i different
      exact registers.others id different
  constructor
  case loopback =>
    intro m mBound
    unfold Connection.Loopback
    simp only [tell_endpoint, tell_pid]
    exact invariant.loopback m mBound
  case closedTold =>
    intro m mBound other closed
    rw [tell_closed] at closed
    rw [tell_told]
    split
    · rfl
    · exact invariant.closedTold m mBound other closed
  case finishedBefore =>
    intro m mBound earlier order same
    simp only [tell_pair] at same
    unfold Connection.Finished
    simp only [tell_closed]
    exact invariant.finishedBefore m mBound earlier order same
  case keyNonzero =>
    intro id found present
    rw [lookup] at present
    split at present
    · cases present
      exact entryNonzero
    · exact invariant.keyNonzero id found present
  case toldPresent =>
    intro m mBound other isTold
    rw [tell_pair, lookup]
    split
    · rfl
    · rename_i different
      rw [tell_told, if_neg] at isTold
      · exact invariant.toldPresent m mBound other isTold
      · rintro ⟨rfl, -⟩
        exact different rfl
  case presentTold =>
    intro id present
    rw [lookup] at present
    split at present
    · rename_i same
      refine ⟨n, bound, side, ?_, ?_⟩
      · rw [tell_pair, same]
      · rw [tell_told, if_pos ⟨rfl, rfl⟩]
        rfl
    · obtain ⟨m, mBound, other, same, isTold⟩ := invariant.presentTold id present
      refine ⟨m, mBound, other, ?_, ?_⟩
      · rw [tell_pair, same]
      · rw [tell_told]
        split
        · rfl
        · exact isTold
  case laterJoins =>
    intro m mBound earlier order same other isTold
    simp only [tell_pair] at same
    rw [tell_told] at isTold
    rw [tell_isCreator?]
    split
    · rename_i here
      obtain ⟨rfl, rfl⟩ := here
      rw [invariant.joins_of_earlier mBound order same registers other]
      rfl
    · rename_i elsewhere
      rw [if_neg elsewhere] at isTold
      exact invariant.laterJoins m mBound earlier order same other isTold
  case firstCreates =>
    intro m mBound first
    simp only [tell_pair] at first
    by_cases here : m = n
    · subst here
      have other : ¬ (m = m ∧ side.peer = side) := fun both => side.peer_ne both.2
      right
      rcases invariant.roles_of_first mBound untold registers first with
        ⟨rfl, peerUntold⟩ | ⟨rfl, peerCreates⟩
      · refine ⟨side, ?_, .inl ?_⟩
        · rw [tell_isCreator?, if_pos ⟨rfl, rfl⟩]
          rfl
        · rw [tell_told, if_neg other]
          exact peerUntold
      · refine ⟨side.peer, ?_, .inr ?_⟩
        · rw [tell_isCreator?, if_neg other]
          exact peerCreates
        · rw [End.peer_peer, tell_isCreator?, if_pos ⟨rfl, rfl⟩]
          rfl
    · simp only [tell_told, tell_isCreator?, here, false_and, if_false]
      exact invariant.firstCreates m mBound first

/-- Every step keeps the invariant. -/
theorem Invariant.step {action : ConnectionAction} {next : ConnectionHistory}
    (invariant : Invariant history) (stepped : step? rng otherOp history action = some next) :
    Invariant next := by
  cases action with
  | connect endpoint pid =>
    simp only [step?, Option.ite_none_right_eq_some, Option.some.injEq] at stepped
    obtain ⟨⟨loopback, free⟩, rfl⟩ := stepped
    exact invariant.connect loopback free (fun _ => rfl) (fun _ => rfl)
  | attach n side =>
    simp only [step?, Option.ite_none_right_eq_some, Option.some.injEq] at stepped
    obtain ⟨⟨bound, untold⟩, rfl⟩ := stepped
    obtain ⟨key, isCreator, result, registers⟩ :=
      tryAttach_registersPair (invariant.loopback n bound) invariant.keyNonzero side
    rw [result]
    exact invariant.tell bound untold registers
  | close n side =>
    simp only [step?, Option.ite_none_right_eq_some, Option.some.injEq] at stepped
    obtain ⟨⟨bound, isTold⟩, rfl⟩ := stepped
    exact invariant.closing (closing_of_close isTold)
  | exit pid =>
    simp only [step?, Option.ite_none_right_eq_some, Option.some.injEq] at stepped
    obtain ⟨allTold, rfl⟩ := stepped
    exact invariant.closing (closing_of_exit allTold)

theorem invariant_of_run {actions : List ConnectionAction} {final : ConnectionHistory}
    (accepted : Machine.run? (step? rng otherOp) initial actions = some final) :
    Invariant final :=
  Machine.invariant_of_run Invariant.initially
    (fun invariant stepped => invariant.step stepped) accepted

/-- The two ends of a registered connection. -/
theorem Invariant.oppositeRoles_iff (invariant : Invariant history) (bound : n < history.opened)
    (registered : (history.connection n).Registered) :
    (history.connection n).OppositeRoles ↔
      ∀ earlier < n, (history.connection earlier).pair ≠ (history.connection n).pair := by
  constructor
  · rintro ⟨side, creates, -⟩ earlier order same
    have joins := invariant.laterJoins n bound earlier order same side (registered side)
    rw [creates] at joins
    cases joins
  · intro first
    rcases invariant.firstCreates n bound first with untold | created
    · have told := registered .connector
      rw [untold] at told
      cases told
    · obtain ⟨side, creates, peer⟩ := created
      rcases peer with untold | joins
      · have told := registered side.peer
        rw [untold] at told
        cases told
      · exact ⟨side, creates, joins⟩

/--
In every state of every run: the two ends of every registered connection have
opposite roles exactly if none of these connections uses a pair of endpoints
that an earlier connection has used.
-/
theorem opposite_roles_iff_unused
    {actions : List ConnectionAction}
    {final : ConnectionHistory}
    (accepted : Machine.run? (step? rng otherOp) initial actions = some final) :
    (∀ n < final.opened, (final.connection n).Registered → (final.connection n).OppositeRoles) ↔
      ∀ n < final.opened,
        (final.connection n).Registered →
        ∀ earlier < n, (final.connection earlier).pair ≠ (final.connection n).pair := by
  have invariant := invariant_of_run accepted
  constructor
  · intro opposite n bound registered
    exact (invariant.oppositeRoles_iff bound registered).mp (opposite n bound registered)
  · intro unused n bound registered
    exact (invariant.oppositeRoles_iff bound registered).mpr (unused n bound registered)

theorem Connection.told_of_isCreator? {connection : Connection} {creator : Bool}
    (isTold : connection.isCreator? side = some creator) : (connection.told side).isSome := by
  cases told : connection.told side with
  | none => simp [Connection.isCreator?, told] at isTold
  | some => rfl

theorem Invariant.not_creator_later (invariant : Invariant history) (bound : n < history.opened)
    {earlier : Nat} (order : earlier < n)
    (samePair : (history.connection earlier).pair = (history.connection n).pair) :
    (history.connection n).isCreator? side ≠ some true := by
  intro creates
  have joins := invariant.laterJoins n bound earlier order samePair side
    (Connection.told_of_isCreator? creates)
  rw [creates] at joins
  cases joins

/--
In every state of every run: of all ends of all connections on a pair of
endpoints one at most has been told to create the segment, and the registry has
an entry for exactly the pairs of which some end has registered.
-/
theorem one_creator_per_pair
    {actions : List ConnectionAction}
    {final : ConnectionHistory}
    (accepted : Machine.run? (step? rng otherOp) initial actions = some final) :
    (∀ n < final.opened,
      ∀ m < final.opened,
        (final.connection n).pair = (final.connection m).pair →
        ∀ side other,
          (final.connection n).isCreator? side = some true →
          (final.connection m).isCreator? other = some true →
          n = m ∧ side = other) ∧
      ∀ id : ConnId,
        final.registry.active[id]?.isSome ↔
          ∃ n < final.opened,
            ∃ side, (final.connection n).pair = id ∧ ((final.connection n).told side).isSome := by
  have invariant := invariant_of_run accepted
  refine ⟨?_, ?_⟩
  · intro n bound m otherBound samePair side other creates alsoCreates
    obtain order | rfl | order := Nat.lt_trichotomy n m
    · exact absurd alsoCreates (invariant.not_creator_later otherBound order samePair)
    · refine ⟨rfl, ?_⟩
      have firstUse (earlier : Nat) (order : earlier < n)
          (same : (final.connection earlier).pair = (final.connection n).pair) : False :=
        invariant.not_creator_later bound order same creates
      rcases invariant.firstCreates n bound firstUse with untold | ⟨creator, -, peer⟩
      · have told := Connection.told_of_isCreator? creates
        rw [untold] at told
        cases told
      · have isCreator {end_ : End} (told : (final.connection n).isCreator? end_ = some true) :
            end_ = creator := by
          refine (creator.eq_or_eq_peer end_).resolve_right ?_
          rintro rfl
          rcases peer with untold | joins
          · exact absurd (Connection.told_of_isCreator? told) (by simp [untold])
          · rw [told] at joins
            cases joins
        rw [isCreator creates, isCreator alsoCreates]
    · exact absurd creates (invariant.not_creator_later bound order samePair.symm)
  · intro id
    refine ⟨invariant.presentTold id, ?_⟩
    rintro ⟨n, bound, side, rfl, told⟩
    exact invariant.toldPresent n bound side told

/-- A client and a server on the loopback. -/
def loopbackEndpoint : End → Text
  | .connector => ascii "127.0.0.1:40000"
  | .acceptor => ascii "127.0.0.1:80"

/-- The processes of the client and of the server. -/
def loopbackPid : End → Int32
  | .connector => 11
  | .acceptor => 12

/-- One whole connection between them, the `n`-th of the run, from a port of the client. -/
def connectionFrom (port : Text) (n : Nat) : List ConnectionAction :=
  [.connect (fun side => if side = .connector then port else loopbackEndpoint side) loopbackPid,
    .attach n .connector, .attach n .acceptor, .close n .connector, .close n .acceptor]

/-- One whole connection from the client's port 40000. -/
def wholeConnection (n : Nat) : List ConnectionAction :=
  connectionFrom (loopbackEndpoint .connector) n

/-- Two connections from different ports have one creator each. -/
theorem opposite_roles_two_ports :
    ∃ final,
      Machine.run? (step? KeyRequest.sevens fun _ => ⟨true, [], []⟩) initial
          (wholeConnection 0 ++ connectionFrom (ascii "127.0.0.1:40001") 1) =
        some final ∧
      final.opened = 2 ∧
      (∀ n < 2, (final.connection n).Registered) ∧
      ∀ n < 2, (final.connection n).OppositeRoles := by
  obtain ⟨final, accepted, two, first, second, apart⟩ :=
    Machine.exists_reached_of_check
      (step? KeyRequest.sevens fun _ => ⟨true, [], []⟩) initial
      (wholeConnection 0 ++ connectionFrom (ascii "127.0.0.1:40001") 1)
      (fun final =>
        final.opened = 2 ∧ (final.connection 0).Registered ∧ (final.connection 1).Registered ∧
          (final.connection 0).pair ≠ (final.connection 1).pair)
      (by decide +kernel)
  have registered : ∀ n < 2, (final.connection n).Registered
    | 0, _ => first
    | 1, _ => second
  have opposite := (opposite_roles_iff_unused accepted).mpr <| by
    intro n bound _ earlier order
    obtain ⟨rfl, rfl⟩ : n = 1 ∧ earlier = 0 := by omega
    exact apart
  refine ⟨final, accepted, two, registered, ?_⟩
  intro n bound
  exact opposite n (two ▸ bound) (registered n bound)

/--
The same port connects twice: the pair is registered, and as the connecting end
of the first connection creates the segment, no end of the second one does.
-/
theorem one_creator_per_pair_reused :
    ∃ final,
      Machine.run? (step? KeyRequest.sevens fun _ => ⟨true, [], []⟩) initial
          (wholeConnection 0 ++ wholeConnection 1) =
        some final ∧
      (final.connection 0).pair = (final.connection 1).pair ∧
      (final.connection 0).isCreator? .connector = some true ∧
      (∀ side, (final.connection 1).isCreator? side ≠ some true) ∧
      final.registry.active[(final.connection 1).pair]?.isSome := by
  obtain ⟨final, accepted, two, reused, creates, told⟩ :=
    Machine.exists_reached_of_check
      (step? KeyRequest.sevens fun _ => ⟨true, [], []⟩) initial
      (wholeConnection 0 ++ wholeConnection 1)
      (fun final =>
        final.opened = 2 ∧ (final.connection 0).pair = (final.connection 1).pair ∧
          (final.connection 0).isCreator? .connector = some true ∧
          ((final.connection 1).told .acceptor).isSome)
      (by decide +kernel)
  obtain ⟨atMostOne, entered⟩ := one_creator_per_pair accepted
  refine ⟨final, accepted, reused, creates, ?_, (entered _).mpr ?_⟩
  · intro side alsoCreates
    obtain ⟨same, -⟩ :=
      atMostOne 0 (by omega) 1 (by omega) reused .connector side creates alsoCreates
    cases same
  · exact ⟨1, by omega, .acceptor, rfl, told⟩

/--
When the same client port connects to the same server again, both ends are told
to join.
-/
theorem both_join_when_reused :
    ∃ final,
      Machine.run? (step? KeyRequest.sevens fun _ => ⟨true, [], []⟩) initial
          (wholeConnection 0 ++ wholeConnection 1) =
        some final ∧
      final.opened = 2 ∧
      (final.connection 1).Registered ∧
      (∀ side, (final.connection 1).isCreator? side = some false) ∧
      ¬ (final.connection 1).OppositeRoles :=
  Machine.exists_reached_of_check
    (step? KeyRequest.sevens fun _ => ⟨true, [], []⟩)
    initial (wholeConnection 0 ++ wholeConnection 1)
    (fun final =>
      final.opened = 2 ∧ (final.connection 1).Registered ∧
        (∀ side, (final.connection 1).isCreator? side = some false) ∧
        ¬ (final.connection 1).OppositeRoles)
    (by decide +kernel)

end ConnectionHistory

end SocksDirect
