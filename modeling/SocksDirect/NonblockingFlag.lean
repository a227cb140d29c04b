import SocksDirect.FdAliasing
import SocksDirect.PeerGone

namespace SocksDirect

open Function

/-!
# The cached `O_NONBLOCK` flag

`maybe_upgrade_to_shm` copies `O_NONBLOCK` of the descriptor into the field
`nonblocking` of the new `ShmConn`, and `shm_send` and `shm_recv` look at that
field only.  The hook `fcntl` of `src/lib/file_api.cpp` passes `F_SETFL` on to
the kernel and leaves the field alone.

The calls of the process come one after the other, as in `FdHooks`.
-/

variable {capacity : Capacity}

namespace ConnectionEnd

/--
Without `MSG_DONTWAIT` a call that does not return is made on a blocking
descriptor, and a call that fails with `EAGAIN` on a non-blocking one.
-/
structure Honours
    (connection : ConnectionEnd capacity)
    (nonblock : Bool) : Prop where
  sendWaits : ∀ buf flags, flags.dontWait = false →
      (∀ final result, ¬ connection.outbound.SendReturns buf flags final result) → nonblock = false
  sendAgain : ∀ buf flags final, flags.dontWait = false →
      connection.outbound.SendReturns buf flags final .again → nonblock = true
  recvWaits : ∀ hungUp n flags, flags.dontWait = false →
      (∀ final result, ¬ connection.inbound.RecvReturns hungUp n flags final result) →
      nonblock = false
  recvAgain : ∀ hungUp n flags final, flags.dontWait = false →
      connection.inbound.RecvReturns hungUp n flags final .again → nonblock = true

/--
Both directions are in states that their parties reach, no call is in progress,
and the field `nonblocking` is the mode of both.
-/
structure BetweenCalls (connection : ConnectionEnd capacity) : Prop where
  outbound : connection.outbound.Reachable
  inbound : connection.inbound.Reachable
  sender : connection.outbound.sender = .idle
  receiver : connection.inbound.receiver = .idle
  modes : connection.inbound.receiverNonblocking = connection.outbound.senderNonblocking

/-- The field `nonblocking` of the `ShmConn`. -/
def nonblocking (connection : ConnectionEnd capacity) : Bool :=
  connection.outbound.senderNonblocking

variable {connection : ConnectionEnd capacity}

section

variable (between : connection.BetweenCalls)

include between

theorem BetweenCalls.sendReady : ∃ start, connection.outbound.SendReady start := by
  obtain ⟨start, invariant⟩ := between.outbound.callInvariant
  exact ⟨start, invariant.sendReady between.sender⟩

theorem BetweenCalls.recvReady : ∃ start, connection.inbound.RecvReady start := by
  obtain ⟨start, invariant⟩ := between.inbound.callInvariant
  exact ⟨start, invariant.recvReady between.receiver⟩

theorem BetweenCalls.send_returns (nonblocking : connection.nonblocking = true) (buf : List UInt8)
    (flags : MsgFlags) :
    ∃ final result, connection.outbound.SendReturns buf flags final result := by
  obtain ⟨start, ready⟩ := between.sendReady
  by_cases fits : buf.length ≤ connection.outbound.ring.writable
  · obtain ⟨final, returns, _, _⟩ := ready.returns_all flags fits
    exact ⟨final, _, returns⟩
  · have gives : (connection.outbound.senderNonblocking || flags.dontWait) = true := by
      change connection.outbound.senderNonblocking = true at nonblocking
      rw [nonblocking, Bool.true_or]
    obtain ⟨final, returns, _, _⟩ := ready.returns_partial gives (Nat.lt_of_not_le fits)
    exact ⟨final, _, returns⟩

theorem BetweenCalls.send_not_again (blocking : connection.nonblocking = false) {buf : List UInt8}
    {flags : MsgFlags} (waits : flags.dontWait = false) (final : ShmChannel capacity) :
    ¬ connection.outbound.SendReturns buf flags final .again := by
  intro again
  obtain ⟨start, ready⟩ := between.sendReady
  by_cases fits : buf.length ≤ connection.outbound.ring.writable
  · obtain ⟨other, returns, _, _⟩ := ready.returns_all flags fits
    cases (again.unique returns).2
  · have mode : (connection.outbound.senderNonblocking || flags.dontWait) = false := by
      change connection.outbound.senderNonblocking = false at blocking
      rw [blocking, waits, Bool.false_or]
    exact ready.not_returns mode (Nat.lt_of_not_le fits) final .again again

/-- A receive on a connection whose field is set returns. -/
theorem BetweenCalls.recv_returns (nonblocking : connection.nonblocking = true) (hungUp : Bool)
    (n : Nat) (flags : MsgFlags) :
    ∃ final result, connection.inbound.RecvReturns hungUp n flags final result := by
  obtain ⟨start, ready⟩ := between.recvReady
  have gives : (connection.inbound.receiverNonblocking || flags.dontWait) = true := by
    rw [between.modes]
    change connection.outbound.senderNonblocking = true at nonblocking
    rw [nonblocking, Bool.true_or]
  rcases Nat.eq_zero_or_pos n with rfl | positive
  · exact ⟨_, _, ShmChannel.recvReturns_no_byte _ hungUp flags⟩
  cases peek : flags.peek with
  | true => exact ⟨_, _, ShmChannel.recvReturns_peek _ hungUp positive peek⟩
  | false =>
    by_cases empty : connection.inbound.ring.contents = []
    · cases closed : connection.inbound.ring.peerClosed with
      | true =>
        obtain ⟨final, returns, _, _⟩ := ready.returns_zero positive peek empty (.inl closed)
        exact ⟨final, _, returns⟩
      | false =>
        obtain ⟨final, returns, _, _⟩ := ready.returns_again positive peek empty closed gives hungUp
        exact ⟨final, _, returns⟩
    · obtain ⟨final, returns, _, _⟩ := ready.returns_data positive peek empty hungUp
      exact ⟨final, _, returns⟩

/-- A receive on a connection whose field is clear does not fail. -/
theorem BetweenCalls.recv_not_again (blocking : connection.nonblocking = false) {hungUp : Bool}
    {n : Nat} {flags : MsgFlags} (waits : flags.dontWait = false) (final : ShmChannel capacity) :
    ¬ connection.inbound.RecvReturns hungUp n flags final .again := by
  intro again
  obtain ⟨start, ready⟩ := between.recvReady
  have mode : (connection.inbound.receiverNonblocking || flags.dontWait) = false := by
    rw [between.modes]
    change connection.outbound.senderNonblocking = false at blocking
    rw [blocking, waits, Bool.false_or]
  rcases Nat.eq_zero_or_pos n with rfl | positive
  · cases (again.unique (ShmChannel.recvReturns_no_byte _ hungUp flags)).2
  cases peek : flags.peek with
  | true => cases (again.unique (ShmChannel.recvReturns_peek _ hungUp positive peek)).2
  | false =>
    by_cases empty : connection.inbound.ring.contents = []
    · cases closed : connection.inbound.ring.peerClosed with
      | true =>
        obtain ⟨other, returns, _, _⟩ := ready.returns_zero positive peek empty (.inl closed)
        cases (again.unique returns).2
      | false =>
        cases hungUp with
        | true =>
          obtain ⟨other, returns, _, _⟩ := ready.returns_zero positive peek empty (.inr ⟨mode, rfl⟩)
          cases (again.unique returns).2
        | false => exact ready.not_returns positive peek empty closed mode final .again again
    · obtain ⟨other, returns, _, _⟩ := ready.returns_data positive peek empty hungUp
      cases (again.unique returns).2

/-- The calls honour the field that they look at. -/
theorem BetweenCalls.honours : connection.Honours connection.nonblocking where
  sendWaits := by
    intro buf flags _ waits
    by_contra set
    obtain ⟨final, result, returns⟩ :=
      between.send_returns (Bool.eq_true_of_not_eq_false set) buf flags
    exact waits final result returns
  sendAgain := by
    intro buf flags final noFlag again
    by_contra clear
    exact between.send_not_again (Bool.eq_false_of_not_eq_true clear) noFlag final again
  recvWaits := by
    intro hungUp n flags _ waits
    by_contra set
    obtain ⟨final, result, returns⟩ :=
      between.recv_returns (Bool.eq_true_of_not_eq_false set) hungUp n flags
    exact waits final result returns
  recvAgain := by
    intro hungUp n flags final noFlag again
    by_contra clear
    exact between.recv_not_again (Bool.eq_false_of_not_eq_true clear) noFlag final again

end

/-- A connection after further steps of the parties of both directions. -/
def run? (connection : ConnectionEnd capacity) (outbound inbound : List ChannelAction) :
    Option (ConnectionEnd capacity) :=
  match
    Machine.run? ShmChannel.step? connection.outbound outbound,
    Machine.run? ShmChannel.step? connection.inbound inbound
  with
  | some outbound, some inbound => some ⟨outbound, inbound⟩
  | _, _ => none

theorem run?_eq_some {next : ConnectionEnd capacity} {outbound inbound : List ChannelAction}
    (reached : connection.run? outbound inbound = some next) :
    Machine.run? ShmChannel.step? connection.outbound outbound = some next.outbound ∧
      Machine.run? ShmChannel.step? connection.inbound inbound = some next.inbound := by
  unfold run? at reached
  split at reached
  · cases reached
    exact ⟨by assumption, by assumption⟩
  · cases reached

theorem BetweenCalls.run {next : ConnectionEnd capacity} {outbound inbound : List ChannelAction}
    (between : connection.BetweenCalls) (reached : connection.run? outbound inbound = some next)
    (sender : next.outbound.sender = .idle) (receiver : next.inbound.receiver = .idle) :
    next.BetweenCalls ∧ next.nonblocking = connection.nonblocking := by
  obtain ⟨reachedOut, reachedIn⟩ := run?_eq_some reached
  have modesOut := ShmChannel.sameModes_of_run reachedOut
  have modesIn := ShmChannel.sameModes_of_run reachedIn
  refine ⟨⟨between.outbound.run reachedOut, between.inbound.run reachedIn,
    sender, receiver, ?_⟩, modesOut.1⟩
  exact modesIn.2.trans (between.modes.trans modesOut.1.symm)

/-- With a flag that is not the field some use leads to a call that does not honour it. -/
theorem BetweenCalls.nonblocking_eq {nonblock : Bool} (between : connection.BetweenCalls)
    (honours : ∀ outbound inbound next, connection.run? outbound inbound = some next →
      next.outbound.sender = .idle → next.inbound.receiver = .idle → next.Honours nonblock) :
    connection.nonblocking = nonblock := by
  obtain ⟨start, ready⟩ := between.sendReady
  cases mode : connection.nonblocking with
  | false =>
    refine ((honours [] [] connection rfl between.sender
      between.receiver).sendWaits
      (List.replicate (connection.outbound.ring.writable + 1) 0)
      ⟨false, false⟩ rfl ?_).symm
    apply ready.not_returns
    · change connection.outbound.senderNonblocking = false at mode
      rw [mode, Bool.false_or]
    · rw [List.length_replicate]
      exact Nat.lt_succ_self _
  | true =>
    let whole : List UInt8 := List.replicate connection.outbound.ring.writable 0
    have length : whole.length = connection.outbound.ring.writable := List.length_replicate
    obtain ⟨full, returns, sends, readyFull⟩ :=
      ready.returns_all ⟨false, false⟩ (Nat.le_of_eq length)
    have noRoom : full.ring.writable = 0 := by
      have rest := sends.writable_eq ready.invariant readyFull.invariant
      rw [length] at rest
      exact rest.trans (Nat.sub_self _)
    have fullMode : (full.senderNonblocking || false) = true := by
      change connection.outbound.senderNonblocking = true at mode
      rw [sends.senderNonblocking, mode, Bool.or_false]
    obtain ⟨final, again, _, _⟩ :=
      readyFull.returns_partial
        (show (full.senderNonblocking || (MsgFlags.mk false false).dontWait) = true from fullMode)
        (show full.ring.writable < [(0 : UInt8)].length by rw [noRoom]; exact Nat.one_pos)
    rw [noRoom, if_neg (Nat.lt_irrefl 0)] at again
    obtain ⟨actions, reached⟩ := returns.exists_run
    have toFull : connection.run? actions [] = some ⟨full, connection.inbound⟩ := by
      simp only [run?, reached, Machine.run?_nil]
    exact ((honours actions [] _ toFull readyFull.sender
      between.receiver).sendAgain _ _ final rfl again).symm

end ConnectionEnd

/-- `O_NONBLOCK`. -/
def O_NONBLOCK : Int32 := 0x800

/-- Whether a flag is set. -/
def hasFlag (flags flag : Int32) : Bool := flags &&& flag != 0

/--
The segment that `try_attach` returns.  Steps that the peer has already taken with
it are taken after the upgrade here.
-/
structure AttachedSegment where
  outboundStart : UInt64
  inboundStart : UInt64
  outboundData : Nat → UInt8
  inboundData : Nat → UInt8
  outboundWake : UInt32
  inboundWake : UInt32
  peerNonblocking : Bool

/-- The connection of a segment and the field `nonblocking` that it gets. -/
def AttachedSegment.connection (segment : AttachedSegment) (capacity : Capacity)
    (nonblocking : Bool) : ConnectionEnd capacity where
  outbound :=
    .initial capacity segment.outboundStart segment.outboundData
      segment.outboundWake nonblocking segment.peerNonblocking
  inbound :=
    .initial capacity segment.inboundStart segment.inboundData
      segment.inboundWake segment.peerNonblocking nonblocking

theorem AttachedSegment.betweenCalls (segment : AttachedSegment) (nonblocking : Bool) :
    (segment.connection capacity nonblocking).BetweenCalls where
  outbound := ⟨_, _, _, _, _, [], rfl⟩
  inbound := ⟨_, _, _, _, _, [], rfl⟩
  sender := rfl
  receiver := rfl
  modes := rfl

/--
The tables of a process with `O_NONBLOCK` of every open file description and
the connections of the registry.
-/
structure FlaggedProcess (capacity : Capacity) where
  process : HookedProcess
  nonblock : Nat → Bool
  connection : Nat → ConnectionEnd capacity

/--
One call.  `transfer` stands for any number of data calls on a descriptor, with the
steps that the peer and the watchdog take meanwhile.
-/
inductive FlagCall where
  | socket (domain type : Int32) (result : Option Nat)
  | accept (result : Option Nat) (attached : Option AttachedSegment)
  | accept4 (flags : Int32) (result : Option Nat) (attached : Option AttachedSegment)
  | connect (fd : Nat) (ok : Bool) (attached : Option AttachedSegment)
  | setFlags (fd : Nat) (flags : Int32) (ok : Bool)
  | transfer (fd : Nat) (outbound inbound : List ChannelAction)

namespace FlaggedProcess

/-- A process with the library just loaded. -/
def initial (kernel : KernelFds) (nonblock : Nat → Bool)
    (connection : Nat → ConnectionEnd capacity) :
    FlaggedProcess capacity where
  process := .initial kernel
  nonblock := nonblock
  connection := connection

/-- The kernel gives a new description the flag that its call asks for. -/
def openedFlags (state : FlaggedProcess capacity) (flag : Bool) : Option Nat → Nat → Bool
  | none => state.nonblock
  | some _ => update state.nonblock state.process.kernel.nextDescription flag

/--
`maybe_upgrade_to_shm` sets `nonblocking` before it installs the connection
under the next number.
-/
def upgrade (state : FlaggedProcess capacity) (flag : Bool) :
    Option AttachedSegment → Nat → ConnectionEnd capacity
  | none => state.connection
  | some segment =>
    update state.connection state.process.registry.nextConn
      (segment.connection capacity flag)

/-- `socket`, whose type may carry `SOCK_NONBLOCK`. -/
def socket (state : FlaggedProcess capacity) (domain type : Int32)
    (result : Option Nat) : Option (FlaggedProcess capacity) :=
  (state.process.socket domain type result).map fun process =>
    { state with
      process := process
      nonblock := state.openedFlags (hasFlag type SOCK_NONBLOCK) result }

/-- The two accept hooks; `flag` is `O_NONBLOCK` of the new descriptor. -/
def acceptHook (state : FlaggedProcess capacity) (flag : Bool) (result : Option Nat)
    (attached : Option AttachedSegment) :
    Option (FlaggedProcess capacity) :=
  (state.process.acceptHook result attached.isSome).map fun process =>
    { process := process
      nonblock := state.openedFlags flag result
      connection :=
        if result = none then state.connection else state.upgrade flag attached }

/-- `accept`, whose descriptor does not inherit `O_NONBLOCK`. -/
def accept (state : FlaggedProcess capacity) (result : Option Nat)
    (attached : Option AttachedSegment) :
    Option (FlaggedProcess capacity) :=
  state.acceptHook false result attached

/-- `accept4`. -/
def accept4 (state : FlaggedProcess capacity) (flags : Int32) (result : Option Nat)
    (attached : Option AttachedSegment) :
    Option (FlaggedProcess capacity) :=
  state.acceptHook (hasFlag flags SOCK_NONBLOCK) result attached

/-- `connect`. -/
def connect (state : FlaggedProcess capacity) (fd : Nat) (ok : Bool)
    (attached : Option AttachedSegment) :
    Option (FlaggedProcess capacity) :=
  (state.process.connect fd ok attached.isSome).map fun process =>
    { state with
      process := process
      connection :=
        match ok, state.process.kernel.description fd with
        | true, some description => state.upgrade (state.nonblock description) attached
        | _, _ => state.connection }

/-- `fcntl` with `F_SETFL`, which the hook forwards. -/
def setFlags (state : FlaggedProcess capacity) (fd : Nat) (flags : Int32)
    (ok : Bool) : Option (FlaggedProcess capacity) :=
  if ok then
    (state.process.kernel.description fd).map fun description =>
      { state with
        nonblock := update state.nonblock description (hasFlag flags O_NONBLOCK) }
  else
    some state

/-- Calls on an upgraded descriptor, up to the return of the last one. -/
def transfer (state : FlaggedProcess capacity) (fd : Nat) (outbound inbound : List ChannelAction) :
    Option (FlaggedProcess capacity) :=
  match state.process.registry.lookup fd with
  | none => none
  | some conn =>
    match (state.connection conn).run? outbound inbound with
    | none => none
    | some next =>
      if next.outbound.sender = .idle ∧ next.inbound.receiver = .idle then
        some { state with connection := update state.connection conn next }
      else
        none

/-- One call of the process. -/
def step? (state : FlaggedProcess capacity) : FlagCall → Option (FlaggedProcess capacity)
  | .socket domain type result => state.socket domain type result
  | .accept result attached => state.accept result attached
  | .accept4 flags result attached => state.accept4 flags result attached
  | .connect fd ok attached => state.connect fd ok attached
  | .setFlags fd flags ok => state.setFlags fd flags ok
  | .transfer fd outbound inbound => state.transfer fd outbound inbound

/-- A descriptor that has been upgraded, and what it refers to. -/
structure Upgraded
    (state : FlaggedProcess capacity)
    (fd conn description : Nat) : Prop where
  found : state.process.registry.lookup fd = some conn
  isOpen : state.process.kernel.description fd = some description

/-- Every call on an upgraded descriptor honours its `O_NONBLOCK`. -/
def CallsHonour (state : FlaggedProcess capacity) : Prop :=
  ∀ fd conn description, state.Upgraded fd conn description →
    (state.connection conn).Honours (state.nonblock description)

/-- `transfer` as the step function of a machine of its own. -/
def transferStep? (state : FlaggedProcess capacity)
    (use : Nat × List ChannelAction × List ChannelAction) :
    Option (FlaggedProcess capacity) :=
  state.transfer use.1 use.2.1 use.2.2

/--
Every call on an upgraded descriptor honours its `O_NONBLOCK`, now and whatever
is sent and received before the call.
-/
def HonoursFlag (state : FlaggedProcess capacity) : Prop :=
  ∀ uses later, Machine.run? transferStep? state uses = some later → later.CallsHonour

/--
The condition on a call: `F_SETFL` keeps `O_NONBLOCK` of a description to which
an upgraded descriptor refers.
-/
def KeepsFlag (state : FlaggedProcess capacity) : FlagCall → Prop
  | .setFlags fd flags true =>
    ∀ other conn description, state.process.kernel.description fd = some description →
      state.Upgraded other conn description → hasFlag flags O_NONBLOCK = state.nonblock description
  | _ => True

/-- The field of every connection is the flag of its descriptor. -/
def FlagsAgree (state : FlaggedProcess capacity) : Prop :=
  ∀ fd conn description, state.Upgraded fd conn description →
    (state.connection conn).nonblocking = state.nonblock description

/-- An upgraded descriptor is open, and its connection is between two calls. -/
def Invariant (state : FlaggedProcess capacity) : Prop :=
  ∀ fd conn, state.process.registry.lookup fd = some conn →
    (∃ description, state.Upgraded fd conn description) ∧ (state.connection conn).BetweenCalls

section Steps

variable {state next : FlaggedProcess capacity} {fd conn description : Nat}

/-- A connection is as before, or has been used by its process and the peer. -/
inductive Used
    (connection : ConnectionEnd capacity) :
    ConnectionEnd capacity → Prop where
  | untouched : Used connection connection
  | used {next : ConnectionEnd capacity} {outbound inbound : List ChannelAction}
      (reached : connection.run? outbound inbound = some next)
      (sender : next.outbound.sender = .idle) (receiver : next.inbound.receiver = .idle) :
      Used connection next

theorem Used.betweenCalls {connection after : ConnectionEnd capacity} (used : Used connection after)
    (between : connection.BetweenCalls) :
    after.BetweenCalls ∧ after.nonblocking = connection.nonblocking := by
  cases used with
  | untouched => exact ⟨between, rfl⟩
  | used reached sender receiver => exact between.run reached sender receiver

/--
Where an upgraded descriptor of a state comes from: its connection is a new one
with the flag of the descriptor, or it was there before.
-/
inductive Origin
    (state next : FlaggedProcess capacity)
    (fd conn : Nat) : Prop where
  | new {description : Nat} (segment : AttachedSegment)
      (upgraded : next.Upgraded fd conn description)
      (made : next.connection conn = segment.connection capacity (next.nonblock description))
  | old {description : Nat} (before : state.Upgraded fd conn description)
      (upgraded : next.Upgraded fd conn description)
      (used : Used (state.connection conn) (next.connection conn))

/-- A call that leaves the two tables and the connections alone. -/
theorem origin_of_silent (invariant : state.Invariant)
    (kernel : next.process.kernel = state.process.kernel)
    (registry : next.process.registry = state.process.registry)
    (connection : next.connection = state.connection)
    (found : next.process.registry.lookup fd = some conn) :
    Origin state next fd conn := by
  rw [registry] at found
  obtain ⟨⟨description, before⟩, _⟩ := invariant fd conn found
  have after : next.Upgraded fd conn description := {
    found := by
      rw [registry]
      exact before.found
    isOpen := by
      rw [kernel]
      exact before.isOpen }
  refine .old before after ?_
  rw [connection]
  exact .untouched

variable {target : Nat}

theorem lookup_install {registry : ConnRegistry}
    (found : (registry.install target description).lookup fd = some conn) :
    fd = target ∧ conn = registry.nextConn ∨ fd ≠ target ∧ registry.lookup fd = some conn := by
  by_cases same : fd = target
  · subst same
    simp only [ConnRegistry.lookup, ConnRegistry.install,
      update_self, Option.map_some, Option.some.injEq] at found
    exact .inl ⟨rfl, found.symm⟩
  · rw [(registry.install_sameElsewhere target description).lookup_eq same] at found
    exact .inr ⟨same, found⟩

theorem upgrade_of_found (found : state.process.registry.lookup fd = some conn) (flag : Bool)
    (attached : Option AttachedSegment) :
    state.upgrade flag attached conn = state.connection conn := by
  cases attached with
  | none => rfl
  | some segment =>
    apply update_of_ne
    rintro rfl
    exact state.process.registry.lookup_ne_nextConn fd found

/-- A call that opens a descriptor and may upgrade it. -/
theorem origin_of_opened {flag : Bool} (attached : Option AttachedSegment)
    (invariant : state.Invariant)
    (effected : state.process.Effected next.process (.opened target attached.isSome))
    (nonblock : next.nonblock = update state.nonblock state.process.kernel.nextDescription flag)
    (connection : next.connection = state.upgrade flag attached)
    (found : next.process.registry.lookup fd = some conn) :
    Origin state next fd conn := by
  obtain ⟨opened, registry⟩ := effected
  obtain ⟨free, isNew, elsewhere⟩ := KernelFds.openNew?_spec opened
  have known
      (before : state.process.registry.lookup fd = some conn) :
      Origin state next fd conn := by
    obtain ⟨⟨description, upgraded⟩, _⟩ := invariant fd conn before
    have different : fd ≠ target := by
      rintro rfl
      rw [upgraded.isOpen] at free
      cases free
    refine .old upgraded ⟨found, ?_⟩ ?_
    · rw [elsewhere fd different]
      exact upgraded.isOpen
    · rw [connection, upgrade_of_found before]
      exact .untouched
  cases attached with
  | none =>
    rw [registry] at found
    exact known found
  | some segment =>
    have installed := found
    rw [registry] at installed
    rcases lookup_install installed with ⟨rfl, rfl⟩ | ⟨_, before⟩
    · refine .new segment ⟨found, isNew⟩ ?_
      rw [connection, nonblock, update_self]
      exact update_self ..
    · exact known before

/-- A call that upgrades an open descriptor. -/
theorem origin_of_upgraded (segment : AttachedSegment) (invariant : state.Invariant)
    (isOpen : state.process.kernel.description target = some description)
    (effected : state.process.Effected next.process (.upgraded target))
    (nonblock : next.nonblock = state.nonblock)
    (connection : next.connection = state.upgrade (state.nonblock description) (some segment))
    (found : next.process.registry.lookup fd = some conn) :
    Origin state next fd conn := by
  obtain ⟨kernel, other, sameOpen, registry⟩ := effected
  obtain rfl : description = other := by
    rw [isOpen] at sameOpen
    exact Option.some.inj sameOpen
  have installed := found
  rw [registry] at installed
  rcases lookup_install installed with ⟨rfl, rfl⟩ | ⟨_, before⟩
  · have stillOpen : next.process.kernel.description fd = some description := by
      rw [kernel]
      exact isOpen
    refine .new segment ⟨found, stillOpen⟩ ?_
    rw [connection, nonblock]
    exact update_self ..
  · obtain ⟨⟨old, upgraded⟩, _⟩ := invariant fd conn before
    refine .old upgraded ⟨found, ?_⟩ ?_
    · rw [kernel]
      exact upgraded.isOpen
    · rw [connection, upgrade_of_found before]
      exact .untouched

variable {attached : Option AttachedSegment}

theorem origin_of_acceptHook {flag : Bool} {result : Option Nat} (invariant : state.Invariant)
    (stepped : state.acceptHook flag result attached = some next)
    (found : next.process.registry.lookup fd = some conn) :
    Origin state next fd conn := by
  obtain ⟨process, accepted, rfl⟩ := Option.map_eq_some_iff.mp stepped
  cases result with
  | none =>
    cases accepted
    exact origin_of_silent invariant rfl rfl rfl found
  | some target =>
    exact origin_of_opened attached invariant
      (HookedProcess.acceptHook_effected accepted) rfl rfl found

/-- `connect`. -/
theorem origin_of_connect {ok : Bool} (invariant : state.Invariant)
    (stepped : state.connect target ok attached = some next)
    (found : next.process.registry.lookup fd = some conn) :
    Origin state next fd conn := by
  obtain ⟨process, connected, rfl⟩ := Option.map_eq_some_iff.mp stepped
  have effected := HookedProcess.connect_effected connected
  cases ok with
  | false => exact origin_of_silent invariant effected.1 effected.2 rfl found
  | true =>
    cases attached with
    | none =>
      refine origin_of_silent invariant effected.1 effected.2 ?_ found
      split <;> rfl
    | some segment =>
      have ⟨_, description, isOpen, _⟩ := effected
      refine origin_of_upgraded segment invariant isOpen effected rfl ?_ found
      simp only [isOpen]

variable {outbound inbound : List ChannelAction}

theorem transfer_eq_some
    (stepped : state.transfer fd outbound inbound = some next) :
    ∃ conn connection, state.process.registry.lookup fd = some conn ∧
        Used (state.connection conn) connection ∧ next = { state with
            connection := update state.connection conn connection } := by
  revert stepped
  fun_cases transfer with rintro ⟨⟩
  | case3 conn found connection reached idle =>
    exact ⟨conn, connection, found, .used reached idle.1 idle.2, rfl⟩

theorem origin_of_transfer (invariant : state.Invariant)
    (stepped : state.transfer target outbound inbound = some next)
    (found : next.process.registry.lookup fd = some conn) :
    Origin state next fd conn := by
  obtain ⟨other, connection, _, used, rfl⟩ := transfer_eq_some stepped
  obtain ⟨⟨description, before⟩, _⟩ := invariant fd conn found
  refine .old before ⟨before.found, before.isOpen⟩ ?_
  change Used (state.connection conn) (update state.connection other connection conn)
  by_cases same : conn = other
  · subst same
    rw [update_self]
    exact used
  · rw [update_of_ne same]
    exact .untouched

variable {call : FlagCall}

/-- Every upgraded descriptor after a call has one of the two origins. -/
theorem origin_of_step (invariant : state.Invariant) (stepped : state.step? call = some next)
    (found : next.process.registry.lookup fd = some conn) :
    Origin state next fd conn := by
  cases call with
  | socket domain type result =>
    obtain ⟨process, opened, rfl⟩ := Option.map_eq_some_iff.mp stepped
    have effected :=
      HookedProcess.effected_of_step
        (show state.process.step? (.socket domain type result) = some process from opened)
    cases result with
    | none => exact origin_of_silent invariant effected.1 effected.2 rfl found
    | some target => exact origin_of_opened none invariant effected rfl rfl found
  | accept | accept4 => exact origin_of_acceptHook invariant stepped found
  | connect target ok attached => exact origin_of_connect invariant stepped found
  | setFlags target flags ok =>
    cases ok with
    | false =>
      cases stepped
      exact origin_of_silent invariant rfl rfl rfl found
    | true =>
      obtain ⟨description, _, rfl⟩ := Option.map_eq_some_iff.mp stepped
      exact origin_of_silent invariant rfl rfl rfl found
  | transfer target outbound inbound => exact origin_of_transfer invariant stepped found

theorem Invariant.initially (kernel : KernelFds) (nonblock : Nat → Bool)
    (connection : Nat → ConnectionEnd capacity) :
    (initial kernel nonblock connection).Invariant := by
  intro fd conn found
  cases found

theorem Invariant.step (invariant : state.Invariant) (stepped : state.step? call = some next) :
    next.Invariant := by
  intro fd conn found
  rcases origin_of_step invariant stepped found with
    ⟨segment, upgraded, made⟩ | ⟨before, upgraded, used⟩
  · refine ⟨⟨_, upgraded⟩, ?_⟩
    rw [made]
    exact segment.betweenCalls _
  · refine ⟨⟨_, upgraded⟩, ?_⟩
    exact (used.betweenCalls (invariant fd conn before.found).2).1

/-- A call other than `F_SETFL` keeps the flags of old descriptions. -/
theorem nonblock_of_step (stepped : state.step? call = some next)
    (noSetFlags : ∀ target flags ok, call ≠ .setFlags target flags ok)
    (before : state.Upgraded fd conn description) :
    next.nonblock description = state.nonblock description := by
  have old : description ≠ state.process.kernel.nextDescription :=
    Nat.ne_of_lt (state.process.kernel.fresh fd description before.isOpen)
  have opened
      (flag : Bool)
      (result : Option Nat) :
      state.openedFlags flag result description = state.nonblock description := by
    cases result with
    | none => rfl
    | some target => exact update_of_ne old ..
  cases call with
  | socket | accept | accept4 =>
    obtain ⟨process, _, rfl⟩ := Option.map_eq_some_iff.mp stepped
    exact opened _ _
  | connect target ok attached =>
    obtain ⟨process, _, rfl⟩ := Option.map_eq_some_iff.mp stepped
    rfl
  | setFlags target flags ok => exact absurd rfl (noSetFlags target flags ok)
  | transfer target outbound inbound =>
    obtain ⟨_, _, _, _, rfl⟩ := transfer_eq_some stepped
    rfl

theorem FlagsAgree.step (agree : state.FlagsAgree) (invariant : state.Invariant)
    (stepped : state.step? call = some next)
    (noSetFlags : ∀ target flags ok, call ≠ .setFlags target flags ok) :
    next.FlagsAgree := by
  intro fd conn description upgraded
  rcases origin_of_step invariant stepped upgraded.found with
    ⟨segment, isNew, made⟩ | ⟨before, after, used⟩
  · obtain rfl := Option.some.inj (upgraded.isOpen.symm.trans isNew.isOpen)
    rw [made]
    rfl
  · obtain rfl := Option.some.inj (upgraded.isOpen.symm.trans after.isOpen)
    rw [nonblock_of_step stepped noSetFlags before,
      (used.betweenCalls (invariant fd conn before.found).2).2]
    exact agree fd conn _ before

/-- `F_SETFL` keeps fields and flags equal exactly if it keeps the flag of upgraded descriptors. -/
theorem FlagsAgree.setFlags_iff {flags : Int32} {ok : Bool} (agree : state.FlagsAgree)
    (stepped : state.setFlags target flags ok = some next) :
    next.FlagsAgree ↔ state.KeepsFlag (.setFlags target flags ok) := by
  cases ok with
  | false =>
    cases stepped
    exact ⟨fun _ => trivial, fun _ => agree⟩
  | true =>
    obtain ⟨changed, isOpen, rfl⟩ := Option.map_eq_some_iff.mp stepped
    constructor
    · intro after other conn description sameOpen upgraded
      obtain rfl := Option.some.inj (isOpen.symm.trans sameOpen)
      have now := after other conn changed ⟨upgraded.found, upgraded.isOpen⟩
      have before := agree other conn changed upgraded
      dsimp only at now
      rw [update_self] at now
      exact now.symm.trans before
    · intro keeps fd conn description upgraded
      have before : state.Upgraded fd conn description := ⟨upgraded.found, upgraded.isOpen⟩
      have field := agree fd conn description before
      change (state.connection conn).nonblocking =
        update state.nonblock changed (hasFlag flags O_NONBLOCK) description
      by_cases same : description = changed
      · subst same
        rw [update_self, field]
        exact (keeps fd conn description isOpen before).symm
      · rw [update_of_ne same]
        exact field

theorem FlagsAgree.step_iff (agree : state.FlagsAgree) (invariant : state.Invariant)
    (stepped : state.step? call = some next) :
    next.FlagsAgree ↔ state.KeepsFlag call := by
  cases call with
  | setFlags target flags ok => exact agree.setFlags_iff stepped
  | _ => exact ⟨fun _ => trivial, fun _ => agree.step invariant stepped (by intros; simp)⟩

theorem FlagsAgree.callsHonour (agree : state.FlagsAgree) (invariant : state.Invariant) :
    state.CallsHonour := by
  intro fd conn description upgraded
  rw [← agree fd conn description upgraded]
  exact (invariant fd conn upgraded.found).2.honours

/-- The descriptor's calls honour its flag if the process honours all flags. -/
theorem HonoursFlag.use (honours : state.HonoursFlag)
    (upgraded : state.Upgraded fd conn description)
    {connection : ConnectionEnd capacity}
    (reached : (state.connection conn).run? outbound inbound = some connection)
    (sender : connection.outbound.sender = .idle) (receiver : connection.inbound.receiver = .idle) :
    connection.Honours (state.nonblock description) := by
  let later : FlaggedProcess capacity :=
    { state with connection := update state.connection conn connection }
  have stepped : state.transferStep? (fd, outbound, inbound) = some later := by
    simp only [transferStep?, transfer, upgraded.found, reached, sender,
      receiver, and_self, if_true, later]
  have calls :=
    honours [(fd, outbound, inbound)] later
      (Machine.run?_cons_eq_some.mpr ⟨later, stepped, rfl⟩)
      fd conn description ⟨upgraded.found, upgraded.isOpen⟩
  have now : later.connection conn = connection := update_self ..
  rw [now] at calls
  exact calls

/-- The process honours the flags exactly if the fields are equal to them. -/
theorem Invariant.honoursFlag_iff (invariant : state.Invariant) :
    state.HonoursFlag ↔ state.FlagsAgree := by
  constructor
  · intro honours fd conn description upgraded
    apply (invariant fd conn upgraded.found).2.nonblocking_eq
    intro outbound inbound connection reached sender receiver
    exact honours.use upgraded reached sender receiver
  · intro agree uses later reached
    have kept : later.Invariant ∧ later.FlagsAgree := by
      refine @Machine.invariant_of_run _ _ transferStep?
        (fun state => state.Invariant ∧ state.FlagsAgree) _
        ⟨invariant, agree⟩ ?_ _ _ reached
      intro state use next before stepped
      have call : state.step? (.transfer use.1 use.2.1 use.2.2) = some next := stepped
      exact ⟨before.1.step call, before.2.step before.1 call (by intros; simp)⟩
    exact kept.2.callsHonour kept.1

end Steps

/--
In every run of calls from a process with the library just loaded, the calls on
upgraded descriptors honour the current `O_NONBLOCK` in every state exactly if
no `F_SETFL` changes `O_NONBLOCK` of a description to which an upgraded
descriptor refers.
-/
theorem honours_flag_iff_keeps_flag
    (kernel : KernelFds)
    (nonblock : Nat → Bool)
    (connection : Nat → ConnectionEnd capacity)
    {calls : List FlagCall}
    {final : FlaggedProcess capacity}
    (accepted : Machine.run? step? (initial kernel nonblock connection) calls = some final) :
    (∀ state,
      Machine.ReachedBy step? (initial kernel nonblock connection) calls state →
      state.HonoursFlag) ↔
      Machine.Along step? KeepsFlag (initial kernel nonblock connection) calls := by
  have invariant := Invariant.initially kernel nonblock connection
  refine Machine.forall_reachedBy_iff_along_of_invariant
    (fun before stepped => before.step stepped) ?_ invariant ?_ accepted
  · intro state call next before honours stepped
    rw [(before.step stepped).honoursFlag_iff]
    exact (before.honoursFlag_iff.mp honours).step_iff before stepped
  · rw [invariant.honoursFlag_iff]
    intro fd conn description upgraded
    cases upgraded.found

/-- A segment whose peer blocks. -/
private def freshSegment : AttachedSegment where
  outboundStart := 0
  inboundStart := 0
  outboundData := fun _ => 0
  inboundData := fun _ => 0
  outboundWake := 0
  inboundWake := 0
  peerNonblocking := false

/-- A process with the library just loaded and the standard descriptors. -/
private def startedProcess : FlaggedProcess .shmSegmentRing :=
  initial HookedProcess.standardFds (fun _ => false)
    (fun _ => freshSegment.connection .shmSegmentRing false)

/-- A blocking stream socket is opened and connected, and is upgraded. -/
private def connectedSocket : List FlagCall :=
  [.socket AF_INET SOCK_STREAM (some 3), .connect 3 true (some freshSegment)]

/-- A socket that is made non-blocking before it is connected. -/
theorem honours_flag_set_before_connect : ∃ final, Machine.run? step? startedProcess
      [.socket AF_INET SOCK_STREAM (some 3), .setFlags 3 O_NONBLOCK true,
      .connect 3 true (some freshSegment)] = some final ∧ ∀ state,
      Machine.ReachedBy step? startedProcess
      [.socket AF_INET SOCK_STREAM (some 3), .setFlags 3 O_NONBLOCK true,
      .connect 3 true (some freshSegment)] state → state.HonoursFlag := by
  refine ⟨_, rfl,
    (honours_flag_iff_keeps_flag HookedProcess.standardFds (fun _ => false) _ rfl).mpr ?_⟩
  refine ⟨trivial, ?_⟩
  rintro opened ⟨⟩
  refine ⟨?_, ?_⟩
  · intro other conn description _ upgraded
    cases upgraded.found
  · intro changed _
    exact ⟨trivial, fun _ _ => trivial⟩

/--
A socket that is made non-blocking after it has been connected: `recv` of a
byte does not return, although `O_NONBLOCK` is set and no data is there.
-/
theorem recv_waits_on_nonblocking_descriptor :
    ∃ state,
      Machine.run? step? startedProcess (connectedSocket ++ [.setFlags 3 O_NONBLOCK true]) =
        some state ∧
      state.Upgraded 3 0 3 ∧
      state.nonblock 3 = true ∧
      ∀ final result, ¬ (state.connection 0).inbound.RecvReturns false 1 ⟨false, false⟩ final result := by
  obtain ⟨state, reached, found, isOpen, flag⟩ :=
    Machine.exists_reached_of_check step? startedProcess
      (connectedSocket ++ [.setFlags 3 O_NONBLOCK true])
      (fun state =>
        state.process.registry.lookup 3 = some 0 ∧ state.process.kernel.description 3 = some 3 ∧
          state.nonblock 3 = true ∧ (state.connection 0).inbound.ring.contents = [] ∧
          (state.connection 0).inbound.ring.peerClosed = false ∧
          (state.connection 0).inbound.receiverNonblocking = false)
      (by decide +kernel)
  have invariant : state.Invariant :=
    Machine.invariant_of_run
      (Invariant.initially HookedProcess.standardFds (fun _ => false)
        (fun _ => freshSegment.connection .shmSegmentRing false))
      (fun before stepped => before.step stepped) reached
  obtain ⟨flag, empty, isOpenRing, mode⟩ := flag
  obtain ⟨start, ready⟩ := (invariant 3 0 found).2.recvReady
  refine ⟨state, reached, ⟨found, isOpen⟩, flag, ?_⟩
  exact ready.not_returns Nat.one_pos rfl empty isOpenRing (by rw [mode]; rfl)

end FlaggedProcess

end SocksDirect
