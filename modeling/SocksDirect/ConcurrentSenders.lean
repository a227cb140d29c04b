import SocksDirect.SendmsgCalls

namespace SocksDirect

open Machine

/-!
# Threads of one process that send on one descriptor

`shm_send` holds the mutex `send_mu` of `src/lib/shm_conn.hpp` from its first
access to the ring until it returns.  `send` and `write` make one such call;
`sendmsg` makes one for every buffer that is not empty and holds the mutex in
none of its steps between them.  Here any number of threads send on one upgraded
descriptor, with steps of the receiver and of the closing parties in between.

In blocking mode the arguments of one `sendmsg` stand in their order, but the
bytes of another thread may stand between two of them.
-/

variable {capacity : Capacity}

/-- The hooks with which a thread sends on an upgraded descriptor. -/
inductive SendingHook where
  | send (buf : List UInt8) (flags : MsgFlags)
  | write (buf : List UInt8)
  | sendmsg (iov : List (List UInt8)) (flags : MsgFlags)
  deriving Repr, DecidableEq

namespace SendingHook

/-- The buffers of a call, in the order in which they are sent. -/
def iov : SendingHook → List (List UInt8)
  | .send buf _ => [buf]
  | .write buf => [buf]
  | .sendmsg iov _ => iov

/-- The flags with which `shm_send` is called. -/
def flags : SendingHook → MsgFlags
  | .send _ flags => flags
  | .write _ => ⟨false, false⟩
  | .sendmsg _ flags => flags

/-- All bytes of a call. -/
def bytes (hook : SendingHook) : List UInt8 := hook.iov.flatten

end SendingHook

/-- The buffers for which `shm_send` takes the mutex. -/
def lockingBuffers (iov : List (List UInt8)) : List (List UInt8) :=
  iov.filter fun buf => buf.length ≠ 0

/--
A call of some thread: `loop` is its loop over the buffers until it returns, and
`buf` the argument of the latest inner call.
-/
structure ThreadCall where
  thread : Nat
  hook : SendingHook
  loop : Option SendmsgCall
  buf : List UInt8
  deriving Repr, DecidableEq

namespace ThreadCall

/-- What a call still has to send, where `holds` says that it holds the mutex. -/
def left (call : ThreadCall) (holds : Bool) : List (List UInt8) :=
  match call.loop with
  | none => []
  | some loop =>
    if holds then call.buf :: lockingBuffers loop.iov else lockingBuffers loop.iov

end ThreadCall

/--
The threads of one process that send on one descriptor: all calls, the call that
holds the mutex, and the calls of `shm_send` that have returned.
-/
structure SendingProcess (capacity : Capacity) where
  channel : ShmChannel capacity
  calls : List ThreadCall
  sendMu : Option Nat
  published : List (Nat × List UInt8)

namespace SendingProcess

/-- The descriptor right after the upgrade. -/
def initial (capacity : Capacity) (start : UInt64) (data : Nat → UInt8) (wakeCount : UInt32)
    (senderNonblocking receiverNonblocking : Bool) :
    SendingProcess capacity where
  channel := .initial capacity start data wakeCount senderNonblocking receiverNonblocking
  calls := []
  sendMu := none
  published := []

/-- A thread that is in no call enters a hook. -/
def invoke? (process : SendingProcess capacity) (thread : Nat) (hook : SendingHook) :
    Option (SendingProcess capacity) :=
  if ∀ call ∈ process.calls, call.thread = thread → call.loop = none then
    some
      { process with
        calls := process.calls ++ [⟨thread, hook, some ⟨hook.iov, 0, 0, hook.flags⟩, []⟩] }
  else
    none

/-- A call of `shm_send` lets go of the mutex and returns into the loop. -/
def unlock (process : SendingProcess capacity) (number : Nat) (call : ThreadCall)
    (loop : SendmsgCall) (channel : ShmChannel capacity)
    (result : SendResult) : SendingProcess capacity where
  channel := channel
  calls := process.calls.set number { call with loop := loop.afterSend result }
  sendMu := none
  published := process.published ++ [(number, call.buf.take result.count)]

/-- The next step of the thread that is in a call with a given number. -/
def callStep? (process : SendingProcess capacity) (number : Nat) :
    Option (SendingProcess capacity) :=
  match process.calls[number]? with
  | none => none
  | some call =>
    match call.loop with
    | none => none
    | some loop =>
      if process.sendMu = some number then
        match process.channel.senderStep? with
        | none => none
        | some (channel, none) => some { process with channel := channel }
        | some (channel, some result) => some (process.unlock number call loop channel result)
      else
        match loop.iov with
        | [] => some { process with calls := process.calls.set number { call with loop := none } }
        | buf :: rest =>
          if buf.length = 0 then
            some
              { process with
                calls :=
                  process.calls.set number { call with loop := some { loop with iov := rest } } }
          else if process.sendMu = none then
            (process.channel.shmSend? buf loop.flags).map
              fun (channel, _) =>
                { process with
                  channel := channel
                  calls :=
                    process.calls.set number
                      { call with
                        loop := some { loop with iov := rest, iovLen := buf.length }
                        buf := buf }
                  sendMu := some number }
          else
            none

/-- Who moves: a thread that makes a call, a thread in a call, another party. -/
inductive Action where
  | invoke (thread : Nat) (hook : SendingHook)
  | callStep (number : Nat)
  | other (action : ChannelAction)
  deriving Repr, DecidableEq

/-- One step of the process, of the receiver or of a closing party. -/
def step? (process : SendingProcess capacity) : Action → Option (SendingProcess capacity)
  | .invoke thread hook => process.invoke? thread hook
  | .callStep number => process.callStep? number
  | .other action =>
    if ShmChannel.IsForeign action then
      (process.channel.step? action).map fun channel => { process with channel := channel }
    else
      none

/-- No call asks for `MSG_DONTWAIT`. -/
def Action.Blocking : Action → Prop
  | .invoke _ hook => hook.flags.dontWait = false
  | _ => True

instance : DecidablePred Action.Blocking
  | .invoke _ hook => inferInstanceAs (Decidable (hook.flags.dontWait = false))
  | .callStep _ | .other _ => .isTrue trivial

/-- What the call with a given number has sent, in the order of its buffers. -/
def sentBy (published : List (Nat × List UInt8)) (number : Nat) : List (List UInt8) :=
  (published.filter fun entry => entry.1 = number).map Prod.snd

/-- The bytes of all calls of `shm_send` that have returned. -/
def stream (published : List (Nat × List UInt8)) : List UInt8 := (published.map Prod.snd).flatten

section History

variable {published : List (Nat × List UInt8)} {number other : Nat} {buf : List UInt8}

theorem sentBy_append_self :
    sentBy (published ++ [(number, buf)]) number = sentBy published number ++ [buf] := by
  simp [sentBy]

theorem sentBy_append_of_ne (different : other ≠ number) :
    sentBy (published ++ [(number, buf)]) other = sentBy published other := by
  simp [sentBy, different.symm]

theorem sentBy_eq_nil (unknown : ∀ entry ∈ published, entry.1 ≠ number) :
    sentBy published number = [] := by
  rw [sentBy, List.map_eq_nil_iff, List.filter_eq_nil_iff]
  intro entry member
  simpa using unknown entry member

theorem stream_append : stream (published ++ [(number, buf)]) = stream published ++ buf := by
  simp [stream]

end History

/-- What a step of a call does. -/
inductive CallMove
    (process : SendingProcess capacity)
    (number : Nat)
    (call : ThreadCall)
    (loop : SendmsgCall) :
    SendingProcess capacity → Prop where
  | finish (outside : process.sendMu ≠ some number) (done : loop.iov = []) :
      CallMove process number call loop
        { process with calls := process.calls.set number { call with loop := none } }
  | skip {buf : List UInt8} {rest : List (List UInt8)} (outside : process.sendMu ≠ some number)
      (next : loop.iov = buf :: rest) (empty : buf.length = 0) :
      CallMove process number call loop
        { process with
          calls := process.calls.set number { call with loop := some { loop with iov := rest } } }
  | lock {buf : List UInt8} {rest : List (List UInt8)} {channel : ShmChannel capacity}
      {early : Option SendResult} (free : process.sendMu = none) (next : loop.iov = buf :: rest)
      (nonempty : buf.length ≠ 0)
      (enters : process.channel.shmSend? buf loop.flags = some (channel, early)) :
      CallMove process number call loop
        { process with
          channel := channel
          calls :=
            process.calls.set number
              { call with loop := some { loop with iov := rest, iovLen := buf.length }, buf := buf }
          sendMu := some number }
  | send {channel : ShmChannel capacity} (holds : process.sendMu = some number)
      (stepped : process.channel.senderStep? = some (channel, none)) :
      CallMove process number call loop { process with channel := channel }
  | unlock {channel : ShmChannel capacity} {result : SendResult}
      (holds : process.sendMu = some number)
      (stepped : process.channel.senderStep? = some (channel, some result)) :
      CallMove process number call loop (process.unlock number call loop channel result)

/-- A call that takes a step has been made and has not returned. -/
theorem callStep?_move {process next : SendingProcess capacity} {number : Nat}
    (stepped : process.callStep? number = some next) :
    ∃ call loop, process.calls[number]? = some call ∧ call.loop = some loop ∧
      CallMove process number call loop next := by
  revert stepped
  fun_cases callStep? with (intro stepped; try cases stepped)
  | case4 call made loop running holds channel inner =>
    exact ⟨call, loop, made, running, .send holds inner⟩
  | case5 call made loop running holds channel result inner =>
    exact ⟨call, loop, made, running, .unlock holds inner⟩
  | case6 call made loop running outside done =>
    exact ⟨call, loop, made, running, .finish outside done⟩
  | case7 call made loop running outside buf rest first empty =>
    exact ⟨call, loop, made, running, .skip outside first empty⟩
  | case8 call made loop running outside buf rest first nonempty free =>
    obtain ⟨⟨channel, early⟩, enters, rfl⟩ := Option.map_eq_some_iff.mp stepped
    exact ⟨call, loop, made, running, .lock free first nonempty enters⟩

/--
How far the stream is: everything that has been published comes from calls of
`shm_send` that have returned, and from the one that holds the mutex.
-/
def MutexInvariant (process : SendingProcess capacity) : Prop :=
  match process.sendMu with
  | none =>
    process.channel.sender = .idle ∧ process.channel.system.producer = none ∧
      process.channel.system.accepted = stream process.published
  | some number =>
    ∃ call loop before sent, process.calls[number]? = some call ∧ call.loop = some loop ∧
        loop.iovLen = call.buf.length ∧
        ShmChannel.SendProgress before call.buf false sent process.channel ∧
        before.accepted = stream process.published

/-- Every call has sent a first part of its buffers and has the rest left. -/
def Divided (process : SendingProcess capacity) : Prop :=
  ∀ number call, process.calls[number]? = some call → lockingBuffers call.hook.iov =
      sentBy process.published number ++ call.left (process.sendMu = some number)

/-- The invariant of blocking senders. -/
structure Invariant
    (start : UInt64)
    (process : SendingProcess capacity) : Prop where
  ring : process.channel.system.Invariant start
  blocking : process.channel.senderNonblocking = false
  flags : ∀ call ∈ process.calls, ∀ loop, call.loop = some loop → loop.flags.dontWait = false
  known : ∀ entry ∈ process.published, entry.1 < process.calls.length
  mutex : process.MutexInvariant
  divided : process.Divided

section Mutex

variable {process : SendingProcess capacity}

section

variable (mutex : process.MutexInvariant)

include mutex

theorem MutexInvariant.of_free (free : process.sendMu = none) : process.channel.sender = .idle ∧
      process.channel.system.producer = none ∧
      process.channel.system.accepted = stream process.published := by
  unfold MutexInvariant at mutex
  rw [free] at mutex
  exact mutex

theorem MutexInvariant.of_held {number : Nat} (holds : process.sendMu = some number) :
    ∃ call loop before sent, process.calls[number]? = some call ∧ call.loop = some loop ∧
      loop.iovLen = call.buf.length ∧
      ShmChannel.SendProgress before call.buf false sent process.channel ∧
      before.accepted = stream process.published := by
  unfold MutexInvariant at mutex
  rw [holds] at mutex
  exact mutex

theorem MutexInvariant.holder_lt {number : Nat} (holds : process.sendMu = some number) :
    number < process.calls.length := by
  obtain ⟨call, _, _, _, made, _⟩ := mutex.of_held holds
  exact (List.getElem?_eq_some_iff.mp made).1

/-- Calls without the mutex, and other parties, do not concern it. -/
theorem MutexInvariant.transfer {next : SendingProcess capacity}
    (kept : ShmChannel.SendSideKept process.channel next.channel)
    (sameMutex : next.sendMu = process.sendMu) (samePublished : next.published = process.published)
    (sameHolder : ∀ number, process.sendMu = some number →
      next.calls[number]? = process.calls[number]?) :
    next.MutexInvariant := by
  unfold MutexInvariant
  rw [sameMutex, samePublished]
  cases holds : process.sendMu with
  | none =>
    obtain ⟨sender, producer, accepted⟩ := mutex.of_free holds
    exact ⟨kept.sender.trans sender, kept.producer.trans producer, kept.accepted.trans accepted⟩
  | some number =>
    obtain ⟨call, loop, before, sent, made, running, length, progress,
      history⟩ := mutex.of_held holds
    exact ⟨call, loop, before, sent, (sameHolder number holds).trans made, running, length,
      progress.foreign kept, history⟩

end

end Mutex

section Divisions

variable {process next : SendingProcess capacity} {number : Nat} {call after : ThreadCall}

/-- One call changes; the others keep what they have sent and what is left. -/
theorem Divided.set (divided : process.Divided) (made : process.calls[number]? = some call)
    (calls : next.calls = process.calls.set number after) (sameHook : after.hook = call.hook)
    (moves : sentBy next.published number ++
      after.left (next.sendMu = some number) =
      sentBy process.published number ++ call.left (process.sendMu = some number))
    (others : ∀ other, other ≠ number →
      sentBy next.published other = sentBy process.published other ∧
      (next.sendMu = some other ↔ process.sendMu = some other)) :
    next.Divided := by
  intro other record recorded
  rw [calls] at recorded
  by_cases same : other = number
  · subst same
    rw [List.getElem?_set_self (List.getElem?_eq_some_iff.mp made).1, Option.some.injEq] at recorded
    subst recorded
    rw [moves, sameHook]
    exact divided other call made
  · obtain ⟨sameSent, sameMutex⟩ := others other same
    rw [List.getElem?_set_ne (Ne.symm same)] at recorded
    rw [sameSent, decide_eq_decide.mpr sameMutex]
    exact divided other record recorded

end Divisions

section Steps

variable {start : UInt64} {process next : SendingProcess capacity}

theorem Invariant.initially
    (start : UInt64)
    (data : Nat → UInt8)
    (wakeCount : UInt32)
    (receiverNonblocking : Bool) :
    (initial capacity start data wakeCount false receiverNonblocking).Invariant start where
  ring := RingSystem.Invariant.initial start data
  blocking := rfl
  flags := by
    intro call member
    cases member
  known := by
    intro entry member
    cases member
  mutex := ⟨rfl, rfl, rfl⟩
  divided := by
    intro number call made
    cases made

section

variable (invariant : process.Invariant start)

include invariant

/-- A thread makes a call. -/
theorem Invariant.invoke {thread : Nat} {hook : SendingHook}
    (blocking : hook.flags.dontWait = false) (stepped : process.invoke? thread hook = some next) :
    next.Invariant start := by
  simp only [invoke?, Option.ite_none_right_eq_some, Option.some.injEq] at stepped
  obtain ⟨-, rfl⟩ := stepped
  refine ⟨invariant.ring, invariant.blocking, ?_, ?_, ?_, ?_⟩
  · intro call member loop running
    rcases List.mem_append.mp member with earlier | new
    · exact invariant.flags call earlier loop running
    · cases List.mem_singleton.mp new
      cases running
      exact blocking
  · intro entry member
    rw [List.length_append]
    exact Nat.lt_add_right _ (invariant.known entry member)
  · refine invariant.mutex.transfer (.refl _) rfl rfl ?_
    intro number holds
    exact List.getElem?_append_left (invariant.mutex.holder_lt holds)
  · intro number call made
    rcases Nat.lt_or_ge number process.calls.length with earlier | new
    · rw [List.getElem?_append_left earlier] at made
      exact invariant.divided number call made
    · rw [List.getElem?_append_right new, List.getElem?_singleton,
        Option.ite_none_right_eq_some, Option.some.injEq] at made
      obtain ⟨-, rfl⟩ := made
      have outside : ¬ process.sendMu = some number :=
        fun holds => Nat.not_le.mpr (invariant.mutex.holder_lt holds) new
      rw [sentBy_eq_nil fun entry member =>
        Nat.ne_of_lt (Nat.lt_of_lt_of_le (invariant.known entry member) new)]
      simp [ThreadCall.left, outside]

variable {channel : ShmChannel capacity}

theorem Invariant.other {action : ChannelAction}
    (foreign : ShmChannel.IsForeign action) (stepped : process.channel.step? action = some channel) :
    { process with channel := channel }.Invariant start := by
  have kept := ShmChannel.ForeignStep.sendSideKept ⟨action, foreign, stepped⟩
  exact ⟨(ShmChannel.step?_move stepped).ringInvariant invariant.ring,
    kept.senderNonblocking.trans invariant.blocking, invariant.flags, invariant.known,
    invariant.mutex.transfer kept rfl rfl fun _ _ => rfl, invariant.divided⟩

variable {number : Nat}

theorem flags_set {call after : ThreadCall} {loop : SendmsgCall}
    (made : process.calls[number]? = some call) (running : call.loop = some loop)
    (sameFlags : ∀ later, after.loop = some later → later.flags = loop.flags) :
    ∀ record ∈ process.calls.set number after,
      ∀ later, record.loop = some later → later.flags.dontWait = false := by
  intro record member later continues
  rcases List.mem_or_eq_of_mem_set member with old | rfl
  · exact invariant.flags record old later continues
  · rw [sameFlags later continues]
    exact invariant.flags call (List.mem_of_getElem? made) loop running

/-- A step in which a call without the mutex changes its place in the loop. -/
theorem Invariant.outside {call after : ThreadCall} {loop : SendmsgCall}
    (made : process.calls[number]? = some call) (running : call.loop = some loop)
    (outside : process.sendMu ≠ some number)
    (sameFlags : ∀ later, after.loop = some later → later.flags = loop.flags)
    (sameHook : after.hook = call.hook) (sameLeft : after.left false = call.left false) :
    { process with
      calls := process.calls.set number after }.Invariant start := by
  refine ⟨invariant.ring, invariant.blocking,
    flags_set invariant made running sameFlags, ?_, ?_, ?_⟩
  · intro entry member
    rw [List.length_set]
    exact invariant.known entry member
  · refine invariant.mutex.transfer (.refl _) rfl rfl ?_
    intro holder holds
    refine List.getElem?_set_ne ?_
    rintro rfl
    exact outside holds
  · refine invariant.divided.set made rfl sameHook ?_ fun _ _ => ⟨rfl, Iff.rfl⟩
    simp only [decide_eq_false outside, sameLeft]

/-- A call takes the mutex. -/
theorem Invariant.lock
    {call : ThreadCall}
    {loop : SendmsgCall}
    {buf : List UInt8}
    {rest : List (List UInt8)}
    {early : Option SendResult}
    (made : process.calls[number]? = some call)
    (running : call.loop = some loop)
    (free : process.sendMu = none)
    (first : loop.iov = buf :: rest)
    (nonempty : buf.length ≠ 0)
    (enters : process.channel.shmSend? buf loop.flags = some (channel, early)) :
    { process with
      channel := channel
      calls :=
        process.calls.set number
          { call with loop := some { loop with iov := rest, iovLen := buf.length }, buf := buf }
      sendMu := some number }.Invariant start := by
  have bound := (List.getElem?_eq_some_iff.mp made).1
  obtain ⟨sender, producer, accepted⟩ := invariant.mutex.of_free free
  have ready : process.channel.SendReady start := ⟨invariant.ring, producer, sender⟩
  simp only [ShmChannel.shmSend?, if_neg nonempty, sender, if_true,
    Option.some.injEq, Prod.mk.injEq] at enters
  obtain ⟨rfl, -⟩ := enters
  have progress := ready.progress buf loop.flags
  rw [invariant.blocking, invariant.flags call (List.mem_of_getElem? made) loop running] at progress
  refine ⟨invariant.ring, invariant.blocking, flags_set invariant made running ?_, ?_, ?_, ?_⟩
  · intro later continues
    cases continues
    rfl
  · intro entry member
    rw [List.length_set]
    exact invariant.known entry member
  · exact ⟨_, _, process.channel.system, 0, List.getElem?_set_self bound,
      rfl, rfl, progress, accepted⟩
  · refine invariant.divided.set made rfl rfl ?_ ?_
    · simp [ThreadCall.left, running, free, first, lockingBuffers,
        List.length_eq_zero_iff.not.mp nonempty]
    · intro other different
      simp [free, different.symm]

theorem Invariant.send
    (holds : process.sendMu = some number)
    (stepped : process.channel.senderStep? = some (channel, none)) :
    { process with channel := channel }.Invariant start := by
  have move := ShmChannel.senderStep?_move stepped
  obtain ⟨call, loop, before, sent, made, running, length, progress,
    history⟩ := invariant.mutex.of_held holds
  obtain ⟨sentNow, progressNow⟩ := progress.step invariant.ring stepped
  refine ⟨move.ringInvariant invariant.ring,
    move.sameModes.1.trans invariant.blocking, invariant.flags,
    invariant.known, ?_, invariant.divided⟩
  rw [holds]
  exact ⟨call, loop, before, sentNow, made, running, length, progressNow, history⟩

/-- `shm_send` returns and lets go of the mutex. -/
theorem Invariant.unlock {call : ThreadCall} {loop : SendmsgCall}
    {result : SendResult}
    (made : process.calls[number]? = some call) (running : call.loop = some loop)
    (holds : process.sendMu = some number)
    (stepped : process.channel.senderStep? = some (channel, some result)) :
    (process.unlock number call loop channel result).Invariant start := by
  have move := ShmChannel.senderStep?_move stepped
  obtain ⟨holder, holderLoop, before, sent, holderMade, holderRunning,
    length, progress, history⟩ := invariant.mutex.of_held holds
  obtain rfl : call = holder := Option.some.inj (made.symm.trans holderMade)
  obtain rfl : loop = holderLoop := Option.some.inj (running.symm.trans holderRunning)
  have outcome := progress.returned stepped
  obtain rfl := outcome.blocking
  have accepted := outcome.accepted
  have whole : call.buf.take (SendResult.sent call.buf.length).count = call.buf := List.take_length
  have continues : loop.afterSend (.sent call.buf.length) =
        some { loop with total := loop.total + call.buf.length } := by
    rw [SendmsgCall.afterSend, length, if_neg (Nat.lt_irrefl _)]
  rw [whole, history] at accepted
  rw [SendingProcess.unlock, whole, continues]
  refine ⟨move.ringInvariant invariant.ring, move.sameModes.1.trans invariant.blocking,
    flags_set invariant made running ?_, ?_, ?_, ?_⟩
  · intro later same
    cases same
    rfl
  · intro entry member
    rw [List.length_set]
    rcases List.mem_append.mp member with earlier | latest
    · exact invariant.known entry earlier
    · cases List.mem_singleton.mp latest
      exact (List.getElem?_eq_some_iff.mp made).1
  · exact ⟨outcome.sender, outcome.producer, accepted.trans stream_append.symm⟩
  · refine invariant.divided.set made rfl rfl ?_ ?_
    · rw [sentBy_append_self]
      simp [ThreadCall.left, running, holds]
    · intro other different
      refine ⟨sentBy_append_of_ne different, ?_⟩
      simp [holds, different.symm]

/-- A step of a call. -/
theorem Invariant.callStep (stepped : process.callStep? number = some next) :
    next.Invariant start := by
  obtain ⟨call, loop, made, running, move⟩ := callStep?_move stepped
  cases move with
  | finish outside done =>
    refine invariant.outside made running outside ?_ rfl ?_
    · intro later continues
      cases continues
    · simp [ThreadCall.left, running, done, lockingBuffers]
  | skip outside first empty =>
    refine invariant.outside made running outside ?_ rfl ?_
    · intro later continues
      cases continues
      rfl
    · simp [ThreadCall.left, running, first, lockingBuffers, List.length_eq_zero_iff.mp empty]
  | lock free first nonempty enters => exact invariant.lock made running free first nonempty enters
  | send holds inner => exact invariant.send holds inner
  | unlock holds inner => exact invariant.unlock made running holds inner

theorem Invariant.step {action : Action} (blocking : action.Blocking)
    (stepped : process.step? action = some next) :
    next.Invariant start := by
  cases action with
  | invoke thread hook => exact invariant.invoke blocking stepped
  | callStep number => exact invariant.callStep stepped
  | other action =>
    simp only [step?, Option.ite_none_right_eq_some, Option.map_eq_some_iff] at stepped
    obtain ⟨foreign, channel, moved, rfl⟩ := stepped
    exact invariant.other foreign moved

end

end Steps

/--
The stream consists of the arguments of the calls of `shm_send` that have returned
and of a first part of that of the one that holds the mutex.  Every call contributes
its buffers once, complete and in their order.
-/
structure Unmixed (process : SendingProcess capacity) : Prop where
  stream : ∃ rest, process.channel.system.accepted = stream process.published ++ rest ∧
        (process.sendMu = none ∧ rest = [] ∨ ∃ number call, process.sendMu = some number ∧
              process.calls[number]? = some call ∧ call.loop ≠ none ∧ rest <+: call.buf ∧
              sentBy process.published number ++ [call.buf] <+: lockingBuffers call.hook.iov)
  known : ∀ entry ∈ process.published, entry.1 < process.calls.length
  sent : ∀ number call, process.calls[number]? = some call →
      sentBy process.published number <+: lockingBuffers call.hook.iov ∧
        (call.loop = none → sentBy process.published number = lockingBuffers call.hook.iov)

/-- What the invariant says about the stream. -/
theorem Invariant.unmixed {start : UInt64} {process : SendingProcess capacity}
    (invariant : process.Invariant start) :
    process.Unmixed where
  stream := by
    cases holds : process.sendMu with
    | none =>
      obtain ⟨_, _, accepted⟩ := invariant.mutex.of_free holds
      exact ⟨[], by rw [accepted, List.append_nil], .inl ⟨rfl, rfl⟩⟩
    | some number =>
      obtain ⟨call, loop, before, sent, made, running, _, progress,
        history⟩ := invariant.mutex.of_held holds
      refine ⟨call.buf.take sent, ?_, .inr ⟨number, call, rfl, made, ?_, List.take_prefix _ _, ?_⟩⟩
      · rw [progress.accepted, history]
      · rw [running]
        exact Option.some_ne_none loop
      · rw [invariant.divided number call made]
        simp [ThreadCall.left, running, holds]
  known := invariant.known
  sent := by
    intro number call made
    have divided := invariant.divided number call made
    refine ⟨?_, ?_⟩
    · rw [divided]
      exact List.prefix_append _ _
    · intro returned
      rw [divided, ThreadCall.left, returned, List.append_nil]

/--
For any number of threads that call `send`, `write` and `sendmsg` in blocking
mode, and every interleaving of their steps with those of the receiver and of
the closing parties, the calls of `shm_send` do not mix.
-/
theorem inner_sends_do_not_mix
    (start : UInt64)
    (data : Nat → UInt8)
    (wakeCount : UInt32)
    (receiverNonblocking : Bool)
    (actions : List Action)
    (blocking : ∀ action ∈ actions, action.Blocking)
    (process : SendingProcess capacity)
    (reached :
      run? step? (initial capacity start data wakeCount false receiverNonblocking) actions =
        some process) :
    process.Unmixed := by
  refine Invariant.unmixed
    (@invariant_along _ _ step?
      (fun _ action => Action.Blocking action) (Invariant start) _ ?_ ?_ _ _
      reached ?_)
  · exact Invariant.initially start data wakeCount receiverNonblocking
  · intro state action next invariant now stepped
    exact invariant.step now stepped
  · exact along_of_forall_mem blocking

/-- The steps of a call of `shm_send` for one byte, from the mutex to the return. -/
private def lockedSend (number : Nat) : List Action := List.replicate 9 (.callStep number)

/-- A fresh blocking descriptor. -/
private def freshProcess : SendingProcess .shmSegmentRing :=
  .initial .shmSegmentRing 0 (fun _ => 0) 0 false false

/--
Two threads: the first sends the bytes 1 and 2 in two buffers of a `sendmsg`,
the second sends 3 while the first does not hold the mutex.
-/
private def twoThreads : List Action :=
  [.invoke 0 (.sendmsg [[1], [2]] ⟨false, false⟩), .invoke 1 (.send [3] ⟨false, false⟩)] ++
    lockedSend 0 ++ lockedSend 1 ++ lockedSend 0 ++
    [.callStep 0, .callStep 1]

private theorem twoThreads_reaches : ∃ process, run? step? freshProcess twoThreads = some process ∧
      process.calls = [⟨0, .sendmsg [[1], [2]] ⟨false, false⟩, none, [2]⟩,
      ⟨1, .send [3] ⟨false, false⟩, none, [3]⟩] ∧ process.channel.system.accepted = [1, 3, 2] :=
  exists_reached_of_check step? freshProcess twoThreads
    (fun process =>
      process.calls = [⟨0, .sendmsg [[1], [2]] ⟨false, false⟩, none, [2]⟩,
            ⟨1, .send [3] ⟨false, false⟩, none, [3]⟩] ∧ process.channel.system.accepted = [1, 3, 2])
    (by decide +kernel)

/-- Two threads with three buffers. -/
theorem inner_sends_of_two_threads :
    ∃ process, run? step? freshProcess twoThreads = some process ∧
      process.Unmixed := by
  obtain ⟨process, reached, _⟩ := twoThreads_reaches
  exact ⟨process, reached,
    inner_sends_do_not_mix 0 (fun _ => 0) 0 false twoThreads (by decide) process reached⟩

/--
All calls have returned, and in no order are the complete buffers of the calls a
first part of the stream: a byte of the second call stands between the two bytes
of the first.
-/
theorem send_between_parts_of_sendmsg :
    ∃ (actions : List Action) (process : SendingProcess .shmSegmentRing),
      (∀ action ∈ actions, action.Blocking) ∧
      run? step? freshProcess actions = some process ∧
      (∀ call ∈ process.calls, call.loop = none) ∧
      ∀ order : List ThreadCall,
        order.Perm process.calls →
        ¬ (order.map fun call => call.hook.bytes).flatten <+: process.channel.system.accepted := by
  obtain ⟨process, reached, calls, accepted⟩ := twoThreads_reaches
  refine ⟨twoThreads, process, by decide, reached, ?_, ?_⟩
  · rw [calls]
    decide
  · rw [calls, accepted]
    intro order permuted
    cases order with
    | nil => cases permuted.length_eq
    | cons first rest =>
      have member := permuted.subset List.mem_cons_self
      rcases List.mem_pair.mp member with rfl | rfl <;> simp [SendingHook.bytes, SendingHook.iov]

end SendingProcess

end SocksDirect
