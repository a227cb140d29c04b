import SocksDirect.InterprocessBuffer
import SocksDirect.QueueScan

namespace SocksDirect

open Machine

/-!
# The receive scan over a local buffer

`recvfrom_iter_fd_in_buf` of `lib/socket_lib.cpp` looks for the next data element
of a descriptor in the queues of a local buffer (`interprocess_local_t` of
`common/interprocess_t_n.hpp`): first in the emergency queue, then in the
regular one.  On its way it removes the page returns and the close elements of
descriptors whose key has been deleted; at the close element of its own
descriptor it reports that the connection is closed.

After every removal the iterator stands at the front of the queue, and the loop
goes on to the next element.  So the scan never looks at the element behind a
first element that it removes.
-/

/-- The commands that the scan passes over. -/
inductive PassedCommand where
  | newFd
  | nop
  | rdmaAck
  | rtsRelayAck
  | rtsRelayData
  | closeReqNord
  | closeReqNowr
  | closeAckNord
  | closeAckNowr
  deriving Repr, DecidableEq

/-- `queue_t::element`: a command and its member of the union. -/
inductive InterprocessElement where
  | dataTransfer (pointer fd : Int)
  | dataTransferZerocopy (fd : Int) (numPages pageHigh : UInt16) (pageLow : UInt32)
  | dataTransferZerocopyVector (pointer fd : Int) (numPages : UInt16)
  | zerocopyReturn (page : UInt64) (numPages : UInt16)
  | zerocopyReturnVector (pointer : Int) (numPages : UInt16)
  | closeFd (reqFd peerFd : Int)
  | other (command : PassedCommand)
  deriving Repr, DecidableEq

/--
`data_fd_rw.fd` of a data element.  In the member of a `DATA_TRANSFER_ZEROCOPY`
these four bytes are the number of pages and the upper part of the page.
-/
def InterprocessElement.dataFd : InterprocessElement → Option Int
  | .dataTransfer _ fd => some fd
  | .dataTransferZerocopy _ numPages pageHigh _ =>
    some (Int.bmod (Int.ofNat (numPages.toNat + 65536 * pageHigh.toNat)) 4294967296)
  | .dataTransferZerocopyVector _ fd _ => some fd
  | _ => none

/-- What the scan reads of `fds_datawithrd`. -/
structure ReceiveFds where
  isKeyvalid : Int → Bool
  peerFd : Int → Int

/-- The element is the close request of the peer for this descriptor. -/
def InterprocessElement.Closes (fds : ReceiveFds) (targetFd : Int) : InterprocessElement → Prop
  | .closeFd reqFd peerFd => peerFd = targetFd ∧ reqFd = fds.peerFd targetFd
  | _ => False

/-- The receiving side of a local buffer. -/
structure LocalBuffer where
  q : SharedQueue metaQueueSize InterprocessElement
  qEmergency : SharedQueue metaQueueSize InterprocessElement
  b : BlockBuffer

/-- `interprocess_local_t::_iterator`. -/
structure BufferIterator where
  qPointer : UInt32
  qEmergencyPointer : UInt32
  isEmergencyDone : Bool
  deriving Repr, DecidableEq

/-- `ITERATE_FD_IN_BUFFER_STATE`, and `FATAL`, which aborts the process. -/
inductive IterateFdState where
  | closed
  | find (locInBuffer : BufferIterator)
  | notfind
  | allclosed
  | fatal
  deriving Repr, DecidableEq

/--
The scan between two rounds.  `iter` lists the buffers of the descriptor in the
order of their ring, from the current one on.
-/
structure ReceiveScan where
  buffer : LocalBuffer
  iterEle : BufferIterator
  iter : List Nat

namespace ReceiveScan

/-- `begin`. -/
def start (buffer : LocalBuffer) (iter : List Nat) : ReceiveScan where
  buffer := buffer
  iterEle :=
    { qPointer := buffer.q.receiver.pointer
      qEmergencyPointer := buffer.qEmergency.receiver.pointer
      isEmergencyDone := false }
  iter := iter

/-- If not valid, switch from emergency queue to normal queue. -/
def switch (scan : ReceiveScan) : ReceiveScan :=
  if scan.iterEle.isEmergencyDone then
    scan
  else if (scan.buffer.qEmergency.peek scan.iterEle.qEmergencyPointer).1 then
    scan
  else
    { scan with iterEle := { scan.iterEle with isEmergencyDone := true } }

/-- `next`. -/
def next (scan : ReceiveScan) : ReceiveScan :=
  if scan.iterEle.isEmergencyDone then
    { scan with iterEle := { scan.iterEle with qPointer := scan.iterEle.qPointer + 1 } }
  else
    switch
      { scan with
        iterEle := { scan.iterEle with qEmergencyPointer := scan.iterEle.qEmergencyPointer + 1 } }

/-- `peek`, with the iterator that it leaves behind. -/
def peek (scan : ReceiveScan) : ReceiveScan × Bool × Bool × InterprocessElement :=
  let switched := scan.switch
  (switched, if switched.iterEle.isEmergencyDone then
      switched.buffer.q.peek switched.iterEle.qPointer
    else
      switched.buffer.qEmergency.peek switched.iterEle.qEmergencyPointer)

/-- `del`. -/
def del (scan : ReceiveScan) : ReceiveScan :=
  if scan.iterEle.isEmergencyDone then
    let q := scan.buffer.q.del scan.iterEle.qPointer false
    { scan with
      buffer := { scan.buffer with q := q }
      iterEle := { scan.iterEle with qPointer := q.receiver.pointer } }
  else
    let qEmergency := scan.buffer.qEmergency.del scan.iterEle.qEmergencyPointer false
    { scan with
      buffer := { scan.buffer with qEmergency := qEmergency }
      iterEle := { scan.iterEle with qEmergencyPointer := qEmergency.receiver.pointer } }

/-- `rst_offset` on a `ZEROCOPY_RETURN_VECTOR`. -/
def rstOffset (scan : ReceiveScan) (offset : Int) (numPages : UInt16) : ReceiveScan :=
  let element := InterprocessElement.zerocopyReturnVector offset numPages
  if scan.iterEle.isEmergencyDone then
    { scan with
      buffer := { scan.buffer with q := scan.buffer.q.set scan.iterEle.qPointer element } }
  else
    { scan with
      buffer :=
        { scan.buffer with
          qEmergency := scan.buffer.qEmergency.set scan.iterEle.qEmergencyPointer element } }

/-- `pop_data` on a `ZEROCOPY_RETURN_VECTOR`, with the value that it returns. -/
def popData (scan : ReceiveScan) (pointer : Int) (numPages : UInt16)
    (len : Nat) : ReceiveScan × Nat :=
  let result := scan.buffer.b.popdata pointer len
  let popped := { scan with buffer := { scan.buffer with b := result.buffer } }
  (if result.currentLoc = -1 then
      popped.del
    else
      popped.rstOffset result.currentLoc numPages, len - result.sizeleft)

/-- One round of the loop of `recvfrom_iter_fd_in_buf`. -/
def round (fds : ReceiveFds) (targetFd : Int) (scan : ReceiveScan) :
    ReceiveScan × Option IterateFdState :=
  let (scan, eleIsvalid, eleIsdel, ele) := scan.peek
  if eleIsvalid = false then
    (scan, some .notfind)
  else if eleIsdel = true then
    (scan.next, none)
  else
    match ele with
    | .closeFd reqFd peerFd =>
      if peerFd = targetFd ∧ reqFd = fds.peerFd targetFd then
        let deleted := { scan.del with iter := scan.iter.tail }
        if deleted.iter = [] then (deleted, some .allclosed) else (deleted, some .closed)
      else if fds.isKeyvalid peerFd = false then (scan.del.next, none) else (scan.next, none)
    | .zerocopyReturn _ _ => (scan.del.next, none)
    | .zerocopyReturnVector pointer numPages =>
      let (popped, bufferRet) := scan.popData pointer numPages (8 * numPages.toNat)
      if bufferRet ≠ 8 * numPages.toNat then (popped, some .fatal) else (popped.del.next, none)
    | ele =>
      if ele.dataFd = some targetFd then (scan, some (.find scan.iterEle)) else (scan.next, none)

/-- The loop as a call that runs alone. -/
def round? (fds : ReceiveFds) (targetFd : Int) (scan : ReceiveScan) :
    Option (ReceiveScan × Option IterateFdState) :=
  some (scan.round fds targetFd)

end ReceiveScan

/--
What a round does with an element that is not deleted.  A
`ZEROCOPY_RETURN_VECTOR`, which may be removed twice, counts as a stop.
-/
def scanVerdict (fds : ReceiveFds) (targetFd : Int) : InterprocessElement → Verdict
  | .closeFd reqFd peerFd =>
    if peerFd = targetFd ∧ reqFd = fds.peerFd targetFd then
      .stop
    else if fds.isKeyvalid peerFd = false then .remove else .pass
  | .zerocopyReturn _ _ => .remove
  | .zerocopyReturnVector _ _ => .stop
  | ele => if ele.dataFd = some targetFd then .stop else .pass

/-- All elements but the vectors of returned pages. -/
def InterprocessElement.IsPlain : InterprocessElement → Prop
  | .zerocopyReturnVector _ _ => False
  | _ => True

instance : DecidablePred InterprocessElement.IsPlain := by
  intro element
  unfold InterprocessElement.IsPlain
  split <;> infer_instance

section Verdicts

variable {fds : ReceiveFds} {targetFd : Int} {element : InterprocessElement}

theorem scanVerdict_of_dataFd (forTarget : element.dataFd = some targetFd) :
    scanVerdict fds targetFd element = .stop := by
  cases element with
  | dataTransfer pointer fd | dataTransferZerocopyVector pointer fd pages
  | dataTransferZerocopy fd pages high low => simp only [scanVerdict, if_pos forTarget]
  | _ => cases forTarget

/-- A plain element of interest is data or a close for the descriptor. -/
theorem dataFd_or_closes_of_stop (plain : element.IsPlain)
    (stop : scanVerdict fds targetFd element = .stop) :
    element.dataFd = some targetFd ∨ element.Closes fds targetFd := by
  cases element with
  | closeFd reqFd peerFd =>
    refine .inr ?_
    by_contra other
    simp only [InterprocessElement.Closes] at other
    simp only [scanVerdict, if_neg other] at stop
    split at stop <;> cases stop
  | zerocopyReturn page pages => cases stop
  | zerocopyReturnVector pointer pages => exact plain.elim
  | dataTransfer pointer fd | dataTransferZerocopyVector pointer fd pages
  | dataTransferZerocopy fd pages high low | other command =>
    refine .inl ?_
    by_contra different
    simp only [scanVerdict, if_neg different] at stop
    cases stop

end Verdicts

namespace ReceiveScan

section Rounds

variable {fds : ReceiveFds} {targetFd : Int} {scan : ReceiveScan} {element : InterprocessElement}

theorem round_switch (fds : ReceiveFds) (targetFd : Int) (scan : ReceiveScan) :
    scan.switch.round fds targetFd = scan.round fds targetFd := by
  have again : scan.switch.switch = scan.switch := by
    unfold switch
    by_cases done : scan.iterEle.isEmergencyDone
    · simp [done]
    · by_cases valid : (scan.buffer.qEmergency.peek scan.iterEle.qEmergencyPointer).1
      · simp [done, valid]
      · simp [done, valid]
  have samePeek : scan.switch.peek = scan.peek := by simp only [peek, again]
  unfold round
  rw [samePeek]

theorem round_empty {slot : Bool × Bool × InterprocessElement} (seen : scan.peek = (scan, slot))
    (ended : slot.1 = false) :
    scan.round fds targetFd = (scan, some .notfind) := by
  simp only [round, seen, ended, if_true]

theorem round_deleted (seen : scan.peek = (scan, true, true, element)) :
    scan.round fds targetFd = (scan.next, none) := by
  simp only [round, seen]
  rfl

section

variable (seen : scan.peek = (scan, true, false, element))

include seen

/-- A round at an element that is passed. -/
theorem round_pass (pass : scanVerdict fds targetFd element = .pass) :
    scan.round fds targetFd = (scan.next, none) := by
  simp only [round, seen]
  cases element with
  | closeFd reqFd peerFd =>
    simp only [scanVerdict] at pass
    split at pass
    · cases pass
    · split at pass
      · cases pass
      · simp_all
  | zerocopyReturn page pages | zerocopyReturnVector pointer pages => cases pass
  | dataTransfer pointer fd | dataTransferZerocopyVector pointer fd pages
  | dataTransferZerocopy fd pages high low | other command =>
    simp only [scanVerdict] at pass
    split at pass
    · cases pass
    · simp_all

/-- A round at an element that is removed. -/
theorem round_remove (remove : scanVerdict fds targetFd element = .remove) :
    scan.round fds targetFd = (scan.del.next, none) := by
  simp only [round, seen]
  cases element with
  | closeFd reqFd peerFd =>
    simp only [scanVerdict] at remove
    split at remove
    · cases remove
    · split at remove
      · simp_all
      · cases remove
  | zerocopyReturn page pages => rfl
  | zerocopyReturnVector pointer pages => cases remove
  | dataTransfer pointer fd | dataTransferZerocopyVector pointer fd pages
  | dataTransferZerocopy fd pages high low | other command =>
    simp only [scanVerdict] at remove
    split at remove <;> cases remove

theorem round_find (forTarget : element.dataFd = some targetFd) :
    scan.round fds targetFd = (scan, some (.find scan.iterEle)) := by
  simp only [round, seen]
  cases element with
  | dataTransfer pointer fd | dataTransferZerocopyVector pointer fd pages
  | dataTransferZerocopy fd pages high low => simp_all
  | _ => cases forTarget

theorem round_close (closes : element.Closes fds targetFd) : ∃ final,
      scan.round fds targetFd = (final, some .closed) ∨
      scan.round fds targetFd = (final, some .allclosed) := by
  cases element with
  | closeFd reqFd peerFd =>
    simp only [InterprocessElement.Closes] at closes
    simp only [round, seen, if_pos closes]
    refine ⟨{ scan.del with iter := scan.iter.tail }, ?_⟩
    by_cases last : scan.iter.tail = [] <;> simp [last]
  | _ => exact closes.elim

end

end Rounds

/-- The scan with its iterator in the regular queue. -/
def inRegular (scan : ReceiveScan) (cursor : QueueCursor metaQueueSize InterprocessElement) :
    ReceiveScan :=
  { scan with
    buffer := { scan.buffer with q := cursor.queue }
    iterEle := { scan.iterEle with qPointer := cursor.pointer, isEmergencyDone := true } }

/-- The scan with its iterator in the emergency queue, unless it is at its end. -/
def inEmergency (scan : ReceiveScan) (cursor : QueueCursor metaQueueSize InterprocessElement) :
    ReceiveScan :=
  switch
    { scan with
      buffer := { scan.buffer with qEmergency := cursor.queue }
      iterEle :=
        { scan.iterEle with qEmergencyPointer := cursor.pointer, isEmergencyDone := false } }

section Lifted

variable {fds : ReceiveFds} {targetFd : Int}
variable {cursor next : QueueCursor metaQueueSize InterprocessElement}

theorem peek_inRegular (scan : ReceiveScan)
    (cursor : QueueCursor metaQueueSize InterprocessElement) :
    (scan.inRegular cursor).peek = (scan.inRegular cursor, cursor.queue.peek cursor.pointer) := by
  simp [peek, switch, inRegular]

theorem peek_inEmergency (scan : ReceiveScan)
    (valid : (cursor.queue.peek cursor.pointer).1 = true) : (scan.inEmergency cursor).peek =
      (scan.inEmergency cursor, cursor.queue.peek cursor.pointer) := by
  simp [peek, switch, inEmergency, valid]

theorem isvalid_of_look? (looks : cursor.look? (scanVerdict fds targetFd) = some (next, none)) :
    (cursor.queue.peek cursor.pointer).1 = true := by
  simp only [QueueCursor.look?] at looks
  split at looks
  · cases looks
  case isFalse valid =>
    rw [Bool.not_eq_false] at valid
    exact valid

/-- A round of the scan goes on as a scan of one queue does. -/
theorem round_of_look? {scan : ReceiveScan}
    (seen : scan.peek = (scan, cursor.queue.peek cursor.pointer))
    (looks : cursor.look? (scanVerdict fds targetFd) = some (next, none)) :
    next = { cursor with pointer := cursor.pointer + 1 } ∧
        scan.round fds targetFd = (scan.next, none) ∨ next =
          { queue := cursor.queue.del cursor.pointer false
            pointer := (cursor.queue.del cursor.pointer false).receiver.pointer + 1 } ∧
        scan.round fds targetFd = (scan.del.next, none) := by
  have valid := isvalid_of_look? looks
  rcases here : cursor.queue.peek cursor.pointer with ⟨isvalid, isdel, element⟩
  rw [here] at seen valid
  subst valid
  simp only [QueueCursor.look?, here, Bool.true_eq_false, if_false] at looks
  cases isdel with
  | true =>
    cases looks
    exact .inl ⟨rfl, round_deleted seen⟩
  | false =>
    cases decided : scanVerdict fds targetFd element with
    | pass =>
      rw [decided] at looks
      cases looks
      exact .inl ⟨rfl, round_pass seen decided⟩
    | remove =>
      rw [decided] at looks
      cases looks
      exact .inr ⟨rfl, round_remove seen decided⟩
    | stop =>
      rw [decided] at looks
      cases looks

section

variable (scan : ReceiveScan) (looks : cursor.look? (scanVerdict fds targetFd) = some (next, none))

include scan looks

theorem round?_inRegular :
    (scan.inRegular cursor).round? fds targetFd = some (scan.inRegular next, none) := by
  unfold round?
  rcases round_of_look? (scan.peek_inRegular cursor) looks with ⟨rfl, passes⟩ | ⟨rfl, removes⟩
  · rw [passes]
    rfl
  · rw [removes]
    rfl

theorem round?_inEmergency :
    (scan.inEmergency cursor).round? fds targetFd = some (scan.inEmergency next, none) := by
  have valid := isvalid_of_look? looks
  have standing : scan.inEmergency cursor = { scan with
          buffer := { scan.buffer with qEmergency := cursor.queue }
          iterEle :=
            { scan.iterEle with
              qEmergencyPointer := cursor.pointer
              isEmergencyDone := false } } := by
    simp [inEmergency, switch, valid]
  unfold round?
  rcases round_of_look? (scan.peek_inEmergency valid) looks with ⟨rfl, passes⟩ | ⟨rfl, removes⟩
  · rw [passes, standing]
    rfl
  · rw [removes, standing]
    rfl

end

end Lifted

section Outcomes

variable {fds : ReceiveFds} {targetFd : Int} {scan : ReceiveScan} {element : InterprocessElement}

/-- How the scan ends at an element of interest. -/
theorem returns_at_stop (seen : scan.peek = (scan, true, false, element)) (plain : element.IsPlain)
    (stop : scanVerdict fds targetFd element = .stop) :
    ∃ final result, Returns (round? fds targetFd) scan final result ∧
      ∀ locInBuffer, result = .find locInBuffer → locInBuffer = scan.iterEle := by
  rcases dataFd_or_closes_of_stop plain stop with forTarget | closes
  · refine ⟨scan, .find scan.iterEle, returns_of_last ?_, ?_⟩
    · rw [round?, round_find seen forTarget]
    · intro locInBuffer found
      cases found
      rfl
  · obtain ⟨final, last | last⟩ := round_close seen closes
    · refine ⟨final, .closed, returns_of_last ?_, ?_⟩
      · rw [round?, last]
      · intro locInBuffer found
        cases found
    · refine ⟨final, .allclosed, returns_of_last ?_, ?_⟩
      · rw [round?, last]
      · intro locInBuffer found
        cases found

theorem returns_start_iff (buffer : LocalBuffer) (iter : List Nat) {final : ReceiveScan}
    {result : IterateFdState} :
    Returns (round? fds targetFd) (start buffer iter) final
      result ↔ Returns (round? fds targetFd)
      ((start buffer iter).inEmergency (buffer.qEmergency.cursorAt 0))
      final result := by
  have begins : (start buffer iter).inEmergency (buffer.qEmergency.cursorAt 0) =
        (start buffer iter).switch := by
    simp only [inEmergency, buffer.qEmergency.cursorAt_zero]
    rfl
  have sameRound : ((start buffer iter).inEmergency
          (buffer.qEmergency.cursorAt 0)).round? fds targetFd =
        some ((start buffer iter).round fds targetFd) := by
    rw [begins, round?, round_switch]
  exact (returns_iff_resumes rfl).trans (returns_iff_resumes sameRound).symm

theorem inEmergency_end {buffer : LocalBuffer} {iter : List Nat}
    {cursor : QueueCursor metaQueueSize InterprocessElement}
    (ended : (cursor.queue.peek cursor.pointer).1 = false) :
    ∃ later : ReceiveScan,
      (start buffer iter).inEmergency cursor = later.inRegular (buffer.q.cursorAt 0) := by
  refine ⟨(start buffer iter).inEmergency cursor, ?_⟩
  simp only [inRegular, buffer.q.cursorAt_zero]
  simp [inEmergency, switch, ended, start, SharedQueue.cursorAt]

end Outcomes

/--
The scan returns `FIND` at the element of the regular queue under this pointer,
which it has neither removed nor changed.
-/
def FindsAt (fds : ReceiveFds) (targetFd : Int) (scan : ReceiveScan) (pointer : UInt32)
    (element : InterprocessElement) : Prop :=
  ∃ final locInBuffer, Returns (round? fds targetFd) scan final (.find locInBuffer) ∧
      locInBuffer.isEmergencyDone = true ∧ locInBuffer.qPointer = pointer ∧
      final.buffer.q.peek pointer = (true, false, element)

section Finds

variable {fds : ReceiveFds} {targetFd : Int} {buffer : LocalBuffer}
variable {emergency regular : List (QueueEntry InterprocessElement)} {offset : Nat}
variable {element : InterprocessElement}

theorem one_lt_metaQueueSize : 1 < metaQueueSize.slots := by
  decide

theorem passes_inEmergency {scan : ReceiveScan}
    {cursor next : QueueCursor metaQueueSize InterprocessElement}
    (passes : Passes (QueueCursor.look? (scanVerdict fds targetFd)) cursor
      next) :
    Passes (round? fds targetFd) (scan.inEmergency cursor) (scan.inEmergency next) :=
  Passes.lift scan.inEmergency (fun looks => scan.round?_inEmergency looks) passes

theorem passes_inRegular {scan : ReceiveScan}
    {cursor next : QueueCursor metaQueueSize InterprocessElement}
    (passes : Passes (QueueCursor.look? (scanVerdict fds targetFd)) cursor
      next) :
    Passes (round? fds targetFd) (scan.inRegular cursor) (scan.inRegular next) :=
  Passes.lift scan.inRegular (fun looks => scan.round?_inRegular looks) passes

/-- The regular queue is reached exactly if the emergency queue is skipped to its end. -/
theorem reaches_regular (iter : List Nat) (holding : buffer.qEmergency.Holding emergency)
    (plain : ∀ entry ∈ emergency, entry.data.IsPlain) :
    ((∀ position entry, emergency[position]? = some entry → entry.Stops (scanVerdict fds targetFd) →
      Skipped (scanVerdict fds targetFd) emergency position) ∧
      (emergency.length < metaQueueSize.slots ∨
      HeadRemoved (scanVerdict fds targetFd) emergency) ∧ ∃ later : ReceiveScan,
      Passes (round? fds targetFd)
      ((start buffer iter).inEmergency (buffer.qEmergency.cursorAt 0))
      (later.inRegular (buffer.q.cursorAt 0))) ∨
      ¬ ((∀ position entry, emergency[position]? = some entry →
      entry.Stops (scanVerdict fds targetFd) →
      Skipped (scanVerdict fds targetFd) emergency position) ∧
      (emergency.length < metaQueueSize.slots ∨ HeadRemoved (scanVerdict fds targetFd) emergency)) ∧
      ∀ pointer element, ¬ FindsAt fds targetFd (start buffer iter) pointer element := by
  rcases holding.scan_cases one_lt_metaQueueSize (scanVerdict fds targetFd)
    with
    ⟨position, entry, found, stops, unskipped, cursor, passes, _, seen⟩ |
      ⟨skips, ⟨ends, cursor, passes, ended⟩ | ⟨endless, circling⟩⟩
  · refine .inr ⟨fun ⟨skips, _⟩ => unskipped (skips position entry found stops), ?_⟩
    rintro pointer element ⟨final, locInBuffer, returns, done, _, _⟩
    have standing : ((start buffer iter).inEmergency cursor).peek =
          ((start buffer iter).inEmergency cursor, true, false, entry.data) := by
      rw [peek_inEmergency _ (by rw [seen]), seen]
    obtain ⟨otherFinal, result, otherReturns, place⟩ :=
      returns_at_stop standing (plain entry (List.mem_of_getElem? found)) stops.2
    rw [returns_start_iff, (passes_inEmergency passes).returns_iff] at returns
    obtain ⟨_, same⟩ := otherReturns.unique returns
    rw [place locInBuffer same] at done
    simp [inEmergency, switch, seen] at done
  · obtain ⟨later, atRegular⟩ := inEmergency_end ended
    refine .inl ⟨skips, ends, later, ?_⟩
    rw [← atRegular]
    exact passes_inEmergency passes
  · refine .inr ⟨fun ⟨_, ends⟩ => endless ends, ?_⟩
    rintro pointer element ⟨final, locInBuffer, returns, _⟩
    rw [returns_start_iff] at returns
    refine @not_returns_of_invariant _ _ _ _ _ _
      (fun scan =>
        ∃ cursor : QueueCursor metaQueueSize InterprocessElement,
          cursor.Circling (scanVerdict fds targetFd) ∧
            scan = (start buffer iter).inEmergency cursor)
      ?_ ⟨_, circling, rfl⟩ returns
    rintro scan next ended ⟨cursor, goesRound, rfl⟩ stepped
    obtain ⟨after, looks, goesOn⟩ := goesRound.step
    rw [round?_inEmergency _ looks] at stepped
    cases stepped
    exact ⟨rfl, after, goesOn, rfl⟩

/-- In the regular queue the scan finds a data element that it does not skip. -/
theorem finds_in_regular (holding : buffer.q.Holding regular)
    (plain : ∀ entry ∈ regular, entry.data.IsPlain)
    (found : regular[offset]? = some ⟨element, false⟩) (forTarget : element.dataFd = some targetFd)
    (first : ∀ earlier entry, earlier < offset → regular[earlier]? = some entry →
      entry.isdel = false → entry.data.dataFd ≠ some targetFd ∧ ¬ entry.data.Closes fds targetFd)
    (unskipped : ¬ Skipped (scanVerdict fds targetFd) regular offset)
    (later : ReceiveScan) :
    FindsAt fds targetFd (later.inRegular (buffer.q.cursorAt 0))
      (buffer.q.receiver.pointer + UInt32.ofNat offset) element := by
  obtain ⟨cursor, passes, position, seen⟩ :=
    holding.scan_stops found ⟨rfl, scanVerdict_of_dataFd forTarget⟩
      unskipped
      (by
        intro earlier entry before foundEntry stops
        obtain ⟨noData, noClose⟩ := first earlier entry before foundEntry stops.1
        rcases dataFd_or_closes_of_stop
          (plain entry (List.mem_of_getElem? foundEntry)) stops.2 with
          data | closes
        · exact absurd data noData
        · exact absurd closes noClose)
  have standing :
      (later.inRegular cursor).peek = (later.inRegular cursor, true, false, element) := by
    rw [peek_inRegular, seen]
  refine ⟨later.inRegular cursor, (later.inRegular cursor).iterEle, ?_, rfl, position, ?_⟩
  · rw [(passes_inRegular passes).returns_iff]
    refine returns_of_last ?_
    rw [round?, round_find standing forTarget]
  · rw [← position]
    exact seen

/-- In the regular queue the scan does not find an element that it skips. -/
theorem not_finds_skipped (holding : buffer.q.Holding regular)
    (plain : ∀ entry ∈ regular, entry.data.IsPlain) (inside : offset < metaQueueSize.slots)
    (skipped : Skipped (scanVerdict fds targetFd) regular offset) (later : ReceiveScan) :
    ¬ FindsAt fds targetFd (later.inRegular (buffer.q.cursorAt 0))
      (buffer.q.receiver.pointer + UInt32.ofNat offset) element := by
  rintro ⟨final, locInBuffer, returns, _, position, _⟩
  rcases holding.scan_cases one_lt_metaQueueSize (scanVerdict fds targetFd)
    with
    ⟨place, entry, found, stops, unskipped, cursor, passes, standing, seen⟩ |
      ⟨_, ⟨_, cursor, passes, ended⟩ | ⟨endless, _⟩⟩
  · have atStop :
        (later.inRegular cursor).peek = (later.inRegular cursor, true, false, entry.data) := by
      rw [peek_inRegular, seen]
    obtain ⟨otherFinal, result, otherReturns, only⟩ :=
      returns_at_stop atStop (plain entry (List.mem_of_getElem? found)) stops.2
    rw [(passes_inRegular passes).returns_iff] at returns
    obtain ⟨_, same⟩ := otherReturns.unique returns
    rw [only locInBuffer same] at position
    have samePointer := standing.symm.trans position
    have sameSlot := congrArg metaQueueSize.cell samePointer
    rw [metaQueueSize.cell_add, metaQueueSize.cell_add] at sameSlot
    have sameOffset := QueueSize.place_add_inj (holding.offset_lt found) inside sameSlot
    rw [sameOffset] at unskipped
    exact unskipped skipped
  · have last : (later.inRegular cursor).round? fds targetFd =
          some (later.inRegular cursor, some .notfind) := by
      rw [round?, round_empty (later.peek_inRegular cursor) ended]
    rw [(passes_inRegular passes).returns_iff] at returns
    cases ((returns_of_last last).unique returns).2
  · exact endless (.inr skipped.1)

end Finds

/--
For every content of the two queues, with an undeleted data element for the
descriptor in the regular queue before which there is no other one and no close
element for the descriptor: the scan returns `FIND` at this element exactly if
it is not the first undeleted element behind a first element that the scan
removes, every element of interest in the emergency queue is, and the scan comes
to the end of the emergency queue.
-/
theorem finds_first_data_iff
    (fds : ReceiveFds)
    (targetFd : Int)
    (buffer : LocalBuffer)
    (iter : List Nat)
    (emergency regular : List (QueueEntry InterprocessElement))
    (holdsEmergency : buffer.qEmergency.Holding emergency)
    (holdsRegular : buffer.q.Holding regular)
    (plainEmergency : ∀ entry ∈ emergency, entry.data.IsPlain)
    (plainRegular : ∀ entry ∈ regular, entry.data.IsPlain)
    (offset : Nat)
    (element : InterprocessElement)
    (found : regular[offset]? = some ⟨element, false⟩)
    (forTarget : element.dataFd = some targetFd)
    (first :
      ∀ earlier entry,
        earlier < offset →
        regular[earlier]? = some entry →
        entry.isdel = false →
        entry.data.dataFd ≠ some targetFd ∧ ¬ entry.data.Closes fds targetFd) :
    FindsAt fds targetFd (start buffer iter) (buffer.q.receiver.pointer + UInt32.ofNat offset)
        element ↔
      ¬ Skipped (scanVerdict fds targetFd) regular offset ∧
      (∀ position entry,
        emergency[position]? = some entry →
        entry.Stops (scanVerdict fds targetFd) →
        Skipped (scanVerdict fds targetFd) emergency position) ∧
      (emergency.length < metaQueueSize.slots ∨ HeadRemoved (scanVerdict fds targetFd) emergency) := by
  have inside := holdsRegular.offset_lt found
  rcases reaches_regular iter holdsEmergency plainEmergency with
    ⟨skips, ends, later, passes⟩ | ⟨fails, nothing⟩
  · have sameReturns : ∀ final result, Returns (round? fds targetFd) (start buffer iter) final
              result ↔ Returns (round? fds targetFd)
              (later.inRegular (buffer.q.cursorAt 0)) final result :=
      fun _ _ => (returns_start_iff buffer iter).trans passes.returns_iff
    have sameFinds : FindsAt fds targetFd (start buffer iter)
            (buffer.q.receiver.pointer + UInt32.ofNat offset) element ↔
          FindsAt fds targetFd (later.inRegular (buffer.q.cursorAt 0))
            (buffer.q.receiver.pointer + UInt32.ofNat offset) element := by
      unfold FindsAt
      simp only [sameReturns]
    rw [sameFinds]
    constructor
    · intro finds
      refine ⟨fun skipped => ?_, skips, ends⟩
      exact not_finds_skipped holdsRegular plainRegular inside skipped later finds
    · rintro ⟨unskipped, _⟩
      exact finds_in_regular holdsRegular plainRegular found forTarget first unskipped later
  · constructor
    · intro finds
      exact absurd finds (nothing _ _)
    · rintro ⟨_, reaches⟩
      exact absurd reaches fails

/-- A metadata queue after `init`. -/
private def freshQueue : SharedQueue metaQueueSize InterprocessElement :=
  InterprocessChannel.clearedQueue metaQueueSize (.other .nop)
    { pointer := 0, credits := metaQueueSize.word }
    { pointer := 0, credits := 0 }
    false

private theorem freshQueue_consistent : freshQueue.Consistent where
  held := TombstoneRing.Holds.empty fun _ => rfl
  senderPointer := rfl
  receiverPointer := rfl

/-- Descriptor 5 is connected to the peer's 3; the key of 7 has been deleted. -/
private def oneFd : ReceiveFds where
  isKeyvalid fd := fd == 5
  peerFd _ := 3

/-- Data and a close for descriptor 5. -/
private def dataThenClose : SharedQueue metaQueueSize InterprocessElement :=
  (freshQueue.write (.dataTransfer 0 5)).write (.closeFd 3 5)

private theorem dataThenClose_holding :
    dataThenClose.Holding [⟨.dataTransfer 0 5, false⟩, ⟨.closeFd 3 5, false⟩] :=
  ((freshQueue_consistent.write (by decide) (.dataTransfer 0 5)).write
    (by decide) (.closeFd 3 5)).holding

/-- With data at the front of the queue the scan finds it. -/
theorem finds_data_at_front :
    FindsAt oneFd 5 (start ⟨dataThenClose, freshQueue, InterprocessChannel.initial.buffer⟩ [0])
        dataThenClose.receiver.pointer (.dataTransfer 0 5) := by
  have finds :=
    finds_first_data_iff oneFd 5
      ⟨dataThenClose, freshQueue, InterprocessChannel.initial.buffer⟩ [0] []
      [⟨.dataTransfer 0 5, false⟩, ⟨.closeFd 3 5, false⟩]
      freshQueue_consistent.holding dataThenClose_holding (by decide)
      (by decide) 0 (.dataTransfer 0 5) rfl rfl
      (fun earlier _ before => absurd before (Nat.not_lt_zero earlier))
  refine finds.mpr ⟨?_, ?_, .inl (by decide)⟩
  · rintro ⟨_, positive, _⟩
    exact absurd positive (Nat.lt_irrefl 0)
  · intro position entry found
    cases found

/--
The peer closes descriptor 7, whose key has been deleted here, sends data for
descriptor 5 and closes descriptor 5.  The scan for descriptor 5 removes the
first element, goes on behind the data element and reports that the descriptor
is closed.
-/
theorem close_reported_before_data :
    ∃ (q : SharedQueue metaQueueSize InterprocessElement) (final : ReceiveScan),
      ((freshQueue.pushNb? (.closeFd 9 7)).bind fun queue =>
           (queue.pushNb? (.dataTransfer 0 5)).bind fun queue => queue.pushNb? (.closeFd 3 5)) =
        some q ∧
      q.contents = [.closeFd 9 7, .dataTransfer 0 5, .closeFd 3 5] ∧
      Returns (round? oneFd 5) (start ⟨q, freshQueue, InterprocessChannel.initial.buffer⟩ [0]) final
          .allclosed := by
  have returned : (finish (round? oneFd 5) 3
          (start
            ⟨((freshQueue.write (.closeFd 9 7)).write
                (.dataTransfer 0 5)).write (.closeFd 3 5),
              freshQueue, InterprocessChannel.initial.buffer⟩ [0])).map
          Prod.snd = some .allclosed := by
    decide +kernel
  obtain ⟨⟨final, result⟩, finished, rfl⟩ := Option.map_eq_some_iff.mp returned
  exact ⟨_, final, rfl, by decide +kernel, 3, finished⟩

end ReceiveScan

end SocksDirect
