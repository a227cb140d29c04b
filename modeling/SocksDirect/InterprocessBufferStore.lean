import SocksDirect.PushDataLoop

namespace SocksDirect

open Function Machine

open TombstoneRing ChainedBlocks

/-!
# The interprocess block buffer is a lossless message store

Along every run the block ids are divided among the queue of free ids and the
chains of the elements that are not deleted, and each of these chains holds the
bytes of its message that have not been popped.

The element of a `push_data` that still waits for room in `q` is treated as the
next element of `q`: it has the index under which it will be pushed.
-/

/-- An element whose slot has been given back or carries the deletion mark. -/
def SharedQueue.Deleted {size : QueueSize} {Data : Type} (queue : SharedQueue size Data)
    (index : Nat) : Prop :=
  index < queue.history.released ∨ (queue.ringbuffer (size.place index)).isdel = true

theorem SharedQueue.Consistent.deleted_iff {size : QueueSize} {Data : Type}
    {queue : SharedQueue size Data} (consistent : queue.Consistent) {index : Nat}
    (inside : index < queue.history.sent.length) :
    queue.Deleted index ↔ queue.history.IsTaken index := by
  by_cases released : index < queue.history.released
  · exact iff_of_true (Or.inl released) (consistent.held.releasedTaken index released)
  · rw [SharedQueue.Deleted, or_iff_right released]
    exact consistent.held.marked index (Nat.le_of_not_lt released) inside

namespace InterprocessChannel

/-- The elements of `q`, followed by the one that waits. -/
def elements (channel : InterprocessChannel) : List TransferElement :=
  channel.q.history.sent ++ (channel.waiting.map Prod.fst).toList

/-- The messages of `q`, followed by the one that waits. -/
def messages (channel : InterprocessChannel) : List Transfer :=
  channel.transfers ++ (channel.waiting.map fun entry => { bytes := entry.2, popped := [] }).toList

/-- The indices of the elements that are not deleted. -/
def liveIndices (channel : InterprocessChannel) : List Nat :=
  channel.q.history.pendingIndices ++
    (channel.waiting.map fun _ => channel.q.history.sent.length).toList

/-- The element of a message points to a chain with the bytes not yet popped. -/
def Keeps (elements : List TransferElement) (messages : List Transfer) (mem : Int → BufferBlock)
    (ids : List Int) (index : Nat) : Prop :=
  ∃ element transfer rest, elements[index]? = some element ∧ messages[index]? = some transfer ∧
      element.pointer = ids.headD (-1) ∧ transfer.bytes = transfer.popped ++ rest ∧ rest ≠ [] ∧
      Stored mem ids rest

theorem Keeps.congr {elements elementsLater : List TransferElement}
    {messages messagesLater : List Transfer} {mem memLater : Int → BufferBlock} {ids : List Int}
    {index : Nat} (keeps : Keeps elements messages mem ids index)
    (sameElement : elementsLater[index]? = elements[index]?)
    (sameMessage : messagesLater[index]? = messages[index]?)
    (sameBlocks : ∀ id ∈ ids, memLater id = mem id) :
    Keeps elementsLater messagesLater memLater ids index := by
  obtain ⟨element, transfer, rest, isElement, isMessage, points, bytes, some, stored⟩ := keeps
  exact
    ⟨element, transfer, rest, sameElement.trans isElement,
      sameMessage.trans isMessage, points, bytes, some, stored.congr sameBlocks⟩

/--
Both queues are in order, every message that is not deleted is kept in its chain,
every deleted one has been popped, and chains and free ids divide all blocks.
-/
structure Kept
    (channel : InterprocessChannel)
    (chains : Nat → List Int) : Prop where
  available : channel.buffer.availSlots.Uncredited
  sound : channel.q.Sound
  balanced : channel.q.Balanced
  enabled : channel.q.creditDisabled = false
  numbered : channel.transfers.length = channel.q.history.sent.length
  live : ∀ index ∈ channel.liveIndices,
      Keeps channel.elements channel.messages channel.buffer.mem (chains index) index
  finished : ∀ index, channel.q.history.IsTaken index →
      ∃ transfer, channel.transfers[index]? = some transfer ∧ transfer.popped = transfer.bytes
  partition : (channel.buffer.free ++ channel.liveIndices.flatMap chains).Perm allBlocks

section Live

variable {channel : InterprocessChannel}

theorem mem_liveIndices {index : Nat} : index ∈ channel.liveIndices ↔
      index ∈ channel.q.history.pendingIndices ∨
      channel.waiting.isSome ∧ index = channel.q.history.sent.length := by
  cases waiting : channel.waiting with
  | none | some => simp [liveIndices, waiting]

theorem nodup_liveIndices (channel : InterprocessChannel) : channel.liveIndices.Nodup := by
  refine List.nodup_append'.mpr ⟨channel.q.history.nodup_pendingIndices, ?_, ?_⟩
  · cases channel.waiting with
    | none => exact List.nodup_nil
    | some entry => exact List.nodup_singleton _
  · intro index pending waits
    have inside := (History.mem_pendingIndices.mp pending).1
    cases waiting : channel.waiting with
    | none => simp [waiting] at waits
    | some entry =>
      simp only [waiting, Option.map_some, Option.toList_some, List.mem_singleton] at waits
      exact Nat.ne_of_lt inside waits

theorem contents_append_waiting (consistent : channel.q.Consistent) :
    channel.q.contents ++ (channel.waiting.map Prod.fst).toList =
      channel.liveIndices.filterMap (channel.elements[·]?) := by
  have sent : channel.q.history.pendingIndices.filterMap
          (channel.elements[·]?) = channel.q.history.pending := by
    rw [History.pending_eq_filterMap]
    refine List.filterMap_congr fun index member => ?_
    exact List.getElem?_append_left (History.mem_pendingIndices.mp member).1
  rw [consistent.contents_eq, liveIndices, List.filterMap_append, sent]
  cases waiting : channel.waiting with
  | none => rfl
  | some entry => simp [elements, waiting]

end Live

namespace Kept

variable {channel next : InterprocessChannel} {chains : Nat → List Int}

theorem distinct (kept : channel.Kept chains) :
    (channel.buffer.free ++ channel.liveIndices.flatMap chains).Nodup :=
  kept.partition.nodup_iff.mpr nodup_allBlocks

/-- The free ids are distinct blocks. -/
theorem proper (kept : channel.Kept chains) : BlockBuffer.Proper (fun _ => []) channel.buffer where
  available := kept.available
  distinct := by
    intro rounds
    rw [BlockBuffer.releasedIn_alone, List.append_nil]
    exact (List.nodup_append'.mp kept.distinct).1
  blocks := by
    intro rounds id member
    rw [BlockBuffer.releasedIn_alone, List.append_nil] at member
    exact kept.partition.mem_iff.mp (List.mem_append_left _ member)

variable {index : Nat}

section

variable (kept : channel.Kept chains)

include kept

theorem nodup_chain (member : index ∈ channel.liveIndices) : (chains index).Nodup :=
  (List.nodup_flatMap.mp (List.nodup_append'.mp kept.distinct).2.1).1 index member

theorem not_mem_free (member : index ∈ channel.liveIndices) {id : Int} (inChain : id ∈ chains index) :
    id ∉ channel.buffer.free := fun isFree =>
  (List.nodup_append'.mp kept.distinct).2.2 isFree (List.mem_flatMap.mpr ⟨index, member, inChain⟩)

theorem not_mem_other {other : Nat} (member : index ∈ channel.liveIndices)
    (otherMember : other ∈ channel.liveIndices) (different : other ≠ index) {id : Int}
    (inChain : id ∈ chains other) :
    id ∉ chains index :=
  not_mem_of_ne (List.nodup_append'.mp kept.distinct).2.1 member otherMember different inChain

theorem length_free_add_chain (member : index ∈ channel.liveIndices) :
    channel.buffer.free.length + (chains index).length ≤
      slotsInBuffer := by
  have length := kept.partition.length_eq
  have chain := (perm_flatMap_erase member chains).length_eq
  rw [length_allBlocks, List.length_append, chain, List.length_append] at length
  omega

theorem freeBlocks_eq : channel.freeBlocks = channel.buffer.free := kept.available.contents_eq

/-- `push_data` with enough free blocks builds a chain for its bytes. -/
theorem pushData?_eq {fd : Int} {bytes : List UInt8}
    (stepped : channel.pushData? fd bytes = some next) :
    channel.waiting = none ∧ bytes ≠ [] ∧ ∃ ids pushed,
        BlockBuffer.Pushed channel.buffer bytes (-1) (-1) ids pushed ∧ next =
            { channel with
              buffer := pushed.1
              waiting := some ({ pointer := ids.headD (-1), fd := fd }, bytes) } := by
  rw [pushData?] at stepped
  split at stepped
  · next allowed =>
      obtain ⟨idle, some, enough⟩ := allowed
      rw [kept.freeBlocks_eq] at enough
      obtain ⟨ids, pushed⟩ :=
        BlockBuffer.pushdata_spec kept.proper enough
      have nonempty := List.length_pos_iff.mp some
      have returned : (channel.buffer.pushdata bytes).2 = ids.headD (-1) := by
        rw [pushed.returned, if_pos rfl]
      have chained : ids.headD (-1) ≠ -1 := mt pushed.stored.headD_eq_stop_iff.mp nonempty
      simp only [returned, if_neg chained] at stepped
      exact
        ⟨Option.isNone_iff_eq_none.mp idle, nonempty, ids, _, pushed,
          (Option.some.inj stepped).symm⟩
  · exact absurd stepped (Option.some_ne_none _).symm

/-- The step of `push_data` up to its `push`. -/
theorem pushData {fd : Int} {bytes : List UInt8} (stepped : channel.pushData? fd bytes = some next) :
    ∃ chainsNext, next.Kept chainsNext := by
  obtain ⟨idle, some, ids, pushed, isPushed, rfl⟩ := kept.pushData?_eq stepped
  have live := kept.live
  have partition := kept.partition
  simp only [liveIndices, elements, messages, idle, Option.map_none,
    Option.toList_none, List.append_nil] at live partition
  have older : ∀ index ∈ channel.q.history.pendingIndices,
        update chains channel.q.history.sent.length ids index = chains index := fun index member =>
    update_of_ne (Nat.ne_of_lt (History.mem_pendingIndices.mp member).1) _ _
  refine
    ⟨update chains channel.q.history.sent.length ids,
      { available := isPushed.available
        sound := kept.sound
        balanced := kept.balanced
        enabled := kept.enabled
        numbered := kept.numbered
        live := ?_
        finished := kept.finished
        partition := ?_ }⟩
  · intro index member
    rcases mem_liveIndices.mp member with pending | ⟨-, rfl⟩
    · rw [older index pending]
      have inside := (History.mem_pendingIndices.mp pending).1
      refine (live index pending).congr
        (List.getElem?_append_left inside)
        (List.getElem?_append_left (kept.numbered.symm ▸ inside)) ?_
      intro id inChain
      have notFree := kept.not_mem_free (mem_liveIndices.mpr (Or.inl pending)) inChain
      rw [isPushed.taken] at notFree
      refine isPushed.unchanged id (fun taken => notFree (List.mem_append_left _ taken)) ?_
      rintro rfl
      exact stop_not_mem_allBlocks
        (partition.mem_iff.mp
          (List.mem_append_right _ (List.mem_flatMap.mpr ⟨index, pending, inChain⟩)))
    · rw [update_self]
      refine
        ⟨_, { bytes := bytes, popped := [] }, bytes,
          List.getElem?_concat_length, ?_, rfl, rfl, some, isPushed.stored⟩
      rw [← kept.numbered]
      exact List.getElem?_concat_length
  · refine List.Perm.trans ?_ partition
    simp only [liveIndices, Option.map_some, Option.toList_some,
      List.flatMap_append, List.flatMap_singleton, update_self, List.flatMap_congr older]
    rw [isPushed.taken, ← List.append_assoc, List.append_assoc ids]
    exact List.perm_append_comm

/-- An attempt to push the element that waits. -/
theorem push (stepped : channel.push? = some next) : next.Kept chains := by
  rw [push?] at stepped
  split at stepped
  · exact absurd stepped (Option.some_ne_none _).symm
  · next element bytes waits =>
      split at stepped
      · exact Option.some.inj stepped ▸ kept
      · next q accepted =>
          obtain ⟨sound, balanced, enabled, history⟩ :=
            kept.sound.pushNb?_spec kept.balanced kept.enabled accepted
          obtain rfl := Option.some.inj stepped
          have sameLive : q.history.pendingIndices = channel.liveIndices := by
            rw [history, kept.sound.held.delivered.pendingIndices_push, liveIndices, waits]
            rfl
          have sameElements : q.history.sent = channel.elements := by
            rw [history, elements, waits]
            rfl
          have sameMessages : channel.transfers ++ [{ bytes := bytes, popped := [] }] =
                channel.messages := by
            rw [messages, waits]
            rfl
          constructor
          case available => exact kept.available
          case sound => exact sound
          case balanced => exact balanced
          case enabled => exact enabled
          case numbered =>
            simp only [history, History.push, List.length_append,
              List.length_singleton, kept.numbered]
          case live =>
            simp only [liveIndices, elements, messages, Option.map_none,
              Option.toList_none, List.append_nil, sameLive, sameElements, sameMessages]
            exact kept.live
          case finished =>
            rw [history]
            intro index taken
            obtain ⟨transfer, present, complete⟩ := kept.finished index taken
            refine ⟨transfer, ?_, complete⟩
            have inside := (List.getElem?_eq_some_iff.mp present).1
            rw [List.getElem?_append_left inside]
            exact present
          case partition =>
            simp only [liveIndices, Option.map_none, Option.toList_none, List.append_nil, sameLive]
            exact kept.partition

end

/-- What `pop_data` does to the message of the element at its iterator. -/
structure PopsMessage
    (channel : InterprocessChannel)
    (loc : UInt32)
    (len : Nat)
    (next : InterprocessChannel)
    (ids : List Int)
    (index : Nat)
    (transfer : Transfer)
    (rest : List UInt8)
    (consumed left : List Int)
    (result : PopResult) : Prop where
  placed : metaQueueSize.place index = metaQueueSize.cell loc
  behind : channel.q.history.released ≤ index
  inside : index < channel.q.history.sent.length
  fresh : ¬ channel.q.history.IsTaken index
  message : channel.transfers[index]? = some transfer
  bytes : transfer.bytes = transfer.popped ++ rest
  popped : BlockBuffer.Popped channel.buffer ids rest len [] consumed left result
  buffer_eq : next.buffer = result.buffer
  deletes : rest.drop len = [] → next.q = channel.q.del loc false
  sets : rest.drop len ≠ [] →
      next.q = channel.q.set loc { (channel.q.peek loc).2.2 with pointer := left.headD (-1) }
  waiting_eq : next.waiting = channel.waiting
  transfers_eq : next.transfers =
      channel.transfers.set index { transfer with popped := transfer.popped ++ rest.take len }
  returned_eq : next.returned = len - (len - rest.length)

/-- `pop_data` on an element that is not deleted. -/
theorem popData?_eq (kept : channel.Kept chains) {loc : UInt32} {len : Nat}
    (stepped : channel.popData? loc len = some next) :
    ∃ index transfer rest consumed left result,
      PopsMessage channel loc len next (chains index) index transfer rest
      consumed left result := by
  rw [popData?] at stepped
  split at stepped
  · next selected =>
      obtain ⟨valid, undeleted⟩ := selected
      obtain ⟨index, placed, behind, inside, fresh⟩ := kept.sound.exists_of_peek valid undeleted
      have serial := kept.sound.held.serial index behind inside
      have content := kept.sound.held.content index behind inside
      rw [placed] at serial content
      have member : index ∈ channel.liveIndices :=
        mem_liveIndices.mpr (Or.inl (History.mem_pendingIndices.mpr ⟨inside, fresh⟩))
      obtain ⟨element, transfer, rest, isElement, isMessage, points, bytes,
        -, stored⟩ := kept.live index member
      rw [elements, List.getElem?_append_left inside, content] at isElement
      rw [messages, List.getElem?_append_left (kept.numbered.symm ▸ inside)] at isMessage
      have room := kept.length_free_add_chain member
      obtain ⟨consumed, left, popped⟩ :=
        BlockBuffer.popdata_spec kept.available
          (Nat.le_trans room (by decide)) stored
          (kept.nodup_chain member) len
      have pointer : (channel.q.peek loc).2.2.pointer = (chains index).headD (-1) := by
        rw [← points, ← Option.some.inj isElement]
        rfl
      have stops := popped.stored.headD_eq_stop_iff
      simp only [pointer, serial, popped.current, popped.popped,
        popped.missing, stops, List.nil_append] at stepped
      obtain rfl := Option.some.inj stepped
      refine
        ⟨index, transfer, rest, consumed, left,
          channel.buffer.popdata ((chains index).headD (-1)) len, ?_⟩
      exact
        { placed := placed
          behind := behind
          inside := inside
          fresh := fresh
          message := isMessage
          bytes := bytes
          popped := popped
          buffer_eq := rfl
          deletes := fun done => if_pos done
          sets := fun more => if_neg more
          waiting_eq := rfl
          transfers_eq := by
            rw [List.modify_eq_set_getElem?, isMessage]
            rfl
          returned_eq := rfl }
  · exact absurd stepped (Option.some_ne_none _).symm

section Pop

variable {loc : UInt32} {len index : Nat} {transfer : Transfer} {rest : List UInt8}
variable {consumed left : List Int} {result : PopResult}

theorem PopsMessage.mem_liveIndices {ids : List Int}
    (pops : PopsMessage channel loc len next ids index transfer rest consumed left result) :
    index ∈ channel.liveIndices :=
  InterprocessChannel.mem_liveIndices.mpr
    (Or.inl (History.mem_pendingIndices.mpr ⟨pops.inside, pops.fresh⟩))

section

variable (kept : channel.Kept chains)
variable (pops : PopsMessage channel loc len next (chains index) index transfer rest consumed left result)

include kept pops

theorem keeps_others {other : Nat} (member : other ∈ channel.liveIndices)
    (different : other ≠ index) (sameElement : next.elements[other]? = channel.elements[other]?) :
    Keeps next.elements next.messages next.buffer.mem (chains other)
      other := by
  refine (kept.live other member).congr sameElement ?_ ?_
  · have inside := kept.numbered.symm ▸ pops.inside
    rw [messages, pops.transfers_eq, pops.waiting_eq, ← List.set_append_left _ _ inside]
    exact List.getElem?_set_ne (Ne.symm different)
  · intro id inChain
    rw [pops.buffer_eq]
    exact pops.popped.unchanged id
      (kept.not_mem_other pops.mem_liveIndices member different inChain)

theorem finished_others {other : Nat} (taken : channel.q.history.IsTaken other) : ∃ transfer,
      next.transfers[other]? = some transfer ∧ transfer.popped = transfer.bytes := by
  have different : index ≠ other := by
    rintro rfl
    exact pops.fresh taken
  obtain ⟨transfer, present, complete⟩ := kept.finished other taken
  refine ⟨transfer, ?_, complete⟩
  rw [pops.transfers_eq, List.getElem?_set_ne different]
  exact present

theorem partition_pop : (next.buffer.free ++
      (left ++ (channel.liveIndices.erase index).flatMap chains)).Perm
      allBlocks := by
  refine List.Perm.trans ?_ kept.partition
  have chain := perm_flatMap_erase pops.mem_liveIndices chains
  rw [pops.popped.split, List.append_assoc] at chain
  rw [pops.buffer_eq, pops.popped.released, List.append_assoc]
  exact chain.symm.append_left _

/-- `pop_data` that takes the last byte of a message deletes its element. -/
theorem popData_last (last : rest.drop len = []) : next.Kept chains := by
  have deletes := pops.deletes last
  obtain ⟨sound, same, disabled, balanced⟩ :=
    kept.sound.del pops.placed pops.behind pops.inside pops.fresh
      (fun (impossible : false = true) => Bool.noConfusion impossible)
  have serial := kept.sound.held.serial index pops.behind pops.inside
  rw [pops.placed] at serial
  rw [← deletes] at sound same disabled balanced
  have sameSent : next.q.history.sent = channel.q.history.sent := same.sent
  have taken : ∀ other,
        next.q.history.IsTaken other ↔ channel.q.history.IsTaken other ∨ other = index := by
    intro other
    rw [History.IsTaken, same.taken, ← serial]
    exact History.isTaken_take_iff
  have pending :
      next.q.history.pendingIndices = channel.q.history.pendingIndices.filter (· ≠ index) := by
    rw [same.pendingIndices_eq, ← serial]
    exact History.pendingIndices_take
  have live : next.liveIndices = channel.liveIndices.erase index := by
    rw [(nodup_liveIndices channel).erase_eq_filter, liveIndices,
      liveIndices, pending, pops.waiting_eq, sameSent, List.filter_append]
    have kept : ∀ other ∈
          (channel.waiting.map fun _ => channel.q.history.sent.length).toList,
          (other != index) = true := by
      intro other member
      simp only [Option.mem_toList, Option.map_eq_some_iff] at member
      obtain ⟨-, -, rfl⟩ := member
      exact bne_iff_ne.mpr (Ne.symm (Nat.ne_of_lt pops.inside))
    rw [List.filter_eq_self.mpr kept]
    simp only [ne_eq, decide_not]
    rfl
  have sameElements : next.elements = channel.elements := by
    rw [elements, elements, sameSent, pops.waiting_eq]
  constructor
  case available =>
    rw [pops.buffer_eq]
    exact pops.popped.available
  case sound => exact sound
  case balanced => exact balanced kept.balanced
  case enabled => exact disabled.trans kept.enabled
  case numbered => rw [pops.transfers_eq, List.length_set, sameSent, kept.numbered]
  case live =>
    intro other member
    rw [live, (nodup_liveIndices channel).mem_erase_iff] at member
    exact kept.keeps_others pops member.2 member.1 (congrArg (·[other]?) sameElements)
  case finished =>
    intro other isTaken
    rcases (taken other).mp isTaken with before | rfl
    · exact kept.finished_others pops before
    · refine ⟨{ transfer with popped := transfer.popped ++ rest.take len }, ?_, ?_⟩
      · rw [pops.transfers_eq]
        exact List.getElem?_set_self (kept.numbered.symm ▸ pops.inside)
      · rw [List.take_of_length_le (List.drop_eq_nil_iff.mp last)]
        exact pops.bytes.symm
  case partition =>
    have empty : left = [] := pops.popped.stored.eq_nil_iff.mpr last
    have divided := kept.partition_pop pops
    rw [empty, List.nil_append] at divided
    rwa [live]

/-- `pop_data` that leaves bytes of a message behind keeps its element. -/
theorem popData_more (more : rest.drop len ≠ []) : next.Kept (update chains index left) := by
  have sets := pops.sets more
  obtain ⟨sound, history⟩ :=
    kept.sound.set pops.placed pops.behind pops.inside pops.fresh
      { (channel.q.peek loc).2.2 with pointer := left.headD (-1) }
  rw [← sets] at sound history
  have pending : next.q.history.pendingIndices = channel.q.history.pendingIndices := by
    rw [history]
    simp only [History.pendingIndices, History.rewrite, List.length_set]
    rfl
  have sameLength : next.q.history.sent.length = channel.q.history.sent.length := by
    rw [history]
    exact List.length_set
  have live : next.liveIndices = channel.liveIndices := by
    rw [liveIndices, liveIndices, pending, sameLength, pops.waiting_eq]
  have elementsNext : next.elements = channel.elements.set index
          { (channel.q.peek loc).2.2 with
            pointer := left.headD (-1) } := by
    rw [elements, elements, history, pops.waiting_eq]
    exact (List.set_append_left _ _ pops.inside).symm
  have insideElements : index < channel.elements.length := by
    rw [elements, List.length_append]
    exact Nat.lt_add_right _ pops.inside
  constructor
  case available =>
    rw [pops.buffer_eq]
    exact pops.popped.available
  case sound => exact sound
  case balanced =>
    rw [sets]
    exact kept.balanced.set _ _
  case enabled =>
    rw [sets]
    exact kept.enabled
  case numbered => rw [pops.transfers_eq, List.length_set, sameLength, kept.numbered]
  case live =>
    intro other member
    rw [live] at member
    by_cases same : other = index
    · subst same
      rw [update_self]
      refine
        ⟨{ (channel.q.peek loc).2.2 with pointer := left.headD (-1) },
          { transfer with popped := transfer.popped ++ rest.take len },
          rest.drop len, ?_, ?_, rfl, ?_, more, ?_⟩
      · rw [elementsNext]
        exact List.getElem?_set_self insideElements
      · have inside := kept.numbered.symm ▸ pops.inside
        rw [messages, pops.transfers_eq, List.getElem?_append_left (List.length_set.symm ▸ inside)]
        exact List.getElem?_set_self inside
      · rw [List.append_assoc, List.take_append_drop]
        exact pops.bytes
      · rw [pops.buffer_eq]
        exact pops.popped.stored
    · rw [update_of_ne same]
      refine kept.keeps_others pops member same ?_
      rw [elementsNext]
      exact List.getElem?_set_ne (Ne.symm same)
  case finished =>
    rw [history]
    exact fun other taken => kept.finished_others pops taken
  case partition =>
    have updated := perm_flatMap_update (nodup_liveIndices channel) pops.mem_liveIndices chains left
    rw [live]
    exact (updated.append_left _).trans (kept.partition_pop pops)

end

end Pop

theorem popData (kept : channel.Kept chains) {loc : UInt32} {len : Nat}
    (stepped : channel.popData? loc len = some next) :
    ∃ chainsNext, next.Kept chainsNext := by
  obtain ⟨index, transfer, rest, consumed, left, result, pops⟩ := kept.popData?_eq stepped
  by_cases last : rest.drop len = []
  · exact ⟨chains, kept.popData_last pops last⟩
  · exact ⟨update chains index left, kept.popData_more pops last⟩

theorem liveBlocks_eq (kept : channel.Kept chains) :
    channel.liveBlocks = channel.liveIndices.flatMap chains := by
  rw [liveBlocks, contents_append_waiting kept.sound.toConsistent]
  refine flatMap_filterMap_eq fun index member => ?_
  obtain ⟨element, _, _, isElement, -, points, -, -, stored⟩ := kept.live index member
  have length := kept.length_free_add_chain member
  refine ⟨element, isElement, ?_⟩
  rw [points, chainIds]
  exact stored.linked.follow_eq (show (chains index).length < slotsInBuffer + 1 by omega)

/-- A message is deleted exactly when its last byte has been popped. -/
theorem popped_and_deleted (kept : channel.Kept chains) {transfer : Transfer}
    (message : channel.transfers[index]? = some transfer) :
    transfer.popped <+: transfer.bytes ∧
      (channel.q.Deleted index ↔ transfer.popped = transfer.bytes) := by
  have inside := (List.getElem?_eq_some_iff.mp message).1
  have sent := kept.numbered ▸ inside
  rw [kept.sound.deleted_iff sent]
  by_cases taken : channel.q.history.IsTaken index
  · obtain ⟨same, present, complete⟩ := kept.finished index taken
    obtain rfl : transfer = same := Option.some.inj (message.symm.trans present)
    exact ⟨complete ▸ List.prefix_rfl, iff_of_true taken complete⟩
  · have pending := History.mem_pendingIndices.mpr ⟨sent, taken⟩
    obtain ⟨-, same, rest, -, isMessage, -, bytes, unfinished, -⟩ :=
      kept.live index (mem_liveIndices.mpr (Or.inl pending))
    rw [messages, List.getElem?_append_left inside] at isMessage
    obtain rfl : transfer = same := Option.some.inj (message.symm.trans isMessage)
    refine ⟨⟨rest, bytes.symm⟩, iff_of_false taken fun complete => ?_⟩
    rw [← complete] at bytes
    exact unfinished (List.self_eq_append_right.mp bytes)

end Kept

theorem sound_clearedQueue {Data : Type} (size : QueueSize) (zero : Data)
    (senderCredits receiverCredits : UInt32) (creditDisabled : Bool) :
    (clearedQueue size zero
      { pointer := 0, credits := senderCredits }
      { pointer := 0, credits := receiverCredits }
      creditDisabled).Sound where
  held := Holds.empty fun _ => rfl
  senderPointer := rfl
  receiverPointer := rfl
  present := fun inside => absurd inside (Nat.lt_irrefl 0)

/-- The loop of `monitor_init` over the first ids. -/
theorem monitorInit_spec {count : Nat} (bounded : count ≤ slotsInBuffer) :
    ∃ queue : SharedQueue availQueueSize Int, (List.range count).foldl
      (fun queue id => (queue.pushNb? (Int.ofNat id)).getD queue)
      (clearedQueue availQueueSize 0
      { pointer := 0, credits := 0 }
      { pointer := 0, credits := 0 }
      true) = queue ∧ queue.Uncredited ∧ queue.history.pending = (List.range count).map Int.ofNat ∧
      queue.history.sent.length = count ∧ queue.history.released = 0 := by
  induction count with
  | zero =>
    refine ⟨_, rfl, ?_, rfl, rfl, rfl⟩
    exact
      { sound_clearedQueue availQueueSize 0 0 0 true with
        disabled := rfl
        contiguous := fun _ _ => List.not_mem_nil }
  | succ count inductionHypothesis =>
    obtain ⟨queue, before, uncredited, pending, sent, released⟩ :=
      inductionHypothesis (Nat.le_of_succ_le bounded)
    have room : queue.history.pending.length < availQueueSize.slots := by
      rw [pending, List.length_map, List.length_range]
      exact Nat.lt_of_lt_of_le bounded (by decide)
    obtain ⟨accepted, uncreditedNext, pendingNext⟩ := uncredited.pushNb?_eq room (Int.ofNat count)
    refine ⟨queue.write (Int.ofNat count), ?_, uncreditedNext, ?_, ?_, released⟩
    · rw [List.range_succ, List.foldl_append, before]
      simp only [List.foldl_cons, List.foldl_nil, accepted, Option.getD_some]
    · rw [pendingNext, pending, List.range_succ, List.map_append]
      rfl
    · rw [← sent]
      exact List.length_append

/-- After both sides' `init` the queue of free ids holds all blocks. -/
theorem available_initial :
    initial.buffer.availSlots.Uncredited ∧ initial.buffer.free = allBlocks := by
  obtain ⟨queue, isMonitor, uncredited, pending, sent, released⟩ :=
    monitorInit_spec (Nat.le_refl slotsInBuffer)
  have monitor : monitorInit = queue := isMonitor
  have pointer : UInt32.ofNat slotsInBuffer = UInt32.ofNat queue.history.sent.length := by rw [sent]
  have front : (0 : UInt32) = UInt32.ofNat queue.history.released := by
    rw [released]
    rfl
  simp only [BlockBuffer.free, initial, monitor]
  refine ⟨?_, pending⟩
  exact
    { held := uncredited.held
      senderPointer := pointer
      receiverPointer := front
      present := uncredited.present
      disabled := uncredited.disabled
      contiguous := uncredited.contiguous }

theorem kept_initial : initial.Kept fun _ => [] := by
  constructor
  case available => exact available_initial.1
  case sound => exact sound_clearedQueue _ _ _ _ _
  case balanced =>
    exact
      { account := by decide
        counted := by decide }
  case enabled => rfl
  case numbered => rfl
  case live => exact fun _ member => absurd member List.not_mem_nil
  case finished => exact fun _ taken => absurd taken List.not_mem_nil
  case partition =>
    have noMessage : initial.liveIndices.flatMap (fun _ => ([] : List Int)) = [] := rfl
    rw [available_initial.2, noMessage, List.append_nil]

/-- The blocks can be divided among the free ids and the messages. -/
def Tracked (channel : InterprocessChannel) : Prop := ∃ chains, channel.Kept chains

theorem Tracked.step {channel next : InterprocessChannel} {action : TransferAction}
    (tracked : channel.Tracked) (stepped : channel.step? action = some next) :
    next.Tracked := by
  obtain ⟨chains, kept⟩ := tracked
  cases action with
  | pushData fd bytes => exact kept.pushData stepped
  | push => exact ⟨chains, kept.push stepped⟩
  | popData loc len => exact kept.popData stepped

theorem Tracked.of_run {actions : List TransferAction} {channel : InterprocessChannel}
    (reached : run? step? initial actions = some channel) :
    channel.Tracked :=
  invariant_of_run ⟨_, kept_initial⟩
    (fun tracked stepped => Tracked.step tracked stepped) reached

/--
A `pop_data` of `len` bytes returns the next bytes of its message and deletes the
element if these are the last ones.
-/
structure ReturnsNextBytes
    (channel : InterprocessChannel)
    (loc : UInt32)
    (len : Nat)
    (next : InterprocessChannel)
    (index : Nat)
    (transfer : Transfer) : Prop where
  selected : channel.q.history.serial (metaQueueSize.cell loc) = index
  message : channel.transfers[index]? = some transfer
  popped : next.transfers = channel.transfers.set index
        { transfer with
          popped := transfer.popped ++ (transfer.bytes.drop transfer.popped.length).take len }
  returned : next.returned = ((transfer.bytes.drop transfer.popped.length).take len).length
  deletes : transfer.bytes.length ≤ transfer.popped.length + len → next.q = channel.q.del loc false
  moves : transfer.popped.length + len < transfer.bytes.length → ∃ pointer,
        next.q = channel.q.set loc { (channel.q.peek loc).2.2 with pointer := pointer }

/-- What `pop_data` does, in terms of the message. -/
theorem Kept.returnsNextBytes {channel next : InterprocessChannel} {chains : Nat → List Int}
    (kept : channel.Kept chains) {loc : UInt32} {len : Nat}
    (stepped : channel.popData? loc len = some next) :
    ∃ index transfer, ReturnsNextBytes channel loc len next index transfer := by
  obtain ⟨index, transfer, rest, consumed, left, result, pops⟩ := kept.popData?_eq stepped
  have remaining : transfer.bytes.drop transfer.popped.length = rest := by
    rw [pops.bytes, List.drop_left]
  have length : transfer.bytes.length = transfer.popped.length + rest.length := by
    rw [pops.bytes, List.length_append]
  have serial := kept.sound.held.serial index pops.behind pops.inside
  rw [pops.placed] at serial
  refine ⟨index, transfer, ?_⟩
  constructor
  case selected => exact serial
  case message => exact pops.message
  case popped =>
    rw [remaining]
    exact pops.transfers_eq
  case returned =>
    rw [remaining, pops.returned_eq, List.length_take]
    omega
  case deletes =>
    intro last
    exact pops.deletes (List.drop_eq_nil_iff.mpr (by omega))
  case moves =>
    intro more
    refine ⟨left.headD (-1), pops.sets ?_⟩
    rw [ne_eq, List.drop_eq_nil_iff]
    omega

/--
The block buffer is a lossless message store.  In every state that the two
sides reach from `monitor_init` and `init`:

- what `pop_data` has returned for a message are its first bytes, and the
  element is deleted exactly when these are all of them;
- a `push_data` with enough free blocks stores all of its bytes in a chain;
- a `pop_data` of any length returns the next bytes of the message of its
  element;
- every block id is exactly once in the queue of free ids or in exactly one of
  the live chains.
-/
theorem lossless_message_store
    {actions : List TransferAction}
    {channel : InterprocessChannel}
    (reached : run? step? initial actions = some channel) :
    (∀ index transfer,
      channel.transfers[index]? = some transfer →
      transfer.popped <+: transfer.bytes ∧
      (channel.q.Deleted index ↔ transfer.popped = transfer.bytes)) ∧
      (∀ fd bytes next,
        channel.step? (.pushData fd bytes) = some next →
        ∃ pointer, next.waiting = some ({ pointer := pointer, fd := fd }, bytes)) ∧
      (∀ loc len next,
        channel.step? (.popData loc len) = some next →
        ∃ index transfer, ReturnsNextBytes channel loc len next index transfer) ∧
      (channel.freeBlocks ++ channel.liveBlocks).Perm allBlocks := by
  obtain ⟨chains, kept⟩ := Tracked.of_run reached
  refine ⟨?_, ?_, ?_, ?_⟩
  · intro index transfer message
    exact kept.popped_and_deleted message
  · intro fd bytes next stepped
    obtain ⟨-, -, ids, -, -, rfl⟩ := kept.pushData?_eq stepped
    exact ⟨ids.headD (-1), rfl⟩
  · intro loc len next stepped
    exact kept.returnsNextBytes stepped
  · rw [kept.freeBlocks_eq, kept.liveBlocks_eq]
    exact kept.partition

/-- Three bytes are pushed and popped in two chunks. -/
theorem lossless_message_store_two_chunks :
    ∃ channel,
      run? step? initial [.pushData 7 [1, 2, 3], .push, .popData 0 2, .popData 0 5] = some channel ∧
      channel.transfers = [{ bytes := [1, 2, 3], popped := [1, 2, 3] }] ∧
      channel.q.Deleted 0 ∧
      channel.returned = 1 ∧
      (channel.freeBlocks ++ channel.liveBlocks).Perm allBlocks := by
  have count : initial.freeBlocks.length = slotsInBuffer := by
    rw [kept_initial.freeBlocks_eq, available_initial.2, length_allBlocks]
  obtain ⟨pushing, first⟩ : ∃ pushing, initial.pushData? 7 [1, 2, 3] = some pushing := by
    rw [pushData?, if_pos ⟨rfl, by decide, by rw [count]; decide⟩]
    dsimp only
    split <;> exact ⟨_, rfl⟩
  obtain ⟨-, -, ids, buffer, isPushed, rfl⟩ := kept_initial.pushData?_eq first
  obtain ⟨pushed, second, queue, message⟩ : ∃ pushed, push?
            { initial with
              buffer := buffer.1
              waiting := some ({ pointer := ids.headD (-1), fd := 7 }, [1, 2, 3]) } = some pushed ∧
        pushed.q = initial.q.write { pointer := ids.headD (-1), fd := 7 } ∧
        pushed.transfers = [{ bytes := [1, 2, 3], popped := [] }] :=
    ⟨_, rfl, rfl, rfl⟩
  have reachedPushed : run? step? initial [.pushData 7 [1, 2, 3], .push] = some pushed :=
    run?_cons_eq_some.mpr ⟨_, first, run?_cons_eq_some.mpr ⟨_, second, rfl⟩⟩
  obtain ⟨popping, third⟩ : ∃ popping, pushed.popData? 0 2 = some popping :=
    ⟨_, if_pos ⟨by rw [queue]; rfl, by rw [queue]; rfl⟩⟩
  obtain ⟨index, transfer, returns⟩ :=
    (lossless_message_store reachedPushed).2.2.1 0 2 popping third
  obtain rfl : 0 = index := by
    rw [← returns.selected, queue]
    rfl
  obtain rfl : { bytes := [1, 2, 3], popped := [] } = transfer := by
    have selected := returns.message
    rw [message] at selected
    exact Option.some.inj selected
  obtain ⟨pointer, moved⟩ := returns.moves (by decide)
  have reachedPopping : run? step? initial
          [.pushData 7 [1, 2, 3], .push, .popData 0 2] = some popping :=
    run?_cons_eq_some.mpr
      ⟨_, first, run?_cons_eq_some.mpr
        ⟨_, second, run?_cons_eq_some.mpr ⟨_, third, rfl⟩⟩⟩
  have halfway : popping.transfers = [{ bytes := [1, 2, 3], popped := [1, 2] }] := by
    rw [returns.popped, message]
    rfl
  obtain ⟨channel, fourth⟩ : ∃ channel, popping.popData? 0 5 = some channel :=
    ⟨_, if_pos ⟨by rw [moved, queue]; rfl, by rw [moved, queue]; rfl⟩⟩
  obtain ⟨index, transfer, returnsLast⟩ :=
    (lossless_message_store reachedPopping).2.2.1 0 5 channel fourth
  obtain rfl : 0 = index := by
    rw [← returnsLast.selected, moved, queue]
    rfl
  obtain rfl : { bytes := [1, 2, 3], popped := [1, 2] } = transfer := by
    have selected := returnsLast.message
    rw [halfway] at selected
    exact Option.some.inj selected
  have complete : channel.transfers = [{ bytes := [1, 2, 3], popped := [1, 2, 3] }] := by
    rw [returnsLast.popped, halfway]
    rfl
  have reached : run? step? initial
          [.pushData 7 [1, 2, 3], .push, .popData 0 2, .popData 0 5] = some channel :=
    run?_cons_eq_some.mpr
      ⟨_, first, run?_cons_eq_some.mpr
        ⟨_, second, run?_cons_eq_some.mpr
          ⟨_, third, run?_cons_eq_some.mpr ⟨_, fourth, rfl⟩⟩⟩⟩
  obtain ⟨stored, -, -, divided⟩ := lossless_message_store reached
  have last : channel.transfers[0]? = some { bytes := [1, 2, 3], popped := [1, 2, 3] } := by
    rw [complete]
    rfl
  exact ⟨channel, reached, complete, (stored 0 _ last).2.mpr rfl, returnsLast.returned, divided⟩

end InterprocessChannel

end SocksDirect
