import Mathlib.Tactic.Common
import SocksDirect.InterprocessBufferStore

namespace SocksDirect

open ChainedBlocks TombstoneRing

/-!
# `push_data` when the blocks run out

`pushdata` of `common/interprocess_t.cpp` takes free blocks one at a time while
the peer may release others.  When none is left it returns the block it started
with, so that `push_data` notices the shortage only if there was not even a
first one; otherwise the chain built so far is queued as if it were complete,
without an end mark.
-/

namespace BlockBuffer

section Outcome

variable {peer : Peer} {buffer : BlockBuffer} {sizeLeft : List UInt8} {prevBlk ret : Int}
variable {ids : List Int} {run : PushRun}

section

variable (ran : Ran peer buffer sizeLeft prevBlk ret ids run)

include ran

theorem Ran.length_supply : buffer.free.length + (releasedIn peer run.rounds).length =
      ids.length + run.buffer.free.length := by
  rw [← List.length_append, ran.taken, List.length_append]

theorem Ran.eq_nil_iff (some : 0 < sizeLeft.length) : ids = [] ↔ buffer.free ++ peer 0 = [] := by
  have first : releasedIn peer 1 = peer 0 := by simp [releasedIn]
  constructor
  · rintro rfl
    rcases ran.outcome with ⟨complete, -⟩ | exhausted
    · rw [blocksNeeded_drop some] at complete
      exact absurd complete (Nat.zero_ne_add_one _)
    · have taken := ran.taken
      rw [exhausted.rounds, exhausted.nothingFree] at taken
      rw [← first]
      exact taken
  · intro nothing
    by_contra taken
    have found := ran.lasting 0 (List.length_pos_iff.mpr taken)
    rw [← List.length_append, Nat.zero_add, first, nothing] at found
    exact absurd found (Nat.lt_irrefl 0)

theorem Ran.length_eq_iff : ids.length = blocksNeeded sizeLeft ↔
      Enough peer buffer.free.length (blocksNeeded sizeLeft) := by
  constructor
  · intro complete
    rw [← complete]
    exact ran.lasting
  · intro enough
    rcases ran.outcome with ⟨complete, -⟩ | exhausted
    · exact complete
    · have found := enough ids.length exhausted.short
      have length := ran.length_supply
      rw [exhausted.rounds, exhausted.nothingFree] at length
      rw [length] at found
      exact absurd found (Nat.lt_irrefl _)

theorem Ran.stored (complete : ids.length = blocksNeeded sizeLeft) :
    Stored run.buffer.mem ids sizeLeft := by
  rcases ran.outcome with ⟨-, chained⟩ | exhausted
  · exact chained.stored
  · exact absurd complete (Nat.ne_of_lt exhausted.short)

end

end Outcome

/-- A chain is not shorter than its bytes need. -/
theorem blocksNeeded_le {mem : Int → BufferBlock} {bytes : List UInt8}
    (stored : Stored mem ids bytes) :
    blocksNeeded bytes ≤ ids.length := by
  have bounded (chain : List Int) (subset : chain ⊆ ids) :
      (chain.flatMap fun id => (mem id).bytes).length ≤ slotsBlkSize * chain.length := by
    induction chain with
    | nil => exact Nat.zero_le _
    | cons id chain inductionHypothesis =>
      obtain ⟨member, rest⟩ := List.cons_subset.mp subset
      have size := (stored.filled id member).2
      have later := inductionHypothesis rest
      rw [List.flatMap_cons, List.length_append,
        BufferBlock.length_bytes, List.length_cons, Nat.mul_add]
      omega
  have length := bounded ids (List.Subset.refl ids)
  rw [stored.content] at length
  rw [blocksNeeded]
  rw [slotsBlkSize] at length ⊢
  omega

end BlockBuffer

namespace InterprocessChannel

open BlockBuffer

/-- `push_data` up to its `push` into `q`, while the peer releases blocks. -/
def pushDataAmid (channel : InterprocessChannel) (peer : Peer) (fd : Int)
    (bytes : List UInt8) : InterprocessChannel :=
  let run := channel.buffer.pushdataAmid peer bytes
  if run.ret = -1 then
    { channel with buffer := run.buffer, returned := 0 }
  else
    { channel with buffer := run.buffer, waiting := some ({ pointer := run.ret, fd := fd }, bytes) }

/-- The call that is left alone with enough free blocks is the one studied before. -/
theorem pushDataAmid_alone
    {channel next : InterprocessChannel}
    {fd : Int}
    {bytes : List UInt8}
    (stepped : channel.pushData? fd bytes = some next) :
    channel.pushDataAmid (fun _ => []) fd bytes = next := by
  have same := pushLoopAmid_alone bytes.length channel.buffer bytes (-1) (-1)
  rw [pushData?] at stepped
  split at stepped
  · rw [pushdata, ← same, ← pushdataAmid] at stepped
    dsimp only at stepped
    rw [pushDataAmid]
    split at stepped
    · next failed =>
        rw [if_pos failed]
        exact Option.some.inj stepped
    · next taken =>
        rw [if_neg taken]
        exact Option.some.inj stepped
  · cases stepped

/-- The blocks that the peer releases during the call. -/
def releasedDuring (channel : InterprocessChannel) (peer : Peer) (bytes : List UInt8) : List Int :=
  releasedIn peer (channel.buffer.pushdataAmid peer bytes).rounds

/--
The element waits for its `push`, which queues it and makes `push_data` return
the number of bytes as soon as `q` has room.
-/
structure Queues
    (channel : InterprocessChannel)
    (element : TransferElement)
    (bytes : List UInt8) : Prop where
  waits : channel.waiting = some (element, bytes)
  pushes : ∀ q, channel.q.pushNb? element = some q → ∃ done, channel.push? = some done ∧
          done.q = q ∧ done.buffer = channel.buffer ∧ done.waiting = none ∧
          done.returned = bytes.length

/--
`push_data` queues an element for a whole chain, built from blocks that were
free or have been released; or it returns 0, queues nothing and keeps no block.
-/
def AllOrNothing (channel : InterprocessChannel) (peer : Peer) (fd : Int)
    (bytes : List UInt8) : Prop :=
  let after := channel.pushDataAmid peer fd bytes
  let supply := channel.freeBlocks ++ channel.releasedDuring peer bytes
  (∃ ids, after.Queues { pointer := ids.headD (-1), fd := fd } bytes ∧
        Stored after.buffer.mem ids bytes ∧ supply.Perm (ids ++ after.freeBlocks)) ∨
    (after.returned = 0 ∧ after.waiting = none ∧ after.q = channel.q ∧ supply.Perm after.freeBlocks)

/--
Either no block is free when the loop looks for its first one, or it finds one
each time it looks.
-/
def NoneOrEnough (channel : InterprocessChannel) (peer : Peer) (bytes : List UInt8) : Prop :=
  channel.freeBlocks ++ peer 0 = [] ∨ Enough peer channel.freeBlocks.length (blocksNeeded bytes)

section Call

variable {channel : InterprocessChannel} {peer : Peer} {bytes : List UInt8} {ids : List Int}

theorem buffer_pushDataAmid (fd : Int) : (channel.pushDataAmid peer fd bytes).buffer =
      (channel.buffer.pushdataAmid peer bytes).buffer := by
  rw [pushDataAmid]
  split <;> rfl

theorem supply_pushDataAmid (proper : Proper peer channel.buffer)
    (ran : Ran peer channel.buffer bytes (-1) (-1) ids (channel.buffer.pushdataAmid peer bytes))
    (fd : Int) :
    channel.freeBlocks ++ channel.releasedDuring peer bytes =
      ids ++ (channel.pushDataAmid peer fd bytes).freeBlocks := by
  have freeAfter : (channel.pushDataAmid peer fd bytes).freeBlocks =
        (channel.buffer.pushdataAmid peer bytes).buffer.free := by
    rw [freeBlocks, buffer_pushDataAmid]
    exact ran.available.contents_eq
  have freeBefore : channel.freeBlocks = channel.buffer.free := proper.available.contents_eq
  rw [freeAfter, freeBefore]
  exact ran.taken

theorem pushDataAmid_nil
    (ran : Ran peer channel.buffer bytes (-1) (-1) [] (channel.buffer.pushdataAmid peer bytes))
    (fd : Int) :
    channel.pushDataAmid peer fd bytes =
      { channel with buffer := (channel.buffer.pushdataAmid peer bytes).buffer, returned := 0 } :=
  if_pos ran.returned

theorem pushDataAmid_cons (proper : Proper peer channel.buffer)
    (ran : Ran peer channel.buffer bytes (-1) (-1) ids (channel.buffer.pushdataAmid peer bytes))
    (first : ids ≠ []) (fd : Int) :
    channel.pushDataAmid peer fd bytes = { channel with
        buffer := (channel.buffer.pushdataAmid peer bytes).buffer
        waiting := some ({ pointer := ids.headD (-1), fd := fd }, bytes) } := by
  have returned := ran.returned
  rw [if_pos rfl] at returned
  obtain ⟨blk, later, rfl⟩ := List.exists_cons_of_ne_nil first
  have block : blk ≠ -1 := by
    rintro rfl
    exact stop_not_mem_allBlocks (proper.blocks _ (ran.mem_supply List.mem_cons_self))
  rw [pushDataAmid, returned]
  exact if_neg block

theorem Queues.of_waiting {element : TransferElement}
    (waits : channel.waiting = some (element, bytes)) :
    channel.Queues element bytes where
  waits := waits
  pushes := by
    intro q pushed
    rw [push?, waits]
    dsimp only
    rw [pushed]
    exact ⟨_, rfl, rfl, rfl, rfl, rfl⟩

/-- No block at first, or always one: the call is all or nothing. -/
theorem NoneOrEnough.allOrNothing
    (noneOrEnough : channel.NoneOrEnough peer bytes)
    (proper : Proper peer channel.buffer)
    (idle : channel.waiting = none)
    (some : 0 < bytes.length)
    (fd : Int) :
    channel.AllOrNothing peer fd bytes := by
  obtain ⟨ids, ran⟩ := pushdataAmid_spec proper bytes
  have supply := supply_pushDataAmid proper ran fd
  have free : channel.freeBlocks = channel.buffer.free := proper.available.contents_eq
  rw [NoneOrEnough, free, ← ran.eq_nil_iff some, ← ran.length_eq_iff] at noneOrEnough
  by_cases first : ids = []
  · subst first
    have after := pushDataAmid_nil ran fd
    refine Or.inr ⟨?_, ?_, ?_, ?_⟩
    · rw [after]
    · rw [after]
      exact idle
    · rw [after]
    · rw [supply]
      exact List.Perm.refl _
  · have after := pushDataAmid_cons proper ran first fd
    have complete := noneOrEnough.resolve_left first
    refine Or.inl ⟨ids, Queues.of_waiting ?_, ?_, ?_⟩
    · rw [after]
    · rw [buffer_pushDataAmid]
      exact ran.stored complete
    · rw [supply]

/-- A first block without enough others breaks the promise. -/
theorem AllOrNothing.noneOrEnough {fd : Int} (allOrNothing : channel.AllOrNothing peer fd bytes)
    (proper : Proper peer channel.buffer) (some : 0 < bytes.length) :
    channel.NoneOrEnough peer bytes := by
  obtain ⟨ids, ran⟩ := pushdataAmid_spec proper bytes
  have supply := supply_pushDataAmid proper ran fd
  have free : channel.freeBlocks = channel.buffer.free := proper.available.contents_eq
  rw [NoneOrEnough, free, ← ran.eq_nil_iff some, ← ran.length_eq_iff]
  rcases allOrNothing with ⟨chain, -, stored, conserved⟩ | ⟨-, -, -, conserved⟩
  · right
    have length := conserved.length_eq
    have needed := blocksNeeded_le stored
    rw [supply, List.length_append, List.length_append] at length
    rcases ran.outcome with ⟨complete, -⟩ | exhausted
    · exact complete
    · have short := exhausted.short
      omega
  · left
    have length := conserved.length_eq
    rw [supply, List.length_append] at length
    exact List.length_eq_zero_iff.mp (by omega)

end Call

/-- In every run the peer releases blocks of live chains, each of them once. -/
theorem Tracked.proper
    {channel : InterprocessChannel}
    {peer : Peer}
    (tracked : channel.Tracked)
    (once : ∀ rounds, (releasedIn peer rounds).Nodup)
    (inUse : ∀ rounds, releasedIn peer rounds ⊆ channel.liveBlocks) :
    Proper peer channel.buffer := by
  obtain ⟨chains, kept⟩ := tracked
  have partition := kept.partition
  rw [← kept.liveBlocks_eq] at partition
  obtain ⟨distinctFree, -, disjoint⟩ :=
    List.nodup_append.mp (partition.nodup_iff.mpr nodup_allBlocks)
  constructor
  case available => exact kept.available
  case distinct =>
    intro rounds
    refine List.nodup_append.mpr ⟨distinctFree, once rounds, ?_⟩
    exact fun id free other released => disjoint id free other (inUse rounds released)
  case blocks =>
    intro rounds id member
    refine partition.subset (List.mem_append.mpr ?_)
    exact (List.mem_append.mp member).imp_right (fun released => inUse rounds released)

end InterprocessChannel

end SocksDirect
