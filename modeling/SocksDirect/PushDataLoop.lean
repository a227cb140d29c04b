import Mathlib.Tactic.Common
import SocksDirect.InterprocessBufferChains

namespace SocksDirect

open ChainedBlocks TombstoneRing

/-!
# The loop of `pushdata`

`pushdata` of `common/interprocess_t.cpp` takes free blocks one at a time while
the peer may release others.  It ends when all bytes are stored or when it finds
no block.  A call that is left alone with enough blocks stores all bytes.
-/

namespace InterprocessChannel

theorem nodup_allBlocks : allBlocks.Nodup := List.nodup_range.map fun _ _ => Int.ofNat.inj

theorem length_allBlocks : allBlocks.length = slotsInBuffer := by
  simp [allBlocks]

theorem stop_not_mem_allBlocks : -1 ∉ allBlocks := by
  simp [allBlocks]

end InterprocessChannel

namespace BlockBuffer

/-- The blocks that the peer releases before each iteration of the loop. -/
abbrev Peer := Nat → List Int

/-- What `pushdata` leaves and returns, with the number of `pop_nb` calls. -/
structure PushRun where
  buffer : BlockBuffer
  ret : Int
  rounds : Nat

/-- The loop of `pushdata` while the peer releases blocks. -/
def pushLoopAmid : Nat → Peer → BlockBuffer → List UInt8 → Int → Int → PushRun
  | 0, _, buffer, _, _, ret => { buffer := buffer, ret := ret, rounds := 0 }
  | fuel + 1, peer, buffer, sizeLeft, prevBlk, ret =>
    if 0 < sizeLeft.length then
      let released := (peer 0).foldl release buffer
      match released.availSlots.popNb? with
      | none => { buffer := released, ret := ret, rounds := 1 }
      | some (blk, availSlots) =>
        let taken := { released with availSlots := availSlots }
        let later :=
          pushLoopAmid fuel (fun round => peer (round + 1))
            ((taken.link prevBlk blk).copyIn blk sizeLeft)
            (sizeLeft.drop slotsBlkSize) blk
            (if prevBlk = -1 then blk else ret)
        { later with rounds := later.rounds + 1 }
    else
      { buffer := buffer, ret := ret, rounds := 0 }

/-- `pushdata` while the peer releases blocks. -/
def pushdataAmid (peer : Peer) (buffer : BlockBuffer) (bytes : List UInt8) : PushRun :=
  pushLoopAmid bytes.length peer buffer bytes (-1) (-1)

theorem pushLoopAmid_alone
    (fuel : Nat)
    (buffer : BlockBuffer)
    (sizeLeft : List UInt8)
    (prevBlk ret : Int) :
    ((pushLoopAmid fuel (fun _ => []) buffer sizeLeft prevBlk ret).buffer,
         (pushLoopAmid fuel (fun _ => []) buffer sizeLeft prevBlk ret).ret) =
      pushLoop fuel buffer sizeLeft prevBlk ret := by
  induction fuel generalizing buffer sizeLeft prevBlk ret with
  | zero => rfl
  | succ fuel inductionHypothesis =>
    simp only [pushLoopAmid, pushLoop, List.foldl_nil]
    split
    · cases buffer.availSlots.popNb? with
      | none => rfl
      | some popped => exact inductionHypothesis _ _ _ _
    · rfl

/-- The blocks released in the first rounds. -/
def releasedIn (peer : Peer) (rounds : Nat) : List Int := (List.range rounds).flatMap peer

/-- The blocks that so many bytes need. -/
def blocksNeeded (bytes : List UInt8) : Nat := (bytes.length + (slotsBlkSize - 1)) / slotsBlkSize

/-- Every one of so many `pop_nb` calls finds a block. -/
def Enough (peer : Peer) (free needed : Nat) : Prop :=
  ∀ round < needed, round < free + (releasedIn peer (round + 1)).length

/--
The queue of free ids is in order, its ids are distinct blocks, and the peer
releases other blocks, each of them once.
-/
structure Proper (peer : Peer) (buffer : BlockBuffer) : Prop where
  available : buffer.availSlots.Uncredited
  distinct : ∀ rounds, (buffer.free ++ releasedIn peer rounds).Nodup
  blocks : ∀ rounds, buffer.free ++ releasedIn peer rounds ⊆ InterprocessChannel.allBlocks

theorem releasedIn_succ (peer : Peer) (rounds : Nat) :
    releasedIn peer (rounds + 1) = peer 0 ++ releasedIn (fun round => peer (round + 1)) rounds := by
  simp [releasedIn, List.range_succ_eq_map, List.flatMap_map]

theorem releasedIn_alone (rounds : Nat) : releasedIn (fun _ => []) rounds = [] := by
  simp [releasedIn]

variable {ids : List Int}

theorem length_lt_slots (distinct : ids.Nodup) (blocks : ids ⊆ InterprocessChannel.allBlocks) :
    ids.length < availQueueSize.slots := by
  have bounded := (List.subperm_of_subset distinct blocks).length_le
  rw [InterprocessChannel.length_allBlocks] at bounded
  exact Nat.lt_of_le_of_lt bounded (by decide)

variable {buffer : BlockBuffer}

/-- The peer's releases in one round. -/
theorem release_list (available : buffer.availSlots.Uncredited)
    (distinct : (buffer.free ++ ids).Nodup)
    (blocks : buffer.free ++ ids ⊆ InterprocessChannel.allBlocks) :
    (ids.foldl release buffer).availSlots.Uncredited ∧
      (ids.foldl release buffer).free = buffer.free ++ ids ∧
      (ids.foldl release buffer).mem = buffer.mem := by
  induction ids generalizing buffer with
  | nil => exact ⟨available, (List.append_nil _).symm, rfl⟩
  | cons id ids inductionHypothesis =>
    have room : buffer.free.length < availQueueSize.slots :=
      length_lt_slots (List.nodup_append.mp distinct).1
        (fun _ member => blocks (List.mem_append_left _ member))
    obtain ⟨availableNext, freeNext⟩ := release_spec available room id
    rw [← List.singleton_append, ← List.append_assoc, ← freeNext] at distinct blocks
    obtain ⟨last, free, mem⟩ := inductionHypothesis availableNext distinct blocks
    refine ⟨last, ?_, mem⟩
    rw [List.foldl_cons, free, freeNext, List.append_assoc, List.singleton_append]

variable {peer : Peer} {copied : BlockBuffer}

theorem supply_eq
    {blk : Int}
    (front : buffer.free ++ peer 0 = blk :: copied.free)
    (rounds : Nat) :
    buffer.free ++ releasedIn peer (rounds + 1) =
      blk :: (copied.free ++ releasedIn (fun round => peer (round + 1)) rounds) := by
  rw [releasedIn_succ, ← List.append_assoc, front, List.cons_append]

theorem Proper.released (proper : Proper peer buffer) :
    ((peer 0).foldl release buffer).availSlots.Uncredited ∧
      ((peer 0).foldl release buffer).free = buffer.free ++ peer 0 ∧
      ((peer 0).foldl release buffer).mem = buffer.mem := by
  have first : releasedIn peer 1 = peer 0 := by simp [releasedIn]
  have distinct := proper.distinct 1
  have blocks := proper.blocks 1
  rw [first] at distinct blocks
  exact release_list proper.available distinct blocks

theorem Proper.next {blk : Int} (proper : Proper peer buffer)
    (front : buffer.free ++ peer 0 = blk :: copied.free) (available : copied.availSlots.Uncredited) :
    blk ≠ -1 ∧ (∀ rounds, blk ∉ copied.free ++ releasedIn (fun round => peer (round + 1)) rounds) ∧
      Proper (fun round => peer (round + 1)) copied := by
  have distinct (rounds : Nat) :=
    List.nodup_cons.mp (supply_eq front rounds ▸ proper.distinct (rounds + 1))
  have blocks (rounds : Nat) :=
    List.cons_subset.mp (supply_eq front rounds ▸ proper.blocks (rounds + 1))
  refine ⟨?_, fun rounds => (distinct rounds).1, available, ?_, ?_⟩
  · rintro rfl
    exact InterprocessChannel.stop_not_mem_allBlocks (blocks 0).1
  · exact fun rounds => (distinct rounds).2
  · exact fun rounds => (blocks rounds).2

/-- The loop has stopped because no block was left. -/
structure Exhausted
    (sizeLeft : List UInt8)
    (ids : List Int)
    (run : PushRun) : Prop where
  short : ids.length < blocksNeeded sizeLeft
  rounds : run.rounds = ids.length + 1
  nothingFree : run.buffer.free = []

/--
What the loop of `pushdata` has done with the free and the released blocks: it
has taken the first ones, as many as it needs or all there were.
-/
structure Ran
    (peer : Peer)
    (buffer : BlockBuffer)
    (sizeLeft : List UInt8)
    (prevBlk ret : Int)
    (ids : List Int)
    (run : PushRun) : Prop where
  available : run.buffer.availSlots.Uncredited
  taken : buffer.free ++ releasedIn peer run.rounds = ids ++ run.buffer.free
  returned : run.ret = if prevBlk = -1 then ids.headD ret else ret
  lasting : Enough peer buffer.free.length ids.length
  outcome : (ids.length = blocksNeeded sizeLeft ∧
        Chained buffer.mem sizeLeft prevBlk ids run.buffer.mem) ∨ Exhausted sizeLeft ids run

variable {sizeLeft : List UInt8}

theorem Ran.mem_supply
    {prevBlk ret : Int}
    {run : PushRun}
    (ran : Ran peer buffer sizeLeft prevBlk ret ids run)
    {id : Int}
    (member : id ∈ ids) :
    id ∈ buffer.free ++ releasedIn peer run.rounds := by
  rw [ran.taken]
  exact List.mem_append_left _ member

theorem blocksNeeded_drop (some : 0 < sizeLeft.length) :
    blocksNeeded sizeLeft = blocksNeeded (sizeLeft.drop slotsBlkSize) + 1 := by
  simp only [blocksNeeded, slotsBlkSize, List.length_drop]
  omega

theorem Ran.nil (available : buffer.availSlots.Uncredited) (prevBlk ret : Int) :
    Ran peer buffer [] prevBlk ret [] { buffer := buffer, ret := ret, rounds := 0 } where
  available := available
  taken := List.append_nil _
  returned := (ite_self _).symm
  lasting := fun _ inside => absurd inside (Nat.not_lt_zero _)
  outcome := Or.inl ⟨by decide, Chained.nil buffer.mem prevBlk⟩

theorem Ran.exhausted {released : BlockBuffer} (some : 0 < sizeLeft.length)
    (available : released.availSlots.Uncredited) (free : released.free = buffer.free ++ peer 0)
    (empty : released.free = []) (prevBlk ret : Int) :
    Ran peer buffer sizeLeft prevBlk ret [] { buffer := released, ret := ret, rounds := 1 } where
  available := available
  taken := by simp [releasedIn, free]
  returned := (ite_self _).symm
  lasting := fun _ inside => absurd inside (Nat.not_lt_zero _)
  outcome :=
    Or.inr
      { short := by
          rw [blocksNeeded_drop some]
          exact Nat.succ_pos _
        rounds := rfl
        nothingFree := empty }

/-- One iteration in front of what the later ones do. -/
theorem Ran.cons
    {prevBlk blk ret : Int}
    {later : PushRun}
    (some : 0 < sizeLeft.length)
    (block : blk ≠ -1)
    (front : buffer.free ++ peer 0 = blk :: copied.free)
    (chains :
      Chained copied.mem (sizeLeft.drop slotsBlkSize) blk ids later.buffer.mem →
      Chained buffer.mem sizeLeft prevBlk (blk :: ids) later.buffer.mem)
    (ran :
      Ran (fun round => peer (round + 1)) copied (sizeLeft.drop slotsBlkSize) blk
          (if prevBlk = -1 then blk else ret) ids later) :
    Ran peer buffer sizeLeft prevBlk ret (blk :: ids)
      { later with rounds := later.rounds + 1 } := by
  have supply := supply_eq front
  constructor
  case available => exact ran.available
  case taken => rw [supply, ran.taken, List.cons_append]
  case returned =>
    rw [ran.returned, if_neg block]
    rfl
  case lasting =>
    intro round inside
    have length := congrArg List.length (supply round)
    rw [List.length_append, List.length_cons, List.length_append] at length
    rw [length]
    cases round with
    | zero => exact Nat.succ_pos _
    | succ round => exact Nat.succ_lt_succ (ran.lasting round (Nat.lt_of_succ_lt_succ inside))
  case outcome =>
    rcases ran.outcome with ⟨length, chained⟩ | exhausted
    · refine Or.inl ⟨?_, chains chained⟩
      rw [List.length_cons, length, blocksNeeded_drop some]
    · refine Or.inr ⟨?_, ?_, exhausted.nothingFree⟩
      · rw [List.length_cons, blocksNeeded_drop some]
        exact Nat.succ_lt_succ exhausted.short
      · exact congrArg Nat.succ exhausted.rounds

/-- The loop of `pushdata` with any number of free blocks. -/
theorem pushLoopAmid_spec
    {fuel : Nat}
    {prevBlk : Int}
    (ret : Int)
    (proper : Proper peer buffer)
    (fuelled : sizeLeft.length ≤ fuel)
    (fresh : ∀ rounds, prevBlk ∉ buffer.free ++ releasedIn peer rounds) :
    ∃ ids,
      Ran peer buffer sizeLeft prevBlk ret ids
        (pushLoopAmid fuel peer buffer sizeLeft prevBlk ret) := by
  induction fuel generalizing peer buffer sizeLeft prevBlk ret with
  | zero =>
    obtain rfl := List.length_eq_zero_iff.mp (Nat.le_zero.mp fuelled)
    exact ⟨[], Ran.nil proper.available prevBlk ret⟩
  | succ fuel inductionHypothesis =>
    rw [pushLoopAmid]
    split
    · next some =>
        obtain ⟨available, free, sameMem⟩ := proper.released
        generalize (peer 0).foldl release buffer = released at available free sameMem
        rcases available.popNb?_eq with ⟨empty, popped⟩ | ⟨blk, next, popped, availableNext, front⟩
        · simp only [popped]
          exact ⟨[], Ran.exhausted some available free empty prevBlk ret⟩
        · simp only [popped]
          let taken : BlockBuffer := { released with availSlots := next }
          let copied := (taken.link prevBlk blk).copyIn blk sizeLeft
          have slots : copied.availSlots = next := availSlots_link taken
          have supplied : buffer.free ++ peer 0 = blk :: copied.free := by
            rw [← free, BlockBuffer.free, BlockBuffer.free, slots]
            exact front
          obtain ⟨block, freshNext, properNext⟩ := proper.next supplied (slots ▸ availableNext)
          obtain ⟨ids, ran⟩ :=
            inductionHypothesis
              (if prevBlk = -1 then blk else ret)
              properNext
              (show (sizeLeft.drop slotsBlkSize).length ≤ fuel by
                rw [List.length_drop, slotsBlkSize]
                omega)
              freshNext
          refine ⟨blk :: ids, ran.cons some block supplied ?_⟩
          have outside (rounds : Nat) := supply_eq supplied rounds ▸ fresh (rounds + 1)
          rw [← sameMem]
          refine Chained.cons (List.length_pos_iff.mp some) block ?_ ?_
          · exact List.ne_of_not_mem_cons (outside 0)
          · exact fun member => outside _ (List.mem_cons_of_mem _ (ran.mem_supply member))
    · next none =>
        obtain rfl := List.length_eq_zero_iff.mp (Nat.eq_zero_of_not_pos none)
        exact ⟨[], Ran.nil proper.available prevBlk ret⟩

theorem pushdataAmid_spec (proper : Proper peer buffer) (bytes : List UInt8) :
    ∃ ids, Ran peer buffer bytes (-1) (-1) ids (buffer.pushdataAmid peer bytes) :=
  pushLoopAmid_spec (-1) proper (Nat.le_refl _) fun rounds member =>
    InterprocessChannel.stop_not_mem_allBlocks (proper.blocks rounds member)

/--
What the loop of `pushdata` has done: it has taken the first free ids, built a
chain from them and linked the previous block to it.
-/
structure Pushed
    (buffer : BlockBuffer)
    (sizeLeft : List UInt8)
    (prevBlk ret : Int)
    (ids : List Int)
    (result : BlockBuffer × Int) : Prop where
  available : result.1.availSlots.Uncredited
  taken : buffer.free = ids ++ result.1.free
  stored : Stored result.1.mem ids sizeLeft
  previous : prevBlk ≠ -1 → result.1.mem prevBlk =
        { buffer.mem prevBlk with nextPtr := ids.headD (buffer.mem prevBlk).nextPtr }
  unchanged : ∀ id, id ∉ ids → id ≠ prevBlk → result.1.mem id = buffer.mem id
  returned : result.2 = if prevBlk = -1 then ids.headD ret else ret

/-- `pushdata` that is left alone with enough free blocks. -/
theorem pushdata_spec {bytes : List UInt8} (proper : Proper (fun _ => []) buffer)
    (enough : bytes.length ≤ slotsBlkSize * buffer.free.length) :
    ∃ ids, Pushed buffer bytes (-1) (-1) ids (buffer.pushdata bytes) := by
  obtain ⟨ids, ran⟩ := pushdataAmid_spec proper bytes
  have taken := ran.taken
  rw [releasedIn_alone, List.append_nil] at taken
  rw [pushdata, ← pushLoopAmid_alone]
  rcases ran.outcome with ⟨-, chained⟩ | exhausted
  · exact ⟨ids, ran.available, taken, chained.stored, chained.previous, chained.unchanged,
      ran.returned⟩
  · have short := exhausted.short
    rw [exhausted.nothingFree, List.append_nil] at taken
    rw [taken, slotsBlkSize] at enough
    simp only [blocksNeeded, slotsBlkSize] at short
    omega

end BlockBuffer

end SocksDirect
