import SocksDirect.InterprocessBuffer

namespace SocksDirect

open Function

open TombstoneRing ChainedBlocks

/-!
# Chains in the interprocess block buffer

`pushdata` takes the first free ids and builds from them a chain that holds the
bytes; `popdata` takes bytes from the front of a chain and puts the ids of the
blocks it has emptied behind the free ones.  Both leave all other blocks alone.
-/

namespace BufferBlock

theorem length_bytes (block : BufferBlock) : block.bytes.length = block.size := by
  simp [bytes]

theorem bytes_fill (block : BufferBlock) (copied : List UInt8) :
    (block.fill copied).bytes = copied := by
  refine List.ext_getElem (length_bytes _) fun index _ inside => ?_
  simp [bytes, fill, inside]

theorem bytes_skip (block : BufferBlock) (count : Nat) :
    (block.skip count).bytes = block.bytes.drop count := by
  refine List.ext_getElem ?_ fun index _ _ => ?_
  · simp [length_bytes, skip]
  · simp [bytes, skip, Nat.add_assoc]

end BufferBlock

/-- A chain of blocks in use that holds these bytes. -/
structure Stored
    (mem : Int → BufferBlock)
    (ids : List Int)
    (bytes : List UInt8) : Prop where
  linked : Linked (fun id => (mem id).nextPtr) (-1) ids
  filled : ∀ id ∈ ids, 0 < (mem id).size ∧ (mem id).offset + (mem id).size ≤ slotsBlkSize
  content : ids.flatMap (fun id => (mem id).bytes) = bytes

namespace Stored

variable {mem other : Int → BufferBlock} {id : Int} {ids : List Int} {bytes : List UInt8}

theorem nil (mem : Int → BufferBlock) : Stored mem [] [] where
  linked := trivial
  filled := fun _ member => absurd member List.not_mem_nil
  content := rfl

theorem cons (stored : Stored mem ids bytes) (block : id ≠ -1)
    (link : (mem id).nextPtr = ids.headD (-1))
    (size : 0 < (mem id).size ∧ (mem id).offset + (mem id).size ≤ slotsBlkSize) :
    Stored mem (id :: ids) ((mem id).bytes ++ bytes) where
  linked := ⟨block, link, stored.linked⟩
  filled := List.forall_mem_cons.mpr ⟨size, stored.filled⟩
  content := by rw [List.flatMap_cons, stored.content]

theorem tail
    (stored : Stored mem (id :: ids) bytes) :
    ∃ later, bytes = (mem id).bytes ++ later ∧
      Stored mem ids later :=
  ⟨_, stored.content.symm,
    { linked := stored.linked.2.2
      filled := (List.forall_mem_cons.mp stored.filled).2
      content := rfl }⟩

theorem congr (stored : Stored mem ids bytes) (same : ∀ id ∈ ids, other id = mem id) :
    Stored other ids bytes where
  linked := stored.linked.congr fun id member => congrArg BufferBlock.nextPtr (same id member)
  filled := by
    intro id member
    rw [same id member]
    exact stored.filled id member
  content := by
    rw [← stored.content]
    exact List.flatMap_congr fun id member => congrArg BufferBlock.bytes (same id member)

theorem eq_nil_iff (stored : Stored mem ids bytes) : ids = [] ↔ bytes = [] := by
  cases ids with
  | nil => exact iff_of_true rfl stored.content.symm
  | cons id ids =>
    obtain ⟨later, rfl, -⟩ := stored.tail
    have size := (stored.filled id List.mem_cons_self).1
    refine iff_of_false (List.cons_ne_nil _ _) fun empty => ?_
    have length := congrArg List.length empty
    rw [List.length_append, BufferBlock.length_bytes, List.length_nil] at length
    omega

theorem headD_eq
    (stored : Stored mem ids bytes)
    (some : bytes ≠ [])
    (default replacement : Int) :
    ids.headD default = ids.headD replacement := by
  cases ids with
  | nil => exact absurd (stored.eq_nil_iff.mp rfl) some
  | cons id ids => rfl

theorem headD_eq_stop_iff (stored : Stored mem ids bytes) : ids.headD (-1) = -1 ↔ bytes = [] := by
  rw [← stored.eq_nil_iff]
  cases ids with
  | nil => exact iff_of_true rfl rfl
  | cons id ids => exact iff_of_false stored.linked.1 (List.cons_ne_nil _ _)

end Stored

namespace BlockBuffer

/-- The free ids, in the order in which they will be taken. -/
def free (buffer : BlockBuffer) : List Int := buffer.availSlots.history.pending

variable {buffer : BlockBuffer}

section Iteration

variable {buffer : BlockBuffer} {availSlots : SharedQueue availQueueSize Int} {prevBlk blk : Int}
variable {sizeLeft : List UInt8}

theorem mem_copyIn_self (buffer : BlockBuffer) : (buffer.copyIn blk sizeLeft).mem blk =
      { (buffer.mem blk).fill (sizeLeft.take slotsBlkSize) with
        nextPtr :=
          if sizeLeft.drop slotsBlkSize = [] then -1
          else (buffer.mem blk).nextPtr } := by
  simp only [copyIn, setBlock, update_self]
  by_cases last : sizeLeft.drop slotsBlkSize = []
  · rw [if_pos (List.length_eq_zero_iff.mpr last), if_pos last]
  · rw [if_neg (mt List.length_eq_zero_iff.mp last), if_neg last]
    rfl

theorem mem_copyIn_of_ne
    {id : Int}
    (different : id ≠ blk)
    (buffer : BlockBuffer) :
    (buffer.copyIn blk sizeLeft).mem id = buffer.mem id :=
  update_of_ne different _ _

theorem mem_link_of_ne
    {id : Int}
    (different : id ≠ prevBlk)
    (buffer : BlockBuffer) :
    (buffer.link prevBlk blk).mem id = buffer.mem id := by
  rw [link]
  split
  · exact update_of_ne different _ _
  · rfl

theorem availSlots_link (buffer : BlockBuffer) :
    (buffer.link prevBlk blk).availSlots = buffer.availSlots := by
  rw [link]
  split <;> rfl

end Iteration

/--
What the iterations of `pushdata` leave in memory: a chain that holds the bytes,
with the previous block linked to it.
-/
structure Chained
    (mem : Int → BufferBlock)
    (sizeLeft : List UInt8)
    (prevBlk : Int)
    (ids : List Int)
    (after : Int → BufferBlock) : Prop where
  stored : Stored after ids sizeLeft
  previous :
    prevBlk ≠ -1 → after prevBlk = { mem prevBlk with nextPtr := ids.headD (mem prevBlk).nextPtr }
  unchanged : ∀ id, id ∉ ids → id ≠ prevBlk → after id = mem id

theorem Chained.nil (mem : Int → BufferBlock) (prevBlk : Int) : Chained mem [] prevBlk [] mem where
  stored := Stored.nil mem
  previous := fun _ => rfl
  unchanged := fun _ _ _ => rfl

variable {ids : List Int} {sizeLeft : List UInt8}

/-- The block of one iteration in front of those of the later ones. -/
theorem Chained.cons
    {prevBlk blk : Int}
    {after : Int → BufferBlock}
    (some : sizeLeft ≠ [])
    (block : blk ≠ -1)
    (different : prevBlk ≠ blk)
    (previousFresh : prevBlk ∉ ids)
    (chained :
      Chained ((buffer.link prevBlk blk).copyIn blk sizeLeft).mem (sizeLeft.drop slotsBlkSize) blk
          ids after) :
    Chained buffer.mem sizeLeft prevBlk (blk :: ids) after := by
  have current := chained.previous block
  rw [mem_copyIn_self] at current
  constructor
  case stored =>
    have link : (after blk).nextPtr = ids.headD (-1) := by
      rw [current]
      by_cases last : sizeLeft.drop slotsBlkSize = []
      · simp only [if_pos last]
      · exact chained.stored.headD_eq last _ _
    have content : (after blk).bytes = sizeLeft.take slotsBlkSize := by
      rw [current]
      exact BufferBlock.bytes_fill _ _
    have size : (after blk).size = (sizeLeft.take slotsBlkSize).length := by
      rw [current]
      rfl
    have offset : (after blk).offset = 0 := by
      rw [current]
      rfl
    have length := List.length_pos_iff.mpr some
    have stored :=
      chained.stored.cons block link
        (by
          rw [size, offset, List.length_take, slotsBlkSize]
          omega)
    rwa [content, List.take_append_drop] at stored
  case previous =>
    intro exists_
    rw [chained.unchanged prevBlk previousFresh different,
      mem_copyIn_of_ne different, link, if_pos exists_]
    exact update_self _ _ _
  case unchanged =>
    intro id outside notPrevious
    have notCurrent := List.ne_of_not_mem_cons outside
    rw [chained.unchanged id (List.not_mem_of_not_mem_cons outside)
        notCurrent, mem_copyIn_of_ne notCurrent, mem_link_of_ne notPrevious]

variable {bytes : List UInt8}

/--
What the loop of `popdata` has done: some blocks at the front of the chain have
been released, the others hold the bytes that were not popped.
-/
structure Popped
    (buffer : BlockBuffer)
    (ids : List Int)
    (bytes : List UInt8)
    (sizeleft : Nat)
    (copied : List UInt8)
    (consumed kept : List Int)
    (result : PopResult) : Prop where
  available : result.buffer.availSlots.Uncredited
  split : ids = consumed ++ kept
  released : result.buffer.free = buffer.free ++ consumed
  stored : Stored result.buffer.mem kept (bytes.drop sizeleft)
  unchanged : ∀ id, id ∉ ids → result.buffer.mem id = buffer.mem id
  current : result.currentLoc = kept.headD (-1)
  popped : result.popped = copied ++ bytes.take sizeleft
  missing : result.sizeleft = sizeleft - bytes.length

variable {sizeleft : Nat}

/-- The loop ends when the chain or the room in the caller's buffer does. -/
theorem Popped.stop
    (available : buffer.availSlots.Uncredited)
    (stored : Stored buffer.mem ids bytes)
    (done : bytes = [] ∨ sizeleft = 0)
    (copied : List UInt8) :
    Popped buffer ids bytes sizeleft copied [] ids
      { buffer := buffer
        currentLoc := ids.headD (-1)
        popped := copied
        sizeleft := sizeleft } where
  available := available
  split := rfl
  released := (List.append_nil _).symm
  stored := by
    rcases done with rfl | rfl
    · rwa [List.drop_nil]
    · exact stored
  unchanged := fun _ _ => rfl
  current := rfl
  popped := by
    rcases done with rfl | rfl
    · rw [List.take_nil, List.append_nil]
    · rw [List.take_zero, List.append_nil]
  missing := by
    rcases done with rfl | rfl
    · rfl
    · exact (Nat.zero_sub _).symm

/-- The bytes wanted end inside the first block. -/
theorem Popped.inside {id : Int} (available : buffer.availSlots.Uncredited)
    (stored : Stored buffer.mem (id :: ids) bytes) (fresh : id ∉ ids)
    (shorter : sizeleft < (buffer.mem id).size) (copied : List UInt8) :
    Popped buffer (id :: ids) bytes sizeleft copied [] (id :: ids)
      { buffer :=
          buffer.setBlock id ((buffer.mem id).skip sizeleft)
        currentLoc := id
        popped := copied ++ (buffer.mem id).bytes.take sizeleft
        sizeleft := 0 } := by
  obtain ⟨later, rfl, storedLater⟩ := stored.tail
  have within : sizeleft ≤ (buffer.mem id).bytes.length := by
    rw [BufferBlock.length_bytes]
    exact Nat.le_of_lt shorter
  have size := (stored.filled id List.mem_cons_self).2
  constructor
  case available => exact available
  case split => rfl
  case released => exact (List.append_nil _).symm
  case stored =>
    have behind : Stored
          (update buffer.mem id ((buffer.mem id).skip sizeleft))
          ids later :=
      storedLater.congr fun other member =>
        update_of_ne (ne_of_mem_of_not_mem member fresh) _ _
    have whole :=
      behind.cons stored.linked.1
        (by
          rw [update_self]
          exact stored.linked.2.1)
        (by
          rw [update_self]
          simp only [BufferBlock.skip]
          omega)
    rw [List.drop_append_of_le_length within, ← BufferBlock.bytes_skip]
    rwa [update_self] at whole
  case unchanged =>
    intro other outside
    exact update_of_ne (List.ne_of_not_mem_cons outside) _ _
  case current => rfl
  case popped => rw [List.take_append_of_le_length within]
  case missing =>
    rw [List.length_append]
    exact (Nat.sub_eq_zero_of_le (Nat.le_add_right_of_le within)).symm

/-- A block wanted as a whole in front of what the later iterations do. -/
theorem Popped.cons
    {id : Int}
    {consumed kept : List Int}
    {later copied : List UInt8}
    {result : PopResult}
    (whole : (buffer.mem id).size ≤ sizeleft)
    (freed : (buffer.release id).free = buffer.free ++ [id])
    (popped :
      Popped (buffer.release id) ids later (sizeleft - (buffer.mem id).size)
          (copied ++ (buffer.mem id).bytes) consumed kept result) :
    Popped buffer (id :: ids) ((buffer.mem id).bytes ++ later) sizeleft copied (id :: consumed) kept
        result := by
  have length := BufferBlock.length_bytes (buffer.mem id)
  have covered : (buffer.mem id).bytes.length ≤ sizeleft := Nat.le_trans (Nat.le_of_eq length) whole
  constructor
  case available => exact popped.available
  case split => rw [popped.split, List.cons_append]
  case released => rw [popped.released, freed, List.append_assoc, List.singleton_append]
  case stored =>
    rw [List.drop_append, List.drop_eq_nil_of_le covered, length, List.nil_append]
    exact popped.stored
  case unchanged =>
    intro other outside
    exact popped.unchanged other (List.not_mem_of_not_mem_cons outside)
  case current => exact popped.current
  case popped =>
    rw [popped.popped, List.take_append, List.take_of_length_le covered, length, List.append_assoc]
  case missing =>
    rw [popped.missing, List.length_append, length]
    omega

theorem release_spec
    (available : buffer.availSlots.Uncredited)
    (room : buffer.free.length < availQueueSize.slots)
    (id : Int) :
    (buffer.release id).availSlots.Uncredited ∧
      (buffer.release id).free = buffer.free ++ [id] := by
  obtain ⟨accepted, availableNext, pending⟩ := available.pushNb?_eq room id
  rw [free, release, accepted]
  exact ⟨availableNext, pending⟩

/-- The loop of `popdata` on a chain. -/
theorem popLoop_spec
    {fuel : Nat}
    (copied : List UInt8)
    (available : buffer.availSlots.Uncredited)
    (room : buffer.free.length + ids.length ≤ availQueueSize.slots)
    (stored : Stored buffer.mem ids bytes)
    (distinct : ids.Nodup)
    (fuelled : sizeleft < fuel) :
    ∃ consumed kept,
      Popped buffer ids bytes sizeleft copied consumed kept
          (popLoop fuel buffer (ids.headD (-1)) sizeleft copied) := by
  induction fuel generalizing buffer ids bytes sizeleft copied with
  | zero => exact absurd fuelled (Nat.not_lt_zero _)
  | succ fuel inductionHypothesis =>
    rw [popLoop]
    split
    · next wanted =>
        cases ids with
        | nil => exact absurd rfl wanted.1
        | cons id ids =>
          obtain ⟨fresh, distinctLater⟩ := List.nodup_cons.mp distinct
          rw [List.headD_cons]
          by_cases whole : (buffer.mem id).size ≤ sizeleft
          · rw [List.length_cons] at room
            obtain ⟨availableNext, freed⟩ :=
              release_spec available (show buffer.free.length < availQueueSize.slots by omega) id
            have size := (stored.filled id List.mem_cons_self).1
            have link := stored.linked.2.1
            obtain ⟨later, rfl, storedLater⟩ := stored.tail
            obtain ⟨consumed, kept, popped⟩ :=
              inductionHypothesis
                (copied ++ (buffer.mem id).bytes)
                availableNext
                (by
                  rw [freed, List.length_append, List.length_singleton]
                  omega)
                storedLater distinctLater
                (show sizeleft - (buffer.mem id).size < fuel by omega)
            simp only [if_pos whole, link]
            exact ⟨id :: consumed, kept, popped.cons whole freed⟩
          · simp only [if_neg whole]
            exact
              ⟨[], id :: ids, Popped.inside available stored fresh (Nat.lt_of_not_le whole) copied⟩
    · next stop =>
        refine ⟨[], ids, Popped.stop available stored ?_ copied⟩
        rw [← stored.headD_eq_stop_iff]
        by_contra going
        obtain ⟨notStop, notZero⟩ := not_or.mp going
        exact stop ⟨notStop, notZero⟩

theorem popdata_spec
    (available : buffer.availSlots.Uncredited)
    (room : buffer.free.length + ids.length ≤ availQueueSize.slots)
    (stored : Stored buffer.mem ids bytes)
    (distinct : ids.Nodup)
    (size : Nat) :
    ∃ consumed kept,
      Popped buffer ids bytes size [] consumed kept (buffer.popdata (ids.headD (-1)) size) :=
  popLoop_spec [] available room stored distinct (Nat.lt_succ_self size)

end BlockBuffer

end SocksDirect
