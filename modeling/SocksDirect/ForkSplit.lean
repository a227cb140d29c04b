import Mathlib.Logic.Function.Basic
import Mathlib.Tactic.Common

namespace SocksDirect.ForkSplit

/-!
# Splitting the buffers of a forked process

On `REQ_FORK` the legacy monitor walks the buffers of the parent, peer by peer.
For each it creates one buffer between the child and the peer and one between
the parent and the peer, and tells all three.  `buffer_new` appends to the very
vector that the walk is in.  Iterators are positions here, which is the kindest
reading: in the source `push_back` may invalidate them.  The walk has fuel, and
never ends if no amount of it is enough.
-/

/-- `interprocess_buf_map_t`. -/
structure BufferInfo where
  bufferKey : Nat
  loc : Bool
  deriving DecidableEq, Repr

/-- `per_proc_map_t`: the vector of buffers for each peer, in the order of iteration. -/
abbrev PerProcMap := List (Int × List BufferInfo)

/-- `RES_ERROR`, `RES_FORK`, `RES_PUSH_FORK` and `FIN_FORK`, with the keys in them. -/
inductive Message where
  | resError
  | resFork (oldKey newKey : Nat)
  | resPushFork (oldKey newKeyParent newKeyChild : Nat)
  | finFork
  deriving DecidableEq, Repr

/-- The queues of a process that the handler pushes to: `q[0]` and `q_emergency[0]`. -/
inductive Queue where
  | control (qid : Nat)
  | emergency (qid : Nat)
  deriving DecidableEq, Repr

/-- The tables of the monitor that `fork_handler` reads or changes, and what it has sent. -/
structure Monitor where
  /-- The tid and the token of each process. -/
  process : Nat → Int × Nat
  tidmap : Int → Option Nat
  /-- `interprocess_buf_idx`. -/
  bufIdx : Int → Option PerProcMap
  /-- `interprocess_key2tid`. -/
  key2tid : Nat → Option (Int × Int)
  currentQCounter : Nat
  sent : List (Queue × Message)

namespace Monitor

/-- `map[peer].push_back(info)`. -/
def pushBack (map : PerProcMap) (peer : Int) (info : BufferInfo) : PerProcMap :=
  if map.any fun entry => entry.1 = peer then
    map.map fun entry => if entry.1 = peer then (entry.1, entry.2 ++ [info]) else entry
  else
    map ++ [(peer, [info])]

/-- `interprocess_buf_idx[tid][peer].push_back(info)`. -/
def record (bufIdx : Int → Option PerProcMap) (tid peer : Int) (info : BufferInfo) :
    Int → Option PerProcMap :=
  Function.update bufIdx tid (some (pushBack ((bufIdx tid).getD []) peer info))

/-- `buffer_new`: the key, and the monitor that knows the buffer from both sides. -/
def bufferNew (monitor : Monitor) (tidFrom tidTo : Int) (loc : Bool) : Nat × Monitor :=
  let shmKey := 9837423 + monitor.currentQCounter
  (shmKey, { monitor with
    currentQCounter := monitor.currentQCounter + 1
    bufIdx := record (record monitor.bufIdx tidFrom tidTo ⟨shmKey, loc⟩) tidTo tidFrom ⟨shmKey, !loc⟩
    key2tid := Function.update monitor.key2tid shmKey (some (tidFrom, tidTo)) })

/-- Pushes to the queues of processes. -/
def push (monitor : Monitor) (messages : List (Queue × Message)) : Monitor :=
  { monitor with sent := monitor.sent ++ messages }

/-- `tidmap[tid]`, which is 0 for a tid that is not there. -/
def qidOf (monitor : Monitor) (tid : Int) : Nat := (monitor.tidmap tid).getD 0

/-- What is sent for one buffer: to the child, to the parent and to the peer. -/
def splitMessages (monitor : Monitor) (qid : Nat) (oldTid peerTid : Int)
    (oldKey keyChild keyParent : Nat) : List (Queue × Message) :=
  [(.control qid, .resFork oldKey keyChild),
    (.control (monitor.qidOf oldTid), .resFork oldKey keyParent),
    (.emergency (monitor.qidOf peerTid), .resPushFork oldKey keyParent keyChild)]

/-- The two loops of `fork_handler`, at a peer and at a buffer of that peer. -/
def walk (qid : Nat) (oldTid : Int) : Nat → Monitor → Nat → Nat → Option Monitor
  | 0, _, _, _ => none
  | fuel + 1, monitor, peerPosition, keyPosition =>
    match ((monitor.bufIdx oldTid).getD [])[peerPosition]? with
    | none => some monitor
    | some (peerTid, keys) =>
      match keys[keyPosition]? with
      | none => walk qid oldTid fuel monitor (peerPosition + 1) 0
      | some old =>
        let (keyChild, monitor) := monitor.bufferNew (monitor.process qid).1 peerTid old.loc
        let (keyParent, monitor) := monitor.bufferNew oldTid peerTid old.loc
        let monitor := monitor.push
          (monitor.splitMessages qid oldTid peerTid old.bufferKey keyChild keyParent)
        walk qid oldTid fuel monitor peerPosition (keyPosition + 1)

/-- `fork_handler` for a request of process `qid`. -/
def forkHandler (monitor : Monitor) (qid : Nat) (oldTid : Int) (token fuel : Nat) :
    Option Monitor :=
  match monitor.tidmap oldTid with
  | none => some (monitor.push [(.control qid, .resError)])
  | some parentQid =>
    if (monitor.process parentQid).2 ≠ token then
      some (monitor.push [(.control qid, .resError)])
    else
      match monitor.bufIdx oldTid with
      | none => some (monitor.push [(.control qid, .finFork)])
      | some _ =>
        (walk qid oldTid fuel monitor 0 0).map fun final =>
          final.push [(.control qid, .finFork), (.control (final.qidOf oldTid), .finFork)]

/-- The buffers of a process with their peers. -/
def buffersOf (monitor : Monitor) (tid : Int) : List (Int × BufferInfo) :=
  ((monitor.bufIdx tid).getD []).flatMap fun entry => entry.2.map fun info => (entry.1, info)

/-- The handler ends.  It made two new buffers for each old one, sent the three messages about
each of them, in some order, then the two that end the fork, and nothing else. -/
def Splits (monitor : Monitor) (qid : Nat) (oldTid : Int) (token : Nat) : Prop :=
  ∃ fuel final, monitor.forkHandler qid oldTid token fuel = some final ∧
    ∃ (news : List (Nat × Nat)) (split : List (Queue × Message)),
      news.length = (monitor.buffersOf oldTid).length ∧
        (news.flatMap fun keys => [keys.1, keys.2]).Nodup ∧
        (∀ keys ∈ news, monitor.key2tid keys.1 = none ∧ monitor.key2tid keys.2 = none) ∧
        (∀ keys ∈ ((monitor.buffersOf oldTid).zip news),
          final.key2tid keys.2.1 = some ((monitor.process qid).1, keys.1.1) ∧
            final.key2tid keys.2.2 = some (oldTid, keys.1.1)) ∧
        split.Perm (((monitor.buffersOf oldTid).zip news).flatMap fun keys =>
          monitor.splitMessages qid oldTid keys.1.1 keys.1.2.bufferKey keys.2.1 keys.2.2) ∧
        final.sent = monitor.sent ++ split ++
          [(.control qid, .finFork), (.control (monitor.qidOf oldTid), .finFork)]

section Growth

/-- Every vector stands where it stood and has not become shorter. -/
def Grown (map later : PerProcMap) : Prop :=
  ∀ (position : Nat) (peer : Int) (keys : List BufferInfo), map[position]? = some (peer, keys) →
    ∃ longer : List BufferInfo, later[position]? = some (peer, longer) ∧ keys.length ≤ longer.length

private theorem grown_pushBack (map : PerProcMap) (peer : Int) (info : BufferInfo) :
    Grown map (pushBack map peer info) := by
  intro position other keys found
  rw [pushBack]
  split
  case isTrue =>
    rw [List.getElem?_map, found]
    simp only [Option.map_some]
    split
    · exact ⟨_, rfl, by simp⟩
    · exact ⟨keys, rfl, Nat.le_refl _⟩
  case isFalse =>
    have inside := (List.getElem?_eq_some_iff.mp found).1
    exact ⟨keys, by rw [List.getElem?_append_left inside, found], Nat.le_refl _⟩

private theorem getElem?_pushBack_self {map : PerProcMap} {position : Nat} {peer : Int}
    {keys : List BufferInfo} (found : map[position]? = some (peer, keys)) (info : BufferInfo) :
    (pushBack map peer info)[position]? = some (peer, keys ++ [info]) := by
  have member : map.any (fun entry => entry.1 = peer) = true :=
    List.any_eq_true.mpr ⟨_, List.mem_of_getElem? found, by simp⟩
  rw [pushBack, if_pos member, List.getElem?_map, found]
  simp

private theorem grown_record {bufIdx : Int → Option PerProcMap} (tid peer : Int)
    (info : BufferInfo) (owner : Int) :
    Grown ((bufIdx owner).getD []) ((record bufIdx tid peer info owner).getD []) := by
  by_cases same : owner = tid
  · subst same
    simpa [record] using grown_pushBack ((bufIdx owner).getD []) peer info
  · intro position other keys found
    exact ⟨keys, by simpa [record, same] using found, Nat.le_refl _⟩

private theorem Grown.trans {first second third : PerProcMap} (one : Grown first second)
    (two : Grown second third) : Grown first third := by
  intro position peer keys found
  obtain ⟨longer, foundLater, atLeast⟩ := one position peer keys found
  obtain ⟨longest, foundLast, atLeastLater⟩ := two position peer longer foundLater
  exact ⟨longest, foundLast, Nat.le_trans atLeast atLeastLater⟩

private theorem grown_bufferNew (monitor : Monitor) (tidFrom tidTo : Int) (loc : Bool)
    (owner : Int) :
    Grown ((monitor.bufIdx owner).getD [])
      (((monitor.bufferNew tidFrom tidTo loc).2.bufIdx owner).getD []) :=
  (grown_record tidFrom tidTo _ owner).trans (grown_record tidTo tidFrom _ owner)

/-- A new buffer of the parent makes the vector for its peer longer. -/
private theorem bufferNew_longer {monitor : Monitor} {oldTid peer : Int} {position : Nat}
    {keys : List BufferInfo}
    (found : ((monitor.bufIdx oldTid).getD [])[position]? = some (peer, keys)) (loc : Bool) :
    ∃ longer, (((monitor.bufferNew oldTid peer loc).2.bufIdx oldTid).getD [])[position]? =
      some (peer, longer) ∧ keys.length < longer.length := by
  have longer : (((record monitor.bufIdx oldTid peer
      ⟨9837423 + monitor.currentQCounter, loc⟩) oldTid).getD [])[position]? =
        some (peer, keys ++ [⟨9837423 + monitor.currentQCounter, loc⟩]) := by
    simpa [record] using getElem?_pushBack_self found _
  obtain ⟨longest, foundLast, atLeast⟩ := grown_record peer oldTid
    ⟨9837423 + monitor.currentQCounter, !loc⟩ oldTid position peer _ longer
  exact ⟨longest, foundLast, by simp at atLeast; omega⟩

end Growth

/-- The walk still has a buffer in front of it. -/
private def Ahead (monitor : Monitor) (oldTid : Int) (peerPosition keyPosition : Nat) : Prop :=
  ∃ (position : Nat) (peer : Int) (keys : List BufferInfo), peerPosition ≤ position ∧
    ((monitor.bufIdx oldTid).getD [])[position]? = some (peer, keys) ∧
    (if position = peerPosition then keyPosition else 0) < keys.length

/-- A buffer that is split puts another one in front of the walk, which so never ends. -/
private theorem walk_eq_none {qid : Nat} {oldTid : Int} (fuel : Nat) {monitor : Monitor}
    {peerPosition keyPosition : Nat} (ahead : Ahead monitor oldTid peerPosition keyPosition) :
    walk qid oldTid fuel monitor peerPosition keyPosition = none := by
  induction fuel generalizing monitor peerPosition keyPosition with
  | zero => rfl
  | succ fuel inductionHypothesis =>
    obtain ⟨position, peer, keys, notBehind, found, inFront⟩ := ahead
    rw [walk]
    split
    case h_1 atEnd =>
      have inside := (List.getElem?_eq_some_iff.mp found).1
      have outside := List.getElem?_eq_none_iff.mp atEnd
      omega
    case h_2 peerTid peerKeys here =>
      split
      case h_1 atEnd =>
        refine inductionHypothesis ⟨position, peer, keys, ?_, found, ?_⟩
        · rcases Nat.eq_or_lt_of_le notBehind with rfl | behind
          · -- the buffer in front would be in the vector that has ended
            rw [found] at here
            simp only [Option.some.injEq, Prod.mk.injEq] at here
            have outside := List.getElem?_eq_none_iff.mp atEnd
            simp only [if_true, here] at inFront
            omega
          · exact behind
        · split at inFront <;> split <;> omega
      case h_2 old entry =>
        refine inductionHypothesis ?_
        obtain ⟨kept, foundKept, atLeast⟩ := grown_bufferNew monitor (monitor.process qid).1 peerTid
          old.loc oldTid peerPosition peerTid peerKeys here
        obtain ⟨longer, foundLonger, more⟩ := bufferNew_longer foundKept old.loc
        have inside := (List.getElem?_eq_some_iff.mp entry).1
        refine ⟨peerPosition, peerTid, longer, Nat.le_refl _, foundLonger, ?_⟩
        simp only [if_true]
        omega

private theorem walk_of_empty {qid : Nat} {oldTid : Int} {monitor : Monitor}
    (empty : ∀ entry ∈ (monitor.bufIdx oldTid).getD [], entry.2 = []) (left peerPosition : Nat)
    (length : peerPosition + left = ((monitor.bufIdx oldTid).getD []).length) :
    walk qid oldTid (left + 1) monitor peerPosition 0 = some monitor := by
  induction left generalizing peerPosition with
  | zero => simp [walk, ← length]
  | succ left inductionHypothesis =>
    rw [walk]
    split
    case h_1 => rfl
    case h_2 peer keys here =>
      have nothing : keys = [] := empty _ (List.mem_of_getElem? here)
      simp only [nothing, List.getElem?_nil]
      exact inductionHypothesis (peerPosition + 1) (by omega)

/-- The buffers of a known parent are split as they should exactly if there is a table for the
parent and no buffer in it. -/
theorem forkHandler_splits_iff
    {monitor : Monitor}
    {qid parentQid : Nat}
    {oldTid : Int}
    {token : Nat}
    (known : monitor.tidmap oldTid = some parentQid)
    (authentic : (monitor.process parentQid).2 = token) :
    monitor.Splits qid oldTid token ↔
      ∃ map, monitor.bufIdx oldTid = some map ∧ ∀ entry ∈ map, entry.2 = [] := by
  constructor
  case mp =>
    rintro ⟨fuel, final, handled, news, split, sameLength, -, -, -, isSplit, sent⟩
    simp only [forkHandler, known, authentic, ne_eq, not_true_eq_false, if_false] at handled
    cases table : monitor.bufIdx oldTid with
    | none =>
      -- the parent is not told that the fork is complete
      simp only [table, Option.some.injEq] at handled
      have noBuffers : monitor.buffersOf oldTid = [] := by simp [buffersOf, table]
      rw [noBuffers] at isSplit
      have nothing : split = [] := by simpa using isSplit
      rw [← handled, nothing] at sent
      simp [push] at sent
    | some map =>
      refine ⟨map, rfl, fun entry member => ?_⟩
      by_contra some
      obtain ⟨position, here⟩ := List.mem_iff_getElem?.mp member
      have ahead : Ahead monitor oldTid 0 0 :=
        ⟨position, entry.1, entry.2, Nat.zero_le _, by simpa [table] using here,
          by simpa using List.length_pos_iff.mpr some⟩
      simp [table, walk_eq_none fuel ahead] at handled
  case mpr =>
    rintro ⟨map, table, empty⟩
    have noBuffers : monitor.buffersOf oldTid = [] := by simpa [buffersOf, table] using empty
    have walked := @walk_of_empty qid oldTid monitor (by simpa [table] using empty) map.length 0
      (by simp [table])
    have handled : monitor.forkHandler qid oldTid token (map.length + 1) = some (monitor.push
        [(.control qid, .finFork), (.control (monitor.qidOf oldTid), .finFork)]) := by
      simp only [forkHandler, known, authentic, ne_eq, not_true_eq_false, if_false, table, walked,
        Option.map_some]
    exact ⟨map.length + 1, _, handled, [], [], by simp [noBuffers, push]⟩

/-- Process 0 has the tid 10 and the token 5, process 1 is its child with the tid 11, and process
2 is a peer with the tid 12. -/
def family (table : Option PerProcMap) : Monitor where
  process := fun qid => (10 + qid, 5)
  tidmap := fun tid => if tid = 10 ∨ tid = 11 ∨ tid = 12 then some (tid - 10).toNat else none
  bufIdx := fun tid => if tid = 10 then table else none
  key2tid := fun _ => none
  currentQCounter := 1
  sent := []

/-- The parent has a peer and no buffer with it. -/
theorem emptyVector_splits :
    (family (some [(12, [])])).Splits 1 10 5 :=
  (@forkHandler_splits_iff (family (some [(12, [])])) 1 0 10 5 rfl rfl).mpr
    ⟨[(12, [])], rfl, by simp⟩

/-- One buffer with the peer: the handler does not end.  No table: the parent is not told that
the fork is complete. -/
theorem forkHandler_not_splits :
    (∀ fuel, (family (some [(12, [⟨9837423, true⟩])])).forkHandler 1 10 5 fuel = none) ∧
      ∀ fuel,
        ((family none).forkHandler 1 10 5 fuel).map Monitor.sent = some [(.control 1, .finFork)] := by
  refine ⟨fun fuel => ?_, fun fuel => rfl⟩
  have endless := @walk_eq_none 1 10 fuel (family (some [(12, [⟨9837423, true⟩])])) 0 0
    ⟨0, 12, [⟨9837423, true⟩], Nat.le_refl _, rfl, by simp⟩
  have known : (family (some [(12, [⟨9837423, true⟩])])).tidmap 10 = some 0 := rfl
  have table : (family (some [(12, [⟨9837423, true⟩])])).bufIdx 10 =
      some [(12, [⟨9837423, true⟩])] := rfl
  have authentic : ((family (some [(12, [⟨9837423, true⟩])])).process 0).2 = 5 := rfl
  simp only [forkHandler, known, table, authentic, endless, ne_eq, not_true_eq_false, if_false,
    Option.map_none]

end Monitor

end SocksDirect.ForkSplit
