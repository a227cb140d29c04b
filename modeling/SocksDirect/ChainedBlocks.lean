import Mathlib.Data.List.Nodup
import Mathlib.Data.List.Perm.Basic
import Mathlib.Logic.Function.Basic
import Mathlib.Tactic.Common

namespace SocksDirect.ChainedBlocks

open Function

/-!
# Chains of blocks and their owners

A chain is a list of blocks in which every block names the next one and the
last one names a stop mark.  Several owners hold a list of blocks each; what
one of them gains or gives away leaves the lists of the others alone.
-/

variable {Id : Type}

/-- Each block of the list names the one after it, the last one `stop`. -/
def Linked (next : Id → Id) (stop : Id) : List Id → Prop
  | [] => True
  | id :: later => id ≠ stop ∧ next id = later.headD stop ∧ Linked next stop later

/-- The blocks met from `start` to the stop mark. -/
def follow [DecidableEq Id] (next : Id → Id) (stop : Id) : Nat → Id → List Id
  | 0, _ => []
  | steps + 1, id =>
    if id = stop then [] else id :: follow next stop steps (next id)

theorem Linked.congr {next other : Id → Id} {stop : Id} {ids : List Id}
    (linked : Linked next stop ids) (same : ∀ id ∈ ids, other id = next id) :
    Linked other stop ids := by
  induction ids with
  | nil => trivial
  | cons id later inductionHypothesis =>
    obtain ⟨block, link, rest⟩ := linked
    refine ⟨block, ?_, ?_⟩
    · rw [same id List.mem_cons_self, link]
    · exact inductionHypothesis rest fun other member => same other (List.mem_cons_of_mem id member)

theorem Linked.follow_eq [DecidableEq Id] {next : Id → Id} {stop : Id} {ids : List Id}
    (linked : Linked next stop ids) {steps : Nat} (enough : ids.length < steps) :
    follow next stop steps (ids.headD stop) = ids := by
  induction ids generalizing steps with
  | nil =>
    cases steps with
    | zero => rfl
    | succ steps => exact if_pos rfl
  | cons id later inductionHypothesis =>
    obtain ⟨block, link, rest⟩ := linked
    cases steps with
    | zero => exact absurd enough (Nat.not_lt_zero _)
    | succ steps =>
      have following := inductionHypothesis rest (Nat.lt_of_succ_lt_succ enough)
      rw [List.headD_cons, follow, if_neg block, link, following]

section Owners

variable {Owner : Type} {owners : List Owner}

theorem flatMap_filterMap_eq {Entry : Type} {held : Owner → List Id}
    {lookup? : Owner → Option Entry} {blocks : Entry → List Id}
    (found : ∀ owner ∈ owners, ∃ entry, lookup? owner = some entry ∧ blocks entry = held owner) :
    (owners.filterMap lookup?).flatMap blocks = owners.flatMap held := by
  induction owners with
  | nil => rfl
  | cons owner owners inductionHypothesis =>
    obtain ⟨entry, present, same⟩ := found owner List.mem_cons_self
    rw [List.filterMap_cons_some present, List.flatMap_cons, List.flatMap_cons, same]
    exact congrArg _
      (inductionHypothesis fun other member => found other (List.mem_cons_of_mem owner member))

variable [DecidableEq Owner]

theorem perm_flatMap_erase {owner : Owner} (member : owner ∈ owners) (held : Owner → List Id) :
    (owners.flatMap held).Perm (held owner ++ (owners.erase owner).flatMap held) := by
  have moved := (List.perm_cons_erase member).flatMap_right held
  rwa [List.flatMap_cons] at moved

theorem not_mem_of_ne {owner other : Owner} {held : Owner → List Id} {id : Id}
    (distinct : (owners.flatMap held).Nodup) (member : owner ∈ owners)
    (otherMember : other ∈ owners) (different : other ≠ owner) (heldByOther : id ∈ held other) :
    id ∉ held owner := by
  intro shared
  have separated := (perm_flatMap_erase member held).nodup_iff.mp distinct
  have remains := (List.mem_erase_of_ne different).mpr otherMember
  exact (List.nodup_append'.mp separated).2.2 shared
    (List.mem_flatMap.mpr ⟨other, remains, heldByOther⟩)

theorem perm_flatMap_update {owner : Owner} (distinct : owners.Nodup) (member : owner ∈ owners)
    (held : Owner → List Id) (blocks : List Id) :
    (owners.flatMap (update held owner blocks)).Perm
      (blocks ++ (owners.erase owner).flatMap held) := by
  have moved := perm_flatMap_erase member (update held owner blocks)
  have others : (owners.erase owner).flatMap (update held owner blocks) =
        (owners.erase owner).flatMap held := by
    refine List.flatMap_congr fun other present => ?_
    have different : other ≠ owner := (distinct.mem_erase_iff.mp present).1
    exact update_of_ne different blocks held
  rwa [update_self, others] at moved

end Owners

end SocksDirect.ChainedBlocks
