import Mathlib.Data.List.Basic

namespace SocksDirect.Buffers

/-!
# Lists of buffers and the edges between them

A vectored call works through a list of buffers, of which only the lengths
matter.  An amount of data ends at an edge if it is the length of some first
buffers.  Data that is spread over the buffers fills them in order.
-/

variable {Element : Type}

/-- The length of all buffers. -/
def total : List Nat → Nat
  | [] => 0
  | length :: rest => length + total rest

/-- Some first buffers have this length together. -/
def EndsAtEdge (lengths : List Nat) (amount : Nat) : Prop := ∃ k, total (lengths.take k) = amount

/-- Data spread over the buffers in order. -/
def scatter : List Nat → List Element → List (List Element)
  | [], _ => []
  | length :: rest, data => data.take length :: scatter rest (data.drop length)

theorem total_map_length (buffers : List (List Element)) :
    total (buffers.map List.length) = buffers.flatten.length := by
  induction buffers with
  | nil => rfl
  | cons buffer rest inductionHypothesis =>
    rw [List.map_cons, total, inductionHypothesis, List.flatten_cons, List.length_append]

variable {lengths : List Nat}

theorem endsAtEdge_cons_zero {amount : Nat} :
    EndsAtEdge (0 :: lengths) amount ↔ EndsAtEdge lengths amount := by
  constructor
  · rintro ⟨k, ends⟩
    cases k with
    | zero => exact ⟨0, ends⟩
    | succ k =>
      rw [List.take_succ_cons, total, Nat.zero_add] at ends
      exact ⟨k, ends⟩
  · rintro ⟨k, ends⟩
    refine ⟨k + 1, ?_⟩
    rw [List.take_succ_cons, total, Nat.zero_add]
    exact ends

theorem endsAtEdge_cons {length amount : Nat} (positive : 0 < length) (fits : length ≤ amount) :
    EndsAtEdge (length :: lengths) amount ↔ EndsAtEdge lengths (amount - length) := by
  constructor
  · rintro ⟨k, ends⟩
    cases k with
    | zero =>
      rw [List.take_zero, total] at ends
      omega
    | succ k =>
      rw [List.take_succ_cons, total] at ends
      exact ⟨k, by omega⟩
  · rintro ⟨k, ends⟩
    refine ⟨k + 1, ?_⟩
    rw [List.take_succ_cons, total]
    omega

theorem endsAtEdge_cons_of_lt {length amount : Nat} (short : amount < length) :
    EndsAtEdge (length :: lengths) amount ↔ amount = 0 := by
  constructor
  · rintro ⟨k, ends⟩
    cases k with
    | zero => exact ends.symm
    | succ k =>
      rw [List.take_succ_cons, total] at ends
      omega
  · rintro rfl
    exact ⟨0, rfl⟩

theorem endsAtEdge_append (first rest : List Nat) : EndsAtEdge (first ++ rest) (total first) :=
  ⟨first.length, congrArg total List.take_left⟩

theorem not_endsAtEdge_inside {first rest : List Nat} {length amount : Nat} (positive : 0 < amount)
    (inside : amount < length) :
    ¬ EndsAtEdge (first ++ length :: rest) (total first + amount) := by
  induction first with
  | nil =>
    rw [List.nil_append, total, Nat.zero_add, endsAtEdge_cons_of_lt inside]
    exact Nat.ne_of_gt positive
  | cons earlier others inductionHypothesis =>
    rw [List.cons_append, total]
    rcases Nat.eq_zero_or_pos earlier with rfl | nonempty
    · rw [endsAtEdge_cons_zero, Nat.zero_add]
      exact inductionHypothesis
    · rw [Nat.add_assoc, endsAtEdge_cons nonempty (Nat.le_add_right _ _), Nat.add_sub_cancel_left]
      exact inductionHypothesis

theorem scatter_nil (lengths : List Nat) :
    scatter lengths ([] : List Element) = List.replicate lengths.length [] := by
  induction lengths with
  | nil => rfl
  | cons length rest inductionHypothesis =>
    rw [scatter, List.take_nil, List.drop_nil, inductionHypothesis]
    rfl

theorem scatter_take_total (lengths : List Nat) (data : List Element) :
    scatter lengths (data.take (total lengths)) = scatter lengths data := by
  induction lengths generalizing data with
  | nil => rfl
  | cons length rest inductionHypothesis =>
    rw [scatter, scatter, total, List.take_take, List.drop_take,
      Nat.min_eq_left (Nat.le_add_right _ _), Nat.add_sub_cancel_left, inductionHypothesis]

end SocksDirect.Buffers
