import SocksDirect.BufferEdges

namespace SocksDirect.VectoredReceive

/-!
# `readv` and `recvmsg` on accelerated sockets

`readv` calls `recvfrom` once for every buffer, whatever the calls before
returned.  What a call consumes of the stream it places at the start of its own
buffer, so a short receive in the middle leaves a gap, and a failure after a
receive hides the bytes that were consumed.
-/

open Buffers

/-- One buffer of the vector and the result of the `recvfrom` on it. -/
structure InnerCall where
  length : Nat
  /-- The bytes consumed and placed in the buffer; `none` is the result -1. -/
  received : Option (List UInt8)
  fits : ∀ bytes ∈ received, bytes.length ≤ length

/-- The bytes a call places at the start of its buffer. -/
def InnerCall.placed (call : InnerCall) : List UInt8 := call.received.getD []

/-- The loop of `readv` with its variables `ret` and `iserror`. -/
def readvLoop (ret : Int) (iserror : Bool) : List InnerCall → Int × Bool
  | [] => (ret, iserror)
  | call :: rest =>
    match call.received with
    | none => readvLoop ret true rest
    | some bytes => readvLoop (ret + bytes.length) iserror rest

/-- `readv`. -/
def readv (calls : List InnerCall) : Int :=
  let (ret, iserror) := readvLoop 0 false calls
  if iserror then -1 else ret

/-- `recvmsg`, whose flags are ignored. -/
def recvmsg (calls : List InnerCall) : Int := readv calls

/-- Everything the calls take from the stream, in order. -/
def consumed (calls : List InnerCall) : List UInt8 := (calls.map InnerCall.placed).flatten

/-- The result -1 stands for no byte consumed; any other result is the number of the bytes
consumed, and they fill the buffers from the first one on without a gap. -/
def LosesNothing (calls : List InnerCall) (result : Int) : Prop :=
  if result = -1 then
    consumed calls = []
  else
    result = (consumed calls).length ∧
      calls.map InnerCall.placed = scatter (calls.map InnerCall.length) (consumed calls)

/-- Some call fails. -/
def Fails (calls : List InnerCall) : Prop := ∃ call ∈ calls, call.received = none

/-- Before a call that receives bytes every buffer has been filled. -/
def FullBefore (calls : List InnerCall) : Prop :=
  calls.Pairwise fun earlier later => later.placed ≠ [] → earlier.placed.length = earlier.length

private theorem placed_length_le (call : InnerCall) : call.placed.length ≤ call.length := by
  cases result : call.received with
  | none => simp [InnerCall.placed, result]
  | some bytes => simpa [InnerCall.placed, result] using call.fits bytes (by simp [result])

private theorem consumed_cons (call : InnerCall) (rest : List InnerCall) :
    consumed (call :: rest) = call.placed ++ consumed rest := rfl

variable {calls : List InnerCall}

private theorem consumed_eq_nil_iff : consumed calls = [] ↔ ∀ call ∈ calls, call.placed = [] := by
  simp [consumed]

private theorem readvLoop_of_fails (fails : Fails calls) (ret : Int) (iserror : Bool) :
    (readvLoop ret iserror calls).2 = true := by
  have stays (ret : Int) (calls : List InnerCall) : (readvLoop ret true calls).2 = true := by
    induction calls generalizing ret with
    | nil => rfl
    | cons call rest inductionHypothesis =>
      rw [readvLoop]
      split <;> exact inductionHypothesis _
  induction calls generalizing ret iserror with
  | nil => simp [Fails] at fails
  | cons call rest inductionHypothesis =>
    rw [readvLoop]
    split
    case h_1 => exact stays ret rest
    case h_2 received =>
      refine inductionHypothesis ?_ _ _
      obtain ⟨failing, member, failed⟩ := fails
      obtain rfl | member := List.mem_cons.mp member
      · simp [failed] at received
      · exact ⟨failing, member, failed⟩

private theorem readvLoop_of_not_fails (succeeds : ¬ Fails calls) (ret : Int) :
    readvLoop ret false calls = (ret + (consumed calls).length, false) := by
  induction calls generalizing ret with
  | nil => simp [readvLoop, consumed]
  | cons call rest inductionHypothesis =>
    rw [readvLoop]
    split
    case h_1 failed => exact absurd ⟨call, by simp, failed⟩ succeeds
    case h_2 bytes received =>
      have later : ¬ Fails rest := fun ⟨failing, member, failed⟩ =>
        succeeds ⟨failing, by simp [member], failed⟩
      rw [inductionHypothesis later, consumed_cons, InnerCall.placed, received]
      simp [Int.add_assoc]

/-- The buffers are filled in order exactly if no receive follows a buffer that is not full. -/
theorem placed_eq_scatter_iff (calls : List InnerCall) :
    calls.map InnerCall.placed = scatter (calls.map InnerCall.length) (consumed calls) ↔
      FullBefore calls := by
  induction calls with
  | nil => simp [scatter, FullBefore]
  | cons call rest inductionHypothesis =>
    have fits := placed_length_le call
    rw [FullBefore, List.pairwise_cons, ← FullBefore, ← inductionHypothesis, consumed_cons,
      List.map_cons, List.map_cons, scatter, List.cons.injEq, List.take_append, List.drop_append,
      List.take_of_length_le fits, List.drop_of_length_le fits]
    rcases Nat.lt_or_ge call.placed.length call.length with short | full
    · -- a buffer that is not full is the last to receive anything
      have first : call.placed = call.placed ++
            (consumed rest).take (call.length - call.placed.length) ↔ consumed rest = [] := by
        rw [List.self_eq_append_right, List.take_eq_nil_iff, Nat.sub_eq_zero_iff_le]
        exact or_iff_right (Nat.not_le.mpr short)
      rw [first]
      constructor
      · rintro ⟨nothing, order⟩
        refine ⟨fun later member receives => ?_, by simpa [nothing] using order⟩
        exact absurd (consumed_eq_nil_iff.mp nothing later member) receives
      · rintro ⟨fullBefore, order⟩
        have nothing : consumed rest = [] := by
          refine consumed_eq_nil_iff.mpr fun later member => ?_
          by_contra receives
          exact absurd (fullBefore later member receives) (Nat.ne_of_lt short)
        exact ⟨nothing, by simpa [nothing] using order⟩
    · have same : call.placed.length = call.length := Nat.le_antisymm fits full
      simp [same]

/-- No byte is lost exactly if a vector with a failing call received nothing, and one without
received nothing behind a buffer that was not full. -/
theorem readv_losesNothing_iff
    (calls : List InnerCall) :
    (LosesNothing calls (readv calls) ∧ LosesNothing calls (recvmsg calls)) ↔
      (Fails calls → ∀ call ∈ calls, call.placed = []) ∧ (¬ Fails calls → FullBefore calls) := by
  rw [recvmsg, and_self]
  by_cases fails : Fails calls
  · have result : readv calls = -1 := by simp [readv, readvLoop_of_fails fails]
    simp [LosesNothing, result, fails, consumed_eq_nil_iff]
  · have result : readv calls = (consumed calls).length := by
      simp [readv, readvLoop_of_not_fails fails]
    have notError : ((consumed calls).length : Int) ≠ -1 := by omega
    simp [LosesNothing, result, fails, notError, placed_eq_scatter_iff]

/-- Two bytes arrive in the first buffer and the second call fails. -/
def failsAfterReceive : List InnerCall := [⟨2, some [1, 2], by simp⟩, ⟨2, none, by simp⟩]

/-- One byte arrives in each of two buffers of length two. -/
def shortThenMore : List InnerCall := [⟨2, some [1], by simp⟩, ⟨2, some [2], by simp⟩]

/-- The two bytes of the first vector are lost, and those of the second leave a gap. -/
theorem readv_loses_bytes :
    (readv failsAfterReceive = -1 ∧ ¬ LosesNothing failsAfterReceive (readv failsAfterReceive)) ∧
      (readv shortThenMore = 2 ∧ ¬ LosesNothing shortThenMore (readv shortThenMore)) := by
  have failing : readv failsAfterReceive = -1 := by decide
  have short : readv shortThenMore = 2 := by decide
  refine ⟨⟨failing, ?_⟩, short, ?_⟩
  · rw [failing]
    simp only [LosesNothing]
    decide
  · rw [short]
    simp only [LosesNothing]
    decide

end SocksDirect.VectoredReceive
