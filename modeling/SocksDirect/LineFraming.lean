import Mathlib.Tactic.Common

namespace SocksDirect.LineFraming

/-!
# Streams cut into terminated lines

A stream is a list of symbols one of which is the terminator.  A reader that
gets the stream in pieces keeps the open line as a carry.  The lines it has seen
and the line that is still open depend on the symbols read and not on the pieces.
-/

variable {Symbol : Type} [DecidableEq Symbol] {terminator : Symbol}

/-- The lines that end in the input, and the open line behind them. -/
def split (terminator : Symbol) : List Symbol → List Symbol → List (List Symbol) × List Symbol
  | carry, [] => ([], carry)
  | carry, symbol :: rest =>
    if symbol = terminator then
      (carry :: (split terminator [] rest).1, (split terminator [] rest).2)
    else
      split terminator (carry ++ [symbol]) rest

/-- The lines of a whole stream. -/
def lines (terminator : Symbol) (stream : List Symbol) : List (List Symbol) :=
  (split terminator [] stream).1

/-- The open line at the end of a stream. -/
def openLine (terminator : Symbol) (stream : List Symbol) : List Symbol :=
  (split terminator [] stream).2

theorem split_append (carry first second : List Symbol) : split terminator carry (first ++ second) =
      ((split terminator carry first).1 ++
      (split terminator (split terminator carry first).2 second).1,
      (split terminator (split terminator carry first).2 second).2) := by
  induction first generalizing carry with
  | nil => rfl
  | cons symbol rest inductionHypothesis =>
    by_cases isEnd : symbol = terminator <;> simp [split, isEnd, inductionHypothesis]

theorem split_of_notMem {input : List Symbol} (absent : terminator ∉ input) (carry : List Symbol) :
    split terminator carry input = ([], carry ++ input) := by
  induction input generalizing carry with
  | nil => simp [split]
  | cons symbol rest inductionHypothesis =>
    rw [List.mem_cons, not_or] at absent
    rw [split, if_neg (Ne.symm absent.1), inductionHypothesis absent.2]
    simp

theorem lines_line {line : List Symbol} (absent : terminator ∉ line) (rest : List Symbol) :
    lines terminator (line ++ terminator :: rest) = line :: lines terminator rest ∧
      openLine terminator (line ++ terminator :: rest) =
      openLine terminator rest := by
  unfold lines openLine
  rw [split_append, split_of_notMem absent]
  simp [split]

theorem lines_of_notMem {stream : List Symbol} (absent : terminator ∉ stream) :
    lines terminator stream = [] ∧ openLine terminator stream = stream := by
  unfold lines openLine
  rw [split_of_notMem absent]
  exact ⟨rfl, rfl⟩

theorem terminator_notMem_split {carry : List Symbol} (absent : terminator ∉ carry)
    (input : List Symbol) :
    terminator ∉ (split terminator carry input).2 := by
  induction input generalizing carry with
  | nil => exact absent
  | cons symbol rest inductionHypothesis =>
    rw [split]
    split
    · exact inductionHypothesis List.not_mem_nil
    · rename_i notEnd
      apply inductionHypothesis
      simp [absent, Ne.symm notEnd]

theorem terminator_notMem_openLine (stream : List Symbol) :
    terminator ∉ openLine terminator stream :=
  terminator_notMem_split List.not_mem_nil stream

theorem split_eq_append {carry : List Symbol} (absent : terminator ∉ carry) (input : List Symbol) :
    split terminator carry input =
      (lines terminator (carry ++ input), openLine terminator (carry ++ input)) := by
  rw [lines, openLine, split_append, split_of_notMem absent]
  simp

theorem split_stream (first second : List Symbol) : split terminator [] (first ++ second) =
      (lines terminator first ++
      lines terminator (openLine terminator first ++ second),
      openLine terminator (openLine terminator first ++ second)) := by
  have behind : split terminator (openLine terminator first) second =
        (lines terminator (openLine terminator first ++ second),
          openLine terminator (openLine terminator first ++ second)) :=
    split_eq_append (terminator_notMem_openLine first) second
  rw [split_append]
  change
    (lines terminator first ++
        (split terminator (openLine terminator first) second).1,
      (split terminator (openLine terminator first) second).2) = _
  rw [behind]

theorem lines_append (first second : List Symbol) : lines terminator (first ++ second) =
      lines terminator first ++ lines terminator (openLine terminator first ++ second) :=
  congrArg Prod.fst (split_stream first second)

theorem openLine_append (first second : List Symbol) :
    openLine terminator (first ++ second) =
      openLine terminator (openLine terminator first ++ second) := by
  rw [openLine, split_stream]

/-- What is open after a part of a stream starts a line, or is open at its end. -/
theorem openLine_part (terminator : Symbol) (first second : List Symbol) :
    (∃ line ∈ lines terminator (first ++ second), openLine terminator first <+: line) ∨
      openLine terminator (first ++ second) = openLine terminator first ++ second := by
  have absent : terminator ∉ openLine terminator first := terminator_notMem_openLine first
  by_cases present : terminator ∈ second
  · obtain ⟨line, rest, same, notInLine⟩ := List.eq_append_cons_of_mem present
    have notInBoth : terminator ∉ openLine terminator first ++ line := by simp [absent, notInLine]
    refine .inl ⟨openLine terminator first ++ line, ?_, List.prefix_append _ _⟩
    rw [lines_append, same, ← List.append_assoc, (lines_line notInBoth rest).1]
    simp
  · refine .inr ?_
    have notInBoth : terminator ∉ openLine terminator first ++ second := by simp [absent, present]
    rw [openLine_append, (lines_of_notMem notInBoth).2]

theorem length_lines_le (stream : List Symbol) :
    (lines terminator stream).length ≤ stream.length := by
  have carried (carry : List Symbol) :
      (split terminator carry stream).1.length ≤ stream.length := by
    induction stream generalizing carry with
    | nil => exact Nat.le_refl 0
    | cons symbol rest inductionHypothesis =>
      rw [split]
      split
      · exact Nat.succ_le_succ (inductionHypothesis [])
      · exact Nat.le_succ_of_le (inductionHypothesis _)
  exact carried []

theorem length_openLine_le (stream : List Symbol) :
    (openLine terminator stream).length ≤ stream.length := by
  have carried (carry : List Symbol) :
      (split terminator carry stream).2.length ≤ carry.length + stream.length := by
    induction stream generalizing carry with
    | nil => exact Nat.le_refl _
    | cons symbol rest inductionHypothesis =>
      rw [split]
      split
      · have behind := inductionHypothesis []
        grind
      · have behind := inductionHypothesis (carry ++ [symbol])
        grind
  simpa [openLine] using carried []

end SocksDirect.LineFraming
