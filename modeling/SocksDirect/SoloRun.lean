import Mathlib.Logic.Relation
import SocksDirect.MachineRun

namespace SocksDirect.Machine

/-!
# Calls that run alone

A party's step function tells, beside the next state, the value that its call
returns when the step is its last.  While no other party moves, a call either
passes through finitely many states and returns, or it never returns.  A call
that is made inside another one is run by lifting its steps.

Where other parties move too, the states inside a call are those that its own
steps and theirs lead to, in any order.
-/

variable {State Result : Type}

/-- The party takes a step that does not end its call. -/
def Continues (partyStep? : State → Option (State × Option Result)) (state next : State) : Prop :=
  partyStep? state = some (next, none)

/-- The party gets from one state to another inside its call. -/
def Passes (partyStep? : State → Option (State × Option Result)) : State → State → Prop :=
  Relation.ReflTransGen (Continues partyStep?)

/-- The call returns a value if the party runs alone. -/
def Returns (partyStep? : State → Option (State × Option Result)) (state final : State)
    (result : Result) : Prop :=
  ∃ fuel, finish partyStep? fuel state = some (final, result)

section Returns

variable {partyStep? : State → Option (State × Option Result)} {state next middle final : State}
variable {result : Result}

theorem Passes.refl (state : State) : Passes partyStep? state state := Relation.ReflTransGen.refl

theorem Passes.single (step : partyStep? state = some (next, none)) :
    Passes partyStep? state next :=
  Relation.ReflTransGen.single step

theorem Passes.head (step : partyStep? state = some (middle, none))
    (passes : Passes partyStep? middle next) :
    Passes partyStep? state next :=
  Relation.ReflTransGen.head step passes

theorem Passes.trans (first : Passes partyStep? state middle)
    (second : Passes partyStep? middle next) :
    Passes partyStep? state next :=
  Relation.ReflTransGen.trans first second

theorem returns_of_step (step : partyStep? state = some (next, none)) :
    Returns partyStep? state final result ↔ Returns partyStep? next final result := by
  constructor
  · rintro ⟨fuel, finished⟩
    cases fuel with
    | zero => cases finished
    | succ fuel =>
      rw [finish, step] at finished
      exact ⟨fuel, finished⟩
  · rintro ⟨fuel, finished⟩
    refine ⟨fuel + 1, ?_⟩
    rw [finish, step]
    exact finished

theorem Passes.returns_iff (passes : Passes partyStep? state next) :
    Returns partyStep? state final result ↔ Returns partyStep? next final result := by
  induction passes with
  | refl => exact Iff.rfl
  | tail _ step inductionHypothesis => exact inductionHypothesis.trans (returns_of_step step)

theorem returns_of_last (last : partyStep? state = some (next, some result)) :
    Returns partyStep? state next result := by
  refine ⟨1, ?_⟩
  rw [finish, last]

/-- A call returns after the states that it passes and its last step. -/
theorem returns_iff_exists_last : Returns partyStep? state final result ↔
      ∃ middle, Passes partyStep? state middle ∧ partyStep? middle = some (final, some result) := by
  constructor
  · rintro ⟨fuel, finished⟩
    induction fuel generalizing state with
    | zero => cases finished
    | succ fuel inductionHypothesis =>
      rw [finish] at finished
      split at finished
      · cases finished
      · rename_i last
        cases finished
        exact ⟨state, .refl state, last⟩
      · rename_i next step
        obtain ⟨middle, passes, last⟩ := inductionHypothesis finished
        exact ⟨middle, passes.head step, last⟩
  · rintro ⟨middle, passes, last⟩
    exact passes.returns_iff.mpr (returns_of_last last)

/-- A call that runs alone is a run of the machine that its party belongs to. -/
theorem Returns.exists_run {Action : Type} (returns : Returns partyStep? state final result)
    (step? : State → Action → Option State) (action : Action)
    (fires : ∀ state, step? state action = (partyStep? state).map Prod.fst) :
    ∃ count, run? step? state (List.replicate count action) = some final := by
  obtain ⟨fuel, finished⟩ := returns
  induction fuel generalizing state with
  | zero => cases finished
  | succ fuel inductionHypothesis =>
    have stepped := fires state
    rw [finish] at finished
    split at finished
    · cases finished
    · rename_i last
      cases finished
      rw [last] at stepped
      exact ⟨1, run?_cons_eq_some.mpr ⟨_, stepped, run?_nil _⟩⟩
    · rename_i next step
      rw [step] at stepped
      obtain ⟨count, reached⟩ := inductionHypothesis finished
      exact ⟨count + 1, run?_cons_eq_some.mpr ⟨_, stepped, reached⟩⟩

theorem Returns.unique {otherFinal : State} {otherResult : Result}
    (returns : Returns partyStep? state final result)
    (other : Returns partyStep? state otherFinal otherResult) :
    final = otherFinal ∧ result = otherResult := by
  obtain ⟨last, passes, lastStep⟩ := returns_iff_exists_last.mp returns
  obtain ⟨fuel, finished⟩ := passes.returns_iff.mp other
  cases fuel with
  | zero => cases finished
  | succ fuel =>
    rw [finish, lastStep] at finished
    cases finished
    exact ⟨rfl, rfl⟩

/-- A call never returns if no state that it stays in ends it. -/
theorem not_returns_of_invariant {waiting : State → Prop}
    (keeps : ∀ {state next ended}, waiting state → partyStep? state = some (next, ended) →
        ended = none ∧ waiting next)
    (initially : waiting state) : ¬ Returns partyStep? state final result := by
  intro returns
  obtain ⟨last, passes, lastStep⟩ := returns_iff_exists_last.mp returns
  have waits : waiting last := by
    clear lastStep returns
    induction passes with
    | refl => exact initially
    | tail _ step inductionHypothesis => exact (keeps inductionHypothesis step).2
  cases (keeps waits lastStep).1

theorem Passes.lift {Outer OuterResult : Type}
    {outerStep? : Outer → Option (Outer × Option OuterResult)} (embed : State → Outer)
    (lifts : ∀ {state next}, partyStep? state = some (next, none) →
      outerStep? (embed state) = some (embed next, none))
    (passes : Passes partyStep? state next) :
    Passes outerStep? (embed state) (embed next) := by
  induction passes with
  | refl => exact .refl _
  | tail _ step inductionHypothesis => exact inductionHypothesis.trans (.single (lifts step))

end Returns

section Nested

variable {Outer OuterResult : Type} {innerStep? : State → Option (State × Option Result)}
variable {outerStep? : Outer → Option (Outer × Option OuterResult)} {embed : State → Outer}
variable {resume : State → Result → Outer × Option OuterResult} {inside : State → Prop}

/-- An outer call goes on where an inner call has returned, or returns too. -/
def Resumes (outerStep? : Outer → Option (Outer × Option OuterResult))
    (after : Outer × Option OuterResult) (final : Outer) (result : OuterResult) : Prop :=
  match after with
  | (outer, none) => Returns outerStep? outer final result
  | (outer, some value) => final = outer ∧ result = value

/--
An outer call whose steps are those of an inner call until the inner call
returns a value and the outer call is resumed with it.
-/
structure Nests
    (innerStep? : State → Option (State × Option Result))
    (outerStep? : Outer → Option (Outer × Option OuterResult))
    (embed : State → Outer)
    (resume : State → Result → Outer × Option OuterResult)
    (inside : State → Prop) : Prop where
  continues : ∀ {state next}, inside state → innerStep? state = some (next, none) →
      outerStep? (embed state) = some (embed next, none) ∧ inside next
  returns : ∀ {state next value}, inside state → innerStep? state = some (next, some value) →
      outerStep? (embed state) = some (resume next value)
  stops : ∀ {state}, inside state → innerStep? state = none → outerStep? (embed state) = none

theorem returns_iff_resumes {outer final : Outer} {after : Outer × Option OuterResult}
    {result : OuterResult} (step : outerStep? outer = some after) :
    Returns outerStep? outer final result ↔ Resumes outerStep? after final result := by
  rcases after with ⟨next, _ | value⟩
  · exact returns_of_step step
  · constructor
    · intro returns
      exact returns.unique (returns_of_last step)
    · rintro ⟨rfl, rfl⟩
      exact returns_of_last step

/-- What the outer call returns, from what the inner call returns. -/
theorem Nests.returns_iff {state : State} {final : Outer} {result : OuterResult}
    (nests : Nests innerStep? outerStep? embed resume inside) (isInside : inside state) :
    Returns outerStep? (embed state) final result ↔ ∃ middle value,
      Returns innerStep? state middle value ∧
      Resumes outerStep? (resume middle value) final result := by
  constructor
  · rintro ⟨fuel, finished⟩
    induction fuel generalizing state with
    | zero => cases finished
    | succ fuel inductionHypothesis =>
      cases step : innerStep? state with
      | none =>
        rw [finish, nests.stops isInside step] at finished
        cases finished
      | some after =>
        rcases after with ⟨next, _ | value⟩
        · obtain ⟨outer, stays⟩ := nests.continues isInside step
          rw [finish, outer] at finished
          obtain ⟨middle, value, returns, resumes⟩ := inductionHypothesis stays finished
          exact ⟨middle, value, (returns_of_step step).mpr returns, resumes⟩
        · have outer := nests.returns isInside step
          exact ⟨next, value, returns_of_last step,
            (returns_iff_resumes outer).mp ⟨fuel + 1, finished⟩⟩
  · rintro ⟨middle, value, ⟨fuel, finished⟩, resumes⟩
    induction fuel generalizing state with
    | zero => cases finished
    | succ fuel inductionHypothesis =>
      rw [finish] at finished
      split at finished
      · cases finished
      · rename_i last
        cases finished
        have outer := nests.returns isInside last
        exact (returns_iff_resumes outer).mpr resumes
      · rename_i next step
        obtain ⟨outer, stays⟩ := nests.continues isInside step
        exact (returns_of_step outer).mpr (inductionHypothesis stays finished)

end Nested

section Amid

variable {partyStep? : State → Option (State × Option Result)} {others : State → State → Prop}
variable {state next final : State} {result : Result}

/-- The states inside a call while other parties move. -/
def PassesAmid (partyStep? : State → Option (State × Option Result))
    (others : State → State → Prop) :
    State → State → Prop :=
  Relation.ReflTransGen fun state next => Continues partyStep? state next ∨ others state next

/-- The call returns a value while other parties move. -/
def ReturnsAmid (partyStep? : State → Option (State × Option Result))
    (others : State → State → Prop) (state final : State) (result : Result) : Prop :=
  ∃ last, PassesAmid partyStep? others state last ∧ partyStep? last = some (final, some result)

theorem Returns.amid (returns : Returns partyStep? state final result)
    (others : State → State → Prop) :
    ReturnsAmid partyStep? others state final result := by
  obtain ⟨last, passes, lastStep⟩ := returns_iff_exists_last.mp returns
  refine ⟨last, ?_, lastStep⟩
  clear lastStep
  induction passes with
  | refl => exact Relation.ReflTransGen.refl
  | tail _ step inductionHypothesis =>
    exact Relation.ReflTransGen.tail inductionHypothesis (.inl step)

theorem PassesAmid.invariant {invariant : State → Prop}
    (passes : PassesAmid partyStep? others state next)
    (own : ∀ {state next}, invariant state → partyStep? state = some (next, none) → invariant next)
    (foreign : ∀ {state next}, invariant state → others state next → invariant next)
    (initially : invariant state) :
    invariant next := by
  induction passes with
  | refl => exact initially
  | tail _ step inductionHypothesis =>
    rcases step with continues | other
    · exact own inductionHypothesis continues
    · exact foreign inductionHypothesis other

end Amid

end SocksDirect.Machine
