import Mathlib.Tactic.Common

namespace SocksDirect.Machine

/-!
# Runs of executable step machines

Every concurrent component of the development is a partial step function
`step? : State → Action → Option State`: an action names the party that moves
and every choice the environment makes, and `none` means that the action is
disabled.  An interleaving is then an action list, a reachable state is the
result of an accepted list, and both can be evaluated.
-/

variable {State Action : Type}

/-- Execute a finite action list, failing at the first disabled action. -/
def run? (step? : State → Action → Option State) : State → List Action → Option State
  | state, [] => some state
  | state, action :: rest =>
    match step? state action with
    | none => none
    | some next => run? step? next rest

/-- A property of states and actions holds before every step of a run. -/
def Along (step? : State → Action → Option State) (condition : State → Action → Prop) :
    State → List Action → Prop
  | _, [] => True
  | state, action :: rest =>
    condition state action ∧
      ∀ next, step? state action = some next → Along step? condition next rest

/-- A property of the successor, if there is one, can be evaluated. -/
instance decidableForallEqSome {outcome : Option State} {property : State → Prop}
    [DecidablePred property] :
    Decidable (∀ next, outcome = some next → property next) :=
  inferInstanceAs (Decidable (∀ next ∈ outcome, property next))

/-- A condition along a run can be evaluated. -/
instance decidableAlong {step? : State → Action → Option State} {condition : State → Action → Prop}
    [∀ state action, Decidable (condition state action)] :
    ∀ state actions, Decidable (Along step? condition state actions)
  | _, [] => .isTrue trivial
  | state, action :: rest =>
    have : DecidablePred fun next => Along step? condition next rest :=
      fun next => decidableAlong next rest
    inferInstanceAs
      (Decidable
        (condition state action ∧
          ∀ next, step? state action = some next → Along step? condition next rest))

/-- The states met while executing an action list, both ends included. -/
def ReachedBy (step? : State → Action → Option State) (initial : State) (actions : List Action)
    (state : State) : Prop :=
  ∃ earlier later, actions = earlier ++ later ∧ run? step? initial earlier = some state

/--
Let one party finish its call alone.  Its step function tells the value that
the call returns when the step is its last.
-/
def finish {Result : Type} (partyStep? : State → Option (State × Option Result)) :
    Nat → State → Option (State × Result)
  | 0, _ => none
  | fuel + 1, state =>
    match partyStep? state with
    | none => none
    | some (next, some result) => some (next, result)
    | some (next, none) => finish partyStep? fuel next

section Runs

variable {step? : State → Action → Option State}

@[simp] theorem run?_nil (state : State) : run? step? state [] = some state := rfl

theorem run?_cons_eq_some {state final : State} {action : Action} {rest : List Action} :
    run? step? state (action :: rest) = some final ↔
      ∃ next, step? state action = some next ∧ run? step? next rest = some final := by
  simp only [run?]
  cases step? state action with
  | none | some => simp

theorem run?_append {initial state final : State} {earlier later : List Action}
    (reached : run? step? initial earlier = some state)
    (goesOn : run? step? state later = some final) :
    run? step? initial (earlier ++ later) = some final := by
  induction earlier generalizing initial with
  | nil =>
    cases reached
    exact goesOn
  | cons first rest inductionHypothesis =>
    obtain ⟨middle, toMiddle, toState⟩ := run?_cons_eq_some.mp reached
    exact run?_cons_eq_some.mpr ⟨middle, toMiddle, inductionHypothesis toState⟩

theorem run?_append_singleton {initial state next : State} {action : Action} {actions : List Action}
    (reached : run? step? initial actions = some state) (stepped : step? state action = some next) :
    run? step? initial (actions ++ [action]) = some next :=
  run?_append reached (run?_cons_eq_some.mpr ⟨next, stepped, rfl⟩)

theorem exists_reached_of_check (step? : State → Action → Option State) (initial : State)
    (actions : List Action) (observed : State → Prop) [DecidablePred observed]
    (checked : (run? step? initial actions).any (fun state => decide (observed state)) = true) :
    ∃ final, run? step? initial actions = some final ∧ observed final := by
  obtain ⟨final, reached, value⟩ := (Option.any_eq_true _ _).mp checked
  exact ⟨final, reached, of_decide_eq_true value⟩

/-- A value that the actions update is the fold of the updates over a run. -/
theorem observe_of_run {Value : Type} (observe : State → Value) (update : Value → Action → Value)
    (updates : ∀ {state action next}, step? state action = some next →
      observe next = update (observe state) action)
    {initial final : State}
    {actions : List Action}
    (accepted : run? step? initial actions = some final) :
    observe final = actions.foldl update (observe initial) := by
  induction actions generalizing initial with
  | nil =>
    cases accepted
    rfl
  | cons action rest inductionHypothesis =>
    obtain ⟨next, stepped, toFinal⟩ := run?_cons_eq_some.mp accepted
    rw [List.foldl_cons, ← updates stepped]
    exact inductionHypothesis toFinal

theorem along_of_forall_mem {condition : Action → Prop} {state : State} {actions : List Action}
    (all : ∀ action ∈ actions, condition action) :
    Along step? (fun _ action => condition action) state actions := by
  induction actions generalizing state with
  | nil => exact trivial
  | cons action rest inductionHypothesis =>
    refine ⟨all action List.mem_cons_self, ?_⟩
    intro next _
    exact inductionHypothesis fun other member => all other (List.mem_cons_of_mem action member)

theorem Along.and {first second : State → Action → Prop} {state : State} {actions : List Action}
    (alongFirst : Along step? first state actions)
    (alongSecond : Along step? second state actions) :
    Along step? (fun state action => first state action ∧ second state action)
      state actions := by
  induction actions generalizing state with
  | nil => exact trivial
  | cons action rest inductionHypothesis =>
    refine ⟨⟨alongFirst.1, alongSecond.1⟩, ?_⟩
    intro next stepped
    exact inductionHypothesis (alongFirst.2 next stepped) (alongSecond.2 next stepped)

theorem Along.left {condition : State → Action → Prop} {state : State} {earlier later : List Action}
    (along : Along step? condition state (earlier ++ later)) :
    Along step? condition state earlier := by
  induction earlier generalizing state with
  | nil => exact trivial
  | cons action rest inductionHypothesis =>
    refine ⟨along.1, ?_⟩
    intro next stepped
    exact inductionHypothesis (along.2 next stepped)

theorem along_congr {first second : State → Action → Prop}
    (equivalent : ∀ state action, first state action ↔ second state action) (state : State)
    (actions : List Action) :
    Along step? first state actions ↔ Along step? second state actions := by
  induction actions generalizing state with
  | nil => exact Iff.rfl
  | cons action rest inductionHypothesis =>
    refine and_congr (equivalent state action) ?_
    exact forall_congr' fun next => forall_congr' fun _ => inductionHypothesis next

/-- The invariant rule; a step may use the condition that the run meets before it. -/
theorem invariant_along {condition : State → Action → Prop} {invariant : State → Prop}
    {initial : State} (initially : invariant initial)
    (preserved : ∀ {state action next}, invariant state → condition state action →
      step? state action = some next → invariant next)
    {actions : List Action}
    {final : State}
    (accepted : run? step? initial actions = some final)
    (along : Along step? condition initial actions) :
    invariant final := by
  induction actions generalizing initial with
  | nil =>
    simp only [run?_nil, Option.some.injEq] at accepted
    exact accepted ▸ initially
  | cons action rest inductionHypothesis =>
    obtain ⟨next, first, remaining⟩ := run?_cons_eq_some.mp accepted
    obtain ⟨now, later⟩ := along
    exact inductionHypothesis (preserved initially now first) remaining (later next first)

/-- A property that every step keeps holds in every reachable state. -/
theorem invariant_of_run {invariant : State → Prop} {initial : State}
    (initially : invariant initial)
    (preserved :
      ∀ {state action next}, invariant state → step? state action = some next → invariant next)
    {actions : List Action}
    {final : State}
    (accepted : run? step? initial actions = some final) :
    invariant final := by
  have unconditional : Along step? (fun _ _ => True) initial actions :=
    along_of_forall_mem fun _ _ => trivial
  exact invariant_along initially
    (fun before _ stepped => preserved before stepped)
    accepted unconditional

/-- A run visits good states only exactly when all of its steps meet the condition. -/
theorem forall_reachedBy_iff_along_of_kept {condition : State → Action → Prop}
    {invariant good : State → Prop} (weaker : ∀ {state}, invariant state → good state)
    (exactly : ∀ {state action next}, invariant state → step? state action = some next →
      (good next ↔ condition state action))
    (kept : ∀ {state action next}, invariant state → step? state action = some next →
      condition state action → invariant next)
    {initial final : State}
    (initially : invariant initial)
    {actions : List Action}
    (accepted : run? step? initial actions = some final) :
    (∀ state, ReachedBy step? initial actions state → good state) ↔
      Along step? condition initial actions := by
  induction actions generalizing initial with
  | nil =>
    refine ⟨fun _ => trivial, fun _ state reached => ?_⟩
    obtain ⟨earlier, later, split, toState⟩ := reached
    obtain ⟨rfl, rfl⟩ := List.append_eq_nil_iff.mp split.symm
    simp only [run?_nil, Option.some.injEq] at toState
    exact toState ▸ weaker initially
  | cons action rest inductionHypothesis =>
    obtain ⟨next, first, remaining⟩ := run?_cons_eq_some.mp accepted
    constructor
    · intro allGood
      have now : condition initial action := by
        apply (exactly initially first).mp
        exact allGood next ⟨[action], rest, rfl, run?_cons_eq_some.mpr ⟨next, first, rfl⟩⟩
      refine ⟨now, ?_⟩
      intro other otherFirst
      obtain rfl : next = other := Option.some.inj (first.symm.trans otherFirst)
      refine (inductionHypothesis (kept initially first now) remaining).mp ?_
      rintro state ⟨earlier, later, rfl, toState⟩
      exact allGood state
        ⟨action :: earlier, later, rfl, run?_cons_eq_some.mpr ⟨next, first, toState⟩⟩
    · rintro ⟨now, later⟩ state ⟨earlier, tail, split, toState⟩
      cases earlier with
      | nil =>
        simp only [run?_nil, Option.some.injEq] at toState
        exact toState ▸ weaker initially
      | cons head earlierRest =>
        obtain ⟨rfl, rfl⟩ := split
        obtain ⟨other, otherFirst, otherRest⟩ := run?_cons_eq_some.mp toState
        obtain rfl : next = other := Option.some.inj (first.symm.trans otherFirst)
        exact (inductionHypothesis (kept initially first now)
            remaining).mpr
          (later next first) state
          ⟨earlierRest, tail, rfl, otherRest⟩

theorem forall_reachedBy_iff_along {condition : State → Action → Prop} {good : State → Prop}
    (exactly : ∀ {state action next}, good state → step? state action = some next →
      (good next ↔ condition state action))
    {initial final : State}
    (initially : good initial)
    {actions : List Action}
    (accepted : run? step? initial actions = some final) :
    (∀ state, ReachedBy step? initial actions state → good state) ↔
      Along step? condition initial actions :=
  forall_reachedBy_iff_along_of_kept id exactly
    (fun before stepped now => (exactly before stepped).mpr now)
    initially accepted

/-- The same for steps out of good states that have an invariant. -/
theorem forall_reachedBy_iff_along_of_invariant {condition : State → Action → Prop}
    {invariant good : State → Prop}
    (preserved :
      ∀ {state action next}, invariant state → step? state action = some next → invariant next)
    (exactly : ∀ {state action next}, invariant state → good state →
      step? state action = some next → (good next ↔ condition state action))
    {initial final : State}
    (invariantInitially : invariant initial)
    (goodInitially : good initial)
    {actions : List Action}
    (accepted : run? step? initial actions = some final) :
    (∀ state, ReachedBy step? initial actions state → good state) ↔
      Along step? condition initial actions := by
  have initially : invariant initial ∧ good initial := ⟨invariantInitially, goodInitially⟩
  refine forall_reachedBy_iff_along_of_kept And.right ?_ ?_ initially accepted
  · intro state action next before stepped
    exact exactly before.1 before.2 stepped
  · intro state action next before stepped now
    exact ⟨preserved before.1 stepped, (exactly before.1 before.2 stepped).mpr now⟩

/-- A run ends in a good state exactly when all of its steps meet the condition. -/
theorem good_iff_along {condition : State → Action → Prop} {invariant good : State → Prop}
    (preserved :
      ∀ {state action next}, invariant state → step? state action = some next → invariant next)
    (exactly : ∀ {state action next}, invariant state → step? state action = some next →
      (good next ↔ good state ∧ condition state action))
    {initial final : State}
    (initially : invariant initial)
    {actions : List Action}
    (accepted : run? step? initial actions = some final) :
    good final ↔ good initial ∧ Along step? condition initial actions := by
  induction actions generalizing initial with
  | nil =>
    simp only [run?_nil, Option.some.injEq] at accepted
    simp [accepted, Along]
  | cons action rest inductionHypothesis =>
    obtain ⟨next, first, remaining⟩ := run?_cons_eq_some.mp accepted
    rw [inductionHypothesis (preserved initially first) remaining,
      exactly initially first, Along, and_assoc]
    refine and_congr_right fun _ => and_congr_right fun _ => ?_
    constructor
    · intro along other otherFirst
      obtain rfl : next = other := Option.some.inj (first.symm.trans otherFirst)
      exact along
    · intro later
      exact later next first

end Runs

end SocksDirect.Machine
