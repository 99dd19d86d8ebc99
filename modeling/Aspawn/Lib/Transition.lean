/-! Runs of a step function. All nondeterminism is carried by the actions, so a
step is a partial function and a run is determined by its list of actions. -/

set_option autoImplicit false

namespace Transition

universe u v

variable {State : Type u} {Action : Type v}

/-- Perform the actions in order; the run stops with `none` at one that is not enabled. -/
def run (step : State → Action → Option State) : State → List Action → Option State
  | state, [] => some state
  | state, action :: rest =>
      match step state action with
      | none => none
      | some next => run step next rest

/-- Every action of the run meets the condition in the state where it is performed. -/
def Along (step : State → Action → Option State) (allowed : State → Action → Prop) :
    State → List Action → Prop
  | _, [] => True
  | state, action :: rest =>
      allowed state action ∧ ∀ next, step state action = some next → Along step allowed next rest

/-- What an observer of the steps sees of a run, in order. -/
def trace {Event : Type u} (step : State → Action → Option State)
    (observe : State → Action → State → List Event) : State → List Action → List Event
  | _, [] => []
  | state, action :: rest =>
      match step state action with
      | none => []
      | some next => observe state action next ++ trace step observe next rest

/-- The states reached from `start` by steps that all meet the condition. -/
inductive Reaches (step : State → Action → Option State) (allowed : State → Action → Prop)
    (start : State) : State → Prop where
  | refl : Reaches step allowed start start
  | tail {state next : State} {action : Action} :
      Reaches step allowed start state → allowed state action →
      step state action = some next → Reaches step allowed start next

section

variable {step : State → Action → Option State} {allowed weaker : State → Action → Prop}
  {start middle state next : State} {action : Action} {actions rest : List Action}

theorem run_cons_some (stepped : step state action = some next) :
    run step state (action :: rest) = run step next rest := by
  simp [run, stepped]

theorem run_cons_iff {final : State} :
    run step state (action :: rest) = some final ↔
      ∃ next, step state action = some next ∧ run step next rest = some final := by
  cases stepped : step state action <;> simp [run, stepped]

theorem run_single (stepped : step state action = some next) :
    run step state [action] = some next := by
  simp [run, stepped]

theorem run_append :
    run step state (actions ++ rest) = (run step state actions).bind (run step · rest) := by
  induction actions generalizing state with
  | nil => rfl
  | cons action actions ih =>
      simp only [List.cons_append, run]
      cases step state action with
      | none => rfl
      | some next => exact ih

/-- Forward simulation: if what is seen of each step is a run of another system between
related states, so is what is seen of a whole run. -/
theorem run_trace {Spec Event : Type u} {stepSpec : Spec → Event → Option Spec}
    {observe : State → Action → State → List Event} {Related : State → Spec → Prop}
    {final : State} {spec : Spec}
    (matched : ∀ {state action next spec}, Related state spec → allowed state action →
      step state action = some next →
      ∃ later, run stepSpec spec (observe state action next) = some later ∧ Related next later)
    (related : Related start spec) (permitted : Along step allowed start actions)
    (performed : run step start actions = some final) :
    ∃ later, run stepSpec spec (trace step observe start actions) = some later ∧
      Related final later := by
  induction actions generalizing start spec with
  | nil =>
      cases Option.some.inj performed
      exact ⟨spec, rfl, related⟩
  | cons action rest ih =>
      obtain ⟨next, stepped, later⟩ := run_cons_iff.mp performed
      obtain ⟨middle, seen, relatedNext⟩ := matched related permitted.1 stepped
      obtain ⟨last, seenLater, relatedFinal⟩ := ih relatedNext (permitted.2 next stepped) later
      refine ⟨last, ?_, relatedFinal⟩
      simp only [trace, stepped, run_append, seen, Option.bind_some]
      exact seenLater

/-- An invariant that counts the actions of one kind. -/
theorem counted_of_run {kind : Action → Bool} {count : Nat} (Inv : State → Nat → Prop)
    (performed : run step start actions = some state) (initial : Inv start count)
    (counted : ∀ {state next action count}, Inv state count → step state action = some next →
      Inv next (count + if kind action then 1 else 0)) :
    Inv state (count + actions.countP kind) := by
  induction actions generalizing start count with
  | nil =>
      cases Option.some.inj performed
      exact initial
  | cons action rest ih =>
      obtain ⟨next, stepped, later⟩ := run_cons_iff.mp performed
      have counts := ih later (counted initial stepped)
      rw [List.countP_cons, Nat.add_comm (rest.countP kind), ← Nat.add_assoc]
      exact counts

/-- The actions of one kind are counted by what they do to the state. -/
theorem countP_of_run {kind : Action → Bool} {measure : State → Nat}
    (performed : run step start actions = some state)
    (counted : ∀ {state next action}, step state action = some next →
      measure next = measure state + if kind action then 1 else 0) :
    measure state = measure start + actions.countP kind := by
  have counts : measure state = measure start + (0 + actions.countP kind) :=
    counted_of_run (fun state count => measure state = measure start + count) performed rfl
      fun same stepped => by rw [counted stepped, same, Nat.add_assoc]
  rw [counts, Nat.zero_add]

theorem countP_le_of_run {kind : Action → Bool} {measure : State → Nat}
    (performed : run step start actions = some state)
    (counted : ∀ {state next action}, step state action = some next →
      measure state + (if kind action then 1 else 0) ≤ measure next) :
    measure start + actions.countP kind ≤ measure state := by
  have counts : measure start + (0 + actions.countP kind) ≤ measure state :=
    counted_of_run (fun state count => measure start + count ≤ measure state) performed
      (Nat.le_refl _) fun bounded stepped => by
        have more := counted stepped
        omega
  rwa [Nat.zero_add] at counts

instance decidableAlong [∀ state action, Decidable (allowed state action)] :
    ∀ (state : State) (actions : List Action), Decidable (Along step allowed state actions)
  | _, [] => .isTrue trivial
  | state, action :: rest =>
      match stepped : step state action with
      | none => decidable_of_iff (allowed state action) (by simp [Along, stepped])
      | some next =>
          have := decidableAlong next rest
          decidable_of_iff (allowed state action ∧ Along step allowed next rest)
            (by simp [Along, stepped])

/-- A run whose steps all keep `Good` when they are tidy ends in `Good`, and a single
untidy step leaves it in `Bad` for the rest of the run. -/
theorem run_dichotomy {Good Bad : State → Prop} {tidy : State → Action → Prop}
    {final : State}
    (kept : ∀ {state next action}, Good state → allowed state action → tidy state action →
      step state action = some next → Good next)
    (lost : ∀ {state next action}, Good state → allowed state action → ¬ tidy state action →
      step state action = some next → Bad next)
    (stays : ∀ {state next action}, Bad state → allowed state action →
      step state action = some next → Bad next)
    (good : Good start) (permitted : Along step allowed start actions)
    (performed : run step start actions = some final) :
    (Along step tidy start actions ∧ Good final) ∨
      (¬ Along step tidy start actions ∧ Bad final) := by
  have spoiled : ∀ {actions start}, Bad start → Along step allowed start actions →
      run step start actions = some final → Bad final := by
    intro actions
    induction actions with
    | nil =>
        intro start bad _ performed
        cases Option.some.inj performed
        exact bad
    | cons action rest ih =>
        intro start bad permitted performed
        obtain ⟨next, stepped, later⟩ := run_cons_iff.mp performed
        exact ih (stays bad permitted.1 stepped) (permitted.2 next stepped) later
  induction actions generalizing start with
  | nil =>
      cases Option.some.inj performed
      exact .inl ⟨trivial, good⟩
  | cons action rest ih =>
      obtain ⟨next, stepped, later⟩ := run_cons_iff.mp performed
      have permittedRest := permitted.2 next stepped
      by_cases clean : tidy start action
      · rcases ih (kept good permitted.1 clean stepped) permittedRest later with
          ⟨tidyRest, final⟩ | ⟨untidyRest, final⟩
        · refine .inl ⟨⟨clean, fun other same => ?_⟩, final⟩
          cases Option.some.inj (stepped.symm.trans same)
          exact tidyRest
        · exact .inr ⟨fun along => untidyRest (along.2 next stepped), final⟩
      · exact .inr ⟨fun along => clean along.1,
          spoiled (lost good permitted.1 clean stepped) permittedRest later⟩

theorem along_cons_some (stepped : step state action = some next) :
    Along step allowed state (action :: rest) ↔
      allowed state action ∧ Along step allowed next rest := by
  simp [Along, stepped]

theorem Along.cons (first : allowed state action)
    (later : ∀ next, Along step allowed next rest) :
    Along step allowed state (action :: rest) :=
  ⟨first, fun next _ => later next⟩

theorem Along.of_forall (permitted : ∀ action ∈ actions, ∀ state, allowed state action) :
    Along step allowed start actions := by
  induction actions generalizing start with
  | nil => trivial
  | cons action rest ih =>
      exact ⟨permitted action List.mem_cons_self start, fun next _ =>
        ih fun other later => permitted other (List.mem_cons_of_mem _ later)⟩

/-- A condition that follows from an invariant holds along the run. -/
theorem Along.strengthen {Inv : State → Prop} (initial : Inv start)
    (preserved : ∀ {state next action}, Inv state → allowed state action →
      step state action = some next → Inv next)
    (implies : ∀ {state action}, Inv state → allowed state action → weaker state action)
    (permitted : Along step allowed start actions) : Along step weaker start actions := by
  induction actions generalizing start with
  | nil => trivial
  | cons action rest ih =>
      refine ⟨implies initial permitted.1, fun next stepped => ?_⟩
      exact ih (preserved initial permitted.1 stepped) (permitted.2 next stepped)

theorem Along.snoc {action : Action} (permitted : Along step allowed start actions)
    (performed : run step start actions = some state) (last : allowed state action) :
    Along step allowed start (actions ++ [action]) := by
  induction actions generalizing start with
  | nil =>
      cases Option.some.inj performed
      exact ⟨last, fun _ _ => trivial⟩
  | cons first rest ih =>
      refine ⟨permitted.1, fun next stepped => ih (permitted.2 next stepped) ?_⟩
      rwa [← run_cons_some stepped]

namespace Reaches

theorem trans (first : Reaches step allowed start middle)
    (second : Reaches step allowed middle state) : Reaches step allowed start state := by
  induction second with
  | refl => exact first
  | tail _ permitted stepped ih => exact .tail ih permitted stepped

theorem head (permitted : allowed start action) (stepped : step start action = some middle)
    (later : Reaches step allowed middle state) : Reaches step allowed start state :=
  (Reaches.tail .refl permitted stepped).trans later

/-- The one induction behind every safety theorem. -/
theorem invariant (Inv : State → Prop) (initial : Inv start)
    (preserved : ∀ {state next action}, Inv state → allowed state action →
      step state action = some next → Inv next)
    (reached : Reaches step allowed start state) : Inv state := by
  induction reached with
  | refl => exact initial
  | tail _ permitted stepped ih => exact preserved ih permitted stepped

theorem mono (implies : ∀ {state action}, allowed state action → weaker state action)
    (reached : Reaches step allowed start state) : Reaches step weaker start state := by
  induction reached with
  | refl => exact .refl
  | tail _ permitted stepped ih => exact .tail ih (implies permitted) stepped

/-- A condition that follows from an invariant may be assumed of every step. -/
theorem strengthen (Inv : State → Prop) (initial : Inv start)
    (preserved : ∀ {state next action}, Inv state → allowed state action →
      step state action = some next → Inv next)
    (implies : ∀ {state action}, Inv state → allowed state action → weaker state action)
    (reached : Reaches step allowed start state) :
    Reaches step weaker start state ∧ Inv state := by
  induction reached with
  | refl => exact ⟨.refl, initial⟩
  | tail _ permitted stepped ih =>
      exact ⟨.tail ih.1 (implies ih.2 permitted) stepped, preserved ih.2 permitted stepped⟩

/-- If every step is matched by steps of another system between the views of its states,
so is every run. -/
theorem simulates {View : Type u} {Event : Type v} {stepView : View → Event → Option View}
    {allowedView : View → Event → Prop} (view : State → View) (Inv : State → Prop)
    (initial : Inv start)
    (preserved : ∀ {state next action}, Inv state → allowed state action →
      step state action = some next → Inv next)
    (matched : ∀ {state next action}, Inv state → allowed state action →
      step state action = some next →
      Reaches stepView allowedView (view state) (view next))
    (reached : Reaches step allowed start state) :
    Reaches stepView allowedView (view start) (view state) ∧ Inv state := by
  induction reached with
  | refl => exact ⟨.refl, initial⟩
  | tail _ permitted stepped ih =>
      exact ⟨ih.1.trans (matched ih.2 permitted stepped), preserved ih.2 permitted stepped⟩

theorem of_run (performed : run step start actions = some state)
    (permitted : Along step allowed start actions) : Reaches step allowed start state := by
  induction actions generalizing start with
  | nil =>
      cases Option.some.inj performed
      exact .refl
  | cons action rest ih =>
      obtain ⟨next, stepped, later⟩ := run_cons_iff.mp performed
      exact .head permitted.1 stepped (ih later (permitted.2 next stepped))

theorem exists_run (reached : Reaches step allowed start state) :
    ∃ actions, Along step allowed start actions ∧ run step start actions = some state := by
  induction reached with
  | refl => exact ⟨[], trivial, rfl⟩
  | tail _ permitted stepped ih =>
      obtain ⟨actions, along, performed⟩ := ih
      refine ⟨actions ++ [_], along.snoc performed permitted, ?_⟩
      rw [run_append, performed]
      exact run_single stepped

end Reaches

end

end Transition
