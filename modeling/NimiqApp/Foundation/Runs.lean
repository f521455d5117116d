/-!
# Runs of a deterministic system

A system takes a state and an event to a state and an output, or refuses the
event.  A run records its history, the events with their outputs, so that
conditions and invariants can speak about what happened before.
-/

namespace NimiqApp
namespace Foundation

/-- A system that answers events, when they are enabled. -/
structure System (State Event Output : Type) where
  /-- The state after start-up. -/
  start : State
  /-- Answer an event, or refuse it. -/
  step : State → Event → Option (State × Output)

namespace System

/-- Runs from start-up all of whose events are allowed where they occur. -/
inductive Run (system : System State Event Output)
    (allowed : List (Event × Output) → State → Event → Prop) :
    List (Event × Output) → State → Prop
  | start : Run system allowed [] system.start
  | step
      (run : Run system allowed history state)
      (permitted : allowed history state event)
      (stepped : system.step state event = some (next, output)) :
      Run system allowed (history ++ [(event, output)]) next

/-- No condition on the events of a run. -/
def anyEvent : List (Event × Output) → State → Event → Prop :=
  fun _ _ _ => True

/-- A run under a stronger condition is a run under a weaker one. -/
theorem Run.mono
    {system : System State Event Output}
    (run : system.Run strong history state)
    (weaken : ∀ history state event,
      strong history state event → weak history state event) :
    system.Run weak history state := by
  induction run with
  | start => exact .start
  | step _ permitted stepped inductionHypothesis =>
      exact .step inductionHypothesis (weaken _ _ _ permitted) stepped

/-- What holds at start-up and is preserved by every allowed step holds
after every run. -/
theorem Run.invariant
    {system : System State Event Output}
    {holds : List (Event × Output) → State → Prop}
    (run : system.Run allowed history state)
    (initially : holds [] system.start)
    (preserved : ∀ {history state event next output},
      holds history state →
      allowed history state event →
      system.step state event = some (next, output) →
      holds (history ++ [(event, output)]) next) :
    holds history state := by
  induction run with
  | start => exact initially
  | step _ permitted stepped inductionHypothesis =>
      exact preserved inductionHypothesis permitted stepped

/-- Allowed steps one after the other behind a history, with what happens in
them. -/
inductive Steps (system : System State Event Output)
    (allowed : List (Event × Output) → State → Event → Prop) :
    List (Event × Output) → State → List (Event × Output) → State → Prop
  | none : Steps system allowed history state [] state
  | one
      (permitted : allowed history state event)
      (stepped : system.step state event = some (next, output))
      (steps :
        Steps system allowed (history ++ [(event, output)]) next happened last) :
      Steps system allowed history state ((event, output) :: happened) last

variable {system : System State Event Output}
  {allowed : List (Event × Output) → State → Event → Prop}
  {history happened later : List (Event × Output)}
  {state next last : State} {event : Event} {output : Output}

/-- A single step. -/
theorem Steps.single
    (permitted : allowed history state event)
    (stepped : system.step state event = some (next, output)) :
    system.Steps allowed history state [(event, output)] next :=
  .one permitted stepped .none

/-- Steps after steps. -/
theorem Steps.append
    (first : system.Steps allowed history state happened next)
    (second : system.Steps allowed (history ++ happened) next later last) :
    system.Steps allowed history state (happened ++ later) last := by
  induction first with
  | none => rwa [List.append_nil] at second
  | one permitted stepped _ inductionHypothesis =>
      rw [List.append_cons] at second
      exact .one permitted stepped (inductionHypothesis second)

/-- A run goes on with further steps. -/
theorem Steps.run
    (steps : system.Steps allowed history state happened last)
    (run : system.Run allowed history state) :
    system.Run allowed (history ++ happened) last := by
  induction steps with
  | none => rwa [List.append_nil]
  | one permitted stepped _ inductionHypothesis =>
      rw [List.append_cons]
      exact inductionHypothesis (run.step permitted stepped)

end System
end Foundation
end NimiqApp
