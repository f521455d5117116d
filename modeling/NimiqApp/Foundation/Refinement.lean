import Mathlib.Data.List.Forall2
import NimiqApp.Foundation.Runs

/-!
# Refinement between systems

One system refines another one when each of its allowed steps is explained by
allowed steps of the other one, from any two states in a relation to two such
states.  The relation may depend on what happened before.  Then every run is
explained by a run.
-/

namespace NimiqApp
namespace Foundation

/-- The steps that are allowed in a system refine those that are allowed in
another one, with a relation between the histories and the states, and one
between what happens. -/
structure Refines
    (concrete : System State Event Output)
    (allowed : List (Event × Output) → State → Event → Prop)
    (abstract : System State' Event' Output')
    (allowed' : List (Event' × Output') → State' → Event' → Prop)
    (related : List (Event × Output) → State →
      List (Event' × Output') → State' → Prop)
    (explains : Event × Output → List (Event' × Output') → Prop) :
    Prop where
  start : related [] concrete.start [] abstract.start
  step : ∀ {history state history' state' event next output},
    related history state history' state' →
    allowed history state event →
    concrete.step state event = some (next, output) →
    ∃ happened next',
      abstract.Steps allowed' history' state' happened next' ∧
      explains (event, output) happened ∧
      related (history ++ [(event, output)]) next (history' ++ happened) next'

/-- Every run is explained by a run, step by step. -/
theorem Refines.run
    {concrete : System State Event Output}
    {abstract : System State' Event' Output'}
    (refines : Refines concrete allowed abstract allowed' related explains)
    (run : concrete.Run allowed history state) :
    ∃ blocks state',
      abstract.Run allowed' blocks.flatten state' ∧
      List.Forall₂ explains history blocks ∧
      related history state blocks.flatten state' := by
  induction run with
  | start => exact ⟨[], _, .start, .nil, refines.start⟩
  | step _ permitted stepped inductionHypothesis =>
      obtain ⟨blocks, state', abstractRun, explained, isRelated⟩ :=
        inductionHypothesis
      obtain ⟨happened, next', steps, explainsLast, relatedNext⟩ :=
        refines.step isRelated permitted stepped
      have flattened : (blocks ++ [happened]).flatten =
          blocks.flatten ++ happened := by
        rw [List.flatten_append, List.flatten_singleton]
      refine ⟨blocks ++ [happened], next', ?_, ?_, ?_⟩
      · rw [flattened]
        exact steps.run abstractRun
      · exact List.rel_append explained (.cons explainsLast .nil)
      · rw [flattened]
        exact relatedNext

/-- A system mirrors another one.  In related states, an event that both of
them see can happen in both or in neither, and leads to results that match and
to related states.  Events that the abstract system does not see are silent, and
lead to states that are related to the same state. -/
structure Mirrors
    (concrete : System State Event Output)
    (allowed : List (Event × Output) → State → Event → Prop)
    (abstract : System State' Event Output')
    (visible : Event → Prop)
    (silent : Output → Prop)
    (matching : Output → Output' → Prop)
    (related : List (Event × Output) → State → State' → Prop) : Prop where
  start : related [] concrete.start abstract.start
  hidden : ∀ {history state state' event next output},
    related history state state' →
    allowed history state event →
    ¬visible event →
    concrete.step state event = some (next, output) →
    silent output ∧ related (history ++ [(event, output)]) next state'
  seen : ∀ {history state state' event},
    related history state state' →
    allowed history state event →
    visible event →
    Option.Rel
      (fun result result' => matching result.2 result'.2 ∧
        related (history ++ [(event, result.2)]) result.1 result'.1)
      (concrete.step state event) (abstract.step state' event)

/-- What the abstract system sees of a history. -/
inductive Mirrored (visible : Event → Prop) (silent : Output → Prop)
    (matching : Output → Output' → Prop) :
    List (Event × Output) → List (Event × Output') → Prop
  | nil : Mirrored visible silent matching [] []
  | hidden {history : List (Event × Output)}
      {seen : List (Event × Output')} {event : Event} {output : Output}
      (before : Mirrored visible silent matching history seen)
      (isHidden : ¬visible event)
      (isSilent : silent output) :
      Mirrored visible silent matching (history ++ [(event, output)]) seen
  | seen {history : List (Event × Output)}
      {seen : List (Event × Output')} {event : Event} {output : Output}
      {output' : Output'}
      (before : Mirrored visible silent matching history seen)
      (isVisible : visible event)
      (isMatch : matching output output') :
      Mirrored visible silent matching (history ++ [(event, output)])
        (seen ++ [(event, output')])

/-- Every run is mirrored by a run. -/
theorem Mirrors.run
    {concrete : System State Event Output}
    {abstract : System State' Event Output'}
    (mirrors : Mirrors concrete allowed abstract visible silent matching
      related)
    (run : concrete.Run allowed history state) :
    ∃ seen state',
      abstract.Run System.anyEvent seen state' ∧
      Mirrored visible silent matching history seen ∧
      related history state state' := by
  induction run with
  | start => exact ⟨[], _, .start, .nil, mirrors.start⟩
  | @step history state event next output _ permitted stepped
      inductionHypothesis =>
      obtain ⟨seen, state', abstractRun, mirrored, isRelated⟩ :=
        inductionHypothesis
      by_cases isVisible : visible event
      · have both := mirrors.seen isRelated permitted isVisible
        rw [stepped] at both
        generalize resultEq : abstract.step state' event = result at both
        cases both with
        | @some _ result' holds =>
            exact ⟨_, result'.1, abstractRun.step trivial resultEq,
              mirrored.seen isVisible holds.1, holds.2⟩
      · obtain ⟨isSilent, relatedNext⟩ :=
          mirrors.hidden isRelated permitted isVisible stepped
        exact ⟨seen, state', abstractRun, mirrored.hidden isVisible isSilent,
          relatedNext⟩

end Foundation
end NimiqApp
