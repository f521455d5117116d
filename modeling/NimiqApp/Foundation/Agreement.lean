/-!
# Agreement of computations

Two computations agree if they stop for the same reason, or if both return,
with results in a relation.  Agreement is composed along the computations, so
that what they do not have in common has to be looked at only where it is
used.
-/

namespace NimiqApp
namespace Foundation

/-- Both computations return related results, or both stop in the same
way. -/
inductive Agree (related : α → β → Prop) :
    Except ε α → Except ε β → Prop
  | returned (holds : related left right) :
      Agree related (.ok left) (.ok right)
  | stopped : Agree related (.error stop) (.error stop)

namespace Agree

variable {related : α → β → Prop} {relatedBehind : γ → δ → Prop}

/-- Agreement behind results that are related. -/
theorem bind
    {left : Except ε α}
    {right : Except ε β}
    {leftBehind : α → Except ε γ}
    {rightBehind : β → Except ε δ}
    (agree : Agree related left right)
    (behind : ∀ leftValue rightValue, related leftValue rightValue →
      Agree relatedBehind (leftBehind leftValue) (rightBehind rightValue)) :
    Agree relatedBehind (left >>= leftBehind) (right >>= rightBehind) := by
  cases agree with
  | returned holds => exact behind _ _ holds
  | stopped => exact .stopped

/-- Agreement behind a common part. -/
theorem behind
    {left right : Except ε α}
    {leftBehind : α → Except ε γ}
    {rightBehind : α → Except ε δ}
    (same : left = right)
    (agree : ∀ value, right = .ok value →
      Agree relatedBehind (leftBehind value) (rightBehind value)) :
    Agree relatedBehind (left >>= leftBehind) (right >>= rightBehind) := by
  subst same
  cases result : left with
  | error stop => exact .stopped
  | ok value => exact agree value result

/-- What is the same agrees. -/
theorem of_eq
    {left right : Except ε α}
    (same : left = right) :
    Agree Eq left right := by
  subst same
  cases left with
  | error stop => exact .stopped
  | ok value => exact .returned rfl

/-- What agrees on its results is the same. -/
theorem eq
    {left right : Except ε α}
    (agree : Agree Eq left right) : left = right := by
  cases agree with
  | returned holds => rw [holds]
  | stopped => rfl

end Agree
end Foundation
end NimiqApp
