/-!
# How computations end

A computation ends with a value or with an exception.  `Ends` says of which
kind either of them is; its rules follow a computation step by step.
-/

namespace NimiqApp
namespace Foundation

/-- The computation returns such a value or throws such an exception. -/
inductive Ends (returns : α → Prop) (throws : ε → Prop) : Except ε α → Prop
  | returned (holds : returns value) : Ends returns throws (.ok value)
  | threw (holds : throws exception) : Ends returns throws (.error exception)

namespace Ends

variable {returns between : α → Prop} {throws : ε → Prop}
  {computation : Except ε α}

/-- A step and what follows it. -/
theorem bind
    {continuation : α → Except ε β} {returns : β → Prop}
    (first : Ends between throws computation)
    (next : ∀ value, between value →
      Ends returns throws (continuation value)) :
    Ends returns throws (computation >>= continuation) := by
  cases first with
  | returned holds => exact next _ holds
  | threw holds => exact .threw holds

/-- Less may be said. -/
theorem imp
    (ends : Ends between throws computation)
    (weaker : ∀ value, between value → returns value) :
    Ends returns throws computation := by
  cases ends with
  | returned holds => exact .returned (weaker _ holds)
  | threw holds => exact .threw holds

/-- What is returned is the value of the computation. -/
theorem self
    (ends : Ends returns throws computation) :
    Ends (fun value => computation = .ok value) throws computation := by
  cases ends with
  | returned holds => exact .returned rfl
  | threw holds => exact .threw holds

/-- Two alternatives. -/
theorem ite
    {condition : Prop} [Decidable condition] {other : Except ε α}
    (holds : condition → Ends returns throws computation)
    (fails : ¬condition → Ends returns throws other) :
    Ends returns throws (if condition then computation else other) := by
  split
  · rename_i isTrue
    exact holds isTrue
  · rename_i isFalse
    exact fails isFalse

/-- A computation known to return a value. -/
theorem of_eq_ok
    (result : computation = .ok value)
    (holds : returns value) : Ends returns throws computation :=
  result ▸ .returned holds

/-- A computation known to throw. -/
theorem of_eq_error
    (result : computation = .error exception)
    (holds : throws exception) : Ends returns throws computation :=
  result ▸ .threw holds

end Ends
end Foundation
end NimiqApp
