/-!
# Computations that log what they do

A logged computation ends like any other one.  The events before its end are
kept, whether it returns or throws.
-/

namespace NimiqApp
namespace Foundation

/-- The events of a computation, and how it ends. -/
structure Logged (event ε α : Type) where
  events : List event
  outcome : Except ε α

namespace Logged

/-- What follows a computation adds its events, unless the computation
throws. -/
def andThen (first : Logged event ε α) (next : α → Logged event ε β) :
    Logged event ε β :=
  match first.outcome with
  | .ok value =>
      ⟨first.events ++ (next value).events, (next value).outcome⟩
  | .error exception => ⟨first.events, .error exception⟩

instance : Monad (Logged event ε) where
  pure value := ⟨[], .ok value⟩
  bind := andThen

/-- Log an event. -/
def log (occurred : event) : Logged event ε Unit :=
  ⟨[occurred], .ok ()⟩

/-- A computation without events. -/
def lift (computation : Except ε α) : Logged event ε α :=
  ⟨[], computation⟩

section Rules

variable {event ε α β : Type} {occurred : event}
  {first : Logged event ε α} {next : α → Logged event ε β}

@[simp] theorem outcome_pure (value : α) :
    (pure value : Logged event ε α).outcome = .ok value := rfl

@[simp] theorem events_pure (value : α) :
    (pure value : Logged event ε α).events = [] := rfl

@[simp] theorem outcome_log :
    (log occurred : Logged event ε Unit).outcome = .ok () := rfl

@[simp] theorem events_log :
    (log occurred : Logged event ε Unit).events = [occurred] := rfl

@[simp] theorem outcome_lift (computation : Except ε α) :
    (lift computation : Logged event ε α).outcome = computation := rfl

@[simp] theorem events_lift (computation : Except ε α) :
    (lift computation : Logged event ε α).events = [] := rfl

/-- Without its log, a sequence is a sequence. -/
@[simp] theorem outcome_bind :
    (first >>= next).outcome =
      first.outcome >>= fun value => (next value).outcome := by
  change (first.andThen next).outcome = _
  unfold andThen
  cases first.outcome <;> rfl

/-- A computation that returns is followed by the events of the next one. -/
theorem events_bind
    (returned : first.outcome = .ok value) :
    (first >>= next).events = first.events ++ (next value).events := by
  change (first.andThen next).events = _
  unfold andThen
  rw [returned]

/-- An event of a sequence is one of the first computation or, after it
returned, one of the next. -/
theorem mem_bind :
    occurred ∈ (first >>= next).events ↔
      occurred ∈ first.events ∨
        ∃ value, first.outcome = .ok value ∧
          occurred ∈ (next value).events := by
  cases outcome : first.outcome with
  | ok value => simp [events_bind outcome]
  | error exception =>
      change _ ∈ (first.andThen next).events ↔ _
      unfold andThen
      rw [outcome]
      simp

end Rules

/-- All events of a computation are of some kind. -/
def Every (holds : event → Prop) (computation : Logged event ε α) : Prop :=
  ∀ occurred ∈ computation.events, holds occurred

namespace Every

variable {event ε α β : Type} {holds : event → Prop}
  {first : Logged event ε α} {next : α → Logged event ε β}

theorem pure (value : α) :
    Every holds (Pure.pure value : Logged event ε α) :=
  fun _ member => nomatch member

theorem lift (computation : Except ε α) :
    Every holds (Logged.lift computation) :=
  fun _ member => nomatch member

theorem log {occurred : event} (isSo : holds occurred) :
    Every holds (Logged.log occurred : Logged event ε Unit) := by
  intro other member
  rw [List.mem_singleton.mp member]
  exact isSo

/-- A computation and what follows it. -/
theorem bind
    (firstEvery : Every holds first)
    (nextEvery : ∀ value, first.outcome = .ok value →
      Every holds (next value)) :
    Every holds (first >>= next) := by
  intro occurred member
  rcases mem_bind.mp member with early | ⟨value, returned, late⟩
  · exact firstEvery occurred early
  · exact nextEvery value returned occurred late

end Every
end Logged
end Foundation
end NimiqApp
