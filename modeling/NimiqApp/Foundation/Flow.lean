import Mathlib.Data.List.Induction

/-!
# Flows of steps

A flow is a row of steps, and an engine goes through it step by step.  It
knows where it is and which way it came.  What a user makes of a flow is a
list with a place in it.
-/

namespace NimiqApp
namespace Foundation

/-- The way in which a step of a flow was reached. -/
inductive FlowDirection
  | start
  | forward
  | backward
  deriving DecidableEq, Repr

/-- An engine for flows.  It goes to the step next to the current one, if
there is one. -/
structure FlowEngine where
  /-- Where an engine is, and which way it came. -/
  Cursor : Type
  /-- Start at a step. -/
  init : Nat → Cursor
  /-- Go forward in a flow of some length. -/
  next : Nat → Cursor → Option Cursor
  /-- Go backward. -/
  prev : Cursor → Option Cursor
  position : Cursor → Nat
  direction : Cursor → FlowDirection
  position_init : ∀ start, position (init start) = start
  direction_init : ∀ start, direction (init start) ≠ .backward
  next_last : ∀ length cursor, length ≤ position cursor + 1 →
    next length cursor = none
  next_inner : ∀ length cursor, position cursor + 1 < length →
    ∃ reached, next length cursor = some reached ∧
      position reached = position cursor + 1 ∧
      direction reached = .forward
  prev_first : ∀ cursor, position cursor = 0 → prev cursor = none
  prev_inner : ∀ cursor, 0 < position cursor →
    ∃ reached, prev cursor = some reached ∧
      position reached + 1 = position cursor ∧
      direction reached = .backward

namespace FlowEngine

/-- The first step of a flow. -/
def IsFirst (engine : FlowEngine) (cursor : engine.Cursor) : Prop :=
  engine.position cursor = 0

/-- The last step of a flow of some length. -/
def IsLast (engine : FlowEngine) (length : Nat) (cursor : engine.Cursor) :
    Prop :=
  length ≤ engine.position cursor + 1

instance (engine : FlowEngine) (cursor : engine.Cursor) :
    Decidable (engine.IsFirst cursor) :=
  inferInstanceAs (Decidable (_ = _))

instance (engine : FlowEngine) (length : Nat) (cursor : engine.Cursor) :
    Decidable (engine.IsLast length cursor) :=
  inferInstanceAs (Decidable (_ ≤ _))

/-- An engine that keeps its place and its direction. -/
def plain : FlowEngine where
  Cursor := Nat × FlowDirection
  init start := (start, .start)
  next length cursor :=
    if cursor.1 + 1 < length then some (cursor.1 + 1, .forward) else none
  prev cursor :=
    match cursor.1 with
    | 0 => none
    | place + 1 => some (place, .backward)
  position := Prod.fst
  direction := Prod.snd
  position_init _ := rfl
  direction_init _ := nofun
  next_last length cursor atEnd := if_neg (Nat.not_lt.mpr atEnd)
  next_inner length cursor inner := ⟨_, if_pos inner, rfl, rfl⟩
  prev_first cursor first := by rw [first]
  prev_inner cursor inner := by
    obtain ⟨_ | place, direction⟩ := cursor
    · cases inner
    · exact ⟨_, rfl, rfl, rfl⟩

end FlowEngine

/-- A place in a list, with what is in front of it and behind it. -/
structure Place (α : Type) where
  before : List α
  current : α
  after : List α

namespace Place

/-- The list in which the place is. -/
def list (place : Place α) : List α :=
  place.before ++ place.current :: place.after

/-- Go to the right, if there is something. -/
def right (place : Place α) : Place α :=
  match place.after with
  | [] => place
  | next :: after => ⟨place.before ++ [place.current], next, after⟩

/-- Go to the left, if there is something. -/
def left (place : Place α) : Place α :=
  match place.before.getLast? with
  | none => place
  | some previous =>
      ⟨place.before.dropLast, previous, place.current :: place.after⟩

variable {place : Place α} {before after : List α} {current previous : α}

theorem left_append :
    (⟨before ++ [previous], current, after⟩ : Place α).left =
      ⟨before, previous, current :: after⟩ := by
  simp [left]

/-- Whatever holds when going left and right, every item of the list is
reached with it. -/
theorem reaches
    (holds : Place α → Prop)
    (start : holds place)
    (right : ∀ place, holds place → holds place.right)
    (left : ∀ place, holds place → holds place.left)
    (member : item ∈ place.list) :
    ∃ reached, holds reached ∧ reached.current = item := by
  obtain ⟨before, current, after⟩ := place
  unfold list at member
  rcases List.mem_append.mp member with early | late
  · induction before using List.reverseRecOn generalizing current after with
    | nil => cases early
    | append_singleton before previous inductionHypothesis =>
        have moved := left _ start
        rw [left_append] at moved
        rcases List.mem_append.mp early with early | isPrevious
        · exact inductionHypothesis _ _ moved
            (List.mem_append_left _ early) early
        · exact ⟨_, moved, (List.mem_singleton.mp isPrevious).symm⟩
  · clear member
    induction after generalizing before current with
    | nil => exact ⟨_, start, (List.mem_singleton.mp late).symm⟩
    | cons next after inductionHypothesis =>
        rcases List.mem_cons.mp late with rfl | later
        · exact ⟨_, start, rfl⟩
        · exact inductionHypothesis _ _ (right _ start) later

/-- What is at a place is in its list. -/
theorem current_mem (place : Place α) : place.current ∈ place.list := by
  unfold list
  simp

/-- A part in front of the list that does not reach up to the place is in
front of the place. -/
theorem mem_before
    {front back : List α}
    (listEq : place.list = front ++ back)
    (absent : place.current ∉ front)
    (member : item ∈ front) :
    item ∈ place.before := by
  unfold list at listEq
  rcases List.append_eq_append_iff.mp listEq with
    ⟨between, frontEq, rest⟩ | ⟨between, beforeEq, _⟩
  · cases between with
    | nil =>
        rw [frontEq, List.append_nil] at member
        exact member
    | cons first between =>
        have isCurrent : place.current = first := (List.cons.inj rest).1
        exact absurd (by rw [frontEq, isCurrent]; simp) absent
  · rw [beforeEq]
    exact List.mem_append_left _ member

/-- All that is in front of a place, and what is there, is in some list. -/
def SeenIn (place : Place α) (seen : List α) : Prop :=
  ∀ item ∈ place.before ++ [place.current], item ∈ seen

/-- What is reached on the right is seen when it is reached. -/
theorem SeenIn.right (isSeen : place.SeenIn seen) :
    place.right.SeenIn (seen ++ [place.right.current]) := by
  obtain ⟨before, current, after⟩ := place
  intro item member
  rw [List.mem_append]
  cases after with
  | nil => exact Or.inl (isSeen item member)
  | cons next after =>
      rcases List.mem_append.mp member with early | new
      · exact Or.inl (isSeen item early)
      · exact Or.inr new

/-- Nothing new is on the left. -/
theorem SeenIn.left (isSeen : place.SeenIn seen) :
    place.left.SeenIn seen := by
  obtain ⟨before, current, after⟩ := place
  rcases List.eq_nil_or_concat before with rfl | ⟨before, previous, rfl⟩
  · exact isSeen
  · rw [List.concat_eq_append] at isSeen ⊢
    rw [left_append]
    intro item member
    exact isSeen item (List.mem_append_left _ member)

end Place
end Foundation
end NimiqApp
