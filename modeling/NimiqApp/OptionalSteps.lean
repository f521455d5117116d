import Mathlib.Data.List.ReduceOption
import NimiqApp.Errors
import NimiqApp.Foundation.Flow

/-!
# Optional steps

The steps of `nimiq_ux_bagl_macros.h`.  A step whose display condition is not
fulfilled leads on to the next or the previous step, and turns around at the
ends of the flow.  For the user, the steps that are displayed are a list to
go through.
-/

namespace NimiqApp
namespace Bagl

open Foundation (FlowEngine FlowDirection Place)

section Init

variable (engine : FlowEngine)

/-- Where a step leads that is not displayed. -/
def skipStep (length : Nat) (cursor : engine.Cursor) :
    Option engine.Cursor :=
  if (engine.direction cursor ≠ .backward ∧ ¬engine.IsLast length cursor) ∨
      engine.IsFirst cursor then
    engine.next length cursor
  else engine.prev cursor

/-- The init method of the step at the cursor, with what is displayed in the
end.  A step is given by its panel, or by none if it is not displayed. -/
def initStepLoop (steps : List (Run ε (Option panel))) :
    Nat → engine.Cursor → Run ε (Option (engine.Cursor × panel))
  | 0, _ => pure none
  | fuel + 1, cursor =>
      match steps[engine.position cursor]? with
      | none => pure none
      | some step => do
          match ← step with
          | some shown => pure (some (cursor, shown))
          | none =>
              match skipStep engine steps.length cursor with
              | none => pure none
              | some reached => initStepLoop steps fuel reached

/-- No step is left out of a flow for more than two passes through it. -/
def initStep (steps : List (Run ε (Option panel)))
    (cursor : engine.Cursor) : Run ε (Option (engine.Cursor × panel)) :=
  initStepLoop engine steps (2 * steps.length) cursor

/-- `ux_flow_init`. -/
def uxFlowInit (steps : List (Run ε (Option panel))) (start : Nat) :
    Run ε (Option (engine.Cursor × panel)) :=
  initStep engine steps (engine.init start)

/-- `ux_flow_next`.  At the end of the flow nothing happens. -/
def uxFlowNext (steps : List (Run ε (Option panel)))
    (cursor : engine.Cursor) : Run ε (Option (engine.Cursor × panel)) :=
  match engine.next steps.length cursor with
  | none => pure none
  | some reached => initStep engine steps reached

/-- `ux_flow_prev`. -/
def uxFlowPrev (steps : List (Run ε (Option panel)))
    (cursor : engine.Cursor) : Run ε (Option (engine.Cursor × panel)) :=
  match engine.prev cursor with
  | none => pure none
  | some reached => initStep engine steps reached

end Init

/-- Steps that are not displayed. -/
abbrev hidden (count : Nat) : List (Option panel) :=
  List.replicate count none

/-- A row is hidden, or starts with a step that is displayed behind hidden
ones. -/
theorem hidden_or_shown (row : List (Option panel)) :
    (∃ count, row = hidden count) ∨
      ∃ count shown back, row = hidden count ++ some shown :: back := by
  induction row with
  | nil => exact Or.inl ⟨0, rfl⟩
  | cons mark row inductionHypothesis =>
      cases mark with
      | some shown => exact Or.inr ⟨0, shown, row, rfl⟩
      | none =>
          rcases inductionHypothesis with
            ⟨count, rfl⟩ | ⟨count, shown, back, rfl⟩
          · exact Or.inl ⟨count + 1, rfl⟩
          · exact Or.inr ⟨count + 1, shown, back, rfl⟩

/-- The same from the end of a row. -/
theorem hidden_or_shown_last (row : List (Option panel)) :
    (∃ count, row = hidden count) ∨
      ∃ front shown count, row = front ++ some shown :: hidden count := by
  rcases hidden_or_shown row.reverse with
    ⟨count, reversed⟩ | ⟨count, shown, back, reversed⟩
  · refine Or.inl ⟨count, ?_⟩
    rw [← List.reverse_reverse row, reversed, List.reverse_replicate]
  · refine Or.inr ⟨back.reverse, shown, count, ?_⟩
    rw [← List.reverse_reverse row, reversed]
    simp

@[simp] theorem reduceOption_hidden (count : Nat) :
    (hidden count : List (Option panel)).reduceOption = [] :=
  List.reduceOption_replicate_none

section Loop

variable {engine : FlowEngine} {row front back : List (Option panel)}
  {shown : panel} {cursor : engine.Cursor} {count fuel : Nat}

/-- The steps of a row all of whose conditions are known. -/
abbrev known (row : List (Option panel)) : List (Run ε (Option panel)) :=
  row.map Except.ok

/-- A step that is displayed. -/
theorem initStepLoop_shown
    (rowEq : row = front ++ some shown :: back)
    (place : engine.position cursor = front.length) :
    initStepLoop engine (known row : List (Run ε _)) (fuel + 1) cursor =
      .ok (some (cursor, shown)) := by
  unfold initStepLoop
  rw [place, rowEq]
  simp

/-- A step that is not displayed. -/
theorem initStepLoop_hidden
    (rowEq : row = front ++ none :: back)
    (place : engine.position cursor = front.length)
    (skipped : skipStep engine row.length cursor = some reached) :
    initStepLoop engine (known row : List (Run ε _)) (fuel + 1) cursor =
      initStepLoop engine (known row) fuel reached := by
  conv_lhs => unfold initStepLoop
  have hiddenStep : (known row : List (Run ε _))[front.length]? =
      some (.ok none) := by
    rw [rowEq]
    simp
  rw [place, hiddenStep, List.length_map]
  simp only [Run.bind_ok]
  rw [skipped]

/-- A hidden step that was not reached backward leads to the next one. -/
theorem skipStep_forward
    (length : Nat)
    (inner : engine.position cursor + 1 < length)
    (way : engine.direction cursor ≠ .backward ∨
      engine.position cursor = 0) :
    ∃ reached, skipStep engine length cursor = some reached ∧
      engine.position reached = engine.position cursor + 1 ∧
      engine.direction reached = .forward := by
  obtain ⟨reached, next, place, direction⟩ :=
    engine.next_inner length cursor inner
  refine ⟨reached, ?_, place, direction⟩
  unfold skipStep
  rw [if_pos, next]
  rcases way with notBackward | first
  · exact Or.inl ⟨notBackward, Nat.not_le.mpr inner⟩
  · exact Or.inr first

/-- A hidden step that was reached backward, or is the last one, leads to the
previous one. -/
theorem skipStep_backward
    (length : Nat)
    (inner : 0 < engine.position cursor)
    (way : engine.direction cursor = .backward ∨
      length ≤ engine.position cursor + 1) :
    ∃ reached, skipStep engine length cursor = some reached ∧
      engine.position reached + 1 = engine.position cursor ∧
      engine.direction reached = .backward := by
  obtain ⟨reached, prev, place, direction⟩ := engine.prev_inner cursor inner
  refine ⟨reached, ?_, place, direction⟩
  unfold skipStep
  rw [if_neg, prev]
  rintro (⟨notBackward, notLast⟩ | first)
  · rcases way with backward | last
    · exact notBackward backward
    · exact notLast last
  · exact absurd first (Nat.ne_of_gt inner)

/-- Hidden steps lead forward to one that is displayed. -/
theorem initStepLoop_forward
    (rowEq : row = front ++ (hidden count ++ some shown :: back))
    (place : engine.position cursor = front.length)
    (way : engine.direction cursor ≠ .backward ∨ front = [])
    (enough : count < fuel) :
    ∃ reached,
      initStepLoop engine (known row : List (Run ε _)) fuel cursor =
        .ok (some (reached, shown)) ∧
      engine.position reached = front.length + count := by
  induction count generalizing front cursor fuel with
  | zero =>
      obtain ⟨fuel, rfl⟩ := Nat.exists_eq_add_of_lt enough
      rw [Nat.zero_add]
      exact ⟨cursor, initStepLoop_shown rowEq place, place⟩
  | succ count inductionHypothesis =>
      obtain ⟨fuel, rfl⟩ := Nat.exists_eq_succ_of_ne_zero
        (Nat.ne_of_gt (Nat.lt_of_le_of_lt (Nat.zero_le _) enough))
      have inner : engine.position cursor + 1 < row.length := by
        rw [place, rowEq]
        simp only [List.length_append, List.length_replicate,
          List.length_cons]
        omega
      obtain ⟨next, skipped, nextPlace, direction⟩ :=
        skipStep_forward row.length inner (way.imp_right fun empty => by
          rw [place, empty]
          rfl)
      have split : row =
          (front ++ [none]) ++ (hidden count ++ some shown :: back) := by
        rw [rowEq, List.append_assoc]
        rfl
      have enoughFuel : count < fuel := by omega
      obtain ⟨reached, result, landed⟩ := inductionHypothesis split
        (by rw [nextPlace, place, List.length_append]; rfl)
        (Or.inl (by rw [direction]; nofun)) enoughFuel
      refine ⟨reached, ?_, ?_⟩
      · rw [initStepLoop_hidden rowEq place skipped]
        exact result
      · rw [landed, List.length_append, List.length_singleton]
        omega

/-- Hidden steps lead backward to one that is displayed. -/
theorem initStepLoop_backward
    (rowEq : row = front ++ some shown :: (hidden count ++ back))
    (place : engine.position cursor = front.length + count)
    (way : engine.direction cursor = .backward ∨ back = [])
    (enough : count < fuel) :
    ∃ reached,
      initStepLoop engine (known row : List (Run ε _)) fuel cursor =
        .ok (some (reached, shown)) ∧
      engine.position reached = front.length := by
  induction count generalizing back cursor fuel with
  | zero =>
      obtain ⟨fuel, rfl⟩ := Nat.exists_eq_add_of_lt enough
      rw [Nat.zero_add]
      exact ⟨cursor, initStepLoop_shown rowEq place, place⟩
  | succ count inductionHypothesis =>
      obtain ⟨fuel, rfl⟩ := Nat.exists_eq_succ_of_ne_zero
        (Nat.ne_of_gt (Nat.lt_of_le_of_lt (Nat.zero_le _) enough))
      obtain ⟨previous, skipped, previousPlace, direction⟩ :=
        skipStep_backward row.length
          (by rw [place]; omega : 0 < engine.position cursor)
          (way.imp_right fun empty => by
            rw [place, rowEq, empty]
            simp only [List.length_append, List.length_cons,
              List.length_replicate, List.length_nil]
            omega)
      have split : row =
          front ++ some shown :: (hidden count ++ none :: back) := by
        rw [rowEq, hidden, List.replicate_succ', List.append_assoc]
        rfl
      have enoughFuel : count < fuel := by omega
      obtain ⟨reached, result, landed⟩ :=
        inductionHypothesis split (by omega) (Or.inl direction) enoughFuel
      refine ⟨reached, ?_, landed⟩
      have here : row =
          (front ++ some shown :: hidden count) ++ none :: back := by
        rw [split, List.append_assoc]
        rfl
      rw [initStepLoop_hidden here (by
        rw [place, List.length_append, List.length_cons,
          List.length_replicate]) skipped]
      exact result

/-- Without a step to display, the end of the flow is reached. -/
theorem initStepLoop_toLast
    (fuel : Nat)
    (rowEq : row = front ++ hidden (count + 1))
    (place : engine.position cursor = front.length)
    (way : engine.direction cursor ≠ .backward) :
    ∃ last,
      initStepLoop engine (known row : List (Run ε _)) (fuel + count)
          cursor =
        initStepLoop engine (known row) fuel last ∧
      engine.position last + 1 = row.length := by
  induction count generalizing front cursor with
  | zero => exact ⟨cursor, rfl, by rw [place, rowEq, List.length_append]; rfl⟩
  | succ count inductionHypothesis =>
      obtain ⟨next, skipped, nextPlace, direction⟩ :=
        skipStep_forward row.length
          (by
            rw [place, rowEq, List.length_append, List.length_replicate]
            omega) (Or.inl way)
      have split : row = (front ++ [none]) ++ hidden (count + 1) := by
        rw [rowEq, List.append_assoc]
        rfl
      obtain ⟨last, result, atEnd⟩ := inductionHypothesis split
        (by rw [nextPlace, place, List.length_append]; rfl)
        (by rw [direction]; nofun)
      exact ⟨last, (initStepLoop_hidden rowEq place skipped).trans result,
        atEnd⟩

/-- Without a step to display, the start of the flow is reached. -/
theorem initStepLoop_toFirst
    (fuel : Nat)
    (rowEq : row = hidden (count + 1) ++ back)
    (place : engine.position cursor = count)
    (way : engine.direction cursor = .backward) :
    ∃ first,
      initStepLoop engine (known row : List (Run ε _)) (fuel + count)
          cursor =
        initStepLoop engine (known row) fuel first ∧
      engine.position first = 0 := by
  induction count generalizing back cursor with
  | zero => exact ⟨cursor, rfl, place⟩
  | succ count inductionHypothesis =>
      obtain ⟨previous, skipped, previousPlace, direction⟩ :=
        skipStep_backward row.length
          (by rw [place]; omega : 0 < engine.position cursor) (Or.inl way)
      have split : row = hidden (count + 1) ++ none :: back := by
        rw [rowEq, hidden, List.replicate_succ', List.append_assoc]
        rfl
      obtain ⟨first, result, atStart⟩ :=
        inductionHypothesis split (by omega) direction
      exact ⟨first, (initStepLoop_hidden split
        (by rw [place, List.length_replicate]) skipped).trans result,
        atStart⟩

end Loop

section Leads

variable {engine : FlowEngine} {row front back : List (Option panel)}
  {shown : panel} {cursor : engine.Cursor} {count : Nat}

/-- On the way forward, the next step that is displayed is reached. -/
theorem initStep_forward
    (rowEq : row = front ++ (hidden count ++ some shown :: back))
    (place : engine.position cursor = front.length)
    (way : engine.direction cursor ≠ .backward) :
    ∃ reached,
      initStep engine (known row : List (Run ε _)) cursor =
        .ok (some (reached, shown)) ∧
      engine.position reached = front.length + count := by
  apply initStepLoop_forward rowEq place (Or.inl way)
  rw [List.length_map, rowEq]
  simp only [List.length_append, List.length_replicate, List.length_cons]
  omega

/-- On the way backward, the previous step that is displayed is reached. -/
theorem initStep_backward
    (rowEq : row = front ++ some shown :: (hidden count ++ back))
    (place : engine.position cursor = front.length + count)
    (way : engine.direction cursor = .backward) :
    ∃ reached,
      initStep engine (known row : List (Run ε _)) cursor =
        .ok (some (reached, shown)) ∧
      engine.position reached = front.length := by
  apply initStepLoop_backward rowEq place (Or.inl way)
  rw [List.length_map, rowEq]
  simp only [List.length_append, List.length_replicate, List.length_cons]
  omega

/-- If nothing is displayed on the way forward, the last step that is
displayed is reached. -/
theorem initStep_turnsBack
    {rest : Nat}
    (rowEq : row = front ++ some shown :: (hidden count ++ hidden (rest + 1)))
    (place : engine.position cursor = front.length + count + 1)
    (way : engine.direction cursor ≠ .backward) :
    ∃ reached,
      initStep engine (known row : List (Run ε _)) cursor =
        .ok (some (reached, shown)) ∧
      engine.position reached = front.length := by
  have size : row.length = front.length + count + rest + 2 := by
    rw [rowEq]
    simp only [List.length_append, List.length_replicate, List.length_cons]
    omega
  have enough : count + (rest + 1) < 2 * row.length - rest := by omega
  obtain ⟨last, result, atEnd⟩ := initStepLoop_toLast (ε := ε)
    (2 * row.length - rest)
    (by rw [rowEq, List.append_assoc]; rfl :
      row = (front ++ some shown :: hidden count) ++ hidden (rest + 1))
    (by
      rw [place, List.length_append, List.length_cons,
        List.length_replicate]
      omega) way
  obtain ⟨reached, turned, landed⟩ := initStepLoop_backward (ε := ε)
    (by
      rw [rowEq, hidden, hidden, hidden, ← List.replicate_add,
        List.append_nil] :
      row = front ++ some shown :: (hidden (count + (rest + 1)) ++ []))
    (by omega : engine.position last = _) (Or.inr rfl) enough
  refine ⟨reached, ?_, landed⟩
  unfold initStep
  rw [List.length_map,
    show 2 * row.length = 2 * row.length - rest + rest by omega, result]
  exact turned

/-- If nothing is displayed on the way backward, the first step that is
displayed is reached. -/
theorem initStep_turnsAhead
    (rowEq : row =
      hidden (engine.position cursor + 1) ++ (hidden count ++
        some shown :: back))
    (way : engine.direction cursor = .backward) :
    ∃ reached,
      initStep engine (known row : List (Run ε _)) cursor =
        .ok (some (reached, shown)) ∧
      engine.position reached = engine.position cursor + 1 + count := by
  have size : row.length =
      engine.position cursor + 1 + count + back.length + 1 := by
    rw [rowEq]
    simp only [List.length_append, List.length_replicate, List.length_cons]
    omega
  have enough : engine.position cursor + 1 + count <
      2 * row.length - engine.position cursor := by omega
  obtain ⟨first, result, atStart⟩ := initStepLoop_toFirst (ε := ε)
    (2 * row.length - engine.position cursor) rowEq rfl way
  obtain ⟨reached, turned, landed⟩ := initStepLoop_forward (ε := ε)
    (by
      rw [rowEq, hidden, hidden, hidden, ← List.append_assoc,
        ← List.replicate_add, List.nil_append] :
      row = [] ++ (hidden (engine.position cursor + 1 + count) ++
        some shown :: back))
    atStart (Or.inr rfl) enough
  refine ⟨reached, ?_, by rw [landed, List.length_nil, Nat.zero_add]⟩
  unfold initStep
  rw [List.length_map, show 2 * row.length =
    2 * row.length - engine.position cursor + engine.position cursor by
      omega, result]
  exact turned

/-- Where a step leads: to the next step that is displayed on the way, and
without one to the next one on the way back. -/
inductive Leads (row : List (Option panel)) (direction : FlowDirection)
    (position landing : Nat) (shown : panel) : Prop
  | forward {front back : List (Option panel)} {count : Nat}
      (rowEq : row = front ++ (hidden count ++ some shown :: back))
      (way : direction ≠ .backward)
      (place : position = front.length)
      (landed : landing = front.length + count)
  | turnsBack {front : List (Option panel)} {count rest : Nat}
      (rowEq : row =
        front ++ some shown :: (hidden count ++ hidden (rest + 1)))
      (way : direction ≠ .backward)
      (place : position = front.length + count + 1)
      (landed : landing = front.length)
  | backward {front back : List (Option panel)} {count : Nat}
      (rowEq : row = front ++ some shown :: (hidden count ++ back))
      (way : direction = .backward)
      (place : position = front.length + count)
      (landed : landing = front.length)
  | turnsAhead {back : List (Option panel)} {count : Nat}
      (rowEq : row =
        hidden (position + 1) ++ (hidden count ++ some shown :: back))
      (way : direction = .backward)
      (landed : landing = position + 1 + count)

/-- Hidden steps are not displayed. -/
theorem not_mem_hidden {first second : Nat} {shown : panel} :
    some shown ∉ hidden first ++ hidden second := by
  intro member
  rcases List.mem_append.mp member with early | late
  · cases List.eq_of_mem_replicate early
  · cases List.eq_of_mem_replicate late

/-- A step on the way forward leads to one that is displayed. -/
theorem initStep_leads_forward
    (within : engine.position cursor < row.length)
    (displayed : some shown ∈ row)
    (way : engine.direction cursor ≠ .backward) :
    ∃ reached landed,
      initStep engine (known row : List (Run ε _)) cursor =
        .ok (some (reached, landed)) ∧
      Leads row (engine.direction cursor) (engine.position cursor)
        (engine.position reached) landed := by
  have split := List.take_append_drop (engine.position cursor) row
  have size : (row.take (engine.position cursor)).length =
      engine.position cursor := List.length_take_of_le (Nat.le_of_lt within)
  rcases hidden_or_shown (row.drop (engine.position cursor)) with
    ⟨rest, backEq⟩ | ⟨count, landed, back, backEq⟩
  · rw [backEq] at split
    obtain ⟨rest, rfl⟩ : ∃ less, rest = less + 1 := by
      apply Nat.exists_eq_succ_of_ne_zero
      rintro rfl
      have total := congrArg List.length split
      rw [List.length_append, size, List.length_replicate] at total
      omega
    rcases hidden_or_shown_last (row.take (engine.position cursor)) with
      ⟨count, frontEq⟩ | ⟨front, landed, count, frontEq⟩
    · rw [← split, frontEq] at displayed
      exact absurd displayed not_mem_hidden
    · rw [frontEq, List.length_append, List.length_cons,
        List.length_replicate] at size
      rw [frontEq, List.append_assoc] at split
      obtain ⟨reached, result, landing⟩ :=
        initStep_turnsBack (ε := ε) split.symm size.symm way
      exact ⟨reached, landed, result,
        .turnsBack split.symm way size.symm landing⟩
  · rw [backEq] at split
    obtain ⟨reached, result, landing⟩ :=
      initStep_forward (ε := ε) split.symm size.symm way
    exact ⟨reached, landed, result, .forward split.symm way size.symm landing⟩

/-- A step on the way backward leads to one that is displayed. -/
theorem initStep_leads_backward
    (within : engine.position cursor < row.length)
    (displayed : some shown ∈ row)
    (way : engine.direction cursor = .backward) :
    ∃ reached landed,
      initStep engine (known row : List (Run ε _)) cursor =
        .ok (some (reached, landed)) ∧
      Leads row (engine.direction cursor) (engine.position cursor)
        (engine.position reached) landed := by
  have split := List.take_append_drop (engine.position cursor + 1) row
  have size : (row.take (engine.position cursor + 1)).length =
      engine.position cursor + 1 := List.length_take_of_le within
  rcases hidden_or_shown_last (row.take (engine.position cursor + 1)) with
    ⟨count, frontEq⟩ | ⟨front, landed, count, frontEq⟩
  · rw [frontEq, List.length_replicate] at size
    subst size
    rcases hidden_or_shown (row.drop (engine.position cursor + 1)) with
      ⟨rest, backEq⟩ | ⟨rest, landed, back, backEq⟩
    · rw [← split, frontEq, backEq] at displayed
      exact absurd displayed not_mem_hidden
    · rw [frontEq, backEq] at split
      obtain ⟨reached, result, landing⟩ :=
        initStep_turnsAhead (ε := ε) split.symm way
      exact ⟨reached, landed, result, .turnsAhead split.symm way landing⟩
  · rw [frontEq, List.length_append, List.length_cons,
      List.length_replicate] at size
    rw [frontEq, List.append_assoc] at split
    have place : engine.position cursor = front.length + count := by omega
    obtain ⟨reached, result, landing⟩ :=
      initStep_backward (ε := ε) split.symm place way
    exact ⟨reached, landed, result, .backward split.symm way place landing⟩

/-- Every step of a flow with a step that is displayed leads to one, whatever
the way it was reached. -/
theorem initStep_leads
    (within : engine.position cursor < row.length)
    (displayed : some shown ∈ row) :
    ∃ reached landed,
      initStep engine (known row : List (Run ε _)) cursor =
        .ok (some (reached, landed)) ∧
      Leads row (engine.direction cursor) (engine.position cursor)
        (engine.position reached) landed := by
  by_cases way : engine.direction cursor = .backward
  · exact initStep_leads_backward within displayed way
  · exact initStep_leads_forward within displayed way

/-- Behind the only step that is displayed, the flow turns back to it. -/
theorem initStep_leads_turned :
    ∃ reached landed,
      initStep FlowEngine.plain
          (known [none, some 'a', none] : List (Run Empty (Option Char)))
          (2, .forward) = .ok (some (reached, landed)) ∧
      Leads [none, some 'a', none] .forward 2
        (FlowEngine.plain.position reached) landed :=
  initStep_leads (by decide)
    (by decide : some 'a' ∈ [none, some 'a', none])

end Leads

section Buttons

variable {engine : FlowEngine} {row : List (Option panel)}
  {place : Place panel} {cursor : engine.Cursor}

/-- The cursor is at a place in the list of the steps that are displayed. -/
def At (engine : FlowEngine) (row : List (Option panel))
    (cursor : engine.Cursor) (place : Place panel) : Prop :=
  ∃ front back, row = front ++ some place.current :: back ∧
    engine.position cursor = front.length ∧
    front.reduceOption = place.before ∧ back.reduceOption = place.after

/-- The list consists of the steps that are displayed. -/
theorem At.list_eq (isAt : At engine row cursor place) :
    place.list = row.reduceOption := by
  obtain ⟨front, back, rowEq, _, frontEq, backEq⟩ := isAt
  unfold Place.list
  rw [rowEq, List.reduceOption_append, List.reduceOption_cons_of_some,
    frontEq, backEq]

/-- What a button leads to: the panel at a place, or nothing new. -/
def Reaches (engine : FlowEngine) (row : List (Option panel))
    (before place : Place panel)
    (result : Run ε (Option (engine.Cursor × panel))) : Prop :=
  (result = .ok none ∧ place = before) ∨
    ∃ reached, result = .ok (some (reached, place.current)) ∧
      At engine row reached place

/-- The step forward is a step to the right. -/
theorem At.uxFlowNext (isAt : At engine row cursor place) :
    Reaches engine row place place.right
      (uxFlowNext engine (known row : List (Run ε _)) cursor) := by
  obtain ⟨before, current, after⟩ := place
  obtain ⟨front, back, rowEq, position, frontEq, backEq⟩ := isAt
  have size : row.length = front.length + 1 + back.length := by
    rw [rowEq, List.length_append, List.length_cons]
    omega
  simp only at rowEq frontEq backEq
  have split : row = (front ++ [some current]) ++ back := by
    rw [rowEq, List.append_assoc]
    rfl
  unfold Bagl.uxFlowNext
  rw [List.length_map]
  by_cases last : back = []
  · refine Or.inl ⟨?_, ?_⟩
    · rw [engine.next_last _ _ (by
        rw [size, position, last]
        exact Nat.le_refl _)]
      rfl
    · rw [last] at backEq
      rw [← backEq]
      rfl
  · have nonempty := List.length_pos_iff.mpr last
    obtain ⟨reached, next, moved, direction⟩ :=
      engine.next_inner row.length cursor (by omega)
    have way : engine.direction reached ≠ .backward := by
      rw [direction]
      nofun
    rw [next]
    rcases hidden_or_shown back with
      ⟨count, hiddenEq⟩ | ⟨count, shown, rest, shownEq⟩
    · obtain ⟨count, rfl⟩ : ∃ less, count = less + 1 := by
        apply Nat.exists_eq_succ_of_ne_zero
        rintro rfl
        exact last hiddenEq
      obtain ⟨turned, result, landing⟩ :=
        initStep_turnsBack (ε := ε)
          (by rw [rowEq, hiddenEq]; rfl :
            row = front ++ some current ::
              (hidden 0 ++ hidden (count + 1)))
          (by rw [moved, position]) way
      rw [hiddenEq, reduceOption_hidden] at backEq
      subst backEq
      refine Or.inr ⟨turned, result, front, back, rowEq, landing, frontEq,
        ?_⟩
      rw [hiddenEq, reduceOption_hidden]
      rfl
    · rw [shownEq] at split backEq
      obtain ⟨landed, result, landing⟩ :=
        initStep_forward (ε := ε) split
          (by rw [moved, position, List.length_append]; rfl) way
      rw [List.reduceOption_append, reduceOption_hidden, List.nil_append,
        List.reduceOption_cons_of_some] at backEq
      subst backEq
      refine Or.inr ⟨landed, result,
        front ++ [some current] ++ hidden count, rest, ?_, ?_, ?_, rfl⟩
      · rw [split, List.append_assoc (front ++ [some current])]
        rfl
      · simp only [landing, List.length_append, List.length_replicate]
      · rw [List.reduceOption_append, reduceOption_hidden, List.append_nil,
          List.reduceOption_append, frontEq]
        rfl

/-- The step backward is a step to the left. -/
theorem At.uxFlowPrev (isAt : At engine row cursor place) :
    Reaches engine row place place.left
      (uxFlowPrev engine (known row : List (Run ε _)) cursor) := by
  obtain ⟨before, current, after⟩ := place
  obtain ⟨front, back, rowEq, position, frontEq, backEq⟩ := isAt
  simp only at rowEq frontEq backEq
  unfold Bagl.uxFlowPrev
  by_cases first : front = []
  · refine Or.inl ⟨?_, ?_⟩
    · rw [engine.prev_first _ (by rw [position, first]; rfl)]
      rfl
    · rw [first] at frontEq
      rw [← frontEq]
      rfl
  · have nonempty := List.length_pos_iff.mpr first
    obtain ⟨reached, prev, moved, direction⟩ :=
      engine.prev_inner cursor (by omega)
    rw [prev]
    rcases hidden_or_shown_last front with
      ⟨count, hiddenEq⟩ | ⟨front, shown, count, rfl⟩
    · obtain ⟨count, rfl⟩ : ∃ less, count = less + 1 := by
        apply Nat.exists_eq_succ_of_ne_zero
        rintro rfl
        exact first hiddenEq
      have place : engine.position reached = count := by
        rw [hiddenEq, List.length_replicate] at position
        omega
      obtain ⟨turned, result, landing⟩ :=
        initStep_turnsAhead (ε := ε)
          (by rw [rowEq, hiddenEq, place]; rfl :
            row = hidden (engine.position reached + 1) ++
              (hidden 0 ++ some current :: back)) direction
      rw [hiddenEq, reduceOption_hidden] at frontEq
      subst frontEq
      refine Or.inr ⟨turned, result, front, back, rowEq, ?_, ?_, backEq⟩
      · rw [landing, place, hiddenEq, List.length_replicate]
      · rw [hiddenEq, reduceOption_hidden]
        rfl
    · rw [List.length_append, List.length_cons, List.length_replicate]
        at position
      have split : row =
          front ++ some shown :: (hidden count ++ some current :: back) := by
        rw [rowEq, List.append_assoc]
        rfl
      obtain ⟨landed, result, landing⟩ :=
        initStep_backward (ε := ε) split (by omega) direction
      rw [List.reduceOption_append, List.reduceOption_cons_of_some,
        reduceOption_hidden] at frontEq
      subst frontEq
      rw [Place.left_append]
      refine Or.inr ⟨landed, result, front,
        hidden count ++ some current :: back, split, landing, rfl, ?_⟩
      · rw [List.reduceOption_append, reduceOption_hidden, List.nil_append,
          List.reduceOption_cons_of_some, backEq]

end Buttons
end Bagl
end NimiqApp
