import NimiqApp.Main

/-!
# Requests in chunks

A request that does not fit a command is cut into parts, which are sent one
after the other.  What a command collects depends on the parts before it only
through the bytes they add up to.
-/

namespace NimiqApp

/-- Commands that carry the parts of a request.  All but the last one
announce more, and all but the first one continue the request. -/
inductive Cut (ins : UInt8) :
    UInt8 → List (List UInt8) → List Command → Prop
  | last {command : Command} {part : List UInt8}
      (carries : command.Carries ins p1 p2Last part) :
      Cut ins p1 [part] [command]
  | more {command : Command} {part : List UInt8}
      {commands : List Command} {parts : List (List UInt8)}
      (carries : command.Carries ins p1 p2More part)
      (rest : Cut ins p1More parts commands) :
      Cut ins p1 (part :: parts) (command :: commands)

/-- The answer to a chunk behind which more is expected. -/
def Output.accepted : Output Shared :=
  ⟨some ⟨[], .ok⟩, Option.none⟩

/-- The answer to a command that is refused. -/
def Output.refused (sw : StatusWord) : Output Shared :=
  ⟨some ⟨[], sw⟩, Option.none⟩

/-- Commands are processed one after the other, and each is answered with
`SW_OK` alone. -/
inductive State.Accepts {app : App} :
    State app → List Command → State app → Prop
  | nil : Accepts state [] state
  | cons
      {state next last : State app}
      (received : state.receive command = .ok (next, Output.accepted))
      (rest : Accepts next commands last) :
      Accepts state (command :: commands) last

/-- The parameters of chunks are valid. -/
theorem checkChunkParameters_eq
    (p1Cases : p1 = p1First ∨ p1 = p1More)
    (p2Cases : p2 = p2Last ∨ p2 = p2More) :
    checkChunkParameters p1 p2 = .ok () := by
  unfold checkChunkParameters
  apply Run.returnOn_of_not
  rcases p1Cases with rfl | rfl <;> rcases p2Cases with rfl | rfl <;> decide

section Collect

variable {app : App} {ins : UInt8} {limit : Nat}
  {holds : List UInt8 → State app → Prop}

/-- If every chunk within a limit is accepted and collected, then so are all
parts within the limit, up to the last one. -/
theorem Cut.collect
    (accepts : ∀ {bytes part state command},
      holds bytes state → command.Carries ins p1More p2More part →
      (bytes ++ part).length ≤ limit →
      ∃ next, state.receive command = .ok (next, Output.accepted) ∧
        holds (bytes ++ part) next)
    {bytes : List UInt8}
    {state : State app}
    (cut : Cut ins p1More parts commands)
    (held : holds bytes state)
    (fits : (bytes ++ parts.flatten).length ≤ limit) :
    ∃ before last part collected middle,
      commands = before ++ [last] ∧ last.Carries ins p1More p2Last part ∧
        state.Accepts before middle ∧ holds collected middle ∧
        collected ++ part = bytes ++ parts.flatten := by
  generalize p1Eq : p1More = p1 at cut
  induction cut generalizing bytes state with
  | @last _ command part carries =>
      subst p1Eq
      exact ⟨[], command, part, bytes, state, rfl, carries, .nil, held,
        by simp⟩
  | @more _ command part commands parts carries rest inductionHypothesis =>
      subst p1Eq
      rw [List.flatten_cons, ← List.append_assoc] at fits
      have first : (bytes ++ part).length ≤ limit := by
        rw [List.length_append] at fits
        omega
      obtain ⟨next, received, nextHolds⟩ := accepts held carries first
      obtain ⟨before, last, lastPart, collected, middle, rfl, lastCarries,
        accepted, collectedHolds, total⟩ :=
        inductionHypothesis nextHolds fits rfl
      refine ⟨command :: before, last, lastPart, collected, middle, rfl,
        lastCarries, .cons received accepted, collectedHolds, ?_⟩
      rw [total, List.flatten_cons, List.append_assoc]

/-- If every chunk within a limit is accepted and collected, then the parts
that exceed the limit do so at a first one. -/
theorem Cut.exceed
    (accepts : ∀ {bytes part state command},
      holds bytes state → command.Carries ins p1More p2More part →
      (bytes ++ part).length ≤ limit →
      ∃ next, state.receive command = .ok (next, Output.accepted) ∧
        holds (bytes ++ part) next)
    {bytes : List UInt8}
    {state : State app}
    (cut : Cut ins p1More parts commands)
    (held : holds bytes state)
    (short : bytes.length ≤ limit)
    (long : limit < (bytes ++ parts.flatten).length) :
    ∃ before breaching after sent part rest p2 middle,
      commands = before ++ breaching :: after ∧ parts = sent ++ part :: rest ∧
        sent.length = before.length ∧ breaching.Carries ins p1More p2 part ∧
        (p2 = p2Last ∨ p2 = p2More) ∧ state.Accepts before middle ∧
        holds (bytes ++ sent.flatten) middle ∧
        (bytes ++ sent.flatten).length ≤ limit ∧
        limit < (bytes ++ sent.flatten ++ part).length := by
  generalize p1Eq : p1More = p1 at cut
  induction cut generalizing bytes state with
  | @last _ command part carries =>
      subst p1Eq
      refine ⟨[], command, [], [], part, [], p2Last, state, rfl, rfl, rfl,
        carries, Or.inl rfl, .nil, ?_, ?_, ?_⟩
      · simpa using held
      · simpa using short
      · simpa using long
  | @more _ command part commands parts carries rest inductionHypothesis =>
      subst p1Eq
      by_cases first : (bytes ++ part).length ≤ limit
      · rw [List.flatten_cons, ← List.append_assoc] at long
        obtain ⟨next, received, nextHolds⟩ := accepts held carries first
        obtain ⟨before, breaching, after, sent, overPart, others, p2, middle,
          rfl, rfl, lengths, overCarries, p2Cases, accepted, middleHolds, within,
          beyond⟩ := inductionHypothesis nextHolds first long rfl
        have sentEq : bytes ++ part ++ sent.flatten =
            bytes ++ (part :: sent).flatten := by
          rw [List.flatten_cons, List.append_assoc]
        rw [sentEq] at middleHolds within beyond
        exact ⟨command :: before, breaching, after, part :: sent, overPart,
          others, p2, middle, rfl, rfl, congrArg (· + 1) lengths, overCarries,
          p2Cases, .cons received accepted, middleHolds, within, beyond⟩
      · refine ⟨[], command, commands, [], part, parts, p2More, state, rfl,
          rfl, rfl, carries, Or.inr rfl, .nil, ?_, ?_, ?_⟩
        · simpa using held
        · simpa using short
        · simpa using first

end Collect
end NimiqApp
