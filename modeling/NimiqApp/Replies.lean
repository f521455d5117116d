import NimiqApp.Approval
import NimiqApp.MessageHash

/-!
# Commands and their replies

The main loop, the heartbeats and the decisions of the user all send replies.
Whether each of them answers a command is a matter of the whole history: the
app itself keeps no account of the commands that wait.
-/

namespace NimiqApp

/-- A command waits from when it is received.  After a restart, none does. -/
def Event.waiting (waiting : List Command) : Event → List Command
  | .command received => waiting ++ [received]
  | .restart => []
  | _ => waiting

/-- A reply answers the command that has waited the longest. -/
def Output.answer (waiting : List Command) (output : Output Shared) :
    List Command :=
  if output.reply.isSome then waiting.tail else waiting

/-- The commands of a history that wait for their replies. -/
def waitingCommands (history : List (Event × Output Shared)) :
    List Command :=
  history.foldl
    (fun waiting step => step.2.answer (step.1.waiting waiting)) []

@[simp] theorem waitingCommands_nil :
    waitingCommands ([] : List (Event × Output Shared)) = [] := rfl

@[simp] theorem waitingCommands_append
    (history : List (Event × Output Shared))
    (event : Event)
    (output : Output Shared) :
    waitingCommands (history ++ [(event, output)]) =
      output.answer (event.waiting (waitingCommands history)) := by
  unfold waitingCommands
  rw [List.foldl_append]
  rfl

section Replies

variable {app : App}

/-- A review is on the screen, and the decision on it sends a reply. -/
structure State.AwaitsDecision (state : State app) : Prop where
  onScreen : ∃ review, state.review = some review
  rejected : ∃ next output, state.step .reject = some (next, output)
  replies : ∀ decision, decision = .approve ∨ decision = .reject →
    ∀ next output, state.step decision = some (next, output) →
      output.reply.isSome

/-- A step replies to the one command that waits, if it replies, and leaves
a command waiting only for a decision. -/
structure OneReply
    (history : List (Event × Output app.layout.Shared)) (event : Event)
    (next : State app) (output : Output app.layout.Shared) : Prop where
  answersOne : output.reply.isSome →
    ∃ command, event.waiting (waitingCommands history) = [command]
  waitsForDecision : waitingCommands (history ++ [(event, output)]) ≠ [] →
    next.AwaitsDecision

/-- Events that find what they are about: an `INS_KEEP_ALIVE` finds a review
on the screen, a heartbeat and a decision find a command that waits. -/
def RepliesExpected
    (history : List (Event × Output app.layout.Shared))
    (state : State app) : Event → Prop
  | .command received => received.IsKeepAlive → state.review.isSome
  | .ticker isU2f => isU2f = true → state.HeartbeatDue →
      waitingCommands history ≠ []
  | .approve => waitingCommands history ≠ []
  | .reject => waitingCommands history ≠ []
  | .messageStep _ => True
  | .restart => True

/-- At most one command waits, as the transport keeps track of it, and only
while a review is on the screen. -/
structure Balanced (history : List (Event × Output app.layout.Shared))
    (state : State app) : Prop where
  idle : state.unanswered = false → waitingCommands history = []
  busy : state.unanswered = true →
    (∃ command, waitingCommands history = [command]) ∧
      ∃ review, state.review = some review

variable {history : List (Event × Output app.layout.Shared)}
  {state next : State app} {output : Output app.layout.Shared}

/-- A review on the screen awaits the decision of the user. -/
theorem State.awaitsDecision
    {review : OpenReview app.layout.Shared}
    (onScreen : state.review = some review) : state.AwaitsDecision where
  onScreen := ⟨review, onScreen⟩
  rejected := by
    unfold State.step
    rw [onScreen]
    exact ⟨_, _, rfl⟩
  replies := by
    rintro decision (rfl | rfl) next output stepped
    · cases State.step_reacts stepped
      rfl
    · cases State.step_reacts stepped
      rfl

/-- If a command waits, it is the only one. -/
theorem Balanced.waits
    (balanced : Balanced history state)
    (waiting : waitingCommands history ≠ []) :
    (∃ command, waitingCommands history = [command]) ∧
      ∃ review, state.review = some review := by
  cases busy : state.unanswered with
  | false => exact absurd (balanced.idle busy) waiting
  | true => exact balanced.busy busy

/-- A command that is received is the only one that waits. -/
theorem Balanced.single
    (balanced : Balanced history state)
    (idle : state.unanswered = false)
    (command : Command) :
    ∃ only, Event.waiting (waitingCommands history) (.command command) =
      [only] := by
  rw [balanced.idle idle]
  exact ⟨command, rfl⟩

/-- Nothing waits after a step that ends with a reply. -/
theorem Balanced.of_reply
    (idle : next.unanswered = false)
    (replied : output.reply.isSome)
    (single : ∃ command, event.waiting (waitingCommands history) = [command]) :
    Balanced (history ++ [(event, output)]) next where
  idle _ := by
    obtain ⟨command, single⟩ := single
    rw [waitingCommands_append, single, Output.answer, if_pos replied]
    rfl
  busy := by
    rw [idle]
    rintro ⟨⟩

/-- A single command waits after a step that is not replied to. -/
theorem Balanced.of_wait
    {review : OpenReview app.layout.Shared}
    (busy : next.unanswered = true)
    (silent : output.reply = none)
    (single : ∃ command, event.waiting (waitingCommands history) = [command])
    (onScreen : next.review = some review) :
    Balanced (history ++ [(event, output)]) next where
  idle := by
    rw [busy]
    rintro ⟨⟩
  busy _ := by
    rw [waitingCommands_append, Output.answer, silent]
    exact ⟨single, review, onScreen⟩

/-- What waits is not changed by a step without a command or reply. -/
theorem Balanced.of_silent
    (balanced : Balanced history state)
    (sameWaiting : event.waiting (waitingCommands history) =
      waitingCommands history)
    (silent : output.reply = none)
    (sameUnanswered : next.unanswered = state.unanswered)
    (sameReview : next.review = state.review) :
    Balanced (history ++ [(event, output)]) next := by
  have same : waitingCommands (history ++ [(event, output)]) =
      waitingCommands history := by
    rw [waitingCommands_append, sameWaiting, Output.answer, silent]
    rfl
  constructor
  · rw [same, sameUnanswered]
    exact balanced.idle
  · rw [same, sameUnanswered, sameReview]
    exact balanced.busy

/-- A command that is handled is answered at once, or waits for the decision
on a review. -/
theorem Balanced.handled
    {handled : Handled app}
    (balanced : Balanced history state)
    (idle : state.unanswered = false)
    (handles : app.Handles command state.ctx.req handled)
    (expected : RepliesExpected history state (.command command)) :
    Balanced (history ++ [(.command command, handled.answer.output)])
      ⟨⟨handled.req, u2fRequestTimeout⟩, command.buffer,
        handled.answer.output.launched.or state.review,
        handled.answer.output.reply.isNone⟩ := by
  have single := balanced.single idle command
  cases handles with
  | publicKey carries => exact .of_reply rfl rfl single
  | transactionMore carries p1Cases chunk => exact .of_reply rfl rfl single
  | messageMore carries p1Cases chunk => exact .of_reply rfl rfl single
  | publicKeyReview carries shows => exact .of_wait rfl rfl single rfl
  | transactionLast carries p1Cases chunk review =>
      exact .of_wait rfl rfl single rfl
  | messageLast carries p1Cases chunk review =>
      exact .of_wait rfl rfl single rfl
  | keepAlive carries =>
      obtain ⟨review, onScreen⟩ :=
        Option.isSome_iff_exists.mp (expected ⟨_, _, _, carries⟩)
      exact .of_wait rfl rfl single onScreen

/-- Every expected event keeps the account of the commands. -/
theorem Balanced.step
    (balanced : Balanced history state)
    (reacts : state.Reacts event next output)
    (expected : RepliesExpected history state event) :
    Balanced (history ++ [(event, output)]) next := by
  cases reacts with
  | handled idle handles => exact balanced.handled idle handles expected
  | refused idle refuses =>
      exact .of_reply rfl rfl (balanced.single idle _)
  | heartbeat due =>
      exact .of_reply rfl rfl (balanced.waits (expected rfl due)).1
  | tick timer early => exact balanced.of_silent rfl rfl rfl rfl
  | approve onScreen approved =>
      exact .of_reply rfl rfl (balanced.waits expected).1
  | reject onScreen => exact .of_reply rfl rfl (balanced.waits expected).1
  | messageStep onScreen displayed =>
      exact balanced.of_silent rfl rfl rfl rfl
  | restart =>
      refine ⟨fun _ => ?_, nofun⟩
      rw [waitingCommands_append]
      rfl

/-- The account is kept in every run of expected events. -/
theorem Balanced.of_run
    (run : app.system.Run RepliesExpected history state) :
    Balanced history state := by
  refine run.invariant ⟨fun _ => rfl, nofun⟩ ?_
  intro history state event next output balanced expected stepped
  exact balanced.step (State.step_reacts stepped) expected

/-- An expected event is replied to at most once, and with right. -/
theorem Balanced.oneReply
    (balanced : Balanced history state)
    (reacts : state.Reacts event next output)
    (expected : RepliesExpected history state event) :
    OneReply history event next output where
  answersOne replied := by
    cases reacts with
    | handled idle handles => exact balanced.single idle _
    | refused idle refuses => exact balanced.single idle _
    | heartbeat due => exact (balanced.waits (expected rfl due)).1
    | tick timer early => cases replied
    | approve onScreen approved => exact (balanced.waits expected).1
    | reject onScreen => exact (balanced.waits expected).1
    | messageStep onScreen displayed => cases replied
    | restart => cases replied
  waitsForDecision waiting := by
    obtain ⟨_, review, onScreen⟩ :=
      (balanced.step reacts expected).waits waiting
    exact State.awaitsDecision onScreen

/-- Only an expected event is replied to like that. -/
theorem OneReply.expected
    (oneReply : OneReply history event next output)
    (reacts : state.Reacts event next output) :
    RepliesExpected history state event := by
  cases reacts with
  | handled idle handles =>
      intro keepAlive
      cases handles.keepAlive_inversion keepAlive
      obtain ⟨review, onScreen⟩ := (oneReply.waitsForDecision (by
        rw [waitingCommands_append]
        exact List.append_ne_nil_of_right_ne_nil _ nofun)).onScreen
      exact Option.isSome_iff_exists.mpr ⟨review, onScreen⟩
  | refused idle refuses =>
      intro keepAlive
      rw [keepAlive.handleCommand] at refuses
      cases refuses
  | heartbeat due =>
      obtain ⟨command, single⟩ := oneReply.answersOne rfl
      exact fun _ _ empty => nomatch empty.symm.trans single
  | tick timer early => exact fun isU2f due => absurd ⟨isU2f, due⟩ early
  | approve onScreen approved =>
      obtain ⟨command, single⟩ := oneReply.answersOne rfl
      exact fun empty => nomatch empty.symm.trans single
  | reject onScreen =>
      obtain ⟨command, single⟩ := oneReply.answersOne rfl
      exact fun empty => nomatch empty.symm.trans single
  | messageStep onScreen displayed => trivial
  | restart => trivial

end Replies

section Answers

variable {app : App} {history : List (Event × Output app.layout.Shared)}
  {state next : State app} {output : Output app.layout.Shared}

end Answers

end NimiqApp
