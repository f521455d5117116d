import NimiqApp.Buttons
import NimiqApp.Crashes

/-!
# Reaching a decision

With an orderly client, a user who only presses single buttons can look at
all of a review, and gets to where it is approved and to where it is
rejected.  Nothing is replied on the way, and the app goes on.
-/

namespace NimiqApp
namespace Bagl

open Foundation (FlowEngine Place)
open Foundation.System (anyEvent Steps)

theorem exchanged_append (history later : List (Event × Output Shared)) :
    exchanged (history ++ later) = exchanged history ++ exchanged later :=
  List.filter_append ..

/-- Whether a sequence is open depends on what was exchanged. -/
theorem openSequence_exchanged
    (history : List (Event × Output Shared)) :
    OpenSequence ins (exchanged history) sent ↔
      OpenSequence ins history sent := by
  constructor
  · intro isOpen
    induction history using List.reverseRecOn generalizing sent with
    | nil => exact absurd isOpen OpenSequence.not_start
    | append_singleton history step inductionHypothesis =>
        obtain ⟨event, output⟩ := step
        rw [exchanged_append] at isOpen
        have quiet : exchanged [(event, output)] = [] →
            (∀ command, event ≠ .command command) → event ≠ .restart →
              OpenSequence ins (history ++ [(event, output)]) sent := by
          intro nothing noCommand noRestart
          rw [nothing, List.append_nil] at isOpen
          exact .other (inductionHypothesis isOpen) noCommand noRestart
        cases event with
        | command command =>
            rcases isOpen.last with
              ⟨_, p1, part, before, isCommand, rfl, carries, rfl,
                ⟨rfl, rfl⟩ | ⟨rfl, earlier⟩⟩ |
              ⟨_, noCommand, _⟩
            · cases isCommand
              exact .first carries
            · cases isCommand
              exact .more (inductionHypothesis earlier) carries
            · exact absurd rfl (noCommand command)
        | restart =>
            rcases isOpen.last with
              ⟨_, _, _, _, isCommand, _⟩ | ⟨_, _, noRestart⟩
            · cases isCommand
            · exact absurd rfl noRestart
        | ticker isU2f => exact quiet rfl nofun nofun
        | approve => exact quiet rfl nofun nofun
        | reject => exact quiet rfl nofun nofun
        | messageStep step => exact quiet rfl nofun nofun
  · intro isOpen
    induction isOpen with
    | first carries =>
        rw [exchanged_append]
        exact .first carries
    | more before carries inductionHypothesis =>
        rw [exchanged_append]
        exact .more inductionHypothesis carries
    | @other history event output sent before noCommand noRestart
        inductionHypothesis =>
        have nothing : exchanged [(event, output)] = [] := by
          cases event with
          | command command => exact absurd rfl (noCommand command)
          | restart => exact absurd rfl noRestart
          | ticker isU2f => rfl
          | approve => rfl
          | reject => rfl
          | messageStep step => rfl
        rw [exchanged_append, nothing, List.append_nil]
        exact inductionHypothesis

/-- Orderly clients wait for decisions. -/
theorem waitingClient_orderly {app : App} :
    WaitingClient (@Orderly app) where
  waits orderly := orderly.patient _ rfl
  exchanged := by
    intro history others state command same orderly
    refine ⟨orderly.patient, ?_⟩
    intro other ins p2 part isCommand chunked carries
    obtain ⟨sent, isOpen⟩ :=
      orderly.continues other ins p2 part isCommand chunked carries
    refine ⟨sent, ?_⟩
    rw [← openSequence_exchanged, ← same, openSequence_exchanged]
    exact isOpen
  free noCommand :=
    ⟨fun command isCommand => absurd isCommand (noCommand command),
      fun command _ _ _ isCommand => absurd isCommand (noCommand command)⟩

section Presses

variable {engine : FlowEngine} {app : App}
  {history : List (Input × Reaction app.layout.Shared)}
  {device next : Handheld engine app}
  {review : OpenReview app.layout.Shared} {place : Place Panel}
  {allowed : List (Event × Output app.layout.Shared) → State app → Event →
    Prop}

/-- Presses of single buttons lead from one device to another one, without a
reply. -/
def Browses
    (allowed : List (Event × Output app.layout.Shared) → State app → Event →
      Prop)
    (history : List (Input × Reaction app.layout.Shared))
    (device reached : Handheld engine app) : Prop :=
  ∃ happened,
    (handheld engine app).Steps (Client allowed) history device happened
      reached ∧
    ∀ step ∈ happened, (∃ button, button ≠ .both ∧
      step.1 = .buttonPush button) ∧ step.2.output = Output.none

theorem Browses.refl : Browses allowed history device device :=
  ⟨[], .none, fun _ member => absurd member List.not_mem_nil⟩

/-- Clients are not asked about presses. -/
theorem client_buttonPush
    {button : Button} :
    Client allowed history device (.buttonPush button) := by
  intro command isCommand
  cases isCommand

/-- A further press. -/
theorem Browses.press
    {reached : Handheld engine app}
    {reaction : Reaction app.layout.Shared}
    {button : Button}
    (browses : Browses allowed history device reached)
    (single : button ≠ .both)
    (pressed : reached.press button = some (next, reaction))
    (silent : reaction.output = Output.none) :
    Browses allowed history device next := by
  obtain ⟨happened, steps, presses⟩ := browses
  have stepped : (handheld engine app).step reached (.buttonPush button) =
      some (next, reaction) := pressed
  refine ⟨_, steps.append (.single client_buttonPush stepped), ?_⟩
  intro step member
  rcases List.mem_append.mp member with early | late
  · exact presses step early
  · cases List.mem_singleton.mp late
    exact ⟨⟨button, single, rfl⟩, silent⟩

/-- The message of a review can be displayed, if it is one of a message. -/
def Handheld.Displays (device : Handheld engine app)
    (review : OpenReview app.layout.Shared) : Prop :=
  ∀ msg, review = .message msg →
    app.layout.Displayable (app.layout.msg.read device.state.ctx.req)

namespace Handheld

variable {row : List (Option Panel)} {cursor : engine.Cursor}

/-- The step that a flow reached can be displayed. -/
theorem display_succeeds
    (inMemory : review.InMemory app device.state.ctx.req)
    (flowEq : (Bagl.flow app device.state.ctx.req review :
      List (Run Empty _)) = known row)
    (isAt : At engine row cursor place)
    (displays : device.Displays review)
    (output : Output app.layout.Shared) :
    ∃ shown, device.display (.ok (some (cursor, place.current))) output =
      .ok shown := by
  unfold display
  rw [Run.bind_ok]
  cases init : place.current.init with
  | none =>
      simp only [init]
      exact ⟨_, rfl⟩
  | some step =>
      simp only [init]
      obtain ⟨panels, contents, listEq⟩ := panels_of_at inMemory flowEq isAt
      obtain ⟨msg, isMessage⟩ := isMessage_of_panel contents
        (listEq ▸ place.current_mem) (Or.inl (by rw [init]; rfl))
      have offered : offersMessageStep app.layout
          (app.layout.msg.read device.state.ctx.req) step = true := by
        cases current : place.current with
        | screen screen => rw [current] at init; cases init
        | intro => rw [current] at init; cases init
        | messageLength => rw [current] at init; cases init; rfl
        | message _ => rw [current] at init; cases init; rfl
        | display _ => rw [current] at init; cases init
      obtain ⟨prepared, displayed, _⟩ :=
        (displays msg isMessage).displayMessageStep (ε := Empty) offered
      unfold State.display
      rw [displayed]
      exact ⟨_, rfl⟩

/-- What a button leads to is displayed. -/
theorem Showing.display_reached
    {before : Place Panel}
    {reached : Run Empty (Option (engine.Cursor × Panel))}
    (isBagl : app.ui = .bagl)
    (showing : device.Showing review before)
    (displays : device.Displays review)
    (flowEq : (Bagl.flow app device.state.ctx.req review :
      List (Run Empty _)) = known row)
    (reaches : Reaches engine row before place reached) :
    ∃ next reaction,
      device.display reached Output.none = .ok (next, reaction) ∧
      reaction.output = Output.none ∧
      next.Showing review place ∧ next.Displays review := by
  rcases reaches with ⟨rfl, rfl⟩ | ⟨cursor, rfl, isAt⟩
  · exact ⟨device, _, rfl, rfl, showing, displays⟩
  · obtain ⟨⟨next, reaction⟩, displayed⟩ := display_succeeds
      showing.inMemory flowEq isAt displays Output.none
    obtain ⟨shown, rfl, stateCases⟩ := display_showing isBagl
      showing.onScreen showing.inMemory flowEq isAt displayed
    refine ⟨next, _, displayed, rfl, shown, ?_⟩
    intro msg isMessage
    rcases stateCases with same | ⟨step, _, stepped⟩
    · rw [same]
      exact displays msg isMessage
    · exact (displays msg isMessage).messageStep stepped

/-- The flow on the screen is that of the review. -/
theorem Showing.flow
    (showing : device.Showing review place) :
    ∃ row, device.flow = some (known row) ∧
      (Bagl.flow app device.state.ctx.req review : List (Run Empty _)) =
        known row ∧
      At engine row device.cursor place := by
  obtain ⟨row, flowEq, isAt⟩ := showing.isAt
  refine ⟨row, ?_, flowEq, isAt⟩
  unfold Handheld.flow
  rw [showing.onScreen, ← flowEq]
  rfl

/-- A review is approved at one of its panels. -/
theorem Showing.approve_mem (showing : device.Showing review place) :
    .screen .approve ∈ place.list := by
  obtain ⟨_, _, flowEq, isAt⟩ := showing.flow
  obtain ⟨_, _, listEq⟩ := panels_of_at showing.inMemory flowEq isAt
  rw [listEq]
  simp

/-- A review is rejected at one of its panels. -/
theorem Showing.reject_mem (showing : device.Showing review place) :
    .screen .reject ∈ place.list := by
  obtain ⟨_, _, flowEq, isAt⟩ := showing.flow
  obtain ⟨_, _, listEq⟩ := panels_of_at showing.inMemory flowEq isAt
  rw [listEq]
  simp

/-- The right button goes to the right. -/
theorem Showing.press_right
    (isBagl : app.ui = .bagl)
    (showing : device.Showing review place)
    (displays : device.Displays review) :
    ∃ next reaction, device.press .right = some (next, reaction) ∧
      reaction.output = Output.none ∧
      next.Showing review place.right ∧ next.Displays review := by
  obtain ⟨row, isFlow, flowEq, isAt⟩ := showing.flow
  obtain ⟨next, reaction, displayed, reached⟩ :=
    showing.display_reached isBagl displays flowEq isAt.uxFlowNext
  refine ⟨next, reaction, ?_, reached⟩
  unfold press
  simp only [isFlow, displayed]
  rfl

/-- The left button goes to the left. -/
theorem Showing.press_left
    (isBagl : app.ui = .bagl)
    (showing : device.Showing review place)
    (displays : device.Displays review) :
    ∃ next reaction, device.press .left = some (next, reaction) ∧
      reaction.output = Output.none ∧
      next.Showing review place.left ∧ next.Displays review := by
  obtain ⟨row, isFlow, flowEq, isAt⟩ := showing.flow
  obtain ⟨next, reaction, displayed, reached⟩ :=
    showing.display_reached isBagl displays flowEq isAt.uxFlowPrev
  refine ⟨next, reaction, ?_, reached⟩
  unfold press
  simp only [isFlow, displayed]
  rfl

/-- Every panel of the flow is reached with single buttons. -/
theorem Showing.browses
    {panel : Panel}
    (history : List (Input × Reaction app.layout.Shared))
    (isBagl : app.ui = .bagl)
    (showing : device.Showing review place)
    (displays : device.Displays review)
    (member : panel ∈ place.list) :
    ∃ reached last, Browses allowed history device reached ∧
      reached.Showing review last ∧ last.current = panel := by
  obtain ⟨last, ⟨reached, browses, shown, _⟩, current⟩ := Place.reaches
    (fun place => ∃ reached, Browses allowed history device reached ∧
      reached.Showing review place ∧ reached.Displays review)
    ⟨device, .refl, showing, displays⟩
    (by
      rintro place ⟨reached, browses, showing, displays⟩
      obtain ⟨next, reaction, pressed, silent, shown⟩ :=
        showing.press_right isBagl displays
      exact ⟨next, browses.press (by decide) pressed silent, shown⟩)
    (by
      rintro place ⟨reached, browses, showing, displays⟩
      obtain ⟨next, reaction, pressed, silent, shown⟩ :=
        showing.press_left isBagl displays
      exact ⟨next, browses.press (by decide) pressed silent, shown⟩)
    member
  exact ⟨reached, last, browses, shown, current⟩

/-- Both buttons approve where the review is approved. -/
theorem Showing.approves
    (showing : device.Showing review place)
    (current : place.current = .screen .approve) :
    ∃ next reply, review.ApprovedWith app reply ∧
      device.press .both = some (next, ⟨⟨some reply, none⟩, none⟩) ∧
      next.state.review = none := by
  obtain ⟨reply, approvedWith, approves⟩ := showing.inMemory.approves
  obtain ⟨req, approved⟩ := approves device.state.apduBuffer
  have stepped : device.state.step .approve =
      some (device.state.decide req reply) := by
    unfold State.step
    simp only [showing.onScreen, approved, Option.bind_eq_bind,
      Option.bind_some]
    rfl
  refine ⟨⟨(device.state.decide req reply).1, device.cursor, none⟩, reply,
    approvedWith, ?_, rfl⟩
  unfold press
  rw [showing.panel, current]
  simp only [Option.bind_some, Panel.callback, validate, stepped,
    Option.bind_eq_bind]
  rfl

/-- Both buttons reject where the review is rejected. -/
theorem Showing.rejects
    (showing : device.Showing review place)
    (current : place.current = .screen .reject) :
    ∃ next, device.press .both =
        some (next, ⟨⟨some onRejected, none⟩, none⟩) ∧
      next.state.review = none ∧ next.state.unanswered = false := by
  have stepped : device.state.step .reject =
      some (device.state.decide device.state.ctx.req onRejected) := by
    unfold State.step
    simp only [showing.onScreen, Option.bind_eq_bind, Option.bind_some]
    rfl
  refine ⟨⟨(device.state.decide device.state.ctx.req onRejected).1,
    device.cursor, none⟩, ?_, rfl, rfl⟩
  unfold press
  rw [showing.panel, current]
  simp only [Option.bind_some, Panel.callback, validate, stepped,
    Option.bind_eq_bind]
  rfl

/-- Single buttons lead to where both of them approve the review. -/
theorem Showing.reaches_approve
    (history : List (Input × Reaction app.layout.Shared))
    (isBagl : app.ui = .bagl)
    (showing : device.Showing review place)
    (displays : device.Displays review) :
    ∃ reached next reply, Browses allowed history device reached ∧
      (handheld engine app).step reached (.buttonPush .both) =
        some (next, ⟨⟨some reply, none⟩, none⟩) ∧
      review.ApprovedWith app reply ∧ next.state.review = none := by
  obtain ⟨reached, last, browses, shown, current⟩ := showing.browses
    history isBagl displays showing.approve_mem
  obtain ⟨next, reply, approvedWith, pressed, isOver⟩ :=
    shown.approves current
  exact ⟨reached, next, reply, browses, pressed, approvedWith, isOver⟩

/-- Single buttons lead to where both of them reject the review. -/
theorem Showing.reaches_reject
    (history : List (Input × Reaction app.layout.Shared))
    (isBagl : app.ui = .bagl)
    (showing : device.Showing review place)
    (displays : device.Displays review) :
    ∃ reached next, Browses allowed history device reached ∧
      (handheld engine app).step reached (.buttonPush .both) =
        some (next, ⟨⟨some onRejected, none⟩, none⟩) ∧
      next.state.review = none ∧ next.state.unanswered = false := by
  obtain ⟨reached, last, browses, shown, current⟩ := showing.browses
    history isBagl displays showing.reject_mem
  obtain ⟨next, pressed, isOver⟩ := shown.rejects current
  exact ⟨reached, next, browses, pressed, isOver⟩

/-- The way a message is displayed can be changed where that is offered. -/
theorem Showing.switches
    (showing : device.Showing review place)
    (displays : device.Displays review)
    (current : place.current = .display displayType) :
    ∃ switched, device.switchDisplay displayType = .ok switched := by
  obtain ⟨msg, rfl, offered, _⟩ := showing.offers current
  obtain ⟨prepared, displayed, _⟩ :=
    (displays msg rfl).displayMessageStep (ε := Empty) offered
  obtain ⟨reached, after, started, _⟩ := uxFlowInit_message
    (ε := Empty) engine app.layout (app.layout.setDisplayType displayType
      (app.layout.msg.read device.state.ctx.req))
  unfold switchDisplay State.display
  simp only [displayed, Run.bind_ok, started]
  exact ⟨_, rfl⟩

/-- Every press is reacted to while a review is followed. -/
theorem Showing.presses
    (isBagl : app.ui = .bagl)
    (showing : device.Showing review place)
    (displays : device.Displays review)
    (button : Button) :
    device.press button ≠ none := by
  cases button with
  | left =>
      obtain ⟨next, reaction, pressed, _⟩ :=
        showing.press_left isBagl displays
      rw [pressed]
      exact nofun
  | right =>
      obtain ⟨next, reaction, pressed, _⟩ :=
        showing.press_right isBagl displays
      rw [pressed]
      exact nofun
  | both =>
      cases current : place.current with
      | screen screen =>
          cases screen with
          | approve =>
              obtain ⟨next, reply, _, pressed, _⟩ := showing.approves current
              rw [pressed]
              exact nofun
          | reject =>
              obtain ⟨next, pressed, _⟩ := showing.rejects current
              rw [pressed]
              exact nofun
          | confirm label =>
              unfold press
              rw [showing.panel, current]
              exact nofun
          | entry entry =>
              unfold press
              rw [showing.panel, current]
              exact nofun
      | display displayType =>
          obtain ⟨switched, switches⟩ := showing.switches displays current
          unfold press
          rw [showing.panel, current]
          simp only [Option.bind_some, Panel.callback, validate, switches]
          exact nofun
      | intro =>
          unfold press
          rw [showing.panel, current]
          exact nofun
      | messageLength =>
          unfold press
          rw [showing.panel, current]
          exact nofun
      | message displayType =>
          unfold press
          rw [showing.panel, current]
          exact nofun

end Handheld
end Presses

section Orderly

variable {engine : FlowEngine} {app : App}
  {history : List (Input × Reaction app.layout.Shared)}
  {device next : Handheld engine app}
  {review : OpenReview app.layout.Shared} {place : Place Panel}

/-- With an orderly client, the device follows its review, and the app is in
order. -/
theorem handheld_inOrder
    (isBagl : app.ui = .bagl)
    (run : (handheld engine app).Run (Client Orderly) history device) :
    device.Follows (panelsSinceLaunch history) ∧
      ∃ others, InOrder others device.state ∧
        exchanged others = history.flatMap exchange := by
  obtain ⟨blocks, _, appRun, _, rfl, follows, sameExchange⟩ :=
    (handheld_refines engine isBagl waitingClient_orderly).run run
  exact ⟨follows, _, InOrder.of_run appRun, sameExchange⟩

/-- What is in order can be displayed. -/
theorem InOrder.displays
    {others : List (Event × Output app.layout.Shared)}
    (inOrder : InOrder others device.state)
    (onScreen : device.state.review = some review) :
    device.Displays review := by
  rintro msg rfl
  exact inOrder.displayable msg onScreen

/-- With an orderly client, every review that is on the screen can be decided
by pressing buttons: single ones lead to all of its contents, and to where
both of them approve or reject it. -/
theorem review_decidable
    (isBagl : app.ui = .bagl)
    (run : (handheld engine app).Run (Client Orderly) history device)
    (onScreen : device.state.review = some review) :
    ∃ panels, Contents app device.state.ctx.req review panels ∧
      (∀ panel ∈ panels, ∃ reached, Browses Orderly history device reached ∧
        reached.panel = some panel) ∧
      (∃ reached next reply, Browses Orderly history device reached ∧
        (handheld engine app).step reached (.buttonPush .both) =
          some (next, ⟨⟨some reply, none⟩, none⟩) ∧
        review.ApprovedWith app reply ∧ next.state.review = none) ∧
      ∃ reached next, Browses Orderly history device reached ∧
        (handheld engine app).step reached (.buttonPush .both) =
          some (next, ⟨⟨some onRejected, none⟩, none⟩) ∧
        next.state.review = none := by
  obtain ⟨follows, others, inOrder, _⟩ := handheld_inOrder isBagl run
  obtain ⟨place, showing, _⟩ := follows.review review onScreen
  have displays := InOrder.displays inOrder onScreen
  obtain ⟨row, flowEq, isAt⟩ := showing.isAt
  obtain ⟨panels, contents, listEq⟩ :=
    Handheld.panels_of_at showing.inMemory flowEq isAt
  refine ⟨panels, contents, ?_, ?_, ?_⟩
  · intro panel member
    obtain ⟨reached, last, browses, shown, rfl⟩ := showing.browses
      history isBagl displays (listEq ▸ List.mem_append_left _ member)
    exact ⟨reached, browses, shown.panel⟩
  · exact showing.reaches_approve history isBagl displays
  · obtain ⟨reached, next, browses, pressed, isOver, _⟩ :=
      showing.reaches_reject history isBagl displays
    exact ⟨reached, next, browses, pressed, isOver⟩

/-- An orderly client that starts with a single chunk of a transaction. -/
theorem client_singleChunk
    {command : Command}
    (carries : command.Carries insSignTx p1First p2Last part)
    (noReview : device.state.review = none) :
    Client Orderly history device (.command command) := by
  rintro _ ⟨rfl⟩
  refine ⟨?_, ?_⟩
  · intro other _ onScreen
    rw [noReview] at onScreen
    cases onScreen
  · rintro _ ins p2 more ⟨rfl⟩ _ other
    exact absurd (carries.unique other).2.1 (by decide)

/-- The review of the vesting contract can be approved. -/
theorem review_decidable_vesting :
    ∃ (history : List (Input × Reaction disturbedApp.layout.Shared))
      (device reached : Handheld FlowEngine.plain disturbedApp)
      (tx : TransactionContext),
      device.state.review = some (.transaction tx) ∧
      (handheld FlowEngine.plain disturbedApp).Run (Client Orderly) history
        device ∧
      Browses Orderly history device reached ∧
      ∃ next reply,
        (handheld FlowEngine.plain disturbedApp).step reached
            (.buttonPush .both) =
          some (next, ⟨⟨some reply, none⟩, none⟩) ∧
        OpenReview.ApprovedWith disturbedApp (.transaction tx) reply := by
  obtain ⟨device, tx, panel, stepped, onScreen⟩ := vestingReview_launched
  have run := Foundation.System.Run.step .start (client_singleChunk
    (Command.carrying_carries reviewedTransaction_short) rfl) stepped
  obtain ⟨panels, _, _, ⟨reached, next, reply, browses, pressed,
    approvedWith, _⟩, _⟩ := review_decidable rfl run onScreen
  exact ⟨_, device, reached, tx, onScreen, run, browses, next, reply, pressed,
    approvedWith⟩

/-- What is approved was displayed, and is replied to. -/
theorem Handheld.Follows.approved
    {panels : List Panel}
    (follows : device.Follows panels)
    (approve : device.panel = some (.screen .approve))
    (pressed : device.press .both = some (next, reaction)) :
    ∃ review shown reply,
      device.state.review = some review ∧
      Contents app device.state.ctx.req review shown ∧
      (∀ panel ∈ shown, panel ∈ panels) ∧
      review.ApprovedWith app reply ∧
      reaction.output.reply = some reply := by
  cases reviewEq : device.state.review with
  | none =>
      rw [follows.menu reviewEq] at approve
      cases approve
  | some review =>
      obtain ⟨place, showing, isSeen⟩ := follows.review review reviewEq
      obtain ⟨row, flowEq, isAt⟩ := showing.isAt
      obtain ⟨shown, contents, listEq⟩ :=
        Handheld.panels_of_at showing.inMemory flowEq isAt
      have current : place.current = .screen .approve :=
        Option.some.inj (showing.panel.symm.trans approve)
      obtain ⟨_, reply, approvedWith, approves, _⟩ := showing.approves current
      rw [pressed] at approves
      cases approves
      refine ⟨review, shown, reply, rfl, contents, ?_, approvedWith, rfl⟩
      intro panel member
      have absent : place.current ∉ shown := by
        rw [current]
        exact contents.approve_not_mem
      exact isSeen panel (List.mem_append_left _
        (place.mem_before listEq absent member))

/-- When a review is approved, all of its contents were displayed since it was
launched: the address of the key, the title and all entries of the
transaction, or the length of the message and the message itself, in the way
it is displayed then.  The reply is the one for what the review was launched
for. -/
theorem approved_afterDisplay
    (isBagl : app.ui = .bagl)
    (client : WaitingClient allowed)
    (run : (handheld engine app).Run (Client allowed) history device)
    (approve : device.panel = some (.screen .approve))
    (pressed : (handheld engine app).step device (.buttonPush .both) =
      some (next, reaction)) :
    ∃ review panels reply,
      device.state.review = some review ∧
      Contents app device.state.ctx.req review panels ∧
      (∀ panel ∈ panels, panel ∈ panelsSinceLaunch history) ∧
      review.ApprovedWith app reply ∧
      reaction.output.reply = some reply := by
  obtain ⟨_, _, _, _, rfl, follows, _⟩ :=
    (handheld_refines engine isBagl client).run run
  exact follows.approved approve pressed

/-- All of the vesting contract is displayed before it is approved. -/
theorem approved_afterDisplay_vesting :
    ∃ (history : List (Input × Reaction disturbedApp.layout.Shared))
      (device : Handheld FlowEngine.plain disturbedApp)
      (review : OpenReview disturbedApp.layout.Shared)
      (panels : List Panel),
      device.state.review = some review ∧
      Contents disturbedApp device.state.ctx.req review panels ∧
      ∀ panel ∈ panels, panel ∈ panelsSinceLaunch history := by
  obtain ⟨start, tx, panel, stepped, onScreen⟩ := vestingReview_launched
  have run := Foundation.System.Run.step .start (client_singleChunk
    (Command.carrying_carries reviewedTransaction_short) rfl) stepped
  obtain ⟨follows, _, inOrder, _⟩ := handheld_inOrder rfl run
  obtain ⟨place, showing, _⟩ := follows.review _ onScreen
  obtain ⟨device, last, ⟨presses, steps, _⟩, shown, current⟩ :=
    showing.browses _ rfl nofun showing.approve_mem
  obtain ⟨next, reply, _, pressed, _⟩ := shown.approves current
  obtain ⟨review, panels, _, shownReview, contents, displayed, _⟩ :=
    approved_afterDisplay rfl waitingClient_orderly (steps.run run)
      (shown.panel.trans (by rw [current])) pressed
  exact ⟨_, device, review, panels, shownReview, contents, displayed⟩

/-- Nothing is pressed in the main menu. -/
theorem Handheld.press_menu
    (noReview : device.state.review = none)
    (noPanel : device.panel = none)
    (button : Button) :
    device.press button = some (device, Reaction.none) := by
  have noFlow : device.flow = none := by
    unfold flow
    rw [noReview]
    rfl
  unfold press
  cases button with
  | left => simp only [noFlow]
  | right => simp only [noFlow]
  | both => rw [noPanel]; rfl

/-- A command ends the app on the device exactly if it ends the app. -/
theorem Handheld.step_command_eq_none_iff
    {command : Command} :
    device.step (.command command) = none ↔
      app.system.step device.state (.command command) = none := by
  change _ ↔ device.state.step (.command command) = none
  unfold step
  cases received : device.state.step (.command command) with
  | none =>
      refine iff_of_true ?_ rfl
      simp only [received, Option.bind_eq_bind, Option.bind_none]
  | some result =>
      obtain ⟨state, output⟩ := result
      refine iff_of_false ?_ nofun
      simp only [received, Option.bind_eq_bind, Option.bind_some]
      split
      · exact nofun
      · rename_i review launched
        obtain ⟨_, inMemory⟩ :=
          (State.step_command received).launched_inMemory launched
        obtain ⟨shown, displayed⟩ :=
          launch_succeeds { device with state } inMemory output
        rw [displayed]
        exact nofun

/-- With an orderly client, the device of the BAGL build is ended by a request
to sign nothing, and by nothing else: no other command, no button and no
other event of the device. -/
theorem handheld_crashes_iff
    (isBagl : app.ui = .bagl)
    (run : (handheld engine app).Run (Client Orderly) history device)
    (orderly : Client Orderly history device input)
    (idle : ∀ command, input = .command command →
      device.state.unanswered = false) :
    (handheld engine app).step device input = none ↔
      ∃ command, input = .command command ∧ command.SignsNothing := by
  obtain ⟨follows, others, inOrder, sameExchange⟩ :=
    handheld_inOrder isBagl run
  have silent : ∀ {input : Input}, device.step input ≠ none →
      (∀ command, input ≠ .command command) →
      (device.step input = none ↔
        ∃ command, input = .command command ∧ command.SignsNothing) := by
    intro input isSome noCommand
    refine iff_of_false isSome ?_
    rintro ⟨command, isCommand, _⟩
    exact noCommand command isCommand
  change device.step input = none ↔ _
  cases input with
  | command command =>
      have ownOrderly : Orderly others device.state (.command command) := by
        refine waitingClient_orderly.exchanged ?_ (orderly command rfl)
        rw [← sameExchange]
        unfold exchanged
        rw [List.filter_filter]
        simp only [Bool.and_self]
      rw [Handheld.step_command_eq_none_iff]
      change device.state.step (.command command) = none ↔ _
      rw [State.step_command_eq_none_iff (idle command rfl),
        inOrder.command_faults_iff ownOrderly]
      constructor
      · rintro ⟨_, ⟨rfl⟩, signsNothing | ⟨isNbgl, _⟩⟩
        · exact ⟨command, rfl, signsNothing⟩
        · rw [isBagl] at isNbgl
          cases isNbgl
      · rintro ⟨_, ⟨rfl⟩, signsNothing⟩
        exact ⟨command, rfl, Or.inl signsNothing⟩
  | buttonPush button =>
      refine silent ?_ nofun
      change device.press button ≠ none
      cases reviewEq : device.state.review with
      | none =>
          rw [Handheld.press_menu reviewEq (follows.menu reviewEq)]
          exact nofun
      | some review =>
          obtain ⟨place, showing, _⟩ := follows.review review reviewEq
          exact showing.presses isBagl (InOrder.displays inOrder reviewEq)
            button
  | status isUsbHid usbPowered =>
      refine silent ?_ nofun
      unfold Handheld.step
      simp only
      split <;> exact nofun
  | displayProcessed => exact silent nofun nofun
  | ticker isU2f => exact silent nofun nofun
  | other => exact silent nofun nofun

end Orderly

/-- No button ends the app during the review of the vesting contract. -/
theorem handheld_crashes_iff_vesting :
    ∃ (history : List (Input × Reaction disturbedApp.layout.Shared))
      (device : Handheld FlowEngine.plain disturbedApp),
      (handheld FlowEngine.plain disturbedApp).Run (Client Orderly) history
        device ∧
      device.state.review.isSome ∧
      (handheld FlowEngine.plain disturbedApp).step device
        (.buttonPush .both) ≠ none := by
  obtain ⟨device, tx, panel, stepped, onScreen⟩ := vestingReview_launched
  have run := Foundation.System.Run.step .start (client_singleChunk
    (Command.carrying_carries reviewedTransaction_short) rfl) stepped
  refine ⟨_, device, run, by rw [onScreen]; rfl, ?_⟩
  intro isNone
  obtain ⟨command, isCommand, _⟩ := (handheld_crashes_iff rfl run
    client_buttonPush nofun).mp isNone
  cases isCommand

end Bagl
end NimiqApp
