import NimiqApp.ApprovalReplies
import NimiqApp.BaglFlows
import NimiqApp.Foundation.Refinement

/-!
# Buttons

The BAGL build in the hands of a user: the steps of its flows are gone through
with two buttons, and both of them together validate a step.  A client that
waits for a decision before it sends further commands finds the system of
commands, heartbeats and decisions in it.
-/

namespace NimiqApp
namespace Bagl

open Foundation (FlowEngine Place Refines)
open Foundation.System (anyEvent Steps)

/-- A press of the left or the right button, or of both. -/
inductive Button
  | left
  | right
  | both
  deriving DecidableEq, Repr

/-- What the main loop and `io_event` react to. -/
inductive Input
  | command (command : Command)
  /-- `SEPROXYHAL_TAG_BUTTON_PUSH_EVENT`. -/
  | buttonPush (button : Button)
  /-- `SEPROXYHAL_TAG_STATUS_EVENT`. -/
  | status (isUsbHid usbPowered : Bool)
  /-- `SEPROXYHAL_TAG_DISPLAY_PROCESSED_EVENT`. -/
  | displayProcessed
  /-- `SEPROXYHAL_TAG_TICKER_EVENT`. -/
  | ticker (isU2f : Bool)
  /-- Events without a case of their own. -/
  | other

/-- The app and what is on its screen: a panel of the flow of a review, or
the main menu. -/
structure Handheld (engine : FlowEngine) (app : App) where
  state : State app
  cursor : engine.Cursor
  panel : Option Panel

/-- What an input leads to: replies and reviews, and what is displayed. -/
structure Reaction (Shared : Type) where
  output : Output Shared
  panel : Option Panel

/-- Nothing happens. -/
def Reaction.none : Reaction Shared :=
  ⟨Output.none, Option.none⟩

namespace Handheld

variable {engine : FlowEngine} {app : App}

/-- Display the step that a flow reached.  The step of a message writes to
memory what it displays. -/
def display (reached : Run Empty (Option (engine.Cursor × Panel)))
    (output : Output app.layout.Shared) (device : Handheld engine app) :
    Run Empty (Handheld engine app × Reaction app.layout.Shared) := do
  match ← reached with
  | none => pure (device, ⟨output, none⟩)
  | some (cursor, panel) =>
      match panel.init with
      | none => pure (⟨device.state, cursor, panel⟩, ⟨output, panel⟩)
      | some step => do
          let (state, _) ← device.state.display step
          pure (⟨state, cursor, panel⟩, ⟨output, panel⟩)

/-- `ui_message_signing` from a step of the message flow. -/
def switchDisplay (displayType : MessageDisplayType)
    (device : Handheld engine app) :
    Run Empty (Handheld engine app × Reaction app.layout.Shared) := do
  let msg := app.layout.setDisplayType displayType
    (app.layout.msg.read device.state.ctx.req)
  let (state, _) ← device.state.display (.display displayType)
  match ← uxFlowInit engine (messageFlow app.layout msg)
      messageFlowMessageStep with
  | none => pure ({ device with state }, Reaction.none)
  | some (cursor, panel) =>
      pure (⟨state, cursor, panel⟩, ⟨Output.none, panel⟩)

/-- The callback of a step.  Decisions lead back to the main menu. -/
def validate (device : Handheld engine app) :
    Callback →
      Option (Handheld engine app × Reaction app.layout.Shared)
  | .approve => do
      let (state, output) ← device.state.step .approve
      pure (⟨state, device.cursor, none⟩, ⟨output, none⟩)
  | .reject => do
      let (state, output) ← device.state.step .reject
      pure (⟨state, device.cursor, none⟩, ⟨output, none⟩)
  | .display displayType => (device.switchDisplay displayType).toOption

/-- The flow on the screen, if it is that of a review. -/
def flow (device : Handheld engine app) :
    Option (List (Run Empty (Option Panel))) :=
  device.state.review.map (Bagl.flow app device.state.ctx.req)

/-- `ux_flow_button_callback`. -/
def press (device : Handheld engine app) :
    Button → Option (Handheld engine app × Reaction app.layout.Shared)
  | .left =>
      match device.flow with
      | none => some (device, Reaction.none)
      | some steps =>
          (device.display (uxFlowPrev engine steps device.cursor)
            Output.none).toOption
  | .right =>
      match device.flow with
      | none => some (device, Reaction.none)
      | some steps =>
          (device.display (uxFlowNext engine steps device.cursor)
            Output.none).toOption
  | .both =>
      match device.panel.bind Panel.callback with
      | none => some (device, Reaction.none)
      | some callback => device.validate callback

/-- The device after start-up. -/
def start (engine : FlowEngine) (app : App) : Handheld engine app :=
  ⟨State.start app, engine.init 0, none⟩

/-- The reaction to an input.  `EXCEPTION_IO_RESET` starts the app again. -/
def step (device : Handheld engine app) :
    Input → Option (Handheld engine app × Reaction app.layout.Shared)
  | .command command => do
      let (state, output) ← device.state.step (.command command)
      let device := { device with state }
      match output.launched with
      | none => pure (device, ⟨output, none⟩)
      | some review =>
          (device.display (uxFlowInit engine
            (Bagl.flow app state.ctx.req review) 0) output).toOption
  | .buttonPush button => device.press button
  | .status isUsbHid usbPowered =>
      if isUsbHid ∧ ¬usbPowered then
        some (start engine app, Reaction.none)
      else some (device, Reaction.none)
  | .displayProcessed => some (device, Reaction.none)
  | .ticker isU2f => do
      let (state, output) ← device.state.step (.ticker isU2f)
      pure ({ device with state }, ⟨output, none⟩)
  | .other => some (device, Reaction.none)

end Handheld

/-- The device as a system. -/
def handheld (engine : FlowEngine) (app : App) :
    Foundation.System (Handheld engine app) Input
      (Reaction app.layout.Shared) where
  start := Handheld.start engine app
  step := Handheld.step

/-- A client takes part in an event. -/
def isExchange : Event → Bool
  | .command _ => true
  | .restart => true
  | _ => false

/-- What the app and its client exchanged. -/
def exchanged (history : List (Event × Output Shared)) :
    List (Event × Output Shared) :=
  history.filter fun step => isExchange step.1

/-- What is exchanged in an input. -/
def exchange : Input × Reaction Shared → List (Event × Output Shared)
  | (.command command, reaction) => [(.command command, reaction.output)]
  | (.status true false, _) => [(.restart, Output.none)]
  | _ => []

/-- A condition on the commands of a client.  It only depends on what was
exchanged with it, and makes it wait for decisions. -/
structure WaitingClient {app : App}
    (allowed : List (Event × Output app.layout.Shared) → State app → Event →
      Prop) : Prop where
  waits : ∀ {history : List (Event × Output app.layout.Shared)}
    {state : State app} {command : Command},
    allowed history state (.command command) → state.review.isSome →
      command.IsKeepAlive
  exchanged : ∀ {history others : List (Event × Output app.layout.Shared)}
    {state : State app} {command : Command},
    exchanged history = exchanged others →
    allowed history state (.command command) →
      allowed others state (.command command)
  free : ∀ {history : List (Event × Output app.layout.Shared)}
    {state : State app} {event : Event},
    (∀ command, event ≠ .command command) → allowed history state event

/-- The condition holds for the commands that the device receives. -/
def Client {engine : FlowEngine} {app : App}
    (allowed : List (Event × Output app.layout.Shared) → State app → Event →
      Prop)
    (history : List (Input × Reaction app.layout.Shared))
    (device : Handheld engine app) (input : Input) : Prop :=
  ∀ command, input = .command command →
    allowed (history.flatMap exchange) device.state (.command command)

/-- This is enough to wait for decisions. -/
theorem waitingClient_waits {app : App} :
    WaitingClient (@Waits app) where
  waits permitted := permitted _ rfl
  exchanged _ permitted := permitted
  free noCommand _ isCommand := absurd isCommand (noCommand _)

/-! ## What was displayed -/

/-- The panels displayed since the last review was launched. -/
def panelsSinceLaunch (history : List (Input × Reaction Shared)) :
    List Panel :=
  history.foldl (fun panels step =>
    (if step.2.output.launched.isSome then [] else panels) ++
      step.2.panel.toList) []

theorem panelsSinceLaunch_append
    (history : List (Input × Reaction Shared))
    (input : Input)
    (reaction : Reaction Shared) :
    panelsSinceLaunch (history ++ [(input, reaction)]) =
      (if reaction.output.launched.isSome then []
        else panelsSinceLaunch history) ++ reaction.panel.toList := by
  unfold panelsSinceLaunch
  rw [List.foldl_append]
  rfl

/-- How an input is explained by events of the app. -/
inductive Explains :
    Input × Reaction Shared → List (Event × Output Shared) → Prop
  | command :
      Explains (.command command, ⟨output, panel⟩)
        [(.command command, output)]
  | ticker :
      Explains (.ticker isU2f, ⟨output, none⟩) [(.ticker isU2f, output)]
  | restart :
      Explains (.status true false, Reaction.none)
        [(.restart, Output.none)]
  | approve :
      Explains (.buttonPush .both, ⟨output, none⟩) [(.approve, output)]
  | reject :
      Explains (.buttonPush .both, ⟨output, none⟩) [(.reject, output)]
  | messageStep (step : MessageStep) :
      Explains (.buttonPush button, ⟨Output.none, some panel⟩)
        [(.messageStep step, Output.none)]
  | silent {reaction : Reaction Shared}
      (noExchange : exchange (input, reaction) = [])
      (quiet : reaction.output = Output.none) :
      Explains (input, reaction) []

/-- An explanation has the same exchanges. -/
theorem Explains.exchanged
    {happened : List (Event × Output Shared)}
    (explains : Explains step happened) :
    exchanged happened = exchange step := by
  cases explains with
  | command => rfl
  | ticker => rfl
  | restart => rfl
  | approve => rfl
  | reject => rfl
  | messageStep step => rfl
  | silent noExchange _ => exact noExchange.symm

/-- The steps of an explanation are allowed if its commands are. -/
theorem Explains.permitted
    {app : App}
    {happened history others : List (Event × Output app.layout.Shared)}
    {state next : State app}
    {reaction : Reaction app.layout.Shared}
    {allowed : List (Event × Output app.layout.Shared) → State app → Event →
      Prop}
    (explains : Explains (input, reaction) happened)
    (client : WaitingClient allowed)
    (steps : app.system.Steps anyEvent others state happened next)
    (permitted : ∀ command, input = .command command →
      allowed history state (.command command)) :
    app.system.Steps allowed history state happened next := by
  have single : ∀ {event output}, happened = [(event, output)] →
      allowed history state event →
      app.system.Steps allowed history state happened next := by
    rintro event output rfl isAllowed
    cases steps with
    | one _ stepped rest =>
        cases rest
        exact .single isAllowed stepped
  cases explains with
  | command => exact single rfl (permitted _ rfl)
  | ticker => exact single rfl (client.free nofun)
  | restart => exact single rfl (client.free nofun)
  | approve => exact single rfl (client.free nofun)
  | reject => exact single rfl (client.free nofun)
  | messageStep step => exact single rfl (client.free nofun)
  | silent _ _ =>
      cases steps
      exact .none

namespace Handheld

section Showing

variable {engine : FlowEngine} {app : App}
  {device next : Handheld engine app}
  {review : OpenReview app.layout.Shared} {place : Place Panel}
  {row : List (Option Panel)} {output : Output app.layout.Shared}
  {reaction : Reaction app.layout.Shared} {req : app.layout.Memory}
  {cursor : engine.Cursor}

/-- A review is on the screen and in memory, at some place in the list of
what its flow displays. -/
structure Showing (device : Handheld engine app)
    (review : OpenReview app.layout.Shared) (place : Place Panel) :
    Prop where
  onScreen : device.state.review = some review
  inMemory : review.InMemory app device.state.ctx.req
  isAt : ∃ row,
    (Bagl.flow app device.state.ctx.req review : List (Run Empty _)) =
      known row ∧
    At engine row device.cursor place
  panel : device.panel = some place.current

/-- A row is known by its steps. -/
theorem known_injective
    {left right : List (Option Panel)}
    (equal : (known left : List (Run ε _)) = known right) :
    left = right :=
  List.map_injective_iff.mpr (fun _ _ same => Except.ok.inj same) equal

/-- The panels of a flow in memory are its contents and the decision. -/
theorem panels_of_at
    (inMemory : review.InMemory app req)
    (flowEq : (Bagl.flow app req review : List (Run Empty _)) = known row)
    (isAt : At engine row cursor place) :
    ∃ panels, Contents app req review panels ∧
      place.list = panels ++ [.screen .approve, .screen .reject] := by
  obtain ⟨other, panels, otherEq, displayed, contents⟩ := flow_row inMemory
  rw [flowEq] at otherEq
  rw [← known_injective otherEq] at displayed
  exact ⟨panels, contents, isAt.list_eq.trans displayed⟩

/-- Only the review of a message writes what it displays, or changes the way
it is displayed. -/
theorem isMessage_of_panel
    {panel : Panel}
    (contents : Contents app req review panels)
    (member : panel ∈ panels ++ [.screen .approve, .screen .reject])
    (writes : panel.init.isSome ∨
      ∃ displayType, panel = .display displayType) :
    ∃ msg, review = .message msg := by
  have noScreen : ∀ screen, panel ≠ .screen screen := by
    rintro screen rfl
    rcases writes with isWritten | ⟨_, isDisplay⟩
    · cases isWritten
    · cases isDisplay
  cases contents with
  | publicKey pk => simp [noScreen] at member
  | transaction tx screens =>
      simp only [List.map_cons, List.map_map, List.mem_append,
        List.mem_cons, List.mem_map, Function.comp_apply, noScreen,
        List.not_mem_nil, or_false, false_or] at member
      obtain ⟨entry, _, panelEq⟩ := member
      exact absurd panelEq.symm (noScreen _)
  | message msg offers => exact ⟨msg, rfl⟩

/-- A step of the message flow is displayed in a state with the review of the
message, and the message stays in memory. -/
theorem display_message
    {state after : State app}
    {msg : MessageSigningContext app.layout.Shared}
    {step : MessageStep}
    (isBagl : app.ui = .bagl)
    (onScreen : state.review = some (.message msg))
    (inMemory : OpenReview.InMemory app state.ctx.req (.message msg))
    (offered : offersMessageStep app.layout
      (app.layout.msg.read state.ctx.req) step = true)
    (displayed : state.display step = .ok (after, output)) :
    app.system.step state (.messageStep step) = some (after, Output.none) ∧
      after.review = some (.message msg) ∧
      OpenReview.InMemory app after.ctx.req (.message msg) ∧
      SameRequest (app.layout.msg.read state.ctx.req)
        (app.layout.msg.read after.ctx.req) ∧
      app.layout.displayType (app.layout.msg.read after.ctx.req) =
        (preparedType app.layout (app.layout.msg.read state.ctx.req)
          step).getD (app.layout.displayType
            (app.layout.msg.read state.ctx.req)) := by
  have stepped : app.system.step state (.messageStep step) =
      (state.display step).toOption := by
    change (if state.offers step then _ else none) = _
    have offers : state.offers step = true := by
      unfold State.offers
      rw [onScreen]
      simp only
      rw [isBagl, offered]
      rfl
    rw [if_pos offers]
  rw [displayed] at stepped
  obtain ⟨written, prepared, displayed⟩ := Run.bind_eq_ok.mp displayed
  cases displayed
  have same := displayMessageStep_sameRequest prepared
  refine ⟨stepped, onScreen, ?_, ?_, ?_⟩
  · unfold OpenReview.InMemory
    rw [app.layout.msg.read_write]
    exact inMemory.trans same
  · rw [app.layout.msg.read_write]
    exact same
  · rw [app.layout.msg.read_write]
    exact displayMessageStep_displayType prepared

/-- The step that a flow reached is displayed. -/
theorem display_showing
    (isBagl : app.ui = .bagl)
    (onScreen : device.state.review = some review)
    (inMemory : review.InMemory app device.state.ctx.req)
    (flowEq : (Bagl.flow app device.state.ctx.req review :
      List (Run Empty _)) = known row)
    (isAt : At engine row cursor place)
    (displayed : device.display (.ok (some (cursor, place.current)))
      output = .ok (next, reaction)) :
    next.Showing review place ∧
      reaction = ⟨output, some place.current⟩ ∧
      (next.state = device.state ∨ ∃ step,
        place.current.init = some step ∧
        app.system.step device.state (.messageStep step) =
          some (next.state, Output.none)) := by
  unfold display at displayed
  rw [Run.bind_ok] at displayed
  simp only at displayed
  split at displayed
  · cases displayed
    exact ⟨⟨onScreen, inMemory, ⟨row, flowEq, isAt⟩, rfl⟩, rfl, Or.inl rfl⟩
  · rename_i step init
    obtain ⟨panels, contents, listEq⟩ := panels_of_at inMemory flowEq isAt
    obtain ⟨msg, rfl⟩ := isMessage_of_panel contents
      (listEq ▸ place.current_mem) (Or.inl (by rw [init]; rfl))
    obtain ⟨⟨after, silent⟩, written, displayed⟩ :=
      Run.bind_eq_ok.mp displayed
    cases displayed
    have keeps : step = .messageLength ∨ step = .message := by
      cases current : place.current with
      | screen screen => rw [current] at init; cases init
      | intro => rw [current] at init; cases init
      | messageLength => rw [current] at init; cases init; exact Or.inl rfl
      | message _ => rw [current] at init; cases init; exact Or.inr rfl
      | display _ => rw [current] at init; cases init
    obtain ⟨stepped, stays, remembered, same, sameType⟩ :=
      display_message isBagl onScreen inMemory
        (by rcases keeps with rfl | rfl <;> rfl) written
    refine ⟨⟨stays, remembered, ⟨row, ?_, isAt⟩, rfl⟩, rfl,
      Or.inr ⟨step, init, stepped⟩⟩
    change (messageFlow _ _ : List (Run Empty _)) = _
    rw [messageFlow_eq, messageRow_congr same (by
      rcases keeps with rfl | rfl <;> exact sameType), ← messageFlow_eq]
    exact flowEq

/-! ## What inputs lead to -/

/-- What was displayed of the review on the screen, if there is one. -/
structure Follows (device : Handheld engine app) (seen : List Panel) :
    Prop where
  menu : device.state.review = none → device.panel = none
  review : ∀ review, device.state.review = some review →
    ∃ place, device.Showing review place ∧ place.SeenIn seen

/-- Nothing has to be displayed in the main menu. -/
theorem Follows.of_menu
    (noReview : device.state.review = none)
    (noPanel : device.panel = none) :
    device.Follows seen where
  menu _ := noPanel
  review review onScreen := by
    rw [noReview] at onScreen
    cases onScreen

/-- A review at a place whose panels were displayed. -/
theorem Showing.follows
    (showing : device.Showing review place)
    (isSeen : place.SeenIn seen) :
    device.Follows seen where
  menu noReview := by
    rw [showing.onScreen] at noReview
    cases noReview
  review other onScreen := by
    rw [showing.onScreen] at onScreen
    cases onScreen
    exact ⟨place, showing, isSeen⟩

/-- Only the review, the memory of requests and the screen matter. -/
theorem Follows.congr
    {state : State app}
    (follows : device.Follows seen)
    (sameReview : state.review = device.state.review)
    (sameReq : state.ctx.req = device.state.ctx.req) :
    Follows { device with state } seen where
  menu noReview := follows.menu (sameReview.symm.trans noReview)
  review review onScreen := by
    obtain ⟨place, showing, isSeen⟩ :=
      follows.review review (sameReview.symm.trans onScreen)
    refine ⟨place, ⟨onScreen, ?_, ?_, showing.panel⟩, isSeen⟩
    · exact sameReq ▸ showing.inMemory
    · exact sameReq ▸ showing.isAt

/-- How an input is reacted to: the review is followed, and the reaction is
explained by events of the app. -/
def Simulated (device : Handheld engine app)
    (history : List (Input × Reaction app.layout.Shared)) (input : Input)
    (next : Handheld engine app)
    (reaction : Reaction app.layout.Shared) : Prop :=
  next.Follows (panelsSinceLaunch (history ++ [(input, reaction)])) ∧
    ∃ happened,
      app.system.Steps anyEvent [] device.state happened next.state ∧
      Explains (input, reaction) happened

variable {history : List (Input × Reaction app.layout.Shared)}

/-- Nothing happens. -/
theorem Follows.silent
    (follows : device.Follows (panelsSinceLaunch history))
    (noExchange : exchange
      (input, (Reaction.none : Reaction app.layout.Shared)) = []) :
    device.Simulated history input device Reaction.none := by
  refine ⟨?_, [], .none, .silent noExchange rfl⟩
  rw [panelsSinceLaunch_append]
  simpa [Reaction.none, Output.none] using follows

/-- The contents of a review start with a panel that writes nothing. -/
theorem contents_first
    (contents : Contents app req review panels) :
    ∃ first rest, panels = first :: rest ∧ first.init = none := by
  cases contents with
  | publicKey pk => exact ⟨_, _, rfl, rfl⟩
  | transaction tx screens => exact ⟨_, _, rfl, rfl⟩
  | message msg offers => exact ⟨_, _, rfl, rfl⟩

/-- A review that is launched is displayed. -/
theorem launch_succeeds
    (device : Handheld engine app)
    (inMemory : review.InMemory app device.state.ctx.req)
    (output : Output app.layout.Shared) :
    ∃ shown, device.display (uxFlowInit engine
      (Bagl.flow app device.state.ctx.req review) 0) output = .ok shown := by
  obtain ⟨row, panels, flowEq, rowEq, contents⟩ := flow_row inMemory
  obtain ⟨first, rest, panelsEq, noInit⟩ := contents_first contents
  rw [panelsEq] at rowEq
  obtain ⟨reached, started, isAt⟩ :=
    uxFlowInit_first (ε := Empty) engine rowEq
  rw [flowEq, started]
  unfold display
  rw [Run.bind_ok]
  simp only [noInit]
  exact ⟨_, rfl⟩

/-- A review that is launched starts with the first panel of its flow. -/
theorem launch_showing
    (device : Handheld engine app)
    (isBagl : app.ui = .bagl)
    (onScreen : device.state.review = some review)
    (inMemory : review.InMemory app device.state.ctx.req)
    (displayed : device.display (uxFlowInit engine
      (Bagl.flow app device.state.ctx.req review) 0) output =
        .ok (next, reaction)) :
    ∃ place, next.Showing review place ∧
      place.SeenIn reaction.panel.toList ∧ reaction.output = output ∧
      next.state = device.state := by
  obtain ⟨row, panels, flowEq, rowEq, contents⟩ := flow_row inMemory
  obtain ⟨first, rest, panelsEq, noInit⟩ := contents_first contents
  rw [panelsEq] at rowEq
  obtain ⟨reached, started, isAt⟩ :=
    uxFlowInit_first (ε := Empty) engine rowEq
  rw [flowEq, started] at displayed
  obtain ⟨showing, reactionEq, stateCases⟩ :=
    display_showing isBagl onScreen inMemory flowEq isAt displayed
  refine ⟨_, showing, ?_, by rw [reactionEq], ?_⟩
  · rw [reactionEq]
    intro panel member
    exact member
  · rcases stateCases with same | ⟨step, init, _⟩
    · exact same
    · rw [noInit] at init
      cases init

/-- A command is reacted to as by the app, with a review on the screen if one
is launched. -/
theorem Follows.receive
    (follows : device.Follows (panelsSinceLaunch history))
    (isBagl : app.ui = .bagl)
    (waits : device.state.review.isSome → command.IsKeepAlive)
    (stepped : device.step (.command command) = some (next, reaction)) :
    device.Simulated history (.command command) next reaction := by
  unfold step at stepped
  simp only [Option.bind_eq_bind, Option.bind_eq_some_iff] at stepped
  obtain ⟨⟨state, output⟩, received, stepped⟩ := stepped
  have reacts := State.step_command received
  change app.system.step device.state (.command command) = _ at received
  simp only at stepped
  split at stepped
  · rename_i silent
    cases stepped
    refine ⟨?_, _, .single trivial received, .command⟩
    rw [panelsSinceLaunch_append]
    simp only [silent, Option.isSome_none, Bool.false_eq_true, if_false,
      Option.toList_none, List.append_nil]
    cases reviewEq : device.state.review with
    | none =>
        refine Follows.of_menu ?_ (follows.menu reviewEq)
        cases reacts with
        | handled idle handles =>
            change (Option.or _ _) = _
            rw [silent, reviewEq]
            rfl
        | refused idle refuses => exact reviewEq
    | some review =>
        have keepAlive := waits (by rw [reviewEq]; rfl)
        cases reacts with
        | handled idle handles =>
            cases handles.keepAlive_inversion keepAlive
            exact follows.congr rfl rfl
        | refused idle refuses =>
            rw [keepAlive.handleCommand] at refuses
            cases refuses
  · rename_i review launched
    obtain ⟨onScreen, inMemory⟩ := reacts.launched_inMemory launched
    obtain ⟨place, showing, isSeen, outputEq, stateEq⟩ :=
      launch_showing { device with state } isBagl onScreen inMemory
        (Run.toOption_eq_some.mp stepped)
    refine ⟨?_, [(.command command, output)], ?_, ?_⟩
    · rw [panelsSinceLaunch_append, outputEq, launched]
      exact showing.follows isSeen
    · rw [stateEq]
      exact .single trivial received
    · obtain ⟨reactionOutput, panel⟩ := reaction
      cases outputEq
      exact .command

/-- A step that a flow reached is displayed. -/
theorem reaches_simulated
    {before : Place Panel}
    (isBagl : app.ui = .bagl)
    (showing : device.Showing review before)
    (flowEq : (Bagl.flow app device.state.ctx.req review :
      List (Run Empty _)) = known row)
    (reaches : Reaches engine row before place reached)
    (stays : before.SeenIn (panelsSinceLaunch history))
    (isSeen : place.SeenIn (panelsSinceLaunch history ++ [place.current]))
    (displayed : device.display reached Output.none = .ok (next, reaction)) :
    device.Simulated history (.buttonPush button) next reaction := by
  rcases reaches with ⟨rfl, rfl⟩ | ⟨cursor, rfl, isAt⟩
  · cases displayed
    exact (showing.follows stays).silent rfl
  · obtain ⟨shown, rfl, stateCases⟩ := display_showing isBagl
      showing.onScreen showing.inMemory flowEq isAt displayed
    refine ⟨?_, ?_⟩
    · rw [panelsSinceLaunch_append]
      exact shown.follows isSeen
    · rcases stateCases with same | ⟨step, _, stepped⟩
      · rw [same]
        exact ⟨_, .none, .silent rfl rfl⟩
      · exact ⟨_, .single trivial stepped, .messageStep step⟩

/-- The right and the left button go through what the flow displays. -/
theorem Follows.navigate
    (follows : device.Follows (panelsSinceLaunch history))
    (isBagl : app.ui = .bagl)
    (button : Button)
    (single : button ≠ .both)
    (pressed : device.press button = some (next, reaction)) :
    device.Simulated history (.buttonPush button) next reaction := by
  cases reviewEq : device.state.review with
  | none =>
      have noFlow : device.flow = none := by
        unfold flow
        rw [reviewEq]
        rfl
      unfold press at pressed
      cases button with
      | both => exact absurd rfl single
      | left =>
          simp only [noFlow] at pressed
          cases pressed
          exact follows.silent rfl
      | right =>
          simp only [noFlow] at pressed
          cases pressed
          exact follows.silent rfl
  | some review =>
      obtain ⟨place, showing, isSeen⟩ := follows.review review reviewEq
      obtain ⟨row, flowEq, isAt⟩ := showing.isAt
      have isFlow : device.flow = some (known row) := by
        unfold flow
        rw [reviewEq, ← flowEq]
        rfl
      unfold press at pressed
      cases button with
      | both => exact absurd rfl single
      | left =>
          simp only [isFlow] at pressed
          refine reaches_simulated isBagl showing flowEq isAt.uxFlowPrev
            isSeen ?_ (Run.toOption_eq_some.mp pressed)
          intro panel member
          exact List.mem_append_left _ (isSeen.left panel member)
      | right =>
          simp only [isFlow] at pressed
          exact reaches_simulated isBagl showing flowEq isAt.uxFlowNext
            isSeen isSeen.right (Run.toOption_eq_some.mp pressed)

/-- A way of displaying the message that is on a panel is offered. -/
theorem Showing.offers
    (showing : device.Showing review place)
    (current : place.current = .display displayType) :
    ∃ msg, review = .message msg ∧
      offersMessageStep app.layout
        (app.layout.msg.read device.state.ctx.req)
          (.display displayType) = true ∧
      .intro ∈ place.before ∧ .messageLength ∈ place.before := by
  obtain ⟨row, flowEq, isAt⟩ := showing.isAt
  obtain ⟨panels, contents, listEq⟩ :=
    panels_of_at showing.inMemory flowEq isAt
  obtain ⟨msg, rfl⟩ := isMessage_of_panel contents
    (listEq ▸ place.current_mem) (Or.inr ⟨_, current⟩)
  refine ⟨msg, rfl, ?_, ?_⟩
  · change (messageFlow _ _ : List (Run Empty _)) = _ at flowEq
    rw [messageFlow_eq] at flowEq
    apply offers_of_mem
    rw [known_injective flowEq, ← isAt.list_eq, ← current]
    exact place.current_mem
  · cases contents with
    | message _ offers =>
        rw [List.append_assoc] at listEq
        have absent : place.current ∉ [Panel.intro, .messageLength,
            .message (app.layout.displayType
              (app.layout.msg.read device.state.ctx.req))] := by
          rw [current]
          simp
        exact ⟨place.mem_before listEq absent (by simp),
          place.mem_before listEq absent (by simp)⟩

/-- Another way of displaying a message leads back to its step. -/
theorem Follows.switchDisplay
    (follows : device.Follows (panelsSinceLaunch history))
    (isBagl : app.ui = .bagl)
    (current : device.panel = some (.display displayType))
    (switched : device.switchDisplay displayType = .ok (next, reaction)) :
    device.Simulated history (.buttonPush .both) next reaction := by
  cases reviewEq : device.state.review with
  | none =>
      rw [follows.menu reviewEq] at current
      cases current
  | some review =>
      obtain ⟨place, showing, isSeen⟩ := follows.review review reviewEq
      obtain ⟨msg, rfl, offered, intro, messageLength⟩ := showing.offers
        (Option.some.inj (showing.panel.symm.trans current))
      obtain ⟨⟨state, silent⟩, written, switched⟩ :=
        Run.bind_eq_ok.mp switched
      obtain ⟨stepped, onScreen, inMemory, same, sameType⟩ :=
        display_message isBagl reviewEq showing.inMemory offered written
      change app.layout.displayType _ = displayType at sameType
      obtain ⟨reached, after, started, isAt⟩ := uxFlowInit_message
        (ε := Empty) engine app.layout (app.layout.setDisplayType displayType
          (app.layout.msg.read device.state.ctx.req))
      have setType : app.layout.displayType
          (app.layout.setDisplayType displayType
            (app.layout.msg.read device.state.ctx.req)) = displayType := by
        unfold Layout.displayType Layout.setDisplayType
        rw [app.layout.confirm.read_modify]
      obtain ⟨_, startedEq, switched⟩ := Run.bind_eq_ok.mp switched
      rw [started] at startedEq
      cases startedEq
      cases switched
      rw [setType] at isAt ⊢
      have sameSet : SameRequest
          (app.layout.setDisplayType displayType
            (app.layout.msg.read device.state.ctx.req))
          (app.layout.msg.read state.ctx.req) := same
      have rows := messageRow_congr sameSet (sameType.trans setType.symm)
      have shown : Showing ⟨state, reached, some (.message displayType)⟩
          (.message msg)
          ⟨[.intro, .messageLength], .message displayType, after⟩ :=
        ⟨onScreen, inMemory, ⟨_, messageFlow_eq _ _, rows ▸ isAt⟩, rfl⟩
      refine ⟨?_, _, .single trivial stepped, .messageStep _⟩
      rw [panelsSinceLaunch_append]
      apply shown.follows
      intro panel member
      simp only [List.cons_append, List.nil_append, List.mem_cons,
        List.not_mem_nil, or_false] at member
      rw [List.mem_append]
      rcases member with rfl | rfl | rfl
      · exact Or.inl (isSeen _ (List.mem_append_left _ intro))
      · exact Or.inl (isSeen _ (List.mem_append_left _ messageLength))
      · exact Or.inr (List.mem_singleton.mpr rfl)

/-- A decision on the review leads back to the main menu. -/
theorem Follows.validate
    {panel : Panel}
    (follows : device.Follows (panelsSinceLaunch history))
    (isBagl : app.ui = .bagl)
    (current : device.panel = some panel)
    (calls : panel.callback = some callback)
    (validated : device.validate callback = some (next, reaction)) :
    device.Simulated history (.buttonPush .both) next reaction := by
  cases callback with
  | approve =>
      unfold Handheld.validate at validated
      simp only [Option.bind_eq_bind, Option.bind_eq_some_iff] at validated
      obtain ⟨⟨state, output⟩, stepped, validated⟩ := validated
      cases validated
      have reacts := State.step_approve stepped
      change app.system.step device.state .approve = _ at stepped
      refine ⟨?_, _, .single trivial stepped, .approve⟩
      cases reacts
      exact .of_menu rfl rfl
  | reject =>
      unfold Handheld.validate at validated
      simp only [Option.bind_eq_bind, Option.bind_eq_some_iff] at validated
      obtain ⟨⟨state, output⟩, stepped, validated⟩ := validated
      cases validated
      have reacts := State.step_reject stepped
      change app.system.step device.state .reject = _ at stepped
      refine ⟨?_, _, .single trivial stepped, .reject⟩
      cases reacts
      exact .of_menu rfl rfl
  | display displayType =>
      have isDisplay : panel = .display displayType := by
        cases panel with
        | screen screen => cases screen <;> cases calls
        | display other => cases calls; rfl
        | intro => cases calls
        | messageLength => cases calls
        | message other => cases calls
      exact follows.switchDisplay isBagl (current.trans (by rw [isDisplay]))
        (Run.toOption_eq_some.mp validated)

/-- Every input is reacted to as by the app, and the review on the screen is
followed. -/
theorem Follows.step
    (follows : device.Follows (panelsSinceLaunch history))
    (isBagl : app.ui = .bagl)
    (waits : ∀ command, input = .command command →
      device.state.review.isSome → command.IsKeepAlive)
    (stepped : device.step input = some (next, reaction)) :
    device.Simulated history input next reaction := by
  cases input with
  | command command => exact follows.receive isBagl (waits command rfl) stepped
  | buttonPush button =>
      change device.press button = _ at stepped
      by_cases both : button = .both
      · subst both
        unfold press at stepped
        simp only at stepped
        split at stepped
        · cases stepped
          exact follows.silent rfl
        · rename_i calls
          obtain ⟨panel, current, calls⟩ := Option.bind_eq_some_iff.mp calls
          exact follows.validate isBagl current calls stepped
      · exact follows.navigate isBagl button both stepped
  | status isUsbHid usbPowered =>
      unfold Handheld.step at stepped
      simp only at stepped
      split at stepped
      · rename_i unpowered
        obtain ⟨rfl, notPowered⟩ := unpowered
        rw [Bool.not_eq_true] at notPowered
        subst notPowered
        cases stepped
        have restarted : app.system.step device.state .restart =
            some (State.start app, Output.none) := rfl
        exact ⟨.of_menu rfl rfl, _, .single trivial restarted, .restart⟩
      · rename_i powered
        cases stepped
        apply follows.silent
        cases isUsbHid with
        | false => rfl
        | true =>
            cases usbPowered with
            | false => exact absurd ⟨rfl, nofun⟩ powered
            | true => rfl
  | displayProcessed =>
      cases stepped
      exact follows.silent rfl
  | ticker isU2f =>
      unfold Handheld.step at stepped
      simp only [Option.bind_eq_bind, Option.bind_eq_some_iff] at stepped
      obtain ⟨⟨state, output⟩, ticked, stepped⟩ := stepped
      cases stepped
      have reacts := State.step_ticker ticked
      change app.system.step device.state (.ticker isU2f) = _ at ticked
      refine ⟨?_, _, .single trivial ticked, .ticker⟩
      rw [panelsSinceLaunch_append]
      cases reacts with
      | heartbeat due =>
          change Follows _ (panelsSinceLaunch history ++ [])
          rw [List.append_nil]
          exact follows.congr rfl rfl
      | tick timer early =>
          change Follows _ (panelsSinceLaunch history ++ [])
          rw [List.append_nil]
          exact follows.congr rfl rfl
  | other =>
      cases stepped
      exact follows.silent rfl

end Showing
end Handheld

/-! ## Whole runs -/

section Runs

variable {engine : FlowEngine} {app : App}
  {history : List (Input × Reaction app.layout.Shared)}
  {device next : Handheld engine app}
  {reaction : Reaction app.layout.Shared}
  {allowed : List (Event × Output app.layout.Shared) → State app → Event →
    Prop}

/-- The device refines the app, and the review on its screen is followed. -/
theorem handheld_refines
    (engine : FlowEngine)
    (isBagl : app.ui = .bagl)
    (client : WaitingClient allowed) :
    Refines (handheld engine app) (Client allowed) app.system allowed
      (fun history device others state => device.state = state ∧
        device.Follows (panelsSinceLaunch history) ∧
        exchanged others = history.flatMap exchange) Explains where
  start := ⟨rfl, .of_menu rfl rfl, rfl⟩
  step := by
    rintro history device others _ input next reaction
      ⟨rfl, follows, sameExchange⟩ permitted stepped
    obtain ⟨followsNext, happened, steps, explains⟩ :=
      follows.step isBagl
        (fun command isCommand => client.waits (permitted command isCommand))
        stepped
    refine ⟨happened, _, explains.permitted client steps ?_, explains, rfl,
      followsNext, ?_⟩
    · intro command isCommand
      refine client.exchanged ?_ (permitted command isCommand)
      rw [← sameExchange]
      unfold exchanged
      rw [List.filter_filter]
      simp only [Bool.and_self]
    · rw [List.flatMap_append, List.flatMap_singleton, ← explains.exchanged,
        ← sameExchange]
      exact List.filter_append ..

/-- What a user does with the buttons of the device, and a client that waits
for the decisions, are events of the app, with the same replies.  The client
keeps to the condition that it is under. -/
theorem handheld_explained
    (isBagl : app.ui = .bagl)
    (client : WaitingClient allowed)
    (run : (handheld engine app).Run (Client allowed) history device) :
    ∃ blocks,
      app.system.Run allowed blocks.flatten device.state ∧
      List.Forall₂ Explains history blocks := by
  obtain ⟨blocks, _, appRun, explained, rfl, _⟩ :=
    (handheld_refines engine isBagl client).run run
  exact ⟨blocks, appRun, explained⟩

end Runs

/-- A command that launches a review leads to its first panel. -/
theorem Handheld.launches
    {engine : FlowEngine}
    {app : App}
    {state : State app}
    {review : OpenReview app.layout.Shared}
    (device : Handheld engine app)
    (isBagl : app.ui = .bagl)
    (received : app.system.step device.state (.command command) =
      some (state, ⟨none, some review⟩)) :
    ∃ next panel,
      (handheld engine app).step device (.command command) =
        some (next, ⟨⟨none, some review⟩, panel⟩) ∧
      next.state = state ∧ state.review = some review := by
  change device.state.step (.command command) = _ at received
  obtain ⟨onScreen, inMemory⟩ :=
    (State.step_command received).launched_inMemory rfl
  obtain ⟨⟨next, reaction⟩, displayed⟩ := launch_succeeds
    { device with state } inMemory ⟨none, some review⟩
  obtain ⟨place, showing, _, outputEq, stateEq⟩ :=
    launch_showing { device with state } isBagl onScreen inMemory displayed
  obtain ⟨output, panel⟩ := reaction
  cases outputEq
  refine ⟨next, panel, ?_, stateEq, onScreen⟩
  change Handheld.step device (.command command) = _
  unfold Handheld.step
  simp only [received, Option.bind_eq_bind, Option.bind_some, displayed]
  rfl

/-- The device after the command for the review of a vesting contract. -/
theorem vestingReview_launched :
    ∃ (device : Handheld FlowEngine.plain disturbedApp)
      (tx : TransactionContext) (panel : Option Panel),
      (handheld FlowEngine.plain disturbedApp).step (Handheld.start _ _)
          (.command reviewedCommand) =
        some (device, ⟨⟨none, some (.transaction tx)⟩, panel⟩) ∧
      device.state.review = some (.transaction tx) := by
  obtain ⟨state, tx, received, onScreen, _⟩ :=
    State.receive_accepted acceptedVestingCreation (State.start disturbedApp)
      rfl trivial (Command.carrying_carries reviewedTransaction_short)
      (by decide)
  obtain ⟨device, panel, stepped, rfl, _⟩ := Handheld.launches
    (Handheld.start FlowEngine.plain disturbedApp) rfl
    (State.step_of_receive rfl received)
  exact ⟨device, tx, panel, stepped, onScreen⟩

/-- The review of the vesting contract is launched in the app. -/
theorem handheld_explained_vesting :
    ∃ (history : List (Input × Reaction disturbedApp.layout.Shared))
      (device : Handheld FlowEngine.plain disturbedApp)
      (blocks : List (List (Event × Output disturbedApp.layout.Shared))),
      device.state.review.isSome ∧
      disturbedApp.system.Run Waits blocks.flatten device.state ∧
      List.Forall₂ Explains history blocks := by
  obtain ⟨device, tx, panel, stepped, onScreen⟩ := vestingReview_launched
  obtain ⟨blocks, appRun, explained⟩ := handheld_explained rfl
    waitingClient_waits (.step .start (fun _ _ => nofun) stepped)
  exact ⟨_, device, blocks, by rw [onScreen]; rfl, appRun, explained⟩

end Bagl
end NimiqApp
