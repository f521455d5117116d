import NimiqApp.Decisions
import NimiqApp.ProtocolRuns

/-!
# The protocol in the hand

The device of the BAGL build, with its buttons and its panels, keeps to the
protocol: what goes over the wire is a conversation of the protocol in which
the user decides what was decided with the buttons.  Whatever happened before,
a transaction that is sent next can be signed.
-/

namespace NimiqApp

open Foundation (FlowEngine Mirrored)
open Foundation.System (anyEvent Steps)

/-- What goes over the wire: a command to the app, or the bytes of a reply. -/
inductive Wire
  | command (command : Command)
  | reply (bytes : List UInt8)

/-- What goes over the wire with a reply, if there is one. -/
def Reply.wire (reply : Option Reply) : List Wire :=
  (reply.map fun reply => Wire.reply reply.bytes).toList

/-- What goes over the wire in an event. -/
def Event.wire (event : Event) (reply : Option Reply) : List Wire :=
  match event with
  | .command sent => .command sent :: Reply.wire reply
  | _ => Reply.wire reply

/-- What goes over the wire in a history of the app. -/
def appWire (history : List (Event × Output Shared)) : List Wire :=
  history.flatMap fun step => step.1.wire step.2.reply

/-- What goes over the wire in a history of the protocol. -/
def protocolWire (history : List (Event × Effect)) : List Wire :=
  history.flatMap fun step => step.1.wire step.2.reply

/-- The app and the protocol have the same conversation. -/
theorem wire_of_mirrored
    {app : App}
    {sha256 : List UInt8 → Bytes 32}
    {history : List (Event × Output app.layout.Shared)}
    {seen : List (Event × Effect)}
    (mirrored : Mirrored Event.IsSeen (· = Output.none)
      (Effect.Matches app sha256) history seen) :
    protocolWire seen = appWire history := by
  unfold protocolWire appWire
  induction mirrored with
  | nil => rfl
  | @hidden history seen event output before isHidden isSilent
      inductionHypothesis =>
      obtain ⟨step, rfl⟩ : ∃ step, event = .messageStep step := by
        by_contra noStep
        exact isHidden fun step isStep => noStep ⟨step, isStep⟩
      cases isSilent
      rw [List.flatMap_append, inductionHypothesis]
      exact (List.append_nil _).symm
  | seen before isVisible isMatch inductionHypothesis =>
      rw [List.flatMap_append, List.flatMap_append, inductionHypothesis,
        List.flatMap_singleton, List.flatMap_singleton, isMatch.reply]

namespace Bagl

/-- What goes over the wire in an input. -/
def Input.wire (input : Input) (reply : Option Reply) : List Wire :=
  match input with
  | .command sent => .command sent :: Reply.wire reply
  | _ => Reply.wire reply

/-- What goes over the wire in a history of the device. -/
def deviceWire (history : List (Input × Reaction Shared)) : List Wire :=
  history.flatMap fun step => step.1.wire step.2.output.reply

/-- An explanation is the same on the wire. -/
theorem Explains.wire
    {step : Input × Reaction Shared}
    {happened : List (Event × Output Shared)}
    (explains : Explains step happened) :
    appWire happened = step.1.wire step.2.output.reply := by
  cases explains with
  | command => exact List.append_nil _
  | ticker => exact List.append_nil _
  | restart => rfl
  | approve => exact List.append_nil _
  | reject => exact List.append_nil _
  | messageStep step => rfl
  | @silent input reaction noExchange quiet =>
      rw [quiet]
      cases input with
      | command command => cases noExchange
      | buttonPush button => rfl
      | status isUsbHid usbPowered => rfl
      | displayProcessed => rfl
      | ticker isU2f => rfl
      | other => rfl

/-- The device and the app have the same conversation. -/
theorem wire_of_explained
    {history : List (Input × Reaction Shared)}
    {blocks : List (List (Event × Output Shared))}
    (explained : List.Forall₂ Explains history blocks) :
    appWire blocks.flatten = deviceWire history := by
  induction explained with
  | nil => rfl
  | cons explains _ inductionHypothesis =>
      unfold appWire deviceWire at *
      rw [List.flatten_cons, List.flatMap_append, List.flatMap_cons,
        inductionHypothesis]
      exact congrArg (· ++ _) explains.wire

/-- Disciplined clients wait for decisions. -/
theorem waitingClient_disciplined {app : App} :
    WaitingClient (@Disciplined app) where
  waits disciplined := disciplined.patient _ rfl
  exchanged := by
    intro history others state command same disciplined
    refine ⟨waitingClient_orderly.exchanged same disciplined.toOrderly,
      disciplined.selfContained, ?_⟩
    intro other p2 part sent isCommand carries isOpen
    apply disciplined.countable other p2 part sent isCommand carries
    rw [← openSequence_exchanged, same, openSequence_exchanged]
    exact isOpen
  free noCommand :=
    ⟨waitingClient_orderly.free noCommand,
      fun command isCommand => absurd isCommand (noCommand command),
      fun command _ _ _ isCommand => absurd isCommand (noCommand command)⟩

section Conversations

variable {engine : FlowEngine} {app : App} {sha256 : List UInt8 → Bytes 32}
  {absorbed : app.HashContext → List UInt8 → Prop}
  {history : List (Input × Reaction app.layout.Shared)}
  {device : Handheld engine app}

/-- With a disciplined client, what goes over the wire is a conversation of
the protocol.  When the user approves, the reply is the one for the subject of
the protocol, and everything that its review is to show was displayed since it
was launched. -/
theorem handheld_protocol
    (isBagl : app.ui = .bagl)
    (streams : app.StreamsSha256 sha256 absorbed)
    (run : (handheld engine app).Run (Client Disciplined) history device) :
    ∃ seen session,
      (app.protocol sha256).Run anyEvent seen session ∧
      protocolWire seen = deviceWire history ∧
      Option.Rel (Subject.ShownBy app sha256) session.subject
        device.state.review ∧
      ∀ next reaction, device.panel = some (.screen .approve) →
        (handheld engine app).step device (.buttonPush .both) =
          some (next, reaction) →
        ∃ subject review panels,
          session.subject = some subject ∧
          subject.ShownBy app sha256 review ∧
          Contents app device.state.ctx.req review panels ∧
          (∀ panel ∈ panels, panel ∈ panelsSinceLaunch history) ∧
          reaction.output.reply = some (subject.reply app sha256) := by
  obtain ⟨blocks, _, appRun, explained, rfl, follows, _⟩ :=
    (handheld_refines engine isBagl waitingClient_disciplined).run run
  obtain ⟨seen, session, abstractRun, mirrored, reflects⟩ :=
    (protocol_mirrors streams).run appRun
  refine ⟨seen, session, abstractRun,
    (wire_of_mirrored mirrored).trans (wire_of_explained explained),
    reflects.subject, ?_⟩
  intro next reaction approve pressed
  obtain ⟨review, panels, reply, onScreen, contents, displayed, approvedWith,
    replied⟩ := follows.approved approve pressed
  have shown := reflects.subject
  rw [onScreen] at shown
  generalize subjectEq : session.subject = subject at shown
  cases shown with
  | some shows =>
      exact ⟨_, review, panels, rfl, shows, contents, displayed,
        replied.trans (congrArg some (shows.reply_eq approvedWith))⟩

end Conversations

/-- A disciplined client that sends a single chunk of a transaction. -/
theorem client_singleChunk_disciplined
    {engine : FlowEngine}
    {app : App}
    {history : List (Input × Reaction app.layout.Shared)}
    {device : Handheld engine app}
    {command : Command}
    (carries : command.Carries insSignTx p1First p2Last part)
    (noReview : device.state.review = none) :
    Client Disciplined history device (.command command) := by
  rintro _ ⟨rfl⟩
  refine ⟨client_singleChunk carries noReview command rfl, ?_, ?_⟩
  · rintro _ ⟨rfl⟩
    exact carries.bounded (by decide)
  · rintro _ p2 more sent ⟨rfl⟩ other
    exact absurd (carries.unique other).1 (by decide)

/-- The vesting contract is signed in a conversation of the protocol. -/
theorem handheld_protocol_vesting :
    ∃ (history : List (Input × Reaction disturbedApp.layout.Shared))
      (device : Handheld FlowEngine.plain disturbedApp)
      (seen : List (Event × Effect)) (session : Session)
      (subject : Subject),
      (disturbedApp.protocol fun _ => Bytes.zero).Run anyEvent seen session ∧
      protocolWire seen = deviceWire history ∧
      session.subject = some subject ∧
      ∃ next reaction,
        (handheld FlowEngine.plain disturbedApp).step device
            (.buttonPush .both) = some (next, reaction) ∧
        reaction.output.reply =
          some (subject.reply disturbedApp fun _ => Bytes.zero) := by
  obtain ⟨start, tx, panel, stepped, onScreen⟩ := vestingReview_launched
  have carries : reviewedCommand.Carries insSignTx p1First p2Last _ :=
    Command.carrying_carries reviewedTransaction_short
  have run := Foundation.System.Run.step .start
    (client_singleChunk_disciplined carries rfl) stepped
  obtain ⟨follows, _⟩ := handheld_inOrder rfl
    (.step .start (client_singleChunk carries rfl) stepped)
  obtain ⟨place, showing, _⟩ := follows.review _ onScreen
  obtain ⟨device, last, ⟨presses, steps, _⟩, shown, current⟩ :=
    showing.browses _ rfl nofun showing.approve_mem
  obtain ⟨next, reply, _, pressed, _⟩ := shown.approves current
  obtain ⟨seen, session, abstractRun, sameWire, _, decides⟩ :=
    handheld_protocol rfl (sampleSdk_streams sampleSign fun _ => Bytes.zero)
      (steps.run run)
  obtain ⟨subject, _, _, isSubject, _, _, _, replied⟩ := decides next _
    (shown.panel.trans (by rw [current])) pressed
  exact ⟨_, device, seen, session, subject, abstractRun, sameWire, isSubject,
    next, _, pressed, replied⟩

section Serving

variable {engine : FlowEngine} {app : App}
  {history : List (Input × Reaction app.layout.Shared)}
  {device next : Handheld engine app}
  {allowed : List (Event × Output app.layout.Shared) → State app → Event →
    Prop}

/-- The device is ready for a command: no review is on the screen, and no
command waits for a reply. -/
structure Handheld.IsIdle (device : Handheld engine app) : Prop where
  noReview : device.state.review = none
  answered : device.state.unanswered = false

/-- A tick of the app is one of the device, and the review stays on the
screen. -/
theorem Handheld.step_ticker
    {isU2f : Bool}
    {state : State app}
    {output : Output app.layout.Shared}
    (device : Handheld engine app)
    (ticked : app.system.step device.state (.ticker isU2f) =
      some (state, output)) :
    (handheld engine app).step device (.ticker isU2f) =
        some ({ device with state }, ⟨output, none⟩) ∧
      state.review = device.state.review := by
  change device.state.step (.ticker isU2f) = _ at ticked
  refine ⟨?_, ?_⟩
  · change Handheld.step device (.ticker isU2f) = _
    unfold Handheld.step
    simp only [ticked, Option.bind_eq_bind, Option.bind_some]
    rfl
  · cases State.step_ticker ticked with
    | heartbeat due => rfl
    | tick timer early => rfl

/-- Clients are not asked about ticks. -/
theorem client_ticker
    {isU2f : Bool} :
    Client allowed history device (.ticker isU2f) := by
  intro command isCommand
  cases isCommand

/-- Ticks of the app without a reply are ticks of the device. -/
theorem Handheld.silentTicks
    {others : List (Event × Output app.layout.Shared)}
    {last : State app}
    (count : Nat)
    (history : List (Input × Reaction app.layout.Shared))
    (device : Handheld engine app)
    (steps : app.system.Steps anyEvent others device.state
      (NimiqApp.silentTicks _ count) last) :
    ∃ happened,
      (handheld engine app).Steps (Client allowed) history device happened
        { device with state := last } ∧
      happened.flatMap exchange = [] ∧
      last.review = device.state.review := by
  induction count generalizing others history device with
  | zero =>
      cases steps
      exact ⟨[], .none, rfl, rfl⟩
  | succ count inductionHypothesis =>
      cases steps with
      | @one _ _ _ middle _ _ _ _ ticked rest =>
          obtain ⟨stepped, same⟩ := Handheld.step_ticker device ticked
          obtain ⟨happened, later, nothing, sameLast⟩ := inductionHypothesis
            _ { device with state := middle } rest
          exact ⟨_, .one client_ticker stepped later, nothing,
            sameLast.trans same⟩

/-- Presses are no exchange with the client. -/
theorem Browses.steps
    {reached : Handheld engine app}
    (browses : Browses allowed history device reached) :
    ∃ happened,
      (handheld engine app).Steps (Client allowed) history device happened
        reached ∧
      happened.flatMap exchange = [] := by
  obtain ⟨happened, steps, presses⟩ := browses
  refine ⟨happened, steps, List.flatMap_eq_nil_iff.mpr ?_⟩
  rintro ⟨input, reaction⟩ member
  obtain ⟨⟨button, _, rfl⟩, _⟩ := presses _ member
  rfl

/-- The device gets ready for a command without one: the user decides on the
review, or a heartbeat answers the command that waits. -/
theorem handheld_idles
    (isBagl : app.ui = .bagl)
    (run : (handheld engine app).Run (Client Orderly) history device) :
    ∃ happened reached,
      (handheld engine app).Steps (Client Orderly) history device happened
        reached ∧
      happened.flatMap exchange = [] ∧ reached.IsIdle := by
  obtain ⟨blocks, _, appRun, _, rfl, follows, _⟩ :=
    (handheld_refines engine isBagl waitingClient_orderly).run run
  cases reviewEq : device.state.review with
  | some review =>
      obtain ⟨place, showing, _⟩ := follows.review review reviewEq
      obtain ⟨reached, next, browses, pressed, isOver, answered⟩ :=
        showing.reaches_reject history isBagl
          (InOrder.displays (InOrder.of_run appRun) reviewEq)
      obtain ⟨happened, steps, nothing⟩ := browses.steps
      refine ⟨_, next, steps.append (.single client_buttonPush pressed), ?_,
        isOver, answered⟩
      rw [List.flatMap_append, nothing]
      rfl
  | none =>
      cases waits : device.state.unanswered with
      | false => exact ⟨[], device, .none, rfl, reviewEq, waits⟩
      | true =>
          have timed := Timed.of_run appRun
          obtain ⟨ticks, since, few⟩ := timed.waits waits
          obtain ⟨before, silent, due⟩ :=
            timed.silentTicks (279 - ticks) since (by omega)
          obtain ⟨happened, steps, nothing, same⟩ :=
            Handheld.silentTicks (279 - ticks) history device silent
          obtain ⟨beats, sameLast⟩ := Handheld.step_ticker
            { device with state := before } (State.step_heartbeat due)
          refine ⟨_, _, steps.append (.single client_ticker beats), ?_,
            sameLast.trans (same.trans reviewEq), rfl⟩
          rw [List.flatMap_append, nothing]
          rfl

/-- Whatever happened before with an orderly client, every transaction that is
accepted and sent next, with nothing else, can be signed: the user and the
timer get the device ready for it, it is reviewed, and buttons lead to the
reply with its signatures. -/
theorem handheld_signs
    {command : Command}
    {version : TransactionVersion}
    (isBagl : app.ui = .bagl)
    (run : (handheld engine app).Run (Client Orderly) history device)
    (accepted : AcceptedTransaction version)
    (hashable : accepted.content.Hashable app.toDevice)
    (carries : command.Carries insSignTx p1First p2Last
      (bip32PathBytes path ++ version.code :: accepted.tx.encode))
    (validPath : ValidPath path) :
    ∃ happened tx reached next,
      (handheld engine app).Steps (Client Orderly) history device happened
        reached ∧
      happened.flatMap exchange =
        [(.command command, ⟨none, some (.transaction tx)⟩)] ∧
      (handheld engine app).step reached (.buttonPush .both) =
        some (next, ⟨⟨some (Reply.signed (app.transactionSignatures path
          accepted.tx.encode (leftProof (accepted.shown app.toDevice)
            accepted.tx.encode))), none⟩, none⟩) := by
  obtain ⟨early, idle, steps, nothing, isIdle⟩ := handheld_idles isBagl run
  obtain ⟨state, tx, received, onScreen, _, collected, parsed⟩ :=
    State.receive_accepted accepted idle.state isBagl hashable carries
      validPath
  obtain ⟨launched, panel, stepped, rfl, _⟩ := Handheld.launches idle isBagl
    (State.step_of_receive isIdle.answered received)
  have permitted : Client Orderly (history ++ early) idle (.command command) :=
    client_singleChunk carries isIdle.noReview
  obtain ⟨follows, _, inOrder, _⟩ := handheld_inOrder isBagl
    ((steps.run run).step permitted stepped)
  obtain ⟨place, showing, _⟩ := follows.review _ onScreen
  obtain ⟨reached, next, reply, browses, pressed, approvedWith, _⟩ :=
    showing.reaches_approve (history ++ early ++ [_]) isBagl
      (InOrder.displays inOrder onScreen)
  obtain ⟨late, presses, quiet⟩ := browses.steps
  have replyEq : reply = Reply.signed (app.transactionSignatures path
      accepted.tx.encode (leftProof (accepted.shown app.toDevice)
        accepted.tx.encode)) := by
    cases approvedWith with
    | transaction reviewed left =>
        have signed : (.ok _ : Run Empty _) = .ok _ :=
          reviewed.signedBytes.symm.trans collected.signedBytes
        cases signed
        rw [collected.bip32Path, left.unique (leftProof_left _ _), parsed]
  rw [replyEq] at pressed
  refine ⟨early ++ _ :: late, tx, reached, next,
    steps.append (.one permitted stepped presses), ?_, pressed⟩
  rw [List.flatMap_append, List.flatMap_cons, nothing, quiet]
  rfl

end Serving

/-- While the vesting contract is reviewed, it can be sent again and signed. -/
theorem handheld_signs_vesting :
    ∃ (history : List (Input × Reaction disturbedApp.layout.Shared))
      (device reached : Handheld FlowEngine.plain disturbedApp),
      device.state.review.isSome ∧
      (handheld FlowEngine.plain disturbedApp).Run (Client Orderly) history
        device ∧
      ∃ next, (handheld FlowEngine.plain disturbedApp).step reached
          (.buttonPush .both) =
        some (next, ⟨⟨some (Reply.signed
          (disturbedApp.transactionSignatures samplePath
            acceptedVestingCreation.tx.encode
            (leftProof (acceptedVestingCreation.shown disturbedApp.toDevice)
              acceptedVestingCreation.tx.encode))), none⟩, none⟩) := by
  obtain ⟨device, tx, panel, stepped, onScreen⟩ := vestingReview_launched
  have carries : reviewedCommand.Carries insSignTx p1First p2Last _ :=
    Command.carrying_carries reviewedTransaction_short
  have run := Foundation.System.Run.step .start
    (client_singleChunk carries rfl) stepped
  obtain ⟨_, _, reached, next, _, _, signed⟩ := handheld_signs rfl run
    acceptedVestingCreation trivial carries (by decide)
  exact ⟨_, device, reached, by rw [onScreen]; rfl, run, next, signed⟩

end Bagl
end NimiqApp
