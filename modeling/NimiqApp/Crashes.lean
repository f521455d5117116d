import NimiqApp.ApprovalReplies
import NimiqApp.HandlerFaults

/-!
# What ends the app

A client that keeps to the protocol waits for the decisions of the user, and
sends further chunks only of what it started.  Such a client can end the app
in two ways, and the user in none.
-/

namespace NimiqApp

open Foundation.System (anyEvent)

/-- While a review is on the screen, the client only asks to keep it alive,
and a further chunk continues an open sequence. -/
structure Orderly {app : App}
    (history : List (Event × Output app.layout.Shared)) (state : State app)
    (event : Event) : Prop where
  patient : ∀ command, event = .command command → state.review.isSome →
    command.IsKeepAlive
  continues : ∀ command ins p2 part, event = .command command →
    ChunkedInstruction ins → command.Carries ins p1More p2 part →
      ∃ sent, OpenSequence ins history sent

/-- An event can happen: a command is only received when none waits, and the
user only acts on what is on the screen. -/
def State.CanHappen {app : App} (state : State app) : Event → Prop
  | .command _ => state.unanswered = false
  | .ticker _ => True
  | .approve => state.review.isSome
  | .reject => state.review.isSome
  | .messageStep step => state.offers step = true
  | .restart => True

/-- What the memory holds for an orderly client: the requests of open
sequences, and what is reviewed. -/
structure InOrder {app : App}
    (history : List (Event × Output app.layout.Shared))
    (state : State app) : Prop where
  sequences : HoldsSequences history state
  noReview : SequenceOpen history → state.review = none
  inMemory : state.ReviewsInMemory
  displayable : ∀ msg, state.review = some (.message msg) →
    app.layout.Displayable (app.layout.msg.read state.ctx.req)

section InOrder

variable {app : App} {history : List (Event × Output app.layout.Shared)}
  {state next : State app} {output : Output app.layout.Shared}
  {event : Event} {command : Command}

/-- No event disturbs a sequence that is open. -/
theorem InOrder.uninterrupted
    (inOrder : InOrder history state)
    (reacts : state.Reacts event next output) :
    Uninterrupted history state event := by
  intro isOpen rewrites
  have noReview := inOrder.noReview isOpen
  cases reacts with
  | handled idle handles => exact rewrites
  | refused idle refuses => exact rewrites
  | heartbeat due => exact rewrites
  | tick timer early => exact rewrites
  | approve onScreen approved =>
      rw [onScreen] at noReview
      cases noReview
  | reject onScreen => exact rewrites
  | messageStep onScreen displayed =>
      rw [onScreen] at noReview
      cases noReview
  | restart => exact rewrites

/-- A chunk of an orderly client follows what was sent before. -/
theorem Orderly.follows
    (orderly : Orderly history state (.command command))
    (chunked : ChunkedInstruction ins)
    (carries : command.Carries ins p1 p2 part)
    (p1Cases : p1 = p1First ∨ p1 = p1More) :
    ∃ sent, Follows (OpenSequence ins history) p1 sent := by
  rcases p1Cases with rfl | rfl
  · exact ⟨[], Or.inl ⟨rfl, rfl⟩⟩
  · obtain ⟨sent, isOpen⟩ :=
      orderly.continues command ins p2 part rfl chunked carries
    exact ⟨sent, Or.inr ⟨rfl, isOpen⟩⟩

theorem Follows.mono
    {holds others : List UInt8 → Prop}
    (follows : Follows holds p1 sent)
    (implies : ∀ sent, holds sent → others sent) :
    Follows others p1 sent :=
  follows.imp_right fun more => ⟨more.1, implies _ more.2⟩

/-- A step of the review of a message that is displayed was offered. -/
theorem State.offered_of_step
    {step : Bagl.MessageStep}
    (stepped : state.step (.messageStep step) = some (next, output)) :
    Bagl.offersMessageStep app.layout
      (app.layout.msg.read state.ctx.req) step = true := by
  unfold State.step at stepped
  simp only at stepped
  split at stepped
  · rename_i offers
    unfold State.offers at offers
    split at offers
    · exact (Bool.and_eq_true _ _ ▸ offers : _ ∧ _ = true).2
    · cases offers
  · cases stepped

/-- A message stays displayable when a step of its review is displayed. -/
theorem Layout.Displayable.messageStep
    {step : Bagl.MessageStep}
    (displayable : app.layout.Displayable (app.layout.msg.read state.ctx.req))
    (stepped : app.system.step state (.messageStep step) =
      some (next, output)) :
    app.layout.Displayable (app.layout.msg.read next.ctx.req) := by
  obtain ⟨other, shown, stays⟩ := displayable.displayMessageStep
    (ε := Empty) (State.offered_of_step stepped)
  change state.step (.messageStep step) = some (next, output) at stepped
  cases State.step_reacts stepped with
  | messageStep _ displayed =>
      rw [displayed] at shown
      cases shown
      rw [app.layout.msg.read_write]
      exact stays

/-- Behind an open sequence there is no review. -/
theorem InOrder.noReview_step
    (inOrder : InOrder history state)
    (reacts : state.Reacts event next output)
    (orderly : Orderly history state event)
    (isOpen : SequenceOpen (history ++ [(event, output)])) :
    next.review = none := by
  obtain ⟨ins, sent, chunked, isOpen⟩ := isOpen
  have silent : output.launched = none ∧ state.review = none := by
    rcases isOpen.last with
      ⟨command, p1, part, before, rfl, rfl, carries, _, _⟩ |
      ⟨wasOpen, noCommand, noRestart⟩
    · refine ⟨rfl, ?_⟩
      by_contra onScreen
      obtain ⟨_, _, _, keepAlive⟩ := orderly.patient command rfl
        (Option.isSome_iff_ne_none.mpr onScreen)
      apply keepAlive.conflict carries
      rcases chunked with rfl | rfl <;> decide
    · refine ⟨?_, inOrder.noReview ⟨ins, sent, chunked, wasOpen⟩⟩
      cases reacts with
      | handled idle handles => exact absurd rfl (noCommand _)
      | refused idle refuses => rfl
      | heartbeat due => rfl
      | tick timer early => rfl
      | approve _ approved => rfl
      | reject _ => rfl
      | messageStep _ displayed => rfl
      | restart => rfl
  by_contra onScreen
  obtain ⟨review, onScreen⟩ := Option.ne_none_iff_exists'.mp onScreen
  have before := reacts.review_of_silent silent.1 onScreen
  rw [silent.2] at before
  cases before

/-- The message of a review that is launched can be displayed. -/
theorem InOrder.displayable_launched
    {msg : MessageSigningContext app.layout.Shared}
    (inOrder : InOrder history state)
    (reacts : state.Reacts event next output)
    (orderly : Orderly history state event)
    (launched : output.launched = some (.message msg)) :
    app.layout.Displayable (app.layout.msg.read next.ctx.req) := by
  cases reacts with
  | handled idle handles =>
      cases handles with
      | publicKey carries => cases launched
      | publicKeyReview carries shows => cases launched
      | transactionMore carries p1Cases chunk => cases launched
      | transactionLast carries p1Cases chunk started => cases launched
      | messageMore carries p1Cases chunk => cases launched
      | messageLast carries p1Cases chunk started =>
          obtain ⟨sent, follows⟩ :=
            orderly.follows (Or.inr rfl) carries p1Cases
          have isShort :=
            ((follows.mono inOrder.sequences.message).messageChunk
              carries).2 _ chunk
          rw [app.layout.msg.read_write]
          exact (App.reviewMessage_displayable isShort).2 _ started
      | keepAlive carries => cases launched
  | refused idle refuses => cases launched
  | heartbeat due => cases launched
  | tick timer early => cases launched
  | approve _ approved => cases launched
  | reject _ => cases launched
  | messageStep _ displayed => cases launched
  | restart => cases launched

/-- A message on the screen can be displayed. -/
theorem InOrder.displayable_step
    {msg : MessageSigningContext app.layout.Shared}
    (inOrder : InOrder history state)
    (stepped : app.system.step state event = some (next, output))
    (orderly : Orderly history state event)
    (onScreen : next.review = some (.message msg)) :
    app.layout.Displayable (app.layout.msg.read next.ctx.req) := by
  have reacts := State.step_reacts stepped
  cases silent : output.launched with
  | some launched =>
      have shown := (reacts.launched_inMemory silent).1
      rw [onScreen] at shown
      cases shown
      exact inOrder.displayable_launched reacts orderly silent
  | none =>
      have before := reacts.review_of_silent silent onScreen
      have displayable := inOrder.displayable msg before
      cases reacts with
      | handled idle handles =>
          cases handles.keepAlive_inversion
            (orderly.patient _ rfl (by rw [before]; rfl))
          exact displayable
      | refused idle refuses =>
          rw [(orderly.patient _ rfl (by rw [before]; rfl)).handleCommand]
            at refuses
          cases refuses
      | heartbeat due => exact displayable
      | tick timer early => exact displayable
      | approve _ approved => cases onScreen
      | reject _ => cases onScreen
      | messageStep _ displayed => exact displayable.messageStep stepped
      | restart => cases onScreen

/-- What an orderly client relies on is kept in every step. -/
theorem InOrder.step
    (inOrder : InOrder history state)
    (stepped : app.system.step state event = some (next, output))
    (orderly : Orderly history state event) :
    InOrder (history ++ [(event, output)]) next := by
  have reacts := State.step_reacts stepped
  exact {
    sequences :=
      inOrder.sequences.step reacts (inOrder.uninterrupted reacts)
    noReview := inOrder.noReview_step reacts orderly
    inMemory := State.reviewsInMemory_step inOrder.inMemory reacts
      orderly.patient
    displayable := fun _ => inOrder.displayable_step stepped orderly }

/-- Nothing is open or on the screen after start-up. -/
theorem InOrder.start : InOrder [] (State.start app) where
  sequences :=
    ⟨fun _ isOpen => absurd isOpen OpenSequence.not_start,
      fun _ isOpen => absurd isOpen OpenSequence.not_start⟩
  noReview _ := rfl
  inMemory := State.reviewsInMemory_start
  displayable _ onScreen := absurd onScreen (Option.some_ne_none _).symm

/-- What an orderly client relies on holds after every run with it. -/
theorem InOrder.of_run
    (run : app.system.Run Orderly history state) :
    InOrder history state := by
  refine run.invariant .start ?_
  intro history state event next output inOrder orderly stepped
  exact inOrder.step stepped orderly

end InOrder

section Commands

variable {app : App} {req : app.layout.Memory} {command : Command}

/-- Only requests for a key or for a signature can end the app. -/
theorem App.handleCommand_faults
    (faults : (app.handleCommand command req).Faults) :
    ∃ ins p1 p2 bytes, command.Carries ins p1 p2 bytes ∧
      (ins = insGetPublicKey ∨ ChunkedInstruction ins) := by
  unfold App.handleCommand at faults
  obtain ⟨_, checked, faults⟩ :=
    Run.NoFault.returnOn.bind_faults_iff.mp faults
  have wellFormed := not_not.mp (Run.returnOn_eq_ok.mp checked)
  unfold App.handleApdu at faults
  obtain ⟨_, claChecked, faults⟩ :=
    Run.NoFault.returnOn.bind_faults_iff.mp faults
  obtain ⟨bytes, carries⟩ :=
    wellFormed.carries (not_not.mp (Run.returnOn_eq_ok.mp claChecked))
  refine ⟨_, _, _, bytes, carries, ?_⟩
  simp only at faults
  split_ifs at faults with isPublicKey isTransaction isMessage isKeepAlive
  · exact Or.inl isPublicKey
  · exact Or.inr (Or.inl isTransaction)
  · exact Or.inr (Or.inr isMessage)
  · exact absurd faults (Run.NoFault.ok _).not_faults
  · exact faults.not_error

/-- A chunk that ends the app is a first or a further one. -/
theorem Command.Carries.chunk_faults
    (carries : command.Carries ins p1 p2 part)
    (chunked : ChunkedInstruction ins)
    (faults : (app.handleCommand command req).Faults) :
    p1 = p1First ∨ p1 = p1More := by
  rcases chunked with rfl | rfl
  · rw [carries.handleSignTransaction] at faults
    unfold App.handleSignTransaction at faults
    obtain ⟨_, checked, _⟩ :=
      Run.NoFault.returnOn.bind_faults_iff.mp faults
    exact (checkChunkParameters_inversion checked).1
  · rw [carries.handleSignMessage] at faults
    unfold App.handleSignMessage at faults
    obtain ⟨_, checked, _⟩ :=
      Run.NoFault.returnOn.bind_faults_iff.mp faults
    exact (checkChunkParameters_inversion checked).1

end Commands

/-- A command asks for a signature, but has nothing behind the path that
could be signed. -/
def Command.SignsNothing (command : Command) : Prop :=
  ∃ p2 path, ConfirmationParameter p2 ∧ ValidPath path ∧
    command.Carries insGetPublicKey p1Signature p2 (bip32PathBytes path)

/-- A command completes a transaction that creates a contract, and that can
be parsed. -/
def Command.CompletesContract (device : Device)
    (history : List (Event × Output Shared)) (command : Command) : Prop :=
  ∃ p1 part sent path version bytes,
    command.Carries insSignTx p1 p2Last part ∧
    Follows (OpenSequence insSignTx history) p1 sent ∧
    CarriesTransaction path version bytes (sent ++ part) ∧
    CreatesContract bytes ∧ ∃ parsed, parseTx device version bytes = .ok parsed

/-- The events that end the app: a request to sign nothing, and in the NBGL
build the last chunk of a transaction that creates a contract. -/
def App.Crashes (app : App)
    (history : List (Event × Output app.layout.Shared)) (event : Event) :
    Prop :=
  ∃ command, event = .command command ∧
    (command.SignsNothing ∨
      app.ui = .nbgl ∧ command.CompletesContract app.toDevice history)

section Crashes

variable {app : App} {history : List (Event × Output app.layout.Shared)}
  {state : State app} {event : Event} {command : Command}

/-- A command ends the app exactly if its handler does. -/
theorem State.step_command_eq_none_iff
    (idle : state.unanswered = false) :
    state.step (.command command) = none ↔
      (app.handleCommand command state.ctx.req).Faults := by
  unfold State.step
  simp only [idle, Bool.false_eq_true, if_false]
  cases result : app.handleCommand command state.ctx.req with
  | ok handled =>
      rw [State.receive_handled handled result]
      exact iff_of_false nofun nofun
  | error stopped =>
      cases stopped with
      | error sw =>
          rw [State.receive_refused result]
          exact iff_of_false nofun nofun
      | fault reason =>
          rw [State.receive_fault result]
          exact iff_of_true rfl ⟨reason, rfl⟩

/-- The commands of an orderly client that end the app. -/
theorem InOrder.command_faults_iff
    (inOrder : InOrder history state)
    (orderly : Orderly history state (.command command)) :
    (app.handleCommand command state.ctx.req).Faults ↔
      app.Crashes history (.command command) := by
  constructor
  · intro faults
    refine ⟨command, rfl, ?_⟩
    obtain ⟨ins, p1, p2, part, carries, rfl | chunked⟩ :=
      App.handleCommand_faults faults
    · rw [carries.handleGetPublicKey, App.handleGetPublicKey_faults_iff
        carries] at faults
      obtain ⟨rfl, valid, path, validPath, rfl⟩ := faults
      exact Or.inl ⟨p2, path, valid, validPath, carries⟩
    · obtain ⟨sent, follows⟩ := orderly.follows chunked carries
        (carries.chunk_faults chunked faults)
      rcases chunked with rfl | rfl
      · have holds := follows.mono inOrder.sequences.transaction
        rw [carries.handleSignTransaction,
          holds.handleSignTransaction_faults_iff carries] at faults
        obtain ⟨rfl, isNbgl, path, version, bytes, carried, contract⟩ := faults
        exact Or.inr ⟨isNbgl, p1, part, sent, path, version, bytes, carries,
          follows, carried, contract⟩
      · have holds := follows.mono inOrder.sequences.message
        rw [carries.handleSignMessage] at faults
        exact absurd faults
          (holds.handleSignMessage_noFault carries).not_faults
  · rintro ⟨_, ⟨rfl⟩, ⟨p2, path, valid, validPath, carries⟩ |
      ⟨isNbgl, p1, part, sent, path, version, bytes, carries, follows,
        carried, contract⟩⟩
    · rw [carries.handleGetPublicKey,
        App.handleGetPublicKey_faults_iff carries]
      exact ⟨rfl, valid, path, validPath, rfl⟩
    · have holds := follows.mono inOrder.sequences.transaction
      rw [carries.handleSignTransaction,
        holds.handleSignTransaction_faults_iff carries]
      exact ⟨rfl, isNbgl, path, version, bytes, carried, contract⟩

/-- With an orderly client, the app is ended by these two kinds of commands
and by nothing else. -/
theorem crashes_iff
    (run : app.system.Run Orderly history state)
    (orderly : Orderly history state event)
    (possible : state.CanHappen event) :
    app.system.step state event = none ↔ app.Crashes history event := by
  have inOrder := InOrder.of_run run
  have noCommand : ∀ {event : Event}, (∀ command, event ≠ .command command) →
      ¬app.Crashes history event := by
    rintro _ noCommand ⟨command, isCommand, _⟩
    exact noCommand command isCommand
  change state.step event = none ↔ _
  cases event with
  | command command =>
      rw [State.step_command_eq_none_iff possible]
      exact inOrder.command_faults_iff orderly
  | ticker isU2f => exact iff_of_false nofun (noCommand nofun)
  | approve =>
      refine iff_of_false ?_ (noCommand nofun)
      obtain ⟨review, onScreen⟩ := Option.isSome_iff_exists.mp possible
      obtain ⟨reply, _, approves⟩ :=
        (inOrder.inMemory review onScreen).approves
      obtain ⟨req, approved⟩ := approves state.apduBuffer
      unfold State.step
      simp only [onScreen, approved, Option.bind_eq_bind, Option.bind_some]
      exact nofun
  | reject =>
      refine iff_of_false ?_ (noCommand nofun)
      obtain ⟨review, onScreen⟩ := Option.isSome_iff_exists.mp possible
      unfold State.step
      simp only [onScreen, Option.bind_eq_bind, Option.bind_some]
      exact nofun
  | messageStep step =>
      refine iff_of_false ?_ (noCommand nofun)
      have offers : state.offers step = true := possible
      have offered := offers
      unfold State.offers at offered
      split at offered
      · rename_i msg onScreen
        obtain ⟨next, displayed, _⟩ :=
          (inOrder.displayable msg onScreen).displayMessageStep (ε := Empty)
            (Bool.and_eq_true _ _ ▸ offered : _ ∧ _ = true).2
        unfold State.step State.display
        simp only [offers, if_true, displayed, Run.bind_ok]
        exact nofun
      · cases offered
  | restart => exact iff_of_false nofun (noCommand nofun)

end Crashes

/-- A request for a signature of nothing. -/
def signNothing : Command :=
  .carrying insGetPublicKey p1Signature p2NoConfirm
    (bip32PathBytes samplePath) (by decide)

/-- The request ends the app right after start-up. -/
theorem crashes_signNothing :
    helloApp.system.step helloApp.system.start (.command signNothing) =
      none := by
  have orderly : Orderly [] helloApp.system.start (.command signNothing) := by
    refine ⟨nofun, ?_⟩
    rintro _ ins p2 part ⟨rfl⟩ chunked carries
    refine carries.conflict (Command.carrying_carries _) ?_
    rcases chunked with rfl | rfl <;> decide
  have idle : helloApp.system.start.CanHappen (.command signNothing) := rfl
  exact (crashes_iff .start orderly idle).mpr
    ⟨signNothing, rfl, Or.inl ⟨p2NoConfirm, samplePath, Or.inr rfl,
      by decide, Command.carrying_carries _⟩⟩

end NimiqApp
