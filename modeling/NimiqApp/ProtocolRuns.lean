import NimiqApp.Heartbeats
import NimiqApp.ProtocolHandlers

/-!
# The app keeps to the protocol

With a client that keeps to the protocol, the app and the protocol go through
every run side by side: an event can happen in both or in neither, the replies
are the same, and what is reviewed is what the user decides on.
-/

namespace NimiqApp

open Foundation (Agree Mirrors Mirrored)
open Foundation.System (anyEvent)

/-- An orderly client that sends no verification message that is too short,
and of no message as many bytes as 32 bits cannot count. -/
structure Disciplined {app : App}
    (history : List (Event × Output app.layout.Shared)) (state : State app)
    (event : Event) : Prop extends Orderly history state event where
  selfContained : ∀ command, event = .command command → ¬command.ReadsBehind
  countable : ∀ command p2 part sent, event = .command command →
    command.Carries insSignMessage p1More p2 part →
    OpenSequence insSignMessage history sent →
      (sent ++ part).length < 2 ^ 32

/-- The steps of a review are a matter of the screen. -/
def Event.IsSeen (event : Event) : Prop :=
  ∀ step, event ≠ .messageStep step

/-- What an event leads to in the app and in the protocol. -/
structure Effect.Matches (app : App) (sha256 : List UInt8 → Bytes 32)
    (output : Output app.layout.Shared) (effect : Effect) : Prop where
  reply : output.reply = effect.reply
  launched : Option.Rel (Subject.ShownBy app sha256) effect.launched
    output.launched

/-- The session is what the app knows of its past. -/
structure Reflects {app : App} (sha256 : List UInt8 → Bytes 32)
    (absorbed : app.HashContext → List UInt8 → Prop)
    (history : List (Event × Output app.layout.Shared)) (state : State app)
    (session : Session) : Prop where
  timer : state.ctx.u2fTimer = session.timer
  unanswered : state.unanswered = session.unanswered
  subject : Option.Rel (Subject.ShownBy app sha256) session.subject
    state.review
  inMemory : state.ReviewsInMemory
  holds : app.HoldsCollected absorbed state.ctx.req session.collecting
  sequences : ∀ kind sent, OpenSequence (Kind.ins kind) history sent →
    session.collecting = some (kind, sent)
  alone : session.subject.isSome → session.collecting = none

section Reflects

variable {app : App} {sha256 : List UInt8 → Bytes 32}
  {absorbed : app.HashContext → List UInt8 → Prop}
  {history : List (Event × Output app.layout.Shared)}
  {state next : State app} {session : Session} {event : Event}
  {output : Output app.layout.Shared} {command : Command}

/-- The session at start-up. -/
theorem Reflects.start :
    Reflects sha256 absorbed [] (State.start app) Session.start where
  timer := rfl
  unanswered := rfl
  subject := .none
  inMemory := State.reviewsInMemory_start
  holds := trivial
  sequences _ _ isOpen := absurd isOpen OpenSequence.not_start
  alone := nofun

/-- An event that is no command leaves open sequences as they are, or ends
them. -/
theorem Reflects.sequences_frame
    (reflects : Reflects sha256 absorbed history state session)
    (noCommand : ∀ command, event ≠ .command command)
    (kind : Kind)
    (sent : List UInt8)
    (isOpen : OpenSequence kind.ins (history ++ [(event, output)]) sent) :
    session.collecting = some (kind, sent) ∧ event ≠ .restart := by
  rcases isOpen.last with
    ⟨command, _, _, _, isCommand, _⟩ | ⟨before, _, noRestart⟩
  · exact absurd isCommand (noCommand command)
  · exact ⟨reflects.sequences kind sent before, noRestart⟩

/-- As long as more is expected, there is no subject. -/
theorem App.collect_more
    {kind : Kind}
    (collected : app.collect false sent kind = .ok found) : found = none := by
  unfold App.collect at collected
  split at collected
  · split at collected
    · cases collected
    · obtain ⟨_, _, collected⟩ := Run.bind_eq_ok.mp collected
      cases collected
      rfl
  · split at collected
    · cases collected
    · obtain ⟨_, _, collected⟩ := Run.bind_eq_ok.mp collected
      cases collected
      rfl

/-- A chunk behind which more is expected is collected. -/
theorem Session.collecting_of_more
    {kind : Kind}
    {result : Session × Effect}
    (carries : command.Carries kind.ins p1 p2More part)
    (handled : command.request >>= session.handle app = .ok result) :
    ∃ sent, session.upTo kind (p1 = p1First) part = .ok sent ∧
      result.1.collecting = some (kind, sent) := by
  rw [carries.request_chunk] at handled
  unfold chunkRequest at handled
  rw [bind_assoc] at handled
  obtain ⟨_, _, handled⟩ := Run.bind_eq_ok.mp handled
  rw [Run.pure_eq, Run.bind_ok] at handled
  obtain ⟨sent, upTo, handled⟩ := Run.bind_eq_ok.mp handled
  obtain ⟨found, collected, handled⟩ := Run.bind_eq_ok.mp handled
  cases App.collect_more collected
  cases handled
  exact ⟨sent, upTo, rfl⟩

/-- A request to be kept alive ends what was collected. -/
theorem Session.collecting_of_keepAlive
    {result : Session × Effect}
    (keepAlive : command.IsKeepAlive)
    (handled : command.request >>= session.handle app = .ok result) :
    result.1.collecting = none := by
  rw [keepAlive.request, Run.bind_ok] at handled
  cases handled
  rfl

/-- The results of an event in the app and in the protocol match, and the
session reflects the state behind it. -/
def SameResult (sha256 : List UInt8 → Bytes 32)
    (absorbed : app.HashContext → List UInt8 → Prop)
    (history : List (Event × Output app.layout.Shared)) (event : Event)
    (result : State app × Output app.layout.Shared)
    (result' : Session × Effect) : Prop :=
  Effect.Matches app sha256 result.2 result'.2 ∧
    Reflects sha256 absorbed (history ++ [(event, result.2)]) result.1
      result'.1

/-- The chunks of a disciplined client continue what is collected. -/
theorem Reflects.continues
    (reflects : Reflects sha256 absorbed history state session)
    (disciplined : Disciplined history state (.command command))
    (kind : Kind)
    (carries : command.Carries kind.ins p1More p2 part) :
    ∃ sent, session.collecting = some (kind, sent) ∧
      (kind = .message → (sent ++ part).length < 2 ^ 32) := by
  have chunked : ChunkedInstruction kind.ins := by
    cases kind with
    | transaction => exact Or.inl rfl
    | message => exact Or.inr rfl
  obtain ⟨sent, isOpen⟩ :=
    disciplined.continues command kind.ins p2 part rfl chunked carries
  refine ⟨sent, reflects.sequences kind sent isOpen, ?_⟩
  rintro rfl
  exact disciplined.countable command p2 part sent rfl carries isOpen

/-- A chunk that opens or continues a sequence is collected. -/
theorem Reflects.sequences_accepted
    {result : Session × Effect}
    (reflects : Reflects sha256 absorbed history state session)
    (handled : command.request >>= session.handle app = .ok result)
    (kind : Kind)
    (sent : List UInt8)
    (isOpen : OpenSequence kind.ins
      (history ++ [(.command command, output)]) sent) :
    result.1.collecting = some (kind, sent) := by
  rcases isOpen.last with
    ⟨_, p1, part, before, ⟨rfl⟩, _, carries, rfl, position⟩ |
    ⟨_, noCommand, _⟩
  · obtain ⟨all, upTo, collecting⟩ :=
      Session.collecting_of_more carries handled
    rw [collecting]
    rcases position with ⟨rfl, rfl⟩ | ⟨rfl, earlier⟩
    · cases upTo
      rfl
    · have collected := reflects.sequences kind before earlier
      unfold Session.upTo at upTo
      rw [if_neg (by decide), collected] at upTo
      simp only [if_true] at upTo
      cases upTo
      rfl
  · exact absurd rfl (noCommand command)

/-- The first of two values, where there is one. -/
theorem rel_or
    {related : α → β → Prop}
    (first : Option.Rel related left right)
    (second : Option.Rel related otherLeft otherRight) :
    Option.Rel related (left.or otherLeft) (right.or otherRight) := by
  cases first with
  | some holds => exact .some holds
  | none => exact second

/-- A command that is handled. -/
theorem Reflects.handled
    {handled : Handled app}
    {result : Session × Effect}
    (reflects : Reflects sha256 absorbed history state session)
    (disciplined : Disciplined history state (.command command))
    (idle : state.unanswered = false)
    (handles : app.handleCommand command state.ctx.req = .ok handled)
    (abstractly : command.request >>= session.handle app = .ok result)
    (accepts : app.Accepts sha256 absorbed session handled result) :
    SameResult sha256 absorbed history (.command command)
      (⟨⟨handled.req, u2fRequestTimeout⟩, command.buffer,
        handled.answer.output.launched.or state.review,
        handled.answer.output.reply.isNone⟩, handled.answer.output)
      result := by
  have stepped := State.step_of_receive idle
    (State.receive_handled handled handles)
  change state.step (.command command) = some _ at stepped
  have reacts := State.step_reacts stepped
  have timer : result.1.timer = u2fRequestTimeout :=
    congrArg (fun result => result.1.timer) accepts.accepted
  have unanswered : result.1.unanswered = result.2.reply.isNone :=
    congrArg (fun result => result.1.unanswered) accepts.accepted
  have subject : result.1.subject = result.2.launched.or session.subject :=
    congrArg (fun result => result.1.subject) accepts.accepted
  refine ⟨⟨accepts.reply, accepts.launched⟩, ?_⟩
  constructor
  · exact timer.symm
  · rw [unanswered, ← accepts.reply]
  · rw [subject]
    exact rel_or accepts.launched reflects.subject
  · exact State.reviewsInMemory_step reflects.inMemory reacts
      disciplined.patient
  · exact accepts.holds
  · exact reflects.sequences_accepted abstractly
  · intro isSubject
    cases launched : result.2.launched with
    | some subject => exact accepts.alone (by rw [launched]; rfl)
    | none =>
        rw [subject, launched] at isSubject
        have shown := reflects.subject
        rw [Option.isSome_iff_exists] at isSubject
        obtain ⟨before, isBefore⟩ := isSubject
        rw [Option.none_or] at isBefore
        rw [isBefore] at shown
        generalize onScreen : state.review = review at shown
        cases shown with
        | some shows =>
            exact Session.collecting_of_keepAlive
              (disciplined.patient command rfl (by rw [onScreen]; rfl))
              abstractly

/-- A command that is refused ends what was collected. -/
theorem Reflects.refused
    (reflects : Reflects sha256 absorbed history state session)
    (disciplined : Disciplined history state (.command command))
    (idle : state.unanswered = false)
    (refuses : app.handleCommand command state.ctx.req =
      .error (.error sw)) :
    SameResult sha256 absorbed history (.command command)
      (⟨⟨app.layout.zeroed, 0⟩, command.buffer, state.review, false⟩,
        Output.refused sw)
      ({ session with
        collecting := none
        unanswered := false
        timer := 0 }, ⟨some ⟨[], sw⟩, none⟩) := by
  have stepped := State.step_of_receive idle (State.receive_refused refuses)
  change state.step (.command command) = some _ at stepped
  have reacts := State.step_reacts stepped
  refine ⟨⟨rfl, .none⟩, ?_⟩
  constructor
  · rfl
  · rfl
  · exact reflects.subject
  · exact State.reviewsInMemory_step reflects.inMemory reacts
      disciplined.patient
  · trivial
  · intro kind sent isOpen
    have notOk := (app.handleCommand_refusing command _).sw_ne_ok refuses
    rcases isOpen.last with
      ⟨_, _, _, _, _, isAccepted, _⟩ | ⟨_, noCommand, _⟩
    · cases isAccepted
      exact absurd rfl notOk
    · exact absurd rfl (noCommand command)
  · exact fun _ => rfl

/-- A command leads to the same in the app and in the protocol. -/
theorem Reflects.command_step
    (streams : app.StreamsSha256 sha256 absorbed)
    (reflects : Reflects sha256 absorbed history state session)
    (disciplined : Disciplined history state (.command command)) :
    Option.Rel (SameResult sha256 absorbed history (.command command))
      (state.step (.command command))
      (session.step app sha256 (.command command)) := by
  unfold State.step Session.step
  simp only
  rw [← reflects.unanswered]
  cases idle : state.unanswered with
  | true => exact .none
  | false =>
      simp only [Bool.false_eq_true, if_false]
      have agree : Agree (app.Accepts sha256 absorbed session) _ _ :=
        App.handleCommand_agrees streams reflects.holds
          (disciplined.selfContained command rfl)
          (fun kind _ _ carries => reflects.continues disciplined kind carries)
      generalize handledEq : app.handleCommand command state.ctx.req = left
        at agree
      generalize abstractEq : command.request >>= session.handle app = right
        at agree
      unfold Session.receive
      rw [abstractEq]
      cases agree with
      | returned accepts =>
          rw [State.receive_handled _ handledEq]
          exact .some (reflects.handled disciplined idle handledEq abstractEq
            accepts)
      | @stopped stop =>
          cases stop with
          | error sw =>
              rw [State.receive_refused handledEq]
              exact .some (reflects.refused disciplined idle handledEq)
          | fault reason =>
              rw [State.receive_fault handledEq]
              exact .none

/-- The ticker counts down the same time. -/
theorem Reflects.tick
    (reflects : Reflects sha256 absorbed history state session)
    (isU2f : Bool) :
    Option.Rel (SameResult sha256 absorbed history (.ticker isU2f))
      (state.step (.ticker isU2f)) (session.step app sha256 (.ticker isU2f)) := by
  have same : (tickerEvent isU2f ⟨(), session.timer⟩).1.u2fTimer =
        (tickerEvent isU2f state.ctx).1.u2fTimer ∧
      (tickerEvent isU2f ⟨(), session.timer⟩).2 =
        (tickerEvent isU2f state.ctx).2 := by
    rw [← reflects.timer]
    unfold tickerEvent u2fSendKeepAlive
    simp only
    split_ifs <;> exact ⟨rfl, rfl⟩
  have memory : (tickerEvent isU2f state.ctx).1.req = state.ctx.req := by
    unfold tickerEvent u2fSendKeepAlive
    simp only
    split_ifs <;> rfl
  refine .some ⟨⟨same.2.symm, .none⟩, ?_⟩
  constructor
  · exact same.1.symm
  · change (state.unanswered && (tickerEvent isU2f state.ctx).2.isNone) =
      (session.unanswered &&
        (tickerEvent isU2f ⟨(), session.timer⟩).2.isNone)
    rw [reflects.unanswered, ← same.2]
  · exact reflects.subject
  · intro review onScreen
    change review.InMemory app (tickerEvent isU2f state.ctx).1.req
    rw [memory]
    exact reflects.inMemory review onScreen
  · change app.HoldsCollected absorbed (tickerEvent isU2f state.ctx).1.req _
    rw [memory]
    exact reflects.holds
  · intro kind sent isOpen
    exact (reflects.sequences_frame (by simp) kind sent isOpen).1
  · exact reflects.alone

/-- A decision of the user ends the review. -/
theorem Reflects.decided
    {reply : Reply}
    {req : app.layout.Memory}
    (reflects : Reflects sha256 absorbed history state session)
    (isSubject : session.subject.isSome)
    (noCommand : ∀ command, event ≠ .command command) :
    SameResult sha256 absorbed history event (state.decide req reply)
      (session.decide reply) := by
  have nothing := reflects.alone isSubject
  refine ⟨⟨rfl, .none⟩, ?_⟩
  constructor
  · exact reflects.timer
  · rfl
  · exact .none
  · exact fun _ onScreen => absurd onScreen (Option.some_ne_none _).symm
  · change app.HoldsCollected absorbed req session.collecting
    rw [nothing]
    trivial
  · exact fun kind sent isOpen =>
      (reflects.sequences_frame noCommand kind sent isOpen).1
  · exact fun _ => nothing

/-- At most one proof is left to the app. -/
theorem LeftProof.unique
    (left : LeftProof parsed bytes place)
    (right : LeftProof parsed bytes otherPlace) : place = otherPlace :=
  Option.ext fun offset => (left offset).trans (right offset).symm

/-- The reply when a review is approved is the one for its subject. -/
theorem Subject.ShownBy.reply_eq
    {subject : Subject}
    {review : OpenReview app.layout.Shared}
    {reply : Reply}
    (shown : subject.ShownBy app sha256 review)
    (approved : review.ApprovedWith app reply) :
    reply = subject.reply app sha256 := by
  cases shown with
  | publicKey isReply shows =>
      cases approved
      change _ = Reply.signed (app.publicKeyReply _ _)
      rw [isReply]
      rfl
  | message presents =>
      cases approved
      change _ = Reply.signed (app.messageSignature _ _)
      rw [presents.bip32Path, presents.prefixedMessageHash]
  | transaction collected parse =>
      cases approved with
      | transaction reviewed left =>
          have signed : (.ok _ : Run Empty _) = .ok _ :=
            reviewed.signedBytes.symm.trans collected.signedBytes
          cases signed
          simp only [Subject.reply, parse]
          rw [collected.bip32Path, left.unique (leftProof_left _ _)]

/-- The approval of a review is answered as that of its subject. -/
theorem Subject.ShownBy.approves
    {subject : Subject}
    {review : OpenReview app.layout.Shared}
    {req : app.layout.Memory}
    (shown : subject.ShownBy app sha256 review)
    (inMemory : review.InMemory app req)
    (buffer : ApduBuffer) :
    ∃ next, app.onApproved buffer req review =
      .ok (next, subject.reply app sha256) := by
  obtain ⟨reply, approved, approves⟩ := inMemory.approves
  rw [← shown.reply_eq approved]
  exact approves buffer

/-- The user approves in both, or cannot. -/
theorem Reflects.approve
    (reflects : Reflects sha256 absorbed history state session) :
    Option.Rel (SameResult sha256 absorbed history .approve)
      (state.step .approve) (session.step app sha256 .approve) := by
  unfold State.step Session.step
  have shown := reflects.subject
  generalize subjectEq : session.subject = subject at shown
  generalize reviewEq : state.review = review at shown
  cases shown with
  | none => exact .none
  | some shows =>
      obtain ⟨next, approved⟩ := shows.approves
        (reflects.inMemory _ reviewEq) state.apduBuffer
      simp only [Option.bind_eq_bind, Option.bind_some, approved]
      exact .some (reflects.decided (by rw [subjectEq]; rfl)
        fun _ => nofun)

/-- The user rejects in both, or cannot. -/
theorem Reflects.reject
    (reflects : Reflects sha256 absorbed history state session) :
    Option.Rel (SameResult sha256 absorbed history .reject)
      (state.step .reject) (session.step app sha256 .reject) := by
  unfold State.step Session.step
  have shown := reflects.subject
  generalize subjectEq : session.subject = subject at shown
  generalize reviewEq : state.review = review at shown
  cases shown with
  | none => exact .none
  | some shows =>
      exact .some (reflects.decided (by rw [subjectEq]; rfl)
        fun _ => nofun)

/-- A step of a review is silent, and not seen. -/
theorem Reflects.messageStep
    {step : Bagl.MessageStep}
    (reflects : Reflects sha256 absorbed history state session)
    (stepped : state.step (.messageStep step) = some (next, output)) :
    output = Output.none ∧
      Reflects sha256 absorbed (history ++ [(.messageStep step, output)]) next
        session := by
  have reacts := State.step_reacts stepped
  have inMemory := State.reviewsInMemory_step reflects.inMemory reacts
    fun _ => nofun
  have shown := reflects.subject
  cases reacts with
  | messageStep onScreen displayed =>
      rw [onScreen] at shown
      generalize subjectEq : session.subject = subject at shown
      cases shown with
      | some shows =>
          have nothing := reflects.alone (by rw [subjectEq]; rfl)
          refine ⟨rfl, ?_⟩
          constructor
          · exact reflects.timer
          · exact reflects.unanswered
          · exact reflects.subject
          · exact inMemory
          · rw [nothing]
            trivial
          · intro kind sent isOpen
            exact (reflects.sequences_frame (by simp) kind sent isOpen).1
          · exact reflects.alone

/-- After a restart nothing is left. -/
theorem Reflects.restart :
    Reflects sha256 absorbed (history ++ [(.restart, output)])
      (State.start app) Session.start where
  timer := rfl
  unanswered := rfl
  subject := .none
  inMemory := State.reviewsInMemory_start
  holds := trivial
  sequences kind sent isOpen := by
    rcases isOpen.last with ⟨_, _, _, _, isCommand, _⟩ | ⟨_, _, noRestart⟩
    · cases isCommand
    · exact absurd rfl noRestart
  alone := nofun

/-- The app mirrors the protocol. -/
theorem protocol_mirrors (streams : app.StreamsSha256 sha256 absorbed) :
    Mirrors app.system Disciplined (app.protocol sha256) Event.IsSeen
      (· = Output.none) (Effect.Matches app sha256)
      (Reflects sha256 absorbed) where
  start := Reflects.start
  hidden := by
    intro history state session event next output reflects _ hidden stepped
    obtain ⟨step, rfl⟩ : ∃ step, event = .messageStep step := by
      by_contra noStep
      exact hidden fun step isStep => noStep ⟨step, isStep⟩
    exact reflects.messageStep stepped
  seen := by
    intro history state session event reflects disciplined isSeen
    cases event with
    | command command => exact reflects.command_step streams disciplined
    | ticker isU2f => exact reflects.tick isU2f
    | approve => exact reflects.approve
    | reject => exact reflects.reject
    | messageStep step => exact absurd rfl (isSeen step)
    | restart => exact .some ⟨⟨rfl, .none⟩, Reflects.restart⟩

/-- With a disciplined client, every run is one of the protocol, with the same
replies and with reviews of its subjects.  After it, whatever can happen in
the protocol can happen in the app, and nothing else. -/
theorem protocol_mirrored
    (streams : app.StreamsSha256 sha256 absorbed)
    (run : app.system.Run Disciplined history state) :
    ∃ seen session, (app.protocol sha256).Run anyEvent seen session ∧
      Mirrored Event.IsSeen (· = Output.none) (Effect.Matches app sha256)
        history seen ∧
      ∀ event, event.IsSeen → Disciplined history state event →
        Option.Rel
          (fun result result' =>
            Effect.Matches app sha256 result.2 result'.2)
          (state.step event) (session.step app sha256 event) := by
  have mirrors := protocol_mirrors streams
  obtain ⟨seen, session, abstractRun, mirrored, reflects⟩ := mirrors.run run
  refine ⟨seen, session, abstractRun, mirrored, ?_⟩
  intro event isSeen disciplined
  have both := mirrors.seen reflects disciplined isSeen
  change Option.Rel _ (state.step event) (session.step app sha256 event) at both
  generalize state.step event = left at both
  generalize session.step app sha256 event = right at both
  cases both with
  | none => exact .none
  | some holds => exact .some holds.1

end Reflects

/-- The first chunk of `Hello` is sent by a disciplined client. -/
theorem helloFirstChunk_disciplined :
    Disciplined [] (State.start helloApp) (.command helloFirstChunk) where
  patient := by
    rintro command _ onScreen
    cases onScreen
  continues := by
    rintro command ins p2 part ⟨⟩ _ carries
    exact helloFirstChunk_notMore carries
  selfContained := by
    rintro command ⟨⟩
    exact helloFirstChunk_carries.bounded (by decide)
  countable := by
    rintro command p2 part sent ⟨⟩ carries
    exact helloFirstChunk_notMore carries

/-- The protocol goes along with the first chunk of `Hello`. -/
theorem protocol_mirrored_hello :
    ∃ seen session,
      (helloApp.protocol sampleSha256).Run anyEvent seen session ∧
      Mirrored Event.IsSeen (· = Output.none)
        (Effect.Matches helloApp sampleSha256)
        [(.command helloFirstChunk, Output.accepted)] seen := by
  obtain ⟨state, received, _⟩ := helloFirstChunk_received
  have run : helloApp.system.Run Disciplined
      [(.command helloFirstChunk, Output.accepted)] state :=
    .step .start helloFirstChunk_disciplined
      (State.step_of_receive rfl received)
  obtain ⟨seen, session, abstractRun, mirrored, _⟩ :=
    protocol_mirrored helloApp_streams run
  exact ⟨seen, session, abstractRun, mirrored⟩

end NimiqApp
