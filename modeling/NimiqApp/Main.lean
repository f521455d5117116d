import NimiqApp.Foundation.Runs
import NimiqApp.MessageRequest
import NimiqApp.PublicKeyRequest

/-!
# The main loop

The app answers commands, counts down to the heartbeats of U2F, and replies
later when the user decides on a review.  The three react to the same memory
one after the other, in any order.  The SDK hands over a command only when no
earlier one waits for its reply, and leaves a review on the screen until the
user decides on it, another review replaces it or the app restarts.
-/

namespace NimiqApp

/-- A command as it is received: its length, and the buffer it is in the
front of.  Behind it is what was in the buffer before. -/
structure Command where
  length : Nat
  buffer : ApduBuffer

namespace Command

/-- A byte of the buffer. -/
def byte (command : Command) (offset : Nat) : UInt8 :=
  command.buffer.val.getD offset 0

/-- The data behind the header. -/
def data (command : Command) : Slice where
  pointer := some offsetCdata
  length := (command.byte offsetLc).toNat

/-- The command has the length that its header says. -/
def WellFormed (command : Command) : Prop :=
  ¬(command.length < offsetLc + 1 ∨
    command.length ≠ (command.byte offsetLc).toNat + offsetCdata)

instance (command : Command) : Decidable command.WellFormed :=
  inferInstanceAs (Decidable (¬_))

/-- The command consists of a header and data, whatever is behind it. -/
def Carries (command : Command) (ins p1 p2 : UInt8) (data : List UInt8) :
    Prop :=
  command.length = offsetCdata + data.length ∧
    ∃ behind, command.buffer.val =
      [cla, ins, p1, p2, UInt8.ofNat data.length] ++ data ++ behind

end Command

/-- What an event leads to outside of the memory of the app. -/
structure Output (Shared : Type) where
  reply : Option Reply
  launched : Option (OpenReview Shared)

/-- What the main loop makes of an answer. -/
def Answer.output : Answer Shared → Output Shared
  | .response data => ⟨some ⟨data, .ok⟩, none⟩
  | .review launched => ⟨none, some launched⟩
  | .asyncReply => ⟨none, none⟩

section Commands

variable (app : App)

/-- `handle_keep_alive`. -/
def App.handleKeepAlive (req : app.layout.Memory) : Handled app :=
  ⟨req, .asyncReply⟩

/-- `handle_apdu`, without the timer. -/
def App.handleApdu (command : Command) (req : app.layout.Memory) :
    Run StatusWord (Handled app) := do
  Run.returnOn (command.byte offsetCla ≠ cla) .claNotSupported
  let ins := command.byte offsetIns
  let p1 := command.byte offsetP1
  let p2 := command.byte offsetP2
  let buffer := command.buffer.val
  if ins = insGetPublicKey then
    app.handleGetPublicKey p1 p2 buffer command.data req
  else if ins = insSignTx then
    app.handleSignTransaction p1 p2 buffer command.data req
  else if ins = insSignMessage then
    app.handleSignMessage p1 p2 buffer command.data req
  else if ins = insKeepAlive then
    pure (app.handleKeepAlive req)
  else Run.fail .insNotSupported

/-- A command after the check of its length. -/
def App.handleCommand (command : Command) (req : app.layout.Memory) :
    Run StatusWord (Handled app) := do
  Run.returnOn (¬command.WellFormed) .wrongDataLength
  app.handleApdu command req

/-- A turn of the loop of `nimiq_main`.  The timer is started before a
command is handled, and wiped with the rest of `ctx` if that fails. -/
def App.nimiqMain (command : Command) (req : app.layout.Memory) :
    Run Empty
      (GeneralContext app.layout.Memory × Output app.layout.Shared) :=
  match app.handleCommand command req with
  | .ok handled =>
      pure (⟨handled.req, u2fRequestTimeout⟩, handled.answer.output)
  | .error (.error sw) =>
      pure (⟨app.layout.zeroed, 0⟩, ⟨some ⟨[], sw⟩, none⟩)
  | .error (.fault reason) => Run.fault reason

end Commands

/-- `u2f_send_keep_alive`. -/
def u2fSendKeepAlive (ctx : GeneralContext Memory) :
    GeneralContext Memory × Option Reply :=
  ({ ctx with u2fTimer := 0 }, some (ioFinalizeAsyncReply [] .keepAlive))

/-- `SEPROXYHAL_TAG_TICKER_EVENT` in `io_event`; `isU2f` says whether the
media of the commands is U2F. -/
def tickerEvent (isU2f : Bool) (ctx : GeneralContext Memory) :
    GeneralContext Memory × Option Reply :=
  if isU2f ∧ ctx.u2fTimer > 0 then
    let ctx := { ctx with u2fTimer := ctx.u2fTimer - 100 }
    if ctx.u2fTimer = 0 then u2fSendKeepAlive ctx else (ctx, none)
  else (ctx, none)

/-- `on_rejected`. -/
def onRejected : Reply :=
  ioFinalizeAsyncReply [] .deny

/-- `on_transaction_approved` on the memory of the app, which is only written
when a signature proof is filled in. -/
def App.approveTransaction (app : App) (buffer : ApduBuffer)
    (req : app.layout.Memory) : Run Empty (app.layout.Memory × Reply) := do
  let tx := app.layout.tx.read req
  let (next, reply) ← app.onTransactionApproved tx buffer
  pure (if next.rawTx = tx.rawTx then req else app.layout.tx.write req next,
    reply)

/-- The callback of the review on the screen.  All it is told is which kind
of review it is. -/
def App.onApproved (app : App) (buffer : ApduBuffer)
    (req : app.layout.Memory) :
    OpenReview app.layout.Shared → Run Empty (app.layout.Memory × Reply)
  | .publicKey _ => do
      let reply ← NimiqApp.onAddressApproved (app.layout.pk.read req)
      pure (req, reply)
  | .transaction _ => app.approveTransaction buffer req
  | .message _ => do
      let reply ← app.onMessageApproved (app.layout.msg.read req)
      pure (req, reply)

/-- The app between two events. -/
structure State (app : App) where
  ctx : GeneralContext app.layout.Memory
  /-- The APDU buffer as the last command was received in it; approvals use
  it as scratch memory. -/
  apduBuffer : ApduBuffer
  /-- The review on the screen. -/
  review : Option (OpenReview app.layout.Shared)
  /-- A command waits for its reply. -/
  unanswered : Bool

/-- What happens to the app. -/
inductive Event
  /-- A command is received. -/
  | command (command : Command)
  /-- 100 ms have passed. -/
  | ticker (isU2f : Bool)
  /-- The user approves the review on the screen. -/
  | approve
  /-- The user rejects the review on the screen. -/
  | reject
  /-- The BAGL build displays a step of the review of a message. -/
  | messageStep (step : Bagl.MessageStep)
  /-- The app is reset. -/
  | restart

/-- Nothing is replied and no review is started. -/
def Output.none : Output Shared :=
  ⟨Option.none, Option.none⟩

section System

variable (app : App)

/-- The app after start-up. -/
def State.start : State app where
  ctx := ⟨app.layout.zeroed, 0⟩
  apduBuffer := Bytes.zero
  review := none
  unanswered := false

variable {app}

/-- The command is processed in a turn of the main loop. -/
def State.receive (command : Command) (state : State app) :
    Run Empty (State app × Output app.layout.Shared) := do
  let (ctx, output) ← app.nimiqMain command state.ctx.req
  pure (⟨ctx, command.buffer, output.launched.or state.review,
    output.reply.isNone⟩, output)

/-- The ticker counts down. -/
def State.tick (isU2f : Bool) (state : State app) :
    State app × Output app.layout.Shared :=
  let (ctx, reply) := tickerEvent isU2f state.ctx
  ({ state with
    ctx
    unanswered := state.unanswered && reply.isNone }, ⟨reply, none⟩)

/-- The review is over, and the reply is sent. -/
def State.decide (req : app.layout.Memory) (reply : Reply)
    (state : State app) : State app × Output app.layout.Shared :=
  ({ state with
    ctx := { state.ctx with req }
    review := none
    unanswered := false }, ⟨some reply, none⟩)

/-- A step of the review of a message is displayed. -/
def State.display (step : Bagl.MessageStep) (state : State app) :
    Run Empty (State app × Output app.layout.Shared) := do
  let msg ←
    Bagl.displayMessageStep app (app.layout.msg.read state.ctx.req) step
  pure ({ state with
    ctx := { state.ctx with
      req := app.layout.msg.write state.ctx.req msg } }, Output.none)

/-- The flow on the screen offers a step. -/
def State.offers (step : Bagl.MessageStep) (state : State app) : Bool :=
  match state.review with
  | some (OpenReview.message _) =>
      app.ui = .bagl &&
        Bagl.offersMessageStep app.layout
          (app.layout.msg.read state.ctx.req) step
  | _ => false

/-- The reaction to an event, if it can happen and the app goes on. -/
def State.step (state : State app) :
    Event → Option (State app × Output app.layout.Shared)
  | .command command =>
      if state.unanswered then Option.none
      else (state.receive command).toOption
  | .ticker isU2f => some (state.tick isU2f)
  | .approve => do
      let review ← state.review
      let (req, reply) ←
        (app.onApproved state.apduBuffer state.ctx.req review).toOption
      pure (state.decide req reply)
  | .reject => do
      let _ ← state.review
      pure (state.decide state.ctx.req onRejected)
  | .messageStep step =>
      if state.offers step then (state.display step).toOption
      else Option.none
  | .restart => some (State.start app, Output.none)

end System

/-- The app as a system. -/
def App.system (app : App) :
    Foundation.System (State app) Event (Output app.layout.Shared) where
  start := State.start app
  step := State.step

namespace Command

variable {command : Command}

/-- A command with given data in an otherwise clear buffer. -/
def carrying (ins p1 p2 : UInt8) (bytes : List UInt8)
    (short : bytes.length ≤ 255) : Command where
  length := offsetCdata + bytes.length
  buffer := ⟨[cla, ins, p1, p2, UInt8.ofNat bytes.length] ++ bytes ++
      zeroBytes (255 - bytes.length), by
    simp only [zeroBytes, List.length_append, List.length_cons,
      List.length_nil, List.length_replicate]
    omega⟩

theorem noData_length :
    ([] : List UInt8).length ≤ 255 :=
  Nat.zero_le _

theorem carrying_carries (short : bytes.length ≤ 255) :
    (carrying ins p1 p2 bytes short).Carries ins p1 p2 bytes :=
  ⟨rfl, _, rfl⟩

/-- The header of a command with given data. -/
theorem Carries.header
    (carries : command.Carries ins p1 p2 bytes) :
    bytes.length < 256 ∧
      command.byte offsetCla = cla ∧ command.byte offsetIns = ins ∧
      command.byte offsetP1 = p1 ∧ command.byte offsetP2 = p2 ∧
      (command.byte offsetLc).toNat = bytes.length := by
  obtain ⟨_, behind, bufferEq⟩ := carries
  have short : bytes.length < 256 := by
    have total := congrArg List.length bufferEq
    rw [command.buffer.property] at total
    simp only [List.length_append, List.length_cons, List.length_nil] at total
    omega
  refine ⟨short, ?_⟩
  unfold byte
  rw [bufferEq]
  refine ⟨rfl, rfl, rfl, rfl, ?_⟩
  exact UInt8.toNat_ofNat_of_lt short

/-- The data slice of a command covers the data it carries. -/
theorem Carries.covers
    (carries : command.Carries ins p1 p2 bytes) :
    Covers command.buffer.val command.data bytes := by
  have slice : command.data = ⟨some offsetCdata, bytes.length⟩ := by
    unfold Command.data
    rw [carries.header.2.2.2.2.2]
  obtain ⟨_, behind, bufferEq⟩ := carries
  rw [slice, bufferEq]
  exact Covers.behind [cla, ins, p1, p2, UInt8.ofNat bytes.length] bytes behind

/-- A command that carries data has the right length. -/
theorem Carries.wellFormed
    (carries : command.Carries ins p1 p2 bytes) : command.WellFormed := by
  have lengthEq := carries.1
  have lc := carries.header.2.2.2.2.2
  unfold WellFormed
  simp only [offsetCdata, offsetLc] at lengthEq lc ⊢
  omega

/-- A command that carries data gets to its handler. -/
theorem Carries.handleApdu
    {app : App}
    (carries : command.Carries ins p1 p2 bytes)
    (req : app.layout.Memory) :
    app.handleCommand command req = app.handleApdu command req := by
  unfold App.handleCommand
  rw [Run.returnOn_of_not (not_not.mpr carries.wellFormed), Run.bind_ok]

theorem Carries.handleSignTransaction
    {app : App}
    (carries : command.Carries insSignTx p1 p2 bytes)
    (req : app.layout.Memory) :
    app.handleCommand command req =
      app.handleSignTransaction p1 p2 command.buffer.val command.data
        req := by
  obtain ⟨_, claEq, insEq, p1Eq, p2Eq, _⟩ := carries.header
  rw [carries.handleApdu]
  unfold App.handleApdu
  rw [claEq, Run.returnOn_of_not (not_not.mpr rfl), Run.bind_ok, insEq, p1Eq,
    p2Eq]
  rfl

theorem Carries.handleSignMessage
    {app : App}
    (carries : command.Carries insSignMessage p1 p2 bytes)
    (req : app.layout.Memory) :
    app.handleCommand command req =
      app.handleSignMessage p1 p2 command.buffer.val command.data req := by
  obtain ⟨_, claEq, insEq, p1Eq, p2Eq, _⟩ := carries.header
  rw [carries.handleApdu]
  unfold App.handleApdu
  rw [claEq, Run.returnOn_of_not (not_not.mpr rfl), Run.bind_ok, insEq, p1Eq,
    p2Eq]
  rfl

end Command

section Receive

variable {app : App} {command : Command} {state : State app}

/-- A command that is handled. -/
theorem State.receive_handled
    (handled : Handled app)
    (result : app.handleCommand command state.ctx.req = .ok handled) :
    state.receive command =
      .ok (⟨⟨handled.req, u2fRequestTimeout⟩, command.buffer,
        handled.answer.output.launched.or state.review,
        handled.answer.output.reply.isNone⟩, handled.answer.output) := by
  unfold State.receive App.nimiqMain
  rw [result]
  rfl

/-- A command that is refused: all of `ctx` is wiped. -/
theorem State.receive_refused
    (result : app.handleCommand command state.ctx.req = .error (.error sw)) :
    state.receive command =
      .ok (⟨⟨app.layout.zeroed, 0⟩, command.buffer, state.review, false⟩,
        ⟨some ⟨[], sw⟩, none⟩) := by
  unfold State.receive App.nimiqMain
  rw [result]
  rfl

/-- A command that ends the app. -/
theorem State.receive_fault
    (result : app.handleCommand command state.ctx.req =
      .error (.fault reason)) :
    state.receive command = .error (.fault reason) := by
  unfold State.receive App.nimiqMain
  rw [result]
  rfl

end Receive
end NimiqApp
