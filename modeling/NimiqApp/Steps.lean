import NimiqApp.Chunks

/-!
# What an event leads to

All that a command or another event can do, with what its handler computed.
Invariants of runs are proved by cases over these, without looking at the
handlers again.
-/

namespace NimiqApp

/-- Every command of the right length and class carries its data. -/
theorem Command.WellFormed.carries
    {command : Command}
    (wellFormed : command.WellFormed)
    (claEq : command.byte offsetCla = cla) :
    ∃ bytes, command.Carries (command.byte offsetIns)
      (command.byte offsetP1) (command.byte offsetP2) bytes := by
  obtain ⟨length, ⟨buffer, size⟩⟩ := command
  rcases buffer with
    _ | ⟨first, _ | ⟨ins, _ | ⟨p1, _ | ⟨p2, _ | ⟨lc, rest⟩⟩⟩⟩⟩
  iterate 5 simp at size
  change first = cla at claEq
  subst claEq
  change ¬(length < 4 + 1 ∨ length ≠ lc.toNat + 5) at wellFormed
  have bound := lc.toNat_lt
  have covered : (rest.take lc.toNat).length = lc.toNat := by
    rw [List.length_take]
    simp only [List.length_cons] at size
    omega
  refine ⟨rest.take lc.toNat, ?_, rest.drop lc.toNat, ?_⟩
  · change length = 5 + (rest.take lc.toNat).length
    omega
  · rw [covered, UInt8.ofNat_toNat, List.append_assoc,
      List.take_append_drop]
    rfl

/-- A command carries one instruction with one piece of data. -/
theorem Command.Carries.unique
    {command : Command}
    (left : command.Carries ins p1 p2 bytes)
    (right : command.Carries otherIns otherP1 otherP2 otherBytes) :
    ins = otherIns ∧ p1 = otherP1 ∧ p2 = otherP2 ∧ bytes = otherBytes := by
  obtain ⟨_, _, insEq, p1Eq, p2Eq, _⟩ := left.header
  obtain ⟨_, _, otherInsEq, otherP1Eq, otherP2Eq, _⟩ := right.header
  refine ⟨insEq.symm.trans otherInsEq, p1Eq.symm.trans otherP1Eq,
    p2Eq.symm.trans otherP2Eq, ?_⟩
  have sizes : bytes.length = otherBytes.length := by
    have leftLength := left.1
    have rightLength := right.1
    omega
  obtain ⟨_, behind, bufferEq⟩ := left
  obtain ⟨_, otherBehind, otherEq⟩ := right
  rw [bufferEq, List.append_assoc, List.append_assoc] at otherEq
  exact (List.append_inj (List.append_inj otherEq rfl).2 sizes).1

/-- No command carries two instructions. -/
theorem Command.Carries.conflict
    {command : Command}
    {conclusion : Prop}
    (left : command.Carries ins p1 p2 bytes)
    (right : command.Carries otherIns otherP1 otherP2 otherBytes)
    (differ : ins ≠ otherIns) :
    conclusion :=
  absurd (left.unique right).1 differ

/-- The review of a public key shows its address. -/
def App.ShowsAddress (app : App) (pk : PublicKeyContext) : Prop :=
  ∃ address,
    printPublicKeyAsAddress app.toDevice
      (copyPublicKey pk.publicKey.val).val = .ok address ∧
    pk = app.ui.uiPublicKey { pk with address }

/-- The ways in which a command is handled, by instruction and, where a
request comes in chunks, by whether more of it is expected. -/
inductive App.Handles (app : App) (command : Command)
    (req : app.layout.Memory) : Handled app → Prop
  | publicKey {p1 p2 : UInt8} {bytes data : List UInt8}
      {pk : PublicKeyContext}
      (carries : command.Carries insGetPublicKey p1 p2 bytes) :
      Handles app command req
        ⟨app.layout.pk.write req pk, .response data⟩
  | publicKeyReview {p1 p2 : UInt8} {bytes : List UInt8}
      {pk : PublicKeyContext}
      (carries : command.Carries insGetPublicKey p1 p2 bytes)
      (shows : app.ShowsAddress pk) :
      Handles app command req
        ⟨app.layout.pk.write req pk, .review (.publicKey pk)⟩
  | transactionMore {p1 : UInt8} {bytes : List UInt8}
      {tx : TransactionContext}
      (carries : command.Carries insSignTx p1 p2More bytes)
      (p1Cases : p1 = p1First ∨ p1 = p1More)
      (chunk : (app.layout.tx.read req).chunk p1 command.buffer.val
        command.data = .ok tx) :
      Handles app command req ⟨app.layout.tx.write req tx, .response []⟩
  | transactionLast {p1 : UInt8} {bytes : List UInt8}
      {tx shown : TransactionContext}
      (carries : command.Carries insSignTx p1 p2Last bytes)
      (p1Cases : p1 = p1First ∨ p1 = p1More)
      (chunk : (app.layout.tx.read req).chunk p1 command.buffer.val
        command.data = .ok tx)
      (review : app.reviewTransaction tx = .ok shown) :
      Handles app command req
        ⟨app.layout.tx.write req shown, .review (.transaction shown)⟩
  | messageMore {p1 : UInt8} {bytes : List UInt8}
      {msg : MessageSigningContext app.layout.Shared}
      (carries : command.Carries insSignMessage p1 p2More bytes)
      (p1Cases : p1 = p1First ∨ p1 = p1More)
      (chunk : app.messageChunk p1 command.buffer.val command.data
        (app.layout.msg.read req) = .ok msg) :
      Handles app command req ⟨app.layout.msg.write req msg, .response []⟩
  | messageLast {p1 : UInt8} {bytes : List UInt8}
      {msg shown : MessageSigningContext app.layout.Shared}
      (carries : command.Carries insSignMessage p1 p2Last bytes)
      (p1Cases : p1 = p1First ∨ p1 = p1More)
      (chunk : app.messageChunk p1 command.buffer.val command.data
        (app.layout.msg.read req) = .ok msg)
      (review : app.reviewMessage msg = .ok shown) :
      Handles app command req
        ⟨app.layout.msg.write req shown, .review (.message shown)⟩
  | keepAlive {p1 p2 : UInt8} {bytes : List UInt8}
      (carries : command.Carries insKeepAlive p1 p2 bytes) :
      Handles app command req ⟨req, .asyncReply⟩

/-- The parameters of chunks are checked. -/
theorem checkChunkParameters_inversion
    (checked : checkChunkParameters p1 p2 = .ok ()) :
    (p1 = p1First ∨ p1 = p1More) ∧ (p2 = p2Last ∨ p2 = p2More) := by
  unfold checkChunkParameters at checked
  have valid := Run.returnOn_eq_ok.mp checked
  simpa only [not_or, not_and_or, not_not, ne_eq] using valid

section Handlers

variable {app : App} {command : Command} {req : app.layout.Memory}
  {handled : Handled app}

/-- A public key is returned at once, or its address is reviewed. -/
theorem App.handleGetPublicKey_handles
    (carries : command.Carries insGetPublicKey p1 p2 bytes)
    (result : app.handleGetPublicKey p1 p2 command.buffer.val command.data
      req = .ok handled) :
    app.Handles command req handled := by
  unfold App.handleGetPublicKey at result
  iterate 7 obtain ⟨_, _, result⟩ := Run.bind_eq_ok.mp result
  obtain ⟨⟨pk, answer⟩, answered, result⟩ := Run.bind_eq_ok.mp result
  cases result
  unfold App.answerGetPublicKey at answered
  split at answered
  · obtain ⟨address, printed, answered⟩ := Run.bind_eq_ok.mp answered
    cases answered
    refine .publicKeyReview carries ?_
    cases uiEq : app.ui with
    | bagl =>
        refine ⟨address, Run.orErrorToSw_eq_ok.mp printed, ?_⟩
        rw [uiEq]
        rfl
    | nbgl =>
        refine ⟨address, Run.orErrorToSw_eq_ok.mp printed, ?_⟩
        rw [uiEq]
        rfl
  · obtain ⟨response, _, answered⟩ := Run.bind_eq_ok.mp answered
    cases answered
    exact .publicKey carries

/-- A chunk of a transaction is collected, or leads to the review. -/
theorem App.handleSignTransaction_handles
    (carries : command.Carries insSignTx p1 p2 bytes)
    (result : app.handleSignTransaction p1 p2 command.buffer.val command.data
      req = .ok handled) :
    app.Handles command req handled := by
  unfold App.handleSignTransaction App.finishTransactionChunk at result
  obtain ⟨_, checked, result⟩ := Run.bind_eq_ok.mp result
  obtain ⟨tx, chunk, result⟩ := Run.bind_eq_ok.mp result
  obtain ⟨p1Cases, p2Cases⟩ := checkChunkParameters_inversion checked
  rcases p2Cases with rfl | rfl
  · rw [if_neg (by decide)] at result
    obtain ⟨shown, review, result⟩ := Run.bind_eq_ok.mp result
    cases result
    exact .transactionLast carries p1Cases chunk review
  · rw [if_pos rfl] at result
    cases result
    exact .transactionMore carries p1Cases chunk

/-- A chunk of a message is hashed, or leads to the review. -/
theorem App.handleSignMessage_handles
    (carries : command.Carries insSignMessage p1 p2 bytes)
    (result : app.handleSignMessage p1 p2 command.buffer.val command.data
      req = .ok handled) :
    app.Handles command req handled := by
  unfold App.handleSignMessage App.finishMessageChunk at result
  obtain ⟨_, checked, result⟩ := Run.bind_eq_ok.mp result
  obtain ⟨msg, chunk, result⟩ := Run.bind_eq_ok.mp result
  obtain ⟨p1Cases, p2Cases⟩ := checkChunkParameters_inversion checked
  rcases p2Cases with rfl | rfl
  · rw [if_neg (by decide)] at result
    obtain ⟨shown, review, result⟩ := Run.bind_eq_ok.mp result
    cases result
    exact .messageLast carries p1Cases chunk review
  · rw [if_pos rfl] at result
    cases result
    exact .messageMore carries p1Cases chunk

/-- A command that is not refused is handled in one of the ways. -/
theorem App.handleCommand_handles
    (result : app.handleCommand command req = .ok handled) :
    app.Handles command req handled := by
  unfold App.handleCommand at result
  obtain ⟨_, checked, result⟩ := Run.bind_eq_ok.mp result
  have wellFormed := not_not.mp (Run.returnOn_eq_ok.mp checked)
  unfold App.handleApdu at result
  obtain ⟨_, claChecked, result⟩ := Run.bind_eq_ok.mp result
  obtain ⟨bytes, carries⟩ :=
    wellFormed.carries (not_not.mp (Run.returnOn_eq_ok.mp claChecked))
  simp only at result
  split_ifs at result with isPublicKey isTransaction isMessage isKeepAlive
  · rw [isPublicKey] at carries
    exact App.handleGetPublicKey_handles carries result
  · rw [isTransaction] at carries
    exact App.handleSignTransaction_handles carries result
  · rw [isMessage] at carries
    exact App.handleSignMessage_handles carries result
  · rw [isKeepAlive] at carries
    cases result
    exact .keepAlive carries
  · cases result

end Handlers

/-- A command with the instruction `INS_KEEP_ALIVE`. -/
def Command.IsKeepAlive (command : Command) : Prop :=
  ∃ p1 p2 bytes, command.Carries insKeepAlive p1 p2 bytes

/-- `INS_KEEP_ALIVE` is always handled. -/
theorem Command.IsKeepAlive.handleCommand
    {app : App}
    {command : Command}
    {req : app.layout.Memory}
    (keepAlive : command.IsKeepAlive) :
    app.handleCommand command req = .ok (app.handleKeepAlive req) := by
  obtain ⟨p1, p2, bytes, carries⟩ := keepAlive
  obtain ⟨_, claEq, insEq, _⟩ := carries.header
  rw [carries.handleApdu]
  unfold App.handleApdu
  rw [claEq, Run.returnOn_of_not (not_not.mpr rfl), Run.bind_ok, insEq]
  rfl

/-- Nothing else is handled as `INS_KEEP_ALIVE` is. -/
theorem App.Handles.keepAlive_inversion
    {app : App}
    {command : Command}
    {req : app.layout.Memory}
    {handled : Handled app}
    (handles : app.Handles command req handled)
    (keepAlive : command.IsKeepAlive) :
    handled = app.handleKeepAlive req := by
  obtain ⟨p1, p2, bytes, carries⟩ := keepAlive
  cases handles with
  | publicKey other => exact other.conflict carries (by decide)
  | publicKeyReview other _ =>
      exact other.conflict carries (by decide)
  | transactionMore other _ _ =>
      exact other.conflict carries (by decide)
  | transactionLast other _ _ _ =>
      exact other.conflict carries (by decide)
  | messageMore other _ _ => exact other.conflict carries (by decide)
  | messageLast other _ _ _ =>
      exact other.conflict carries (by decide)
  | keepAlive other => rfl

/-! ## Events -/

/-- The heartbeat is due at the next tick. -/
def State.HeartbeatDue {app : App} (state : State app) : Prop :=
  state.ctx.u2fTimer = 100

/-- What an event leads to. -/
inductive State.Reacts {app : App} (state : State app) :
    Event → State app → Output app.layout.Shared → Prop
  | handled {command : Command} {handled : Handled app}
      (idle : state.unanswered = false)
      (handles : app.Handles command state.ctx.req handled) :
      Reacts state (.command command)
        ⟨⟨handled.req, u2fRequestTimeout⟩, command.buffer,
          handled.answer.output.launched.or state.review,
          handled.answer.output.reply.isNone⟩ handled.answer.output
  | refused {command : Command} {sw : StatusWord}
      (idle : state.unanswered = false)
      (refuses : app.handleCommand command state.ctx.req =
        .error (.error sw)) :
      Reacts state (.command command)
        ⟨⟨app.layout.zeroed, 0⟩, command.buffer, state.review, false⟩
        (Output.refused sw)
  | heartbeat (due : state.HeartbeatDue) :
      Reacts state (.ticker true)
        { state with
          ctx := ⟨state.ctx.req, 0⟩
          unanswered := false } (Output.refused .keepAlive)
  | tick {isU2f : Bool} (timer : UInt16)
      (early : ¬(isU2f = true ∧ state.HeartbeatDue)) :
      Reacts state (.ticker isU2f)
        { state with ctx := ⟨state.ctx.req, timer⟩ } Output.none
  | approve {review : OpenReview app.layout.Shared} {reply : Reply}
      {req : app.layout.Memory}
      (onScreen : state.review = some review)
      (approved : app.onApproved state.apduBuffer state.ctx.req review =
        .ok (req, reply)) :
      Reacts state .approve
        { state with
          ctx := ⟨req, state.ctx.u2fTimer⟩
          review := none
          unanswered := false } ⟨some reply, none⟩
  | reject {review : OpenReview app.layout.Shared}
      (onScreen : state.review = some review) :
      Reacts state .reject
        { state with
          review := none
          unanswered := false } (Output.refused .deny)
  | messageStep {step : Bagl.MessageStep}
      {launched msg : MessageSigningContext app.layout.Shared}
      (onScreen : state.review = some (.message launched))
      (displayed : (Bagl.displayMessageStep app
        (app.layout.msg.read state.ctx.req) step : Run Empty _) = .ok msg) :
      Reacts state (.messageStep step)
        { state with
          ctx := ⟨app.layout.msg.write state.ctx.req msg,
            state.ctx.u2fTimer⟩ } Output.none
  | restart : Reacts state .restart (State.start app) Output.none

section Events

variable {app : App} {state next : State app}
  {output : Output app.layout.Shared}

/-- A computation that yields a result is successful. -/
theorem Run.toOption_eq_some
    {run : Run ε α} :
    run.toOption = some value ↔ run = .ok value := by
  cases run with
  | error stop => simp [Except.toOption]
  | ok other => simp [Except.toOption]

theorem State.step_command
    (stepped : state.step (.command command) = some (next, output)) :
    state.Reacts (.command command) next output := by
  unfold State.step at stepped
  simp only at stepped
  split at stepped
  · cases stepped
  rename_i idle
  have received := Run.toOption_eq_some.mp stepped
  have idleEq := Bool.eq_false_iff.mpr idle
  rcases result : app.handleCommand command state.ctx.req with
    (sw | reason) | handled
  · rw [State.receive_refused result] at received
    cases received
    exact .refused idleEq result
  · rw [State.receive_fault result] at received
    cases received
  · rw [State.receive_handled handled result] at received
    cases received
    exact .handled idleEq (App.handleCommand_handles result)

/-- When the heartbeat is due, it is sent. -/
theorem tickerEvent_due
    (ctx : GeneralContext Memory)
    (due : ctx.u2fTimer = 100) :
    tickerEvent true ctx =
      (⟨ctx.req, 0⟩, some ⟨[], .keepAlive⟩) := by
  unfold tickerEvent
  rw [due]
  rfl

/-- Otherwise, only the timer changes. -/
theorem tickerEvent_early
    (ctx : GeneralContext Memory)
    (early : ¬(isU2f = true ∧ ctx.u2fTimer = 100)) :
    ∃ timer, tickerEvent isU2f ctx = (⟨ctx.req, timer⟩, none) := by
  unfold tickerEvent
  by_cases counting : isU2f = true ∧ ctx.u2fTimer > 0
  · have running : ctx.u2fTimer - 100 ≠ 0 := by
      intro zero
      refine early ⟨counting.1, ?_⟩
      grind
    rw [if_pos counting]
    simp only
    rw [if_neg running]
    exact ⟨_, rfl⟩
  · rw [if_neg counting]
    exact ⟨_, rfl⟩

theorem State.step_ticker
    (stepped : state.step (.ticker isU2f) = some (next, output)) :
    state.Reacts (.ticker isU2f) next output := by
  change some (state.tick isU2f) = _ at stepped
  by_cases due : isU2f = true ∧ state.HeartbeatDue
  · obtain ⟨rfl, due⟩ := due
    unfold State.tick at stepped
    rw [tickerEvent_due state.ctx due] at stepped
    simp only [Option.isNone_some, Bool.and_false] at stepped
    cases stepped
    exact .heartbeat due
  · obtain ⟨timer, early⟩ := tickerEvent_early state.ctx due
    unfold State.tick at stepped
    rw [early] at stepped
    simp only [Option.isNone_none, Bool.and_true] at stepped
    cases stepped
    exact .tick timer due

theorem State.step_approve
    (stepped : state.step .approve = some (next, output)) :
    state.Reacts .approve next output := by
  unfold State.step at stepped
  simp only [Option.bind_eq_bind, Option.bind_eq_some_iff] at stepped
  obtain ⟨review, onScreen, ⟨req, reply⟩, approved, decided⟩ := stepped
  cases decided
  exact .approve onScreen (Run.toOption_eq_some.mp approved)

theorem State.step_reject
    (stepped : state.step .reject = some (next, output)) :
    state.Reacts .reject next output := by
  unfold State.step at stepped
  simp only [Option.bind_eq_bind, Option.bind_eq_some_iff] at stepped
  obtain ⟨review, onScreen, decided⟩ := stepped
  cases decided
  exact .reject onScreen

theorem State.step_messageStep
    (stepped : state.step (.messageStep shown) = some (next, output)) :
    state.Reacts (.messageStep shown) next output := by
  unfold State.step at stepped
  simp only at stepped
  split at stepped
  · rename_i offered
    have displayed := Run.toOption_eq_some.mp stepped
    unfold State.display at displayed
    obtain ⟨msg, prepared, displayed⟩ := Run.bind_eq_ok.mp displayed
    cases displayed
    unfold State.offers at offered
    split at offered
    · rename_i launched onScreen
      exact .messageStep onScreen prepared
    · cases offered
  · cases stepped

/-- Every step is one of the reactions. -/
theorem State.step_reacts
    (stepped : state.step event = some (next, output)) :
    state.Reacts event next output := by
  cases event with
  | command command => exact State.step_command stepped
  | ticker isU2f => exact State.step_ticker stepped
  | approve => exact State.step_approve stepped
  | reject => exact State.step_reject stepped
  | messageStep step => exact State.step_messageStep stepped
  | restart =>
      cases stepped
      exact .restart

end Events

section Enabled

variable {app : App} {state next : State app}
  {output : Output app.layout.Shared}

/-- A command waits after its turn if there was no reply. -/
theorem State.receive_unanswered
    {command : Command}
    (received : state.receive command = .ok (next, output)) :
    next.unanswered = output.reply.isNone := by
  unfold State.receive at received
  obtain ⟨turn, _, received⟩ := Run.bind_eq_ok.mp received
  cases received
  rfl

/-- A command is received when none waits. -/
theorem State.step_of_receive
    {command : Command}
    (idle : state.unanswered = false)
    (received : state.receive command = .ok (next, output)) :
    app.system.step state (.command command) = some (next, output) := by
  change (if state.unanswered then none else _) = _
  rw [idle, received]
  rfl

/-- A review on the screen is approved. -/
theorem State.step_of_approved
    {review : OpenReview app.layout.Shared}
    {req : app.layout.Memory}
    {reply : Reply}
    (onScreen : state.review = some review)
    (approved : app.onApproved state.apduBuffer state.ctx.req review =
      .ok (req, reply)) :
    app.system.step state .approve =
      some (state.decide req reply) := by
  change state.step .approve = _
  unfold State.step
  simp only [onScreen, Option.bind_eq_bind, Option.bind_some, approved]
  rfl

/-- A tick before the heartbeat is due. -/
theorem State.step_early
    (counting : state.ctx.u2fTimer > 0)
    (early : state.ctx.u2fTimer - 100 ≠ 0) :
    app.system.step state (.ticker true) =
      some ({ state with
        ctx := ⟨state.ctx.req, state.ctx.u2fTimer - 100⟩ }, Output.none) := by
  change some (state.tick true) = _
  unfold State.tick tickerEvent
  rw [if_pos ⟨rfl, counting⟩]
  simp only
  rw [if_neg early]
  simp only [Option.isNone_none, Bool.and_true]
  rfl

/-- The tick at which the heartbeat is due. -/
theorem State.step_heartbeat (due : state.HeartbeatDue) :
    app.system.step state (.ticker true) =
      some ({ state with
        ctx := ⟨state.ctx.req, 0⟩
        unanswered := false }, Output.refused .keepAlive) := by
  change some (state.tick true) = _
  unfold State.tick
  rw [tickerEvent_due state.ctx due]
  simp only [Option.isNone_some, Bool.and_false]
  rfl

/-- Some ticks of U2F in a row that are not replied to. -/
def silentTicks (Shared : Type) (count : Nat) :
    List (Event × Output Shared) :=
  List.replicate count (.ticker true, Output.none)

variable {allowed : List (Event × Output app.layout.Shared) →
    State app → Event → Prop}
  {history : List (Event × Output app.layout.Shared)}

/-- The timer runs down by ticks that are not replied to, until the heartbeat
is due. -/
theorem State.silentTicks
    (quiet : ∀ history (state : State app), ¬state.HeartbeatDue →
      allowed history state (.ticker true))
    (count : Nat)
    (timer : state.ctx.u2fTimer.toNat = 100 * (count + 1)) :
    app.system.Steps allowed history state (NimiqApp.silentTicks _ count)
      { state with ctx := ⟨state.ctx.req, 100⟩ } := by
  induction count generalizing history state with
  | zero =>
      have due : state.ctx.u2fTimer = 100 := UInt16.toNat_inj.mp timer
      rw [← due]
      exact .none
  | succ count inductionHypothesis =>
      have enough : (100 : UInt16) ≤ state.ctx.u2fTimer := by
        rw [UInt16.le_iff_toNat_le, timer]
        change 100 ≤ _
        omega
      have fewer : (state.ctx.u2fTimer - 100).toNat = 100 * (count + 1) := by
        rw [UInt16.toNat_sub_of_le _ _ enough, timer]
        change _ - 100 = _
        omega
      have early : state.ctx.u2fTimer - 100 ≠ 0 := by
        intro zero
        rw [zero] at fewer
        cases fewer
      have counting : state.ctx.u2fTimer > 0 := by
        rw [gt_iff_lt, UInt16.lt_iff_toNat_lt, timer]
        exact Nat.mul_pos (by decide) (Nat.succ_pos _)
      have notDue : ¬state.HeartbeatDue := by
        intro due
        rw [due] at early
        exact early rfl
      exact .one (quiet _ _ notDue) (State.step_early counting early)
        (inductionHypothesis fewer)

/-- `INS_KEEP_ALIVE` with no data. -/
def keepAliveCommand : Command :=
  .carrying insKeepAlive 0 0 [] Command.noData_length

theorem keepAliveCommand_isKeepAlive :
    keepAliveCommand.IsKeepAlive :=
  ⟨0, 0, [], Command.carrying_carries _⟩

/-- A wait that ends with a heartbeat and is taken up again. -/
def renewal (Shared : Type) : List (Event × Output Shared) :=
  silentTicks Shared 279 ++
    [(.ticker true, Output.refused .keepAlive),
      (.command keepAliveCommand, Output.none)]

/-- The state after the wait was renewed. -/
def State.renewed (state : State app) : State app :=
  { state with
    ctx := ⟨state.ctx.req, u2fRequestTimeout⟩
    apduBuffer := keepAliveCommand.buffer
    unanswered := true }

/-- A command that waits can be renewed, and nothing else changes. -/
theorem State.renews
    (timer : state.ctx.u2fTimer = u2fRequestTimeout)
    (quiet : ∀ history (state : State app), ¬state.HeartbeatDue →
      allowed history state (.ticker true))
    (beats : allowed (history ++ NimiqApp.silentTicks _ 279)
      { state with ctx := ⟨state.ctx.req, 100⟩ } (.ticker true))
    (continues : ∀ history, allowed history
      { state with
        ctx := ⟨state.ctx.req, 0⟩
        unanswered := false } (.command keepAliveCommand)) :
    app.system.Steps allowed history state (renewal _) state.renewed := by
  have ticks : app.system.Steps allowed history state _ _ :=
    State.silentTicks quiet 279 (by rw [timer]; rfl)
  refine ticks.append (.one beats (State.step_heartbeat rfl) ?_)
  refine .single (continues _) (State.step_of_receive rfl ?_)
  exact State.receive_handled _ keepAliveCommand_isKeepAlive.handleCommand

end Enabled
end NimiqApp
