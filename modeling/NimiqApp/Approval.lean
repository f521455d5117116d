import NimiqApp.ReviewAgreement
import NimiqApp.StakerSignature
import NimiqApp.Steps
import NimiqApp.TransactionLength

/-!
# What is approved

An approval acts on the memory of requests as it is then, not as it was when
the review was launched.  A review stays on the screen when its command was
answered with a heartbeat, and other commands may follow.
-/

namespace NimiqApp

open Foundation.System (anyEvent)

/-- The memory holds what the review was launched for: the key whose address
is shown, the transaction that was parsed, or the request with the hashes of
the message. -/
def OpenReview.InMemory (app : App) (req : app.layout.Memory) :
    OpenReview app.layout.Shared → Prop
  | .publicKey pk => app.layout.pk.read req = pk ∧ app.ShowsAddress pk
  | .transaction tx => app.layout.tx.read req = tx ∧
      ∃ bytes, tx.Reviewed app.toDevice bytes
  | .message msg => SameRequest msg (app.layout.msg.read req)

/-- The reply to the approval of what a review was launched for. -/
def OpenReview.approvalReply (app : App) (buffer : ApduBuffer) :
    OpenReview app.layout.Shared → Run Empty Reply
  | .publicKey pk => onAddressApproved pk
  | .transaction tx => (app.onTransactionApproved tx buffer).map Prod.snd
  | .message msg => app.onMessageApproved msg

/-- A review was launched, and since then no other one was, and no command
but `INS_KEEP_ALIVE` was processed. -/
def Undisturbed (history : List (Event × Output Shared))
    (review : OpenReview Shared) : Prop :=
  ∃ before event output after,
    history = before ++ (event, output) :: after ∧
    output.launched = some review ∧
    ∀ step ∈ after, step.2.launched = none ∧
      ∀ command, step.1 = .command command → command.IsKeepAlive

/-- A review that was launched is not disturbed by a renewal of the wait. -/
theorem Undisturbed.of_renewal
    {output : Output Shared}
    (history : List (Event × Output Shared))
    (event : Event)
    (launched : output.launched = some review) :
    Undisturbed (history ++ (event, output) :: renewal Shared) review := by
  refine ⟨history, event, output, renewal Shared, rfl, launched, ?_⟩
  intro step member
  rcases List.mem_append.mp member with isTick | isLast
  · rw [List.eq_of_mem_replicate isTick]
    exact ⟨rfl, nofun⟩
  rcases List.mem_pair.mp isLast with rfl | rfl
  · exact ⟨rfl, nofun⟩
  · refine ⟨rfl, ?_⟩
    rintro command ⟨⟩
    exact keepAliveCommand_isKeepAlive

/-- The last step launched the review, or did not disturb it. -/
theorem Undisturbed.last
    {history : List (Event × Output Shared)}
    (undisturbed : Undisturbed (history ++ [(event, output)]) review) :
    output.launched = some review ∨
      Undisturbed history review ∧ output.launched = none ∧
        ∀ command, event = .command command → command.IsKeepAlive := by
  obtain ⟨before, first, launch, after, split, launched, silent⟩ :=
    undisturbed
  rcases List.eq_nil_or_concat after with rfl | ⟨middle, last, rfl⟩
  · obtain ⟨_, same⟩ := List.append_inj' split rfl
    cases same
    exact Or.inl launched
  · rw [List.concat_eq_append, ← List.cons_append, ← List.append_assoc]
      at split
    obtain ⟨historyEq, same⟩ := List.append_inj' split rfl
    cases same
    have lastSilent := silent (event, output) (by simp)
    refine Or.inr ⟨⟨before, first, launch, middle, historyEq, launched, ?_⟩,
      lastSilent⟩
    intro step member
    exact silent step (by simp [member])

section Approval

variable {app : App} {history : List (Event × Output app.layout.Shared)}
  {state next : State app} {output : Output app.layout.Shared}
  {review : OpenReview app.layout.Shared}

/-- A review that is launched is in memory and on the screen. -/
theorem State.Reacts.launched_inMemory
    (reacts : state.Reacts event next output)
    (launched : output.launched = some review) :
    next.review = some review ∧ review.InMemory app next.ctx.req := by
  cases reacts with
  | handled idle handles =>
      cases handles with
      | publicKey carries => cases launched
      | publicKeyReview carries shows =>
          cases launched
          exact ⟨rfl, app.layout.pk.read_write _ _, shows⟩
      | transactionMore carries p1Cases chunk => cases launched
      | transactionLast carries p1Cases chunk started =>
          cases launched
          exact ⟨rfl, app.layout.tx.read_write _ _,
            (App.reviewTransaction_reviewed started).2⟩
      | messageMore carries p1Cases chunk => cases launched
      | messageLast carries p1Cases chunk started =>
          cases launched
          refine ⟨rfl, ?_⟩
          unfold OpenReview.InMemory
          rw [app.layout.msg.read_write]
          exact SameRequest.refl _
      | keepAlive carries => cases launched
  | refused idle refuses => cases launched
  | heartbeat due => cases launched
  | tick timer early => cases launched
  | approve onScreen approved => cases launched
  | reject onScreen => cases launched
  | messageStep onScreen displayed => cases launched
  | restart => cases launched

/-- A review that stays on the screen stays in memory, if no command but
`INS_KEEP_ALIVE` is processed. -/
theorem State.Reacts.keeps_inMemory
    (reacts : state.Reacts event next output)
    (silent : output.launched = none)
    (keepAlive : ∀ command, event = .command command → command.IsKeepAlive)
    (onScreen : next.review = some review)
    (inMemory : ∀ current, state.review = some current →
      current = launched ∧ launched.InMemory app state.ctx.req) :
    review = launched ∧ launched.InMemory app next.ctx.req := by
  cases reacts with
  | handled idle handles =>
      cases handles.keepAlive_inversion (keepAlive _ rfl)
      exact inMemory review onScreen
  | refused idle refuses =>
      rw [(keepAlive _ rfl).handleCommand] at refuses
      cases refuses
  | heartbeat due => exact inMemory review onScreen
  | tick timer early => exact inMemory review onScreen
  | approve _ approved => cases onScreen
  | reject _ => cases onScreen
  | messageStep isMessage displayed =>
      obtain ⟨rfl, same⟩ := inMemory _ isMessage
      refine ⟨Option.some.inj (onScreen.symm.trans isMessage), ?_⟩
      unfold OpenReview.InMemory at same ⊢
      rw [app.layout.msg.read_write]
      exact same.trans (Bagl.displayMessageStep_sameRequest displayed)
  | restart => cases onScreen

/-- An undisturbed review that is still on the screen is in memory. -/
def KeepsReview (history : List (Event × Output app.layout.Shared))
    (state : State app) : Prop :=
  ∀ launched current, Undisturbed history launched →
    state.review = some current →
      current = launched ∧ launched.InMemory app state.ctx.req

theorem KeepsReview.step
    (keeps : KeepsReview history state)
    (reacts : state.Reacts event next output) :
    KeepsReview (history ++ [(event, output)]) next := by
  intro launched current undisturbed onScreen
  rcases undisturbed.last with isNew | ⟨before, silent, keepAlive⟩
  · obtain ⟨shown, inMemory⟩ := reacts.launched_inMemory isNew
    exact ⟨Option.some.inj (onScreen.symm.trans shown), inMemory⟩
  · exact reacts.keeps_inMemory silent keepAlive onScreen
      fun other isOther => keeps launched other before isOther

theorem KeepsReview.of_run
    (run : app.system.Run anyEvent history state) :
    KeepsReview history state := by
  refine run.invariant ?_ ?_
  · rintro launched current ⟨_, _, _, _, split, _⟩
    exact absurd split (by simp)
  · intro history state event next output keeps _ stepped
    exact keeps.step (State.step_reacts stepped)

/-- What is in memory decides on the reply to an approval. -/
theorem OpenReview.InMemory.approvalReply
    (inMemory : review.InMemory app state.ctx.req)
    (approved : app.onApproved state.apduBuffer state.ctx.req review =
      .ok (req, reply)) :
    review.approvalReply app state.apduBuffer = .ok reply := by
  cases review with
  | publicKey pk =>
      obtain ⟨rfl, _⟩ := inMemory
      obtain ⟨replied, result, approved⟩ := Run.bind_eq_ok.mp approved
      cases approved
      exact result
  | transaction tx =>
      obtain ⟨rfl, _⟩ := inMemory
      obtain ⟨⟨after, replied⟩, result, approved⟩ :=
        Run.bind_eq_ok.mp approved
      cases approved
      change (app.onTransactionApproved _ _).map Prod.snd = _
      rw [result]
      rfl
  | message msg =>
      obtain ⟨replied, result, approved⟩ := Run.bind_eq_ok.mp approved
      cases approved
      change app.onMessageApproved msg = _
      rw [Sdk.onMessageApproved_sameRequest inMemory]
      exact result

end Approval

section Transactions

variable {app : App} {state next : State app}
  {output : Output app.layout.Shared}
  {review : OpenReview app.layout.Shared}

/-- The command that launched a review waits, and its timer is set. -/
theorem State.Reacts.launched_waits
    (reacts : state.Reacts (.command command) next output)
    (launched : output.launched = some review) :
    next.ctx.u2fTimer = u2fRequestTimeout ∧ next.unanswered = true := by
  cases reacts with
  | handled idle handles =>
      refine ⟨rfl, ?_⟩
      cases handles with
      | publicKey carries => cases launched
      | transactionMore carries p1Cases chunk => cases launched
      | messageMore carries p1Cases chunk => cases launched
      | keepAlive carries => rfl
      | publicKeyReview carries shows => rfl
      | transactionLast carries p1Cases chunk started => rfl
      | messageLast carries p1Cases chunk started => rfl
  | refused idle refuses => cases launched

/-- A review that is launched by the first command can be renewed. -/
theorem State.launched_renews
    {allowed : List (Event × Output app.layout.Shared) →
      State app → Event → Prop}
    {launched : State app}
    (received : (State.start app).receive command = .ok (launched, output))
    (isReview : output.launched = some review)
    (launches : allowed [] app.system.start (.command command))
    (quiet : ∀ history (state : State app), ¬state.HeartbeatDue →
      allowed history state (.ticker true))
    (beats : ∀ history state, app.system.Run allowed history state →
      state.unanswered = true → allowed history state (.ticker true))
    (continues : ∀ history (state : State app), state.review.isSome →
      allowed history state (.command keepAliveCommand)) :
    app.system.Run allowed ((.command command, output) :: renewal _)
      launched.renewed := by
  have stepped := State.step_of_receive rfl received
  have reacts : (State.start app).Reacts (.command command) launched output :=
    State.step_reacts stepped
  obtain ⟨timer, waits⟩ := reacts.launched_waits isReview
  obtain ⟨onScreen, _⟩ := reacts.launched_inMemory isReview
  have run : app.system.Run allowed [(.command command, output)] launched :=
    .step .start launches stepped
  have ticked : app.system.Steps allowed [(.command command, output)]
      launched _ _ := State.silentTicks quiet 279 (by rw [timer]; rfl)
  have renewed := State.renews timer quiet
    (beats _ _ (ticked.run run) waits)
    fun history => continues history _ (by rw [onScreen]; rfl)
  exact renewed.run run

/-- A transaction that is accepted is reviewed by the BAGL build. -/
theorem State.receive_accepted
    {command : Command}
    {version : TransactionVersion}
    (accepted : AcceptedTransaction version)
    (state : State app)
    (isBagl : app.ui = .bagl)
    (hashable : accepted.content.Hashable app.toDevice)
    (carries : command.Carries insSignTx p1First p2Last
      (bip32PathBytes path ++ version.code :: accepted.tx.encode))
    (validPath : ValidPath path) :
    ∃ next tx,
      state.receive command = .ok (next, ⟨none, some (.transaction tx)⟩) ∧
      next.review = some (.transaction tx) ∧
      app.layout.tx.read next.ctx.req = tx ∧
      tx.Collected path version.code accepted.tx.encode ∧
      tx.parsed = accepted.shown app.toDevice := by
  have outcome := state.receive_transactionSingle carries validPath
    accepted.encode_length_bounds.2
  unfold App.TransactionOutcome at outcome
  rw [App.parseForReview_accepted accepted isBagl hashable] at outcome
  exact outcome

/-- A transaction without a staker is signed as it is in memory. -/
theorem State.step_approved_plain
    {privateKey : app.PrivateKey}
    {sign : List UInt8 → Bytes 64}
    (onScreen : state.review = some (.transaction tx))
    (collected :
      (app.layout.tx.read state.ctx.req).Collected path version bytes)
    (notStaking : (app.layout.tx.read state.ctx.req).parsed.transactionType ≠
      .stakingIncoming)
    (derived : app.derivePrivateKey path = some privateKey)
    (signs : ∀ message, app.eddsaSign privateKey message =
      some (sign message)) :
    ∃ next, app.system.step state .approve =
      some (next, ⟨some ⟨(sign bytes).val, .ok⟩, none⟩) := by
  have noProof : ((app.layout.tx.read state.ctx.req).emptyStakerProof :
      Run Interruption _) = .ok none := by
    unfold TransactionContext.emptyStakerProof
    rw [if_neg notStaking]
    rfl
  have signed := onTransactionApproved_plain
    (collected.bip32Path ▸ derived) signs collected.signedBytes noProof
    state.apduBuffer
  have approved : app.onApproved state.apduBuffer state.ctx.req
      (.transaction tx) =
        .ok (state.ctx.req, ⟨(sign bytes).val, .ok⟩) := by
    change app.approveTransaction _ _ = _
    unfold App.approveTransaction
    simp only [signed, Run.bind_ok, if_true]
    rfl
  exact ⟨_, State.step_of_approved onScreen approved⟩

end Transactions

section Approved

variable {app : App} {history : List (Event × Output app.layout.Shared)}
  {state next : State app} {output : Output app.layout.Shared}
  {review : OpenReview app.layout.Shared}

/-- If nothing but `INS_KEEP_ALIVE` was processed since a review was
launched, its approval finds what was reviewed in memory, and replies with
the key or the signature for that. -/
theorem approved_isReviewed
    (run : app.system.Run anyEvent history state)
    (undisturbed : Undisturbed history review)
    (approved : app.system.step state .approve = some (next, output)) :
    state.review = some review ∧ review.InMemory app state.ctx.req ∧
      ∃ reply, review.approvalReply app state.apduBuffer = .ok reply ∧
        output.reply = some reply := by
  have reacts : state.Reacts .approve next output :=
    State.step_reacts approved
  cases reacts with
  | approve onScreen result =>
      obtain ⟨rfl, inMemory⟩ :=
        KeepsReview.of_run run _ _ undisturbed onScreen
      exact ⟨onScreen, inMemory, _, inMemory.approvalReply result, rfl⟩

end Approved

/-- The app that signs the samples. -/
def disturbedApp : App :=
  sampleApp .bagl sampleSign fun _ => Bytes.zero

set_option maxRecDepth 2000 in
theorem reviewedTransaction_short :
    (bip32PathBytes samplePath ++
      0 :: acceptedVestingCreation.tx.encode).length ≤ 255 := by
  decide

/-- A command for the review of the creation of a vesting contract. -/
def reviewedCommand : Command :=
  .carrying insSignTx p1First p2Last _ reviewedTransaction_short

/-- The review of the sample is launched, and its wait is renewed. -/
def renewedReview (tx : TransactionContext) :
    List (Event × Output disturbedApp.layout.Shared) :=
  (.command reviewedCommand, ⟨none, some (.transaction tx)⟩) :: renewal _

/-- After the renewal, the sample is still on the screen and in memory, and
can be signed. -/
theorem renewedReview_run
    {allowed : List (Event × Output disturbedApp.layout.Shared) →
      State disturbedApp → Event → Prop}
    (launches : allowed [] disturbedApp.system.start
      (.command reviewedCommand))
    (quiet : ∀ history (state : State disturbedApp), ¬state.HeartbeatDue →
      allowed history state (.ticker true))
    (beats : ∀ history state, disturbedApp.system.Run allowed history state →
      state.unanswered = true → allowed history state (.ticker true))
    (continues : ∀ history (state : State disturbedApp),
      state.review.isSome → allowed history state
        (.command keepAliveCommand)) :
    ∃ (state next : State disturbedApp) (tx : TransactionContext),
      disturbedApp.system.Run allowed (renewedReview tx) state ∧
      state.unanswered = true ∧
      tx.Collected samplePath 0 acceptedVestingCreation.tx.encode ∧
      disturbedApp.system.step state .approve =
        some (next, ⟨some ⟨(sampleSign
          acceptedVestingCreation.tx.encode).val, .ok⟩, none⟩) := by
  obtain ⟨launched, tx, received, onScreen, inMemory, collected, parsed⟩ :=
    State.receive_accepted acceptedVestingCreation (State.start disturbedApp)
      rfl trivial (Command.carrying_carries reviewedTransaction_short)
      (by decide)
  have run := State.launched_renews received rfl launches quiet beats
    continues
  have stays : launched.renewed.review = some (.transaction tx) := onScreen
  have memory : disturbedApp.layout.tx.read launched.renewed.ctx.req = tx :=
    inMemory
  obtain ⟨next, signed⟩ := State.step_approved_plain stays
    (memory.symm ▸ collected) (by rw [memory, parsed]; decide) rfl
    (fun _ => rfl)
  exact ⟨_, next, tx, run, rfl, collected, signed⟩

/-- A transaction is signed as it was reviewed, although a heartbeat was sent
and the wait taken up again in between. -/
theorem approved_isReviewed_vesting :
    ∃ (state next : State disturbedApp) (tx : TransactionContext)
        (reply : Reply),
      disturbedApp.system.Run anyEvent (renewedReview tx) state ∧
      state.review = some (.transaction tx) ∧
      tx.Collected samplePath 0 acceptedVestingCreation.tx.encode ∧
      OpenReview.InMemory disturbedApp state.ctx.req (.transaction tx) ∧
      OpenReview.approvalReply disturbedApp state.apduBuffer
        (.transaction tx) = .ok reply ∧
      disturbedApp.system.step state .approve =
        some (next, ⟨some reply, none⟩) := by
  obtain ⟨state, next, tx, run, _, collected, signed⟩ :=
    @renewedReview_run anyEvent trivial (fun _ _ _ => trivial)
      (fun _ _ _ _ => trivial) (fun _ _ _ => trivial)
  obtain ⟨onScreen, stays, reply, result, replied⟩ :=
    approved_isReviewed run (Undisturbed.of_renewal [] _ rfl) signed
  cases replied
  exact ⟨state, next, tx, _, run, onScreen, collected, stays, result, signed⟩

section Disturbed

variable {app : App} {history : List (Event × Output app.layout.Shared)}
  {state next : State app} {output : Output app.layout.Shared}
  {review : OpenReview app.layout.Shared}

/-- A first chunk leaves what was parsed before. -/
theorem TransactionContext.first_frame
    {tx next : TransactionContext}
    (result : tx.first buffer data = .ok next) :
    next.parsed = tx.parsed := by
  unfold TransactionContext.first at result
  obtain ⟨_, _, result⟩ := Run.bind_eq_ok.mp result
  obtain ⟨_, _, result⟩ := Run.bind_eq_ok.mp result
  obtain ⟨_, _, result⟩ := Run.bind_eq_ok.mp result
  obtain ⟨_, _, result⟩ := Run.bind_eq_ok.mp result
  obtain ⟨_, _, result⟩ := Run.bind_eq_ok.mp result
  cases result
  rfl

/-- While a review stays on the screen after a heartbeat, a chunk of another
transaction takes the place of what was reviewed, and is what is signed. -/
theorem disturbed_signed
    {command : Command}
    {privateKey : app.PrivateKey}
    {sign : List UInt8 → Bytes 64}
    (run : app.system.Run anyEvent history state)
    (idle : state.unanswered = false)
    (onScreen : state.review = some (.transaction tx))
    (notStaking : (app.layout.tx.read state.ctx.req).parsed.transactionType ≠
      .stakingIncoming)
    (carries : command.Carries insSignTx p1First p2More
      (bip32PathBytes path ++ version :: bytes))
    (validPath : ValidPath path)
    (short : bytes.length ≤ maxRawTx)
    (derived : app.derivePrivateKey path = some privateKey)
    (signs : ∀ message, app.eddsaSign privateKey message =
      some (sign message)) :
    ∃ later approved next,
      app.system.Run anyEvent later approved ∧
      approved.review = some (.transaction tx) ∧
      (app.layout.tx.read approved.ctx.req).Collected path version bytes ∧
      app.system.step approved .approve =
        some (next, ⟨some ⟨(sign bytes).val, .ok⟩, none⟩) := by
  obtain ⟨other, collects, collected⟩ :=
    state.collects_first carries validPath short
  have received := State.receive_handled _
    (carries.handle_transactionMore (Or.inl rfl) collects)
  obtain ⟨middle, taken, stays, memory⟩ : ∃ middle,
      app.system.step state (.command command) =
        some (middle, Output.accepted) ∧
      middle.review = state.review ∧
      app.layout.tx.read middle.ctx.req = other :=
    ⟨_, State.step_of_receive idle received, rfl,
      app.layout.tx.read_write _ _⟩
  rw [onScreen] at stays
  rw [← memory] at collected
  have otherNotStaking : (app.layout.tx.read
      middle.ctx.req).parsed.transactionType ≠ .stakingIncoming := by
    rw [memory, TransactionContext.first_frame collects]
    exact notStaking
  obtain ⟨next, signed⟩ := State.step_approved_plain stays collected
    otherNotStaking derived signs
  exact ⟨_, middle, next, run.step trivial taken, stays, collected, signed⟩

/-- One transaction is reviewed, and after a heartbeat another one that was
never parsed is signed by its approval. -/
theorem unreviewed_signed
    {version : TransactionVersion}
    {reviewed unreviewed : Command}
    {privateKey : app.PrivateKey}
    {sign : List UInt8 → Bytes 64}
    (accepted : AcceptedTransaction version)
    (isBagl : app.ui = .bagl)
    (hashable : accepted.content.Hashable app.toDevice)
    (notStaking : (accepted.shown app.toDevice).transactionType ≠
      .stakingIncoming)
    (carries : reviewed.Carries insSignTx p1First p2Last
      (bip32PathBytes path ++ version.code :: accepted.tx.encode))
    (otherCarries : unreviewed.Carries insSignTx p1First p2More
      (bip32PathBytes path ++ otherVersion :: bytes))
    (validPath : ValidPath path)
    (short : bytes.length ≤ maxRawTx)
    (derived : app.derivePrivateKey path = some privateKey)
    (signs : ∀ message, app.eddsaSign privateKey message =
      some (sign message)) :
    ∃ history state tx next,
      app.system.Run anyEvent history state ∧
      state.review = some (.transaction tx) ∧
      tx.Collected path version.code accepted.tx.encode ∧
      (app.layout.tx.read state.ctx.req).Collected path otherVersion bytes ∧
      app.system.step state .approve =
        some (next, ⟨some ⟨(sign bytes).val, .ok⟩, none⟩) := by
  obtain ⟨launched, tx, received, onScreen, inMemory, collected, parsed⟩ :=
    State.receive_accepted accepted (State.start app) isBagl hashable
      carries validPath
  have stepped := State.step_of_receive rfl received
  have reacts : (State.start app).Reacts (.command reviewed) launched
      ⟨none, some (.transaction tx)⟩ := State.step_reacts stepped
  obtain ⟨timer, waits⟩ := reacts.launched_waits rfl
  have run : app.system.Run anyEvent _ launched :=
    .step .start trivial stepped
  have ticked := (State.silentTicks (fun _ _ _ => trivial) 279
    (by rw [timer]; rfl)).run run
  obtain ⟨last, approved, next, finalRun, stays, other, signed⟩ :=
    disturbed_signed (ticked.step trivial (State.step_heartbeat rfl)) rfl
      onScreen (by rwa [inMemory, parsed])
      otherCarries validPath short derived signs
  exact ⟨last, approved, tx, next, finalRun, stays, collected, other, signed⟩

end Disturbed

theorem unreviewedTransaction_short :
    (bip32PathBytes samplePath ++ 1 :: sampleTransactionBytes).length ≤
      255 := by
  rw [List.length_append, List.length_cons, sampleTransactionBytes_length]
  decide

/-- The creation of a vesting contract is reviewed, and the creation of a
staker is signed instead. -/
theorem unreviewed_approved :
    ∃ history state tx next,
      disturbedApp.system.Run anyEvent history state ∧
      state.review = some (.transaction tx) ∧
      tx.Collected samplePath 0 acceptedVestingCreation.tx.encode ∧
      (disturbedApp.layout.tx.read state.ctx.req).Collected samplePath 1
        sampleTransactionBytes ∧
      disturbedApp.system.step state .approve =
        some (next,
          ⟨some ⟨(sampleSign sampleTransactionBytes).val, .ok⟩, none⟩) ∧
      ¬OpenReview.InMemory disturbedApp state.ctx.req (.transaction tx) := by
  obtain ⟨history, state, tx, next, run, onScreen, collected, other,
    signed⟩ := unreviewed_signed acceptedVestingCreation
      (rfl : disturbedApp.ui = .bagl) trivial (by decide)
      (Command.carrying_carries reviewedTransaction_short)
      (Command.carrying_carries unreviewedTransaction_short) (by decide)
      (by rw [sampleTransactionBytes_length]; decide) rfl (fun _ => rfl)
  refine ⟨history, state, tx, next, run, onScreen, collected, other, signed,
    ?_⟩
  rintro ⟨same, _⟩
  rw [same] at other
  exact absurd (collected.transactionVersion.symm.trans
    other.transactionVersion) (by decide)

end NimiqApp
