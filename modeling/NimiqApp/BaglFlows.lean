import NimiqApp.Approval
import NimiqApp.MessageDisplay
import NimiqApp.OptionalSteps

/-!
# The flows of the BAGL build

The flows for public keys, transactions and messages, with what their steps
display, write to memory and call back.  As long as what is reviewed stays in
memory, it is known which of their steps are displayed.
-/

namespace NimiqApp
namespace Bagl

open Foundation (FlowEngine Place)

/-- What a step displays.  The step of a message is told apart by how the
message is displayed. -/
inductive Panel
  | screen (screen : Screen)
  | intro
  | messageLength
  | message (displayType : MessageDisplayType)
  | display (displayType : MessageDisplayType)
  deriving DecidableEq, Repr

/-- What is called when a step is validated. -/
inductive Callback
  | approve
  | reject
  | display (displayType : MessageDisplayType)
  deriving DecidableEq, Repr

/-- The callback of the `UX_STEP_CB` and `UX_OPTIONAL_STEP_CB` steps. -/
def Panel.callback : Panel → Option Callback
  | .screen .approve => some .approve
  | .screen .reject => some .reject
  | .display displayType => some (.display displayType)
  | _ => none

/-- What a `UX_STEP_NOCB_INIT` step writes when it is displayed. -/
def Panel.init : Panel → Option MessageStep
  | .messageLength => some .messageLength
  | .message _ => some .message
  | _ => none

/-- `ux_public_key_flow`. -/
def publicKeyFlow (pk : PublicKeyContext) : List (Run ε (Option Panel)) :=
  [pure (some (.screen (.entry ⟨ascii "Address", pk.address⟩))),
    pure (some (.screen .approve)),
    pure (some (.screen .reject))]

/-- The steps of a transaction flow. -/
def FlowStep.panel (transactionLabel : CString) :
    FlowStep ε → Run ε (Option Panel)
  | .transactionType => pure (some (.screen (.confirm transactionLabel)))
  | .entry item value => do
      let item ← item
      let value ← value
      pure (some (.screen (.entry ⟨item, value⟩)))
  | .optional condition item value => do
      let isDisplayed ← condition
      if isDisplayed then
        let item ← item
        let value ← value
        pure (some (.screen (.entry ⟨item, value⟩)))
      else pure none
  | .approve => pure (some (.screen .approve))
  | .reject => pure (some (.screen .reject))

/-- A step with which the way a message is displayed is changed. -/
def displayStep (layout : Layout HashContext)
    (msg : MessageSigningContext layout.Shared)
    (displayType : MessageDisplayType) : Run ε (Option Panel) :=
  if offersMessageStep layout msg (.display displayType) then
    pure (some (.display displayType))
  else pure none

/-- `ux_message_flow`. -/
def messageFlow (layout : Layout HashContext)
    (msg : MessageSigningContext layout.Shared) :
    List (Run ε (Option Panel)) :=
  [pure (some .intro),
    pure (some .messageLength),
    pure (some (.message (layout.displayType msg))),
    displayStep layout msg .ascii,
    displayStep layout msg .hex,
    displayStep layout msg .hash,
    pure (some (.screen .approve)),
    pure (some (.screen .reject))]

/-- The position of `ux_message_flow_message_step`. -/
def messageFlowMessageStep : Nat := 2

/-- The steps of the flow of a review over the memory as it is.  Which flow
it is was decided when the review was launched, as was the label of a
transaction. -/
def flow (app : App) (req : app.layout.Memory) :
    OpenReview app.layout.Shared → List (Run ε (Option Panel))
  | .publicKey _ => publicKeyFlow (app.layout.pk.read req)
  | .transaction tx =>
      (transactionFlow { (app.layout.tx.read req).parsed with
        transactionType := tx.parsed.transactionType }).map
          (FlowStep.panel (transactionLabel tx.parsed.transactionLabelType))
  | .message _ => messageFlow app.layout (app.layout.msg.read req)

/-- The panel of a step is in front of the screens of the others. -/
theorem displayedSteps_cons
    {step : FlowStep ε}
    (displayed : displayedSteps label (step :: steps) = .ok screens) :
    ∃ mark rest, step.panel label = .ok mark ∧
      displayedSteps label steps = .ok rest ∧
      screens.map Panel.screen = mark.toList ++ rest.map Panel.screen := by
  cases step with
  | transactionType =>
      obtain ⟨rest, others, displayed⟩ := Run.bind_eq_ok.mp displayed
      cases displayed
      exact ⟨_, rest, rfl, others, rfl⟩
  | entry item value =>
      obtain ⟨itemText, itemEq, displayed⟩ := Run.bind_eq_ok.mp displayed
      obtain ⟨valueText, valueEq, displayed⟩ := Run.bind_eq_ok.mp displayed
      obtain ⟨rest, others, displayed⟩ := Run.bind_eq_ok.mp displayed
      cases displayed
      subst itemEq valueEq
      exact ⟨_, rest, rfl, others, rfl⟩
  | optional condition item value =>
      obtain ⟨isDisplayed, conditionEq, displayed⟩ :=
        Run.bind_eq_ok.mp displayed
      cases isDisplayed with
      | true =>
          obtain ⟨itemText, itemEq, displayed⟩ := Run.bind_eq_ok.mp displayed
          obtain ⟨valueText, valueEq, displayed⟩ :=
            Run.bind_eq_ok.mp displayed
          obtain ⟨rest, others, displayed⟩ := Run.bind_eq_ok.mp displayed
          cases displayed
          subst conditionEq itemEq valueEq
          exact ⟨_, rest, rfl, others, rfl⟩
      | false =>
          subst conditionEq
          exact ⟨_, screens, rfl, displayed, rfl⟩
  | approve =>
      obtain ⟨rest, others, displayed⟩ := Run.bind_eq_ok.mp displayed
      cases displayed
      exact ⟨_, rest, rfl, others, rfl⟩
  | reject =>
      obtain ⟨rest, others, displayed⟩ := Run.bind_eq_ok.mp displayed
      cases displayed
      exact ⟨_, rest, rfl, others, rfl⟩

/-- A flow whose screens are known is a row in which they are displayed. -/
theorem displayedSteps_row
    {steps : List (FlowStep ε)}
    (displayed : displayedSteps label steps = .ok screens) :
    ∃ row, steps.map (FlowStep.panel label) = known row ∧
      row.reduceOption = screens.map Panel.screen := by
  induction steps generalizing screens with
  | nil =>
      cases displayed
      exact ⟨[], rfl, rfl⟩
  | cons step steps inductionHypothesis =>
      obtain ⟨mark, rest, panelEq, others, screensEq⟩ :=
        displayedSteps_cons displayed
      obtain ⟨row, stepsEq, rowEq⟩ := inductionHypothesis others
      refine ⟨mark :: row, ?_, ?_⟩
      · rw [List.map_cons, stepsEq, panelEq]
        rfl
      · rw [screensEq, ← rowEq]
        cases mark with
        | none => rfl
        | some panel => rfl

/-- The panel with which the way a message is displayed is changed, if the
flow offers it. -/
def offerPanel (layout : Layout HashContext)
    (msg : MessageSigningContext layout.Shared)
    (displayType : MessageDisplayType) : Option Panel :=
  if offersMessageStep layout msg (.display displayType) then
    some (.display displayType)
  else none

/-- The steps of the message flow with what they display. -/
def messageRow (layout : Layout HashContext)
    (msg : MessageSigningContext layout.Shared) : List (Option Panel) :=
  [some .intro, some .messageLength,
    some (.message (layout.displayType msg))] ++
    [.ascii, .hex, .hash].map (offerPanel layout msg) ++
    [some (.screen .approve), some (.screen .reject)]

theorem messageFlow_eq
    (layout : Layout HashContext)
    (msg : MessageSigningContext layout.Shared) :
    (messageFlow layout msg : List (Run ε _)) =
      known (messageRow layout msg) := by
  have offer : ∀ displayType, (displayStep layout msg displayType :
      Run ε _) = .ok (offerPanel layout msg displayType) := by
    intro displayType
    unfold displayStep offerPanel
    split <;> rfl
  unfold messageFlow
  rw [offer, offer, offer]
  rfl

/-- The ways of displaying a message that are offered. -/
theorem offerPanel_reduceOption
    (layout : Layout HashContext)
    (msg : MessageSigningContext layout.Shared)
    (types : List MessageDisplayType) :
    (types.map (offerPanel layout msg)).reduceOption =
      (types.filter fun displayType =>
        offersMessageStep layout msg (.display displayType)).map
          Panel.display := by
  induction types with
  | nil => rfl
  | cons displayType types inductionHypothesis =>
      rw [List.map_cons, List.filter_cons, offerPanel]
      split
      · rw [List.reduceOption_cons_of_some, inductionHypothesis]
        rfl
      · rw [List.reduceOption_cons_of_none, inductionHypothesis]

/-- The ways of displaying a message that its flow offers. -/
def offeredTypes (layout : Layout HashContext)
    (msg : MessageSigningContext layout.Shared) : List MessageDisplayType :=
  [MessageDisplayType.ascii, .hex, .hash].filter fun displayType =>
    offersMessageStep layout msg (.display displayType)

/-- What the message flow displays. -/
theorem messageRow_reduceOption
    (layout : Layout HashContext)
    (msg : MessageSigningContext layout.Shared) :
    (messageRow layout msg).reduceOption =
      [.intro, .messageLength, .message (layout.displayType msg)] ++
        (offeredTypes layout msg).map .display ++
        [.screen .approve, .screen .reject] := by
  unfold messageRow
  rw [List.reduceOption_append, List.reduceOption_append,
    offerPanel_reduceOption]
  rfl

/-- The panels of a review in front of the one with which it is approved: the
address of a key, the title and the entries of a transaction, or the length
of a message, the message in the way it is displayed now and the offers of
other ways. -/
inductive Contents (app : App) (req : app.layout.Memory) :
    OpenReview app.layout.Shared → List Panel → Prop
  | publicKey (pk : PublicKeyContext) :
      Contents app req (.publicKey pk)
        [.screen (.entry ⟨ascii "Address", pk.address⟩)]
  | transaction (tx : TransactionContext)
      (screens : (uiTransactionSigning tx.parsed : Run Empty _) =
        .ok (reviewScreens label entries)) :
      Contents app req (.transaction tx)
        ((.confirm label :: entries.map .entry).map .screen)
  | message (msg : MessageSigningContext app.layout.Shared)
      (offers : List MessageDisplayType) :
      Contents app req (.message msg)
        ([.intro, .messageLength, .message
          (app.layout.displayType (app.layout.msg.read req))] ++
            offers.map .display)

/-- The decision is not part of the contents. -/
theorem Contents.approve_not_mem
    {app : App}
    {req : app.layout.Memory}
    {review : OpenReview app.layout.Shared}
    (contents : Contents app req review panels) :
    .screen .approve ∉ panels := by
  cases contents with
  | publicKey pk => simp
  | transaction tx screens => simp
  | message msg offers => simp

/-- The BAGL build can display every transaction that was parsed. -/
theorem reviewed_screens
    {tx : TransactionContext}
    (reviewed : tx.Reviewed device bytes) :
    ∃ label entries, (uiTransactionSigning tx.parsed : Run ε _) =
      .ok (reviewScreens label entries) := by
  obtain ⟨version, _, accepted, _, _, shown⟩ :=
    (parseTx_eq_ok_iff device).mp reviewed.parsed
  rw [shown]
  exact ⟨_, _, uiTransactionSigning_eq device accepted⟩

/-- The flow of a review that is in memory is a row of the contents and the
decision. -/
theorem flow_row
    {app : App}
    {req : app.layout.Memory}
    {review : OpenReview app.layout.Shared}
    (inMemory : review.InMemory app req) :
    ∃ row panels, (flow app req review : List (Run Empty _)) = known row ∧
      row.reduceOption = panels ++ [.screen .approve, .screen .reject] ∧
      Contents app req review panels := by
  cases review with
  | publicKey pk =>
      obtain ⟨rfl, _⟩ := inMemory
      exact ⟨[_, _, _], _, rfl, rfl, .publicKey _⟩
  | transaction tx =>
      obtain ⟨rfl, bytes, reviewed⟩ := inMemory
      obtain ⟨label, entries, screens⟩ :=
        reviewed_screens (ε := Empty) reviewed
      obtain ⟨row, flowEq, rowEq⟩ := displayedSteps_row screens
      refine ⟨row, _, flowEq, ?_, .transaction _ screens⟩
      rw [rowEq]
      simp [reviewScreens]
  | message msg =>
      exact ⟨_, _, messageFlow_eq _ _, messageRow_reduceOption _ _,
        .message msg _⟩

/-- A way of displaying a message is on a panel only while it is offered. -/
theorem offers_of_mem
    {layout : Layout HashContext}
    {msg : MessageSigningContext layout.Shared}
    (member : .display displayType ∈ (messageRow layout msg).reduceOption) :
    offersMessageStep layout msg (.display displayType) = true := by
  rw [messageRow_reduceOption] at member
  simp only [List.mem_append, List.mem_map] at member
  rcases member with (front | ⟨offered, isOffered, panelEq⟩) | decision
  · simp at front
  · cases panelEq
    exact (List.mem_filter.mp isOffered).2
  · simp at decision

/-- A flow starts at the first step from its start on that is displayed. -/
theorem uxFlowInit_at
    (engine : FlowEngine)
    {row front back : List (Option Panel)}
    (rowEq : row = front ++ (hidden count ++ some panel :: back)) :
    ∃ reached,
      uxFlowInit engine (known row : List (Run ε _)) front.length =
        .ok (some (reached, panel)) ∧
      At engine row reached
        ⟨front.reduceOption, panel, back.reduceOption⟩ := by
  obtain ⟨reached, result, landed⟩ := initStep_forward (ε := ε) rowEq
    (engine.position_init front.length) (engine.direction_init _)
  refine ⟨reached, result, front ++ hidden count, back, ?_, ?_, ?_, rfl⟩
  · rw [rowEq, List.append_assoc]
  · rw [landed, List.length_append, List.length_replicate]
  · rw [List.reduceOption_append, reduceOption_hidden, List.append_nil]

/-- A flow that displays something starts with the first of it. -/
theorem uxFlowInit_first
    (engine : FlowEngine)
    {row : List (Option Panel)}
    (displayed : row.reduceOption = first :: rest) :
    ∃ reached,
      uxFlowInit engine (known row : List (Run ε _)) 0 =
        .ok (some (reached, first)) ∧
      At engine row reached ⟨[], first, rest⟩ := by
  rcases hidden_or_shown row with ⟨count, rfl⟩ | ⟨count, shown, back, rowEq⟩
  · rw [reduceOption_hidden] at displayed
    cases displayed
  · rw [rowEq, List.reduceOption_append, reduceOption_hidden,
      List.nil_append, List.reduceOption_cons_of_some] at displayed
    cases displayed
    have fromStart : row = [] ++ (hidden count ++ some first :: back) := rowEq
    exact uxFlowInit_at engine fromStart

/-- The message flow can start at the step of the message. -/
theorem uxFlowInit_message
    (engine : FlowEngine)
    (layout : Layout HashContext)
    (msg : MessageSigningContext layout.Shared) :
    ∃ reached after,
      uxFlowInit engine (messageFlow layout msg : List (Run ε _))
          messageFlowMessageStep =
        .ok (some (reached, .message (layout.displayType msg))) ∧
      At engine (messageRow layout msg) reached
        ⟨[.intro, .messageLength], .message (layout.displayType msg),
          after⟩ := by
  rw [messageFlow_eq]
  have rowEq : messageRow layout msg = [some .intro, some .messageLength] ++
      (hidden 0 ++ some (.message (layout.displayType msg)) ::
        ([.ascii, .hex, .hash].map (offerPanel layout msg) ++
          [some (.screen .approve), some (.screen .reject)])) := rfl
  obtain ⟨reached, result, isAt⟩ := uxFlowInit_at (ε := ε) engine rowEq
  exact ⟨reached, _, result, isAt⟩

/-- Preparing a message keeps the way in which it is displayed. -/
theorem preparePrintedMessage_displayType
    {layout : Layout HashContext}
    {msg next : MessageSigningContext layout.Shared}
    (prepared : (layout.uxMessageSigningPreparePrintedMessage msg :
      Run ε _) = .ok next) :
    layout.displayType next = layout.displayType msg := by
  have labelled : ∀ label, layout.displayType
      (layout.setPrintedMessageLabel label msg) = layout.displayType msg := by
    intro label
    unfold Layout.displayType Layout.setPrintedMessageLabel
    rw [layout.confirm.read_modify]
  unfold Layout.uxMessageSigningPreparePrintedMessage at prepared
  split at prepared
  · exact (layout.printMessage_displayType prepared).trans (labelled _)
  · exact (layout.printMessage_displayType prepared).trans (labelled _)
  · exact (layout.printMessage_displayType prepared).trans (labelled _)

/-- A step of the message flow changes the way the message is displayed only
if it is one for that. -/
theorem displayMessageStep_displayType
    {app : App}
    {msg next : MessageSigningContext app.layout.Shared}
    (displayed : (displayMessageStep app msg step : Run ε _) = .ok next) :
    app.layout.displayType next =
      (preparedType app.layout msg step).getD
        (app.layout.displayType msg) := by
  cases step with
  | messageLength =>
      unfold displayMessageStep at displayed
      exact app.layout.printMessage_displayType displayed
  | message => exact preparePrintedMessage_displayType displayed
  | display displayType =>
      unfold displayMessageStep App.uiMessageSigning at displayed
      simp only at displayed
      rw [if_pos (Or.inr trivial)] at displayed
      rw [preparePrintedMessage_displayType displayed]
      unfold Layout.displayType Layout.setDisplayType
      rw [app.layout.confirm.read_modify]
      rfl

/-- The message flow is that of the request and of the way in which the
message is displayed. -/
theorem messageRow_congr
    {layout : Layout HashContext}
    {msg next : MessageSigningContext layout.Shared}
    (same : SameRequest msg next)
    (sameType : layout.displayType next = layout.displayType msg) :
    messageRow layout next = messageRow layout msg := by
  have offers : offerPanel layout next = offerPanel layout msg := by
    funext displayType
    unfold offerPanel offersMessageStep canDisplay
    change layout.displayType next = _ at sameType
    unfold Layout.displayType at sameType
    rw [sameType, ← same]
  unfold messageRow
  rw [offers, sameType]

end Bagl
end NimiqApp
