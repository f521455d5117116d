import NimiqApp.Grammar

/-!
# The transaction review

What the two user interfaces show of a parsed transaction: the flow of the
BAGL build and the review entries of the NBGL build, both with the entries
that the `ux_transaction_*` predicates skip.  A union member is read where it
is shown, and reading one that was not written is a fault.
-/

namespace NimiqApp

namespace ParsedTx

/-- `PARSED_TX_NORMAL_OR_STAKING_OUTGOING`. -/
def normalOrStakingOutgoingTx (parsed : ParsedTx) :
    Run ε TxDataNormalOrStakingOutgoing :=
  match parsed.typeSpecific with
  | .normalOrStakingOutgoingTx tx => pure tx
  | _ => Run.fault .wrongMember

/-- `PARSED_TX_HTLC_CREATION`. -/
def htlcCreationTx (parsed : ParsedTx) : Run ε TxDataHtlcCreation :=
  match parsed.typeSpecific with
  | .htlcCreationTx tx => pure tx
  | _ => Run.fault .wrongMember

/-- `PARSED_TX_VESTING_CREATION`. -/
def vestingCreationTx (parsed : ParsedTx) : Run ε TxDataVestingCreation :=
  match parsed.typeSpecific with
  | .vestingCreationTx tx => pure tx
  | _ => Run.fault .wrongMember

/-- `PARSED_TX_STAKING_INCOMING`. -/
def stakingIncomingTx (parsed : ParsedTx) : Run ε TxDataStakingIncoming :=
  match parsed.typeSpecific with
  | .stakingIncomingTx tx => pure tx
  | _ => Run.fault .wrongMember

/-- `create_staker_or_update_staker.delegation`. -/
def delegation (parsed : ParsedTx) : Run ε CString := do
  let tx ← parsed.stakingIncomingTx
  match tx.typeSpecific with
  | .createStakerOrUpdateStaker delegation _ => pure delegation
  | _ => Run.fault .wrongMember

/-- `create_staker_or_update_staker.update_staker_reactivate_all_stake`. -/
def updateStakerReactivateAllStake (parsed : ParsedTx) : Run ε CString := do
  let tx ← parsed.stakingIncomingTx
  match tx.typeSpecific with
  | .createStakerOrUpdateStaker _ reactivateAllStake =>
      pure reactivateAllStake
  | _ => Run.fault .wrongMember

/-- `set_active_stake_or_retire_stake.amount`. -/
def setActiveStakeOrRetireStakeAmount (parsed : ParsedTx) :
    Run ε CString := do
  let tx ← parsed.stakingIncomingTx
  match tx.typeSpecific with
  | .setActiveStakeOrRetireStake amount => pure amount
  | _ => Run.fault .wrongMember

end ParsedTx

namespace UxTransaction

/-- `ux_transaction_generic_has_amount_entry`. -/
def genericHasAmountEntry (parsed : ParsedTx) : Run ε Bool :=
  pure (parsed.value ≠ ascii "0 NIM")

/-- `ux_transaction_generic_has_fee_entry`. -/
def genericHasFeeEntry (parsed : ParsedTx) : Run ε Bool :=
  pure (parsed.fee ≠ ascii "0 NIM")

/-- `ux_transaction_normal_or_staking_outgoing_has_data_entry`. -/
def normalOrStakingOutgoingHasDataEntry (parsed : ParsedTx) :
    Run ε Bool := do
  let tx ← parsed.normalOrStakingOutgoingTx
  pure (tx.extraData.length ≠ 0)

/-- `ux_transaction_htlc_creation_has_refund_address_entry`. -/
def htlcCreationHasRefundAddressEntry (parsed : ParsedTx) : Run ε Bool := do
  let tx ← parsed.htlcCreationTx
  pure (!tx.isRefundAddressSenderAddress)

/-- `ux_transaction_htlc_creation_has_hash_algorithm_entry`. -/
def htlcCreationHasHashAlgorithmEntry (parsed : ParsedTx) : Run ε Bool := do
  let tx ← parsed.htlcCreationTx
  pure (!tx.isRefundAddressSenderAddress || !tx.isTimingOutSoon ||
    !tx.isUsingSha256)

/-- `ux_transaction_htlc_creation_has_hash_count_entry`. -/
def htlcCreationHasHashCountEntry (parsed : ParsedTx) : Run ε Bool := do
  let tx ← parsed.htlcCreationTx
  pure (tx.hashCount ≠ ascii "1" &&
    (!tx.isRefundAddressSenderAddress || !tx.isTimingOutSoon))

/-- `ux_transaction_htlc_creation_has_timeout_entry`. -/
def htlcCreationHasTimeoutEntry (parsed : ParsedTx) : Run ε Bool := do
  let tx ← parsed.htlcCreationTx
  pure (!tx.isRefundAddressSenderAddress || !tx.isTimingOutSoon)

/-- `ux_transaction_vesting_creation_has_owner_address_entry`. -/
def vestingCreationHasOwnerAddressEntry (parsed : ParsedTx) :
    Run ε Bool := do
  let tx ← parsed.vestingCreationTx
  pure (!tx.isOwnerAddressSenderAddress)

/-- `ux_transaction_vesting_creation_has_single_vesting_block_entry`. -/
def vestingCreationHasSingleVestingBlockEntry (parsed : ParsedTx) :
    Run ε Bool := do
  let tx ← parsed.vestingCreationTx
  pure (!tx.isMultiStep)

/-- `ux_transaction_vesting_creation_has_start_and_period_and_step_count_and_
step_duration_entries`. -/
def vestingCreationHasStartAndPeriodAndStepCountAndStepDurationEntries
    (parsed : ParsedTx) : Run ε Bool := do
  let tx ← parsed.vestingCreationTx
  pure tx.isMultiStep

/-- `ux_transaction_vesting_creation_has_first_step_duration_entry`. -/
def vestingCreationHasFirstStepDurationEntry (parsed : ParsedTx) :
    Run ε Bool := do
  let tx ← parsed.vestingCreationTx
  pure (tx.isMultiStep && tx.firstStepBlockCount ≠ tx.stepBlockCount)

/-- `ux_transaction_vesting_creation_has_step_amount_entry`. -/
def vestingCreationHasStepAmountEntry (parsed : ParsedTx) : Run ε Bool := do
  let tx ← parsed.vestingCreationTx
  pure (tx.isMultiStep &&
    !(tx.stepCount = ascii "2" && tx.firstStepAmount ≠ tx.stepAmount &&
      tx.lastStepAmount ≠ tx.stepAmount))

/-- `ux_transaction_vesting_creation_has_first_step_amount_entry`. -/
def vestingCreationHasFirstStepAmountEntry (parsed : ParsedTx) :
    Run ε Bool := do
  let tx ← parsed.vestingCreationTx
  pure (tx.isMultiStep && tx.firstStepAmount ≠ tx.stepAmount)

/-- `ux_transaction_vesting_creation_has_last_step_amount_entry`. -/
def vestingCreationHasLastStepAmountEntry (parsed : ParsedTx) :
    Run ε Bool := do
  let tx ← parsed.vestingCreationTx
  pure (tx.isMultiStep && tx.lastStepAmount ≠ tx.stepAmount)

/-- `ux_transaction_vesting_creation_has_pre_vested_amount_entry`. -/
def vestingCreationHasPreVestedAmountEntry (parsed : ParsedTx) :
    Run ε Bool := do
  let tx ← parsed.vestingCreationTx
  pure (tx.preVestedAmount ≠ ascii "0 NIM")

/-- `ux_transaction_staking_incoming_has_set_active_stake_or_retire_stake_
amount_entry`. -/
def stakingIncomingHasSetActiveStakeOrRetireStakeAmountEntry
    (parsed : ParsedTx) : Run ε Bool := do
  let tx ← parsed.stakingIncomingTx
  pure (tx.type = .setActiveStake || tx.type = .retireStake)

/-- `ux_transaction_staking_incoming_has_staker_address_entry`. -/
def stakingIncomingHasStakerAddressEntry (parsed : ParsedTx) :
    Run ε Bool := do
  let tx ← parsed.stakingIncomingTx
  pure ((tx.type = .createStaker || tx.type = .addStake ||
    tx.type = .updateStaker || tx.type = .setActiveStake ||
      tx.type = .retireStake) && tx.validatorOrStakerAddress.length ≠ 0)

/-- `ux_transaction_staking_incoming_has_create_staker_or_update_staker_
delegation_entry`; the delegation is only looked at for its types. -/
def stakingIncomingHasCreateStakerOrUpdateStakerDelegationEntry
    (parsed : ParsedTx) : Run ε Bool := do
  let tx ← parsed.stakingIncomingTx
  if tx.type = .createStaker ∨ tx.type = .updateStaker then
    let delegation ← parsed.delegation
    pure (delegation.length ≠ 0)
  else pure false

/-- `ux_transaction_staking_incoming_has_update_staker_reactivate_all_stake_
entry`. -/
def stakingIncomingHasUpdateStakerReactivateAllStakeEntry
    (parsed : ParsedTx) : Run ε Bool := do
  let tx ← parsed.stakingIncomingTx
  pure (tx.type = .updateStaker)

end UxTransaction

/-- A label with its value, as it is shown. -/
structure Entry where
  item : CString
  value : CString
  deriving DecidableEq, Repr

/-! ## The flows of the BAGL build -/

namespace Bagl

/-- A step of a flow. -/
inductive FlowStep (ε : Type)
  | transactionType
  | entry (item value : Run ε CString)
  | optional (condition : Run ε Bool) (item value : Run ε CString)
  | approve
  | reject

/-- What a step displays. -/
inductive Screen
  | confirm (transactionLabel : CString)
  | entry (entry : Entry)
  | approve
  | reject
  deriving DecidableEq, Repr

/-- The screens of a flow from its first to its last.  A skipped step leads
to the next one; all flows end in a step that is never skipped. -/
def displayedSteps (transactionLabel : CString) :
    List (FlowStep ε) → Run ε (List Screen)
  | [] => pure []
  | .transactionType :: steps => do
      let screens ← displayedSteps transactionLabel steps
      pure (.confirm transactionLabel :: screens)
  | .entry item value :: steps => do
      let item ← item
      let value ← value
      let screens ← displayedSteps transactionLabel steps
      pure (.entry ⟨item, value⟩ :: screens)
  | .optional condition item value :: steps => do
      let isDisplayed ← condition
      if isDisplayed then
        let item ← item
        let value ← value
        let screens ← displayedSteps transactionLabel steps
        pure (.entry ⟨item, value⟩ :: screens)
      else displayedSteps transactionLabel steps
  | .approve :: steps => do
      let screens ← displayedSteps transactionLabel steps
      pure (.approve :: screens)
  | .reject :: steps => do
      let screens ← displayedSteps transactionLabel steps
      pure (.reject :: screens)

open UxTransaction

/-- `ux_transaction_generic_flow_amount_step`. -/
def genericAmountStep (parsed : ParsedTx) : FlowStep ε :=
  .optional (genericHasAmountEntry parsed) (pure (ascii "Amount"))
    (pure parsed.value)

/-- `ux_transaction_generic_flow_fee_step`. -/
def genericFeeStep (parsed : ParsedTx) : FlowStep ε :=
  .optional (genericHasFeeEntry parsed) (pure (ascii "Fee"))
    (pure parsed.fee)

/-- `ux_transaction_generic_flow_network_step`. -/
def genericNetworkStep (parsed : ParsedTx) : FlowStep ε :=
  .entry (pure (ascii "Network")) (pure parsed.network)

/-- `ux_transaction_normal_or_staking_outgoing_flow`. -/
def normalOrStakingOutgoingFlow (parsed : ParsedTx) : List (FlowStep ε) :=
  let tx := parsed.normalOrStakingOutgoingTx
  [.transactionType,
    genericAmountStep parsed,
    .entry (pure (ascii "Recipient"))
      (return (← tx).recipient),
    .optional (normalOrStakingOutgoingHasDataEntry parsed)
      (return (← tx).extraDataLabel) (return (← tx).extraData),
    genericFeeStep parsed,
    genericNetworkStep parsed,
    .approve,
    .reject]

/-- `ux_transaction_htlc_creation_flow`. -/
def htlcCreationFlow (parsed : ParsedTx) : List (FlowStep ε) :=
  let tx := parsed.htlcCreationTx
  [.transactionType,
    genericAmountStep parsed,
    .entry (pure (ascii "HTLC Recipient")) (return (← tx).redeemAddress),
    .optional (htlcCreationHasRefundAddressEntry parsed)
      (pure (ascii "Refund to")) (return (← tx).refundAddress),
    .entry (pure (ascii "Hashed Secret")) (return (← tx).hashRoot),
    .optional (htlcCreationHasHashAlgorithmEntry parsed)
      (pure (ascii "Hash Algorithm")) (return (← tx).hashAlgorithm),
    .optional (htlcCreationHasHashCountEntry parsed)
      (pure (ascii "Hash Steps")) (return (← tx).hashCount),
    .optional (htlcCreationHasTimeoutEntry parsed)
      (pure (ascii "HTLC Expiry Block")) (return (← tx).timeout),
    genericFeeStep parsed,
    genericNetworkStep parsed,
    .approve,
    .reject]

/-- `ux_transaction_vesting_creation_flow`. -/
def vestingCreationFlow (parsed : ParsedTx) : List (FlowStep ε) :=
  let tx := parsed.vestingCreationTx
  let hasSteps :=
    vestingCreationHasStartAndPeriodAndStepCountAndStepDurationEntries parsed
  [.transactionType,
    genericAmountStep parsed,
    .optional (vestingCreationHasOwnerAddressEntry parsed)
      (pure (ascii "Vesting Owner")) (return (← tx).ownerAddress),
    .optional (vestingCreationHasSingleVestingBlockEntry parsed)
      (pure (ascii "Vested at Block")) (return (← tx).firstStepBlock),
    .optional hasSteps
      (pure (ascii "Vesting Start Block")) (return (← tx).startBlock),
    .optional hasSteps
      (pure (ascii "Vesting Period")) (return (← tx).period),
    .optional hasSteps
      (pure (ascii "Vesting Steps")) (return (← tx).stepCount),
    .optional hasSteps
      (pure (ascii "Blocks Per Step")) (return (← tx).stepBlockCount),
    .optional (vestingCreationHasFirstStepDurationEntry parsed)
      (pure (ascii "First Step")) (return (← tx).firstStepBlockCount),
    .optional (vestingCreationHasStepAmountEntry parsed)
      (pure (ascii "Vested per Step")) (return (← tx).stepAmount),
    .optional (vestingCreationHasFirstStepAmountEntry parsed)
      (pure (ascii "First Step")) (return (← tx).firstStepAmount),
    .optional (vestingCreationHasLastStepAmountEntry parsed)
      (pure (ascii "Last Step")) (return (← tx).lastStepAmount),
    .optional (vestingCreationHasPreVestedAmountEntry parsed)
      (pure (ascii "Pre-Vested")) (return (← tx).preVestedAmount),
    genericFeeStep parsed,
    genericNetworkStep parsed,
    .approve,
    .reject]

/-- `ux_transaction_staking_incoming_flow`. -/
def stakingIncomingFlow (parsed : ParsedTx) : List (FlowStep ε) :=
  let tx := parsed.stakingIncomingTx
  [.transactionType,
    genericAmountStep parsed,
    .optional
      (stakingIncomingHasSetActiveStakeOrRetireStakeAmountEntry parsed)
      (pure (ascii "Amount")) parsed.setActiveStakeOrRetireStakeAmount,
    .optional (stakingIncomingHasStakerAddressEntry parsed)
      (pure (ascii "Staker")) (return (← tx).validatorOrStakerAddress),
    .optional
      (stakingIncomingHasCreateStakerOrUpdateStakerDelegationEntry parsed)
      (pure (ascii "Delegation")) parsed.delegation,
    .optional (stakingIncomingHasUpdateStakerReactivateAllStakeEntry parsed)
      (pure (ascii "Reactivate all Stake"))
      parsed.updateStakerReactivateAllStake,
    genericFeeStep parsed,
    genericNetworkStep parsed,
    .approve,
    .reject]

/-- The label set by `ui_transaction_signing`. -/
def transactionLabel : TransactionLabelType → CString
  | .regularTransaction => ascii "Transaction"
  | .cashlink => ascii "Cashlink"
  | .vestingCreation => ascii "Vesting"
  | .htlcCreation => ascii "HTLC / Swap"
  | .stakingCreateStaker => ascii "Create Staker"
  | .stakingAddStake => ascii "Add Stake"
  | .stakingUpdateStaker => ascii "Update Staker"
  | .stakingSetActiveStake => ascii "Set Active Stake"
  | .stakingRetireStake => ascii "Retire Stake"
  | .stakingRemoveStake => ascii "Unstake"

/-- The flow chosen by `ui_transaction_signing`. -/
def transactionFlow (parsed : ParsedTx) : List (FlowStep ε) :=
  match parsed.transactionType with
  | .normal => normalOrStakingOutgoingFlow parsed
  | .stakingOutgoing => normalOrStakingOutgoingFlow parsed
  | .vestingCreation => vestingCreationFlow parsed
  | .htlcCreation => htlcCreationFlow parsed
  | .stakingIncoming => stakingIncomingFlow parsed

/-- `ui_transaction_signing`, with the screens it displays. -/
def uiTransactionSigning (parsed : ParsedTx) : Run ε (List Screen) :=
  displayedSteps (transactionLabel parsed.transactionLabelType)
    (transactionFlow parsed)

end Bagl

/-! ## The review of the NBGL build -/

namespace Nbgl

/-- `REVIEW_ENTRIES_MAX_COUNT`. -/
def reviewEntriesMaxCount : Nat := 12

/-- `review_entries_add`. -/
def reviewEntriesAdd (item value : Run ε CString) (entries : List Entry) :
    Run ε (List Entry) := do
  Run.ledgerAssert (entries.length < reviewEntriesMaxCount)
  let item ← item
  let value ← value
  pure (entries ++ [⟨item, value⟩])

/-- `review_entries_add_optional`, which takes its texts by reference. -/
def reviewEntriesAddOptional (condition : Run ε Bool)
    (item value : Run ε CString) (entries : List Entry) :
    Run ε (List Entry) := do
  let isAdded ← condition
  if isAdded then reviewEntriesAdd item value entries
  else pure entries

open UxTransaction

/-- `ui_transaction_prepare_review_entries_normal_or_staking_outgoing`. -/
def prepareReviewEntriesNormalOrStakingOutgoing (parsed : ParsedTx) :
    Run ε (List Entry) := do
  let tx := parsed.normalOrStakingOutgoingTx
  let entries ← reviewEntriesAddOptional (genericHasAmountEntry parsed)
    (pure (ascii "Amount")) (pure parsed.value) []
  let entries ← reviewEntriesAdd (pure (ascii "Recipient"))
    (return (← tx).recipient) entries
  let entries ←
    reviewEntriesAddOptional (normalOrStakingOutgoingHasDataEntry parsed)
      (return (← tx).extraDataLabel) (return (← tx).extraData) entries
  let entries ← reviewEntriesAddOptional (genericHasFeeEntry parsed)
    (pure (ascii "Fee")) (pure parsed.fee) entries
  reviewEntriesAdd (pure (ascii "Network")) (pure parsed.network) entries

/-- `ui_transaction_prepare_review_entries_staking_incoming`. -/
def prepareReviewEntriesStakingIncoming (parsed : ParsedTx) :
    Run ε (List Entry) := do
  let tx := parsed.stakingIncomingTx
  let entries ← reviewEntriesAddOptional (genericHasAmountEntry parsed)
    (pure (ascii "Amount")) (pure parsed.value) []
  let entries ← reviewEntriesAddOptional
    (stakingIncomingHasSetActiveStakeOrRetireStakeAmountEntry parsed)
    (pure (ascii "Amount")) parsed.setActiveStakeOrRetireStakeAmount entries
  let entries ←
    reviewEntriesAddOptional (stakingIncomingHasStakerAddressEntry parsed)
      (pure (ascii "Staker")) (return (← tx).validatorOrStakerAddress) entries
  let entries ← reviewEntriesAddOptional
    (stakingIncomingHasCreateStakerOrUpdateStakerDelegationEntry parsed)
    (pure (ascii "Delegation")) parsed.delegation entries
  let entries ← reviewEntriesAddOptional
    (stakingIncomingHasUpdateStakerReactivateAllStakeEntry parsed)
    (pure (ascii "Reactivate all Stake"))
    parsed.updateStakerReactivateAllStake entries
  let entries ← reviewEntriesAddOptional (genericHasFeeEntry parsed)
    (pure (ascii "Fee")) (pure parsed.fee) entries
  reviewEntriesAdd (pure (ascii "Network")) (pure parsed.network) entries

/-- What is handed to `nbgl_useCaseReview`. -/
structure Review where
  reviewTitle : CString
  finishTitle : CString
  reviewSubtitle : Option CString
  entries : List Entry
  deriving DecidableEq, Repr

/-- The texts chosen by `ui_transaction_signing`: the title, the finish title
and the subtitle. -/
def reviewTexts :
    TransactionLabelType → CString × CString × Option CString
  | .regularTransaction =>
      (ascii "Review transaction\nto send NIM",
        ascii "Sign transaction\nto send NIM", none)
  | .cashlink =>
      (ascii "Review\nCashlink creation",
        ascii "Sign\nCashlink creation", none)
  | .vestingCreation =>
      (ascii "Review\nVesting Contract creation",
        ascii "Sign\nVesting Contract creation", none)
  | .htlcCreation =>
      (ascii "Review\nHTLC creation / Swap",
        ascii "Sign\nHTLC creation / Swap", none)
  | .stakingCreateStaker =>
      (ascii "Review staking setup\nto start staking",
        ascii "Sign staking setup\nto start staking", none)
  | .stakingAddStake =>
      (ascii "Review\naddition of stake", ascii "Sign\naddition of stake",
        some (ascii ("This transaction increases your amount of NIM " ++
          "assigned for staking.")))
  | .stakingUpdateStaker =>
      (ascii "Review update\nof staking setup",
        ascii "Sign update\nof staking setup",
        some (ascii ("This transaction updates your current staking setup " ++
          "with the following changes.")))
  | .stakingSetActiveStake =>
      (ascii "Review setting\nactive stake amount",
        ascii "Sign setting\nactive stake amount",
        some (ascii ("This transaction sets the NIM amount that will be " ++
          "actively used for staking. Set it to 0, if you want to change " ++
          "the validator you're delegating to.")))
  | .stakingRetireStake =>
      (ascii "Review retiring\nstaked NIM", ascii "Sign retiring\nstaked NIM",
        some (ascii ("This transaction will disable the given amount of " ++
          "NIM from staking. This needs to be done first, if you want to " ++
          "later withdraw them.")))
  | .stakingRemoveStake =>
      (ascii "Review withrawal\nof previously staked NIM",
        ascii "Sign withdrawal\nof previously staked NIM", none)

/-- The entries chosen by `ui_transaction_signing`. -/
def prepareReviewEntries (parsed : ParsedTx) : Run ε (List Entry) :=
  match parsed.transactionType with
  | .normal => prepareReviewEntriesNormalOrStakingOutgoing parsed
  | .stakingOutgoing => prepareReviewEntriesNormalOrStakingOutgoing parsed
  | .stakingIncoming => prepareReviewEntriesStakingIncoming parsed
  | .vestingCreation => Run.fault .assertion
  | .htlcCreation => Run.fault .assertion

/-- `ui_transaction_signing`. -/
def uiTransactionSigning (parsed : ParsedTx) : Run ε Review := do
  let (reviewTitle, finishTitle, reviewSubtitle) :=
    reviewTexts parsed.transactionLabelType
  let entries ← prepareReviewEntries parsed
  pure { reviewTitle, finishTitle, reviewSubtitle, entries }

end Nbgl

/-- The builds of the app. -/
inductive UserInterface
  | bagl
  | nbgl
  deriving DecidableEq, Repr

/-- `ui_transaction_signing` of a build, which may fail an assertion. -/
def UserInterface.uiTransactionSigning (parsed : ParsedTx) :
    UserInterface → Run ε Unit
  | bagl => do
      let _ ← Bagl.uiTransactionSigning parsed
  | nbgl => do
      let _ ← Nbgl.uiTransactionSigning parsed

/-! ## The entries of a transaction -/

/-- An entry that may be skipped. -/
def optionalEntry (isShown : Bool) (item value : CString) : List Entry :=
  if isShown then [⟨item, value⟩] else []

theorem optionalEntry_length_le (isShown : Bool) (item value : CString) :
    (optionalEntry isShown item value).length ≤ 1 := by
  cases isShown <;> simp [optionalEntry]

/-- The entries of normal and of outgoing staking transactions. -/
def TxDataNormalOrStakingOutgoing.entries
    (tx : TxDataNormalOrStakingOutgoing) : List Entry :=
  [⟨ascii "Recipient", tx.recipient⟩] ++
    optionalEntry (tx.extraData.length ≠ 0) tx.extraDataLabel tx.extraData

/-- The entries of an HTLC creation. -/
def TxDataHtlcCreation.entries (tx : TxDataHtlcCreation) : List Entry :=
  let isForeign := !tx.isRefundAddressSenderAddress
  [⟨ascii "HTLC Recipient", tx.redeemAddress⟩] ++
    (optionalEntry isForeign (ascii "Refund to") tx.refundAddress ++
    ([⟨ascii "Hashed Secret", tx.hashRoot⟩] ++
    (optionalEntry (isForeign || !tx.isTimingOutSoon || !tx.isUsingSha256)
      (ascii "Hash Algorithm") tx.hashAlgorithm ++
    (optionalEntry
      (tx.hashCount ≠ ascii "1" && (isForeign || !tx.isTimingOutSoon))
      (ascii "Hash Steps") tx.hashCount ++
    optionalEntry (isForeign || !tx.isTimingOutSoon)
      (ascii "HTLC Expiry Block") tx.timeout))))

/-- The entries of a vesting contract creation. -/
def TxDataVestingCreation.entries (tx : TxDataVestingCreation) :
    List Entry :=
  let firstDiffers := tx.firstStepAmount ≠ tx.stepAmount
  let lastDiffers := tx.lastStepAmount ≠ tx.stepAmount
  optionalEntry (!tx.isOwnerAddressSenderAddress) (ascii "Vesting Owner")
      tx.ownerAddress ++
    (optionalEntry (!tx.isMultiStep) (ascii "Vested at Block")
      tx.firstStepBlock ++
    (optionalEntry tx.isMultiStep (ascii "Vesting Start Block")
      tx.startBlock ++
    (optionalEntry tx.isMultiStep (ascii "Vesting Period") tx.period ++
    (optionalEntry tx.isMultiStep (ascii "Vesting Steps") tx.stepCount ++
    (optionalEntry tx.isMultiStep (ascii "Blocks Per Step")
      tx.stepBlockCount ++
    (optionalEntry
      (tx.isMultiStep && tx.firstStepBlockCount ≠ tx.stepBlockCount)
      (ascii "First Step") tx.firstStepBlockCount ++
    (optionalEntry
      (tx.isMultiStep &&
        !(tx.stepCount = ascii "2" && firstDiffers && lastDiffers))
      (ascii "Vested per Step") tx.stepAmount ++
    (optionalEntry (tx.isMultiStep && firstDiffers) (ascii "First Step")
      tx.firstStepAmount ++
    (optionalEntry (tx.isMultiStep && lastDiffers) (ascii "Last Step")
      tx.lastStepAmount ++
    optionalEntry (tx.preVestedAmount ≠ ascii "0 NIM") (ascii "Pre-Vested")
      tx.preVestedAmount)))))))))

/-- The entries of an incoming staking transaction with the text shown for
its staker. -/
def StakingPayload.entries (staker : CString) :
    StakingPayload → List Entry
  | createStaker delegation =>
      optionalEntry (staker.length ≠ 0) (ascii "Staker") staker ++
        optionalEntry (delegation.shown.length ≠ 0) (ascii "Delegation")
          delegation.shown
  | addStake _ =>
      optionalEntry (staker.length ≠ 0) (ascii "Staker") staker
  | updateStaker delegation reactivateAllStake =>
      optionalEntry (staker.length ≠ 0) (ascii "Staker") staker ++
        (optionalEntry (delegation.shown.length ≠ 0) (ascii "Delegation")
          delegation.shown ++
        [⟨ascii "Reactivate all Stake",
          if reactivateAllStake ≠ 0 then ascii "Yes" else ascii "No"⟩])
  | setActiveStake amount | retireStake amount =>
      [⟨ascii "Amount", amountWithTicker amount.toNat⟩] ++
        optionalEntry (staker.length ≠ 0) (ascii "Staker") staker

/-- The entries of a content. -/
def Content.entries (device : Device) (tx : Transaction version) :
    Content → List Entry
  | stakingOutgoing =>
      TxDataNormalOrStakingOutgoing.entries
        ⟨userFriendlyAddress tx.recipient.val, [], []⟩
  | normal =>
      TxDataNormalOrStakingOutgoing.entries
        ⟨userFriendlyAddress tx.recipient.val,
          (shownNormalData tx.data).extraDataLabel,
          (shownNormalData tx.data).extraData⟩
  | vestingCreation vesting => (vesting.shown tx.sender tx.value).entries
  | htlcCreation htlc =>
      (htlc.shown tx.sender tx.validityStartHeight).entries
  | stakingIncoming staking =>
      staking.payload.entries (staking.shownStaker device tx.sender)

/-- The entries around those of the content. -/
def ParsedTx.surround (parsed : ParsedTx) (middle : List Entry) :
    List Entry :=
  optionalEntry (parsed.value ≠ ascii "0 NIM") (ascii "Amount")
      parsed.value ++
    (middle ++
    (optionalEntry (parsed.fee ≠ ascii "0 NIM") (ascii "Fee") parsed.fee ++
    [⟨ascii "Network", parsed.network⟩]))

/-- The entries of a transaction. -/
def AcceptedTransaction.entries (device : Device)
    (accepted : AcceptedTransaction version) : List Entry :=
  (accepted.shown device).surround
    (accepted.content.entries device accepted.tx)

namespace Bagl

/-- The screens of a review. -/
def reviewScreens (transactionLabel : CString) (entries : List Entry) :
    List Screen :=
  .confirm transactionLabel :: (entries.map .entry ++ [.approve, .reject])

section Displayed

variable {label : CString} {steps : List (FlowStep ε)} {entries : List Entry}
  {item value : Run ε CString} {itemText valueText : CString}
  {decision : List Screen}

/-- An entry that may be skipped, before those of the other steps. -/
theorem displayedSteps_optional
    {condition : Run ε Bool}
    (isDisplayed : condition = .ok shown)
    (itemEq : item = .ok itemText)
    (valueEq : value = .ok valueText)
    (rest : displayedSteps label steps =
      .ok (entries.map Screen.entry ++ decision)) :
    displayedSteps label (.optional condition item value :: steps) =
      .ok ((optionalEntry shown itemText valueText ++ entries).map
        Screen.entry ++ decision) := by
  subst isDisplayed itemEq valueEq
  unfold displayedSteps
  cases shown with
  | true => simp [optionalEntry, rest]
  | false => simp [optionalEntry, rest]

/-- Nothing is read for an entry that is skipped. -/
theorem displayedSteps_skipped
    {condition : Run ε Bool}
    (isSkipped : condition = .ok false)
    (rest : displayedSteps label steps = .ok screens) :
    displayedSteps label (.optional condition item value :: steps) =
      .ok screens := by
  subst isSkipped
  unfold displayedSteps
  simp [rest]

/-- An entry before those of the other steps. -/
theorem displayedSteps_entry
    (itemEq : item = .ok itemText)
    (valueEq : value = .ok valueText)
    (rest : displayedSteps label steps =
      .ok (entries.map Screen.entry ++ decision)) :
    displayedSteps label (.entry item value :: steps) =
      .ok (([Entry.mk itemText valueText] ++ entries).map Screen.entry ++
        decision) := by
  subst itemEq valueEq
  unfold displayedSteps
  simp [rest]

/-- The first screen asks to confirm the transaction. -/
theorem displayedSteps_transactionType
    (rest : displayedSteps label steps =
      .ok (entries.map Screen.entry ++ [.approve, .reject])) :
    displayedSteps label (.transactionType :: steps) =
      .ok (reviewScreens label entries) := by
  unfold displayedSteps
  rw [rest]
  rfl

end Displayed

/-- The steps of normal and of outgoing staking transactions. -/
theorem normalOrStakingOutgoingFlow_eq
    (label : CString)
    (member : parsed.typeSpecific = .normalOrStakingOutgoingTx tx) :
    displayedSteps (ε := ε) label (normalOrStakingOutgoingFlow parsed) =
      .ok (reviewScreens label (parsed.surround tx.entries)) := by
  obtain ⟨typeSpecific, _, _, _, _, _⟩ := parsed
  obtain rfl := member
  unfold ParsedTx.surround TxDataNormalOrStakingOutgoing.entries
  simp only [List.append_assoc]
  refine displayedSteps_transactionType ?_
  refine displayedSteps_optional rfl rfl rfl ?_
  refine displayedSteps_entry rfl rfl ?_
  refine displayedSteps_optional rfl rfl rfl ?_
  refine displayedSteps_optional rfl rfl rfl ?_
  rfl

/-- The steps of HTLC creations. -/
theorem htlcCreationFlow_eq
    (label : CString)
    (member : parsed.typeSpecific = .htlcCreationTx tx) :
    displayedSteps (ε := ε) label (htlcCreationFlow parsed) =
      .ok (reviewScreens label (parsed.surround tx.entries)) := by
  obtain ⟨typeSpecific, _, _, _, _, _⟩ := parsed
  obtain rfl := member
  unfold ParsedTx.surround TxDataHtlcCreation.entries
  simp only [List.append_assoc]
  refine displayedSteps_transactionType ?_
  refine displayedSteps_optional rfl rfl rfl ?_
  refine displayedSteps_entry rfl rfl ?_
  refine displayedSteps_optional rfl rfl rfl ?_
  refine displayedSteps_entry rfl rfl ?_
  refine displayedSteps_optional rfl rfl rfl ?_
  refine displayedSteps_optional rfl rfl rfl ?_
  refine displayedSteps_optional rfl rfl rfl ?_
  refine displayedSteps_optional rfl rfl rfl ?_
  rfl

/-- The steps of vesting contract creations. -/
theorem vestingCreationFlow_eq
    (label : CString)
    (member : parsed.typeSpecific = .vestingCreationTx tx) :
    displayedSteps (ε := ε) label (vestingCreationFlow parsed) =
      .ok (reviewScreens label (parsed.surround tx.entries)) := by
  obtain ⟨typeSpecific, _, _, _, _, _⟩ := parsed
  obtain rfl := member
  unfold ParsedTx.surround TxDataVestingCreation.entries
  simp only [List.append_assoc]
  refine displayedSteps_transactionType ?_
  iterate 13 refine displayedSteps_optional rfl rfl rfl ?_
  rfl

/-- The steps of incoming staking transactions. -/
theorem stakingIncomingFlow_eq
    {staking : StakingData}
    (label : CString)
    (member : parsed.typeSpecific =
      .stakingIncomingTx (staking.shown device sender offset)) :
    displayedSteps (ε := ε) label (stakingIncomingFlow parsed) =
      .ok (reviewScreens label (parsed.surround
        (staking.payload.entries (staking.shownStaker device sender)))) := by
  obtain ⟨typeSpecific, _, _, _, _, _⟩ := parsed
  obtain rfl := member
  obtain ⟨payload, proof, hasProof⟩ := staking
  unfold ParsedTx.surround
  refine displayedSteps_transactionType ?_
  refine displayedSteps_optional rfl rfl rfl ?_
  cases payload with
  | createStaker delegation =>
      unfold StakingPayload.entries
      rw [List.append_assoc]
      refine displayedSteps_skipped rfl ?_
      refine displayedSteps_optional rfl rfl rfl ?_
      refine displayedSteps_optional rfl rfl rfl ?_
      refine displayedSteps_skipped rfl ?_
      refine displayedSteps_optional rfl rfl rfl ?_
      rfl
  | addStake staker =>
      unfold StakingPayload.entries
      refine displayedSteps_skipped rfl ?_
      refine displayedSteps_optional rfl rfl rfl ?_
      refine displayedSteps_skipped rfl ?_
      refine displayedSteps_skipped rfl ?_
      refine displayedSteps_optional rfl rfl rfl ?_
      rfl
  | updateStaker delegation reactivateAllStake =>
      unfold StakingPayload.entries
      rw [List.append_assoc, List.append_assoc]
      refine displayedSteps_skipped rfl ?_
      refine displayedSteps_optional rfl rfl rfl ?_
      refine displayedSteps_optional rfl rfl rfl ?_
      refine displayedSteps_optional rfl rfl rfl ?_
      refine displayedSteps_optional rfl rfl rfl ?_
      rfl
  | setActiveStake amount =>
      unfold StakingPayload.entries
      rw [List.append_assoc]
      refine displayedSteps_optional rfl rfl rfl ?_
      refine displayedSteps_optional rfl rfl rfl ?_
      refine displayedSteps_skipped rfl ?_
      refine displayedSteps_skipped rfl ?_
      refine displayedSteps_optional rfl rfl rfl ?_
      rfl
  | retireStake amount =>
      unfold StakingPayload.entries
      rw [List.append_assoc]
      refine displayedSteps_optional rfl rfl rfl ?_
      refine displayedSteps_optional rfl rfl rfl ?_
      refine displayedSteps_skipped rfl ?_
      refine displayedSteps_skipped rfl ?_
      refine displayedSteps_optional rfl rfl rfl ?_
      rfl

/-- The flow of every transaction that is accepted is displayed with all of
its entries. -/
theorem uiTransactionSigning_eq
    (device : Device)
    (accepted : AcceptedTransaction version) :
    (uiTransactionSigning (accepted.shown device) : Run ε (List Screen)) =
      .ok (reviewScreens
        (transactionLabel (accepted.shown device).transactionLabelType)
        (accepted.entries device)) := by
  obtain ⟨tx, network, content, payable, networkId, admitted⟩ := accepted
  cases content with
  | stakingOutgoing => exact normalOrStakingOutgoingFlow_eq _ rfl
  | normal => exact normalOrStakingOutgoingFlow_eq _ rfl
  | vestingCreation vesting => exact vestingCreationFlow_eq _ rfl
  | htlcCreation htlc => exact htlcCreationFlow_eq _ rfl
  | stakingIncoming staking => exact stakingIncomingFlow_eq _ rfl

end Bagl

namespace Nbgl

section Added

variable {condition : Run ε Bool} {item value : Run ε CString}
  {itemText valueText : CString} {entries result : List Entry}
  {rest : List Entry → Run ε (List Entry)} {count : Nat}

/-- There is room for an entry. -/
theorem reviewEntriesAdd_eq
    (itemEq : item = .ok itemText)
    (valueEq : value = .ok valueText)
    (bound : entries.length ≤ count)
    (room : count < reviewEntriesMaxCount) :
    reviewEntriesAdd item value entries =
      .ok (entries ++ [⟨itemText, valueText⟩]) := by
  subst itemEq valueEq
  unfold reviewEntriesAdd
  rw [Run.ledgerAssert_of (Nat.lt_of_le_of_lt bound room)]
  rfl

/-- After an entry there is one more. -/
theorem reviewEntriesAdd_bind
    (itemEq : item = .ok itemText)
    (valueEq : value = .ok valueText)
    (bound : entries.length ≤ count)
    (room : count < reviewEntriesMaxCount)
    (next : (entries ++ [Entry.mk itemText valueText]).length ≤ count + 1 →
      rest (entries ++ [⟨itemText, valueText⟩]) = .ok result) :
    (reviewEntriesAdd item value entries >>= rest) = .ok result := by
  rw [reviewEntriesAdd_eq itemEq valueEq bound room, Run.bind_ok]
  apply next
  rw [List.length_append, List.length_singleton]
  omega

/-- After an entry that may be skipped there is at most one more. -/
theorem reviewEntriesAddOptional_bind
    (isAdded : condition = .ok shown)
    (itemEq : item = .ok itemText)
    (valueEq : value = .ok valueText)
    (bound : entries.length ≤ count)
    (room : count < reviewEntriesMaxCount)
    (next : (entries ++ optionalEntry shown itemText valueText).length ≤
        count + 1 →
      rest (entries ++ optionalEntry shown itemText valueText) =
        .ok result) :
    (reviewEntriesAddOptional condition item value entries >>= rest) =
      .ok result := by
  have size := optionalEntry_length_le shown itemText valueText
  have added : reviewEntriesAddOptional condition item value entries =
      .ok (entries ++ optionalEntry shown itemText valueText) := by
    subst isAdded
    unfold reviewEntriesAddOptional
    cases shown with
    | true => exact reviewEntriesAdd_eq itemEq valueEq bound room
    | false => simp [optionalEntry]
  rw [added, Run.bind_ok]
  apply next
  rw [List.length_append]
  omega

/-- Nothing is read for an entry that is skipped. -/
theorem reviewEntriesAddOptional_skipped
    (isSkipped : condition = .ok false)
    (next : rest entries = .ok result) :
    (reviewEntriesAddOptional condition item value entries >>= rest) =
      .ok result := by
  subst isSkipped
  exact next

end Added

/-- The entries of normal and of outgoing staking transactions. -/
theorem prepareReviewEntriesNormalOrStakingOutgoing_eq
    (member : parsed.typeSpecific = .normalOrStakingOutgoingTx tx) :
    (prepareReviewEntriesNormalOrStakingOutgoing parsed :
        Run ε (List Entry)) =
      .ok (parsed.surround tx.entries) := by
  obtain ⟨typeSpecific, _, _, _, _, _⟩ := parsed
  obtain rfl := member
  refine reviewEntriesAddOptional_bind rfl rfl rfl (Nat.le_refl 0)
    (by decide) fun bound => ?_
  refine reviewEntriesAdd_bind rfl rfl bound (by decide) fun bound => ?_
  refine reviewEntriesAddOptional_bind rfl rfl rfl bound (by decide)
    fun bound => ?_
  refine reviewEntriesAddOptional_bind rfl rfl rfl bound (by decide)
    fun bound => ?_
  refine (reviewEntriesAdd_eq rfl rfl bound (by decide)).trans ?_
  simp only [ParsedTx.surround, TxDataNormalOrStakingOutgoing.entries,
    List.append_assoc, List.nil_append]

/-- The entries of incoming staking transactions. -/
theorem prepareReviewEntriesStakingIncoming_eq
    {staking : StakingData}
    (member : parsed.typeSpecific =
      .stakingIncomingTx (staking.shown device sender offset)) :
    (prepareReviewEntriesStakingIncoming parsed : Run ε (List Entry)) =
      .ok (parsed.surround
        (staking.payload.entries (staking.shownStaker device sender))) := by
  obtain ⟨typeSpecific, _, _, _, _, _⟩ := parsed
  obtain rfl := member
  obtain ⟨payload, proof, hasProof⟩ := staking
  refine reviewEntriesAddOptional_bind rfl rfl rfl (Nat.le_refl 0)
    (by decide) fun bound => ?_
  cases payload with
  | createStaker delegation =>
      refine reviewEntriesAddOptional_skipped rfl ?_
      refine reviewEntriesAddOptional_bind rfl rfl rfl bound (by decide)
        fun bound => ?_
      refine reviewEntriesAddOptional_bind rfl rfl rfl bound (by decide)
        fun bound => ?_
      refine reviewEntriesAddOptional_skipped rfl ?_
      refine reviewEntriesAddOptional_bind rfl rfl rfl bound (by decide)
        fun bound => ?_
      refine (reviewEntriesAdd_eq rfl rfl bound (by decide)).trans ?_
      simp only [ParsedTx.surround, StakingPayload.entries,
        List.append_assoc, List.nil_append]
      rfl
  | addStake staker =>
      refine reviewEntriesAddOptional_skipped rfl ?_
      refine reviewEntriesAddOptional_bind rfl rfl rfl bound (by decide)
        fun bound => ?_
      refine reviewEntriesAddOptional_skipped rfl ?_
      refine reviewEntriesAddOptional_skipped rfl ?_
      refine reviewEntriesAddOptional_bind rfl rfl rfl bound (by decide)
        fun bound => ?_
      refine (reviewEntriesAdd_eq rfl rfl bound (by decide)).trans ?_
      simp only [ParsedTx.surround, StakingPayload.entries,
        List.append_assoc, List.nil_append]
      rfl
  | updateStaker delegation reactivateAllStake =>
      refine reviewEntriesAddOptional_skipped rfl ?_
      refine reviewEntriesAddOptional_bind rfl rfl rfl bound (by decide)
        fun bound => ?_
      refine reviewEntriesAddOptional_bind rfl rfl rfl bound (by decide)
        fun bound => ?_
      refine reviewEntriesAddOptional_bind rfl rfl rfl bound (by decide)
        fun bound => ?_
      refine reviewEntriesAddOptional_bind rfl rfl rfl bound (by decide)
        fun bound => ?_
      refine (reviewEntriesAdd_eq rfl rfl bound (by decide)).trans ?_
      simp only [ParsedTx.surround, StakingPayload.entries,
        List.append_assoc, List.nil_append]
      rfl
  | setActiveStake amount =>
      refine reviewEntriesAddOptional_bind rfl rfl rfl bound (by decide)
        fun bound => ?_
      refine reviewEntriesAddOptional_bind rfl rfl rfl bound (by decide)
        fun bound => ?_
      refine reviewEntriesAddOptional_skipped rfl ?_
      refine reviewEntriesAddOptional_skipped rfl ?_
      refine reviewEntriesAddOptional_bind rfl rfl rfl bound (by decide)
        fun bound => ?_
      refine (reviewEntriesAdd_eq rfl rfl bound (by decide)).trans ?_
      simp only [ParsedTx.surround, StakingPayload.entries,
        List.append_assoc, List.nil_append]
      rfl
  | retireStake amount =>
      refine reviewEntriesAddOptional_bind rfl rfl rfl bound (by decide)
        fun bound => ?_
      refine reviewEntriesAddOptional_bind rfl rfl rfl bound (by decide)
        fun bound => ?_
      refine reviewEntriesAddOptional_skipped rfl ?_
      refine reviewEntriesAddOptional_skipped rfl ?_
      refine reviewEntriesAddOptional_bind rfl rfl rfl bound (by decide)
        fun bound => ?_
      refine (reviewEntriesAdd_eq rfl rfl bound (by decide)).trans ?_
      simp only [ParsedTx.surround, StakingPayload.entries,
        List.append_assoc, List.nil_append]
      rfl

end Nbgl

end NimiqApp
