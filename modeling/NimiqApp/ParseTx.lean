import NimiqApp.NormalData
import NimiqApp.StakingUtils
import NimiqApp.Transaction
import NimiqApp.VestingCreation

/-!
# Parsing transactions

`parse_tx` reads the fields of a transaction and decides from its account
types what it does.  `AcceptedTransaction` is what it accepts, together with
how it is shown.
-/

namespace NimiqApp

/-- `tx_data_normal_or_staking_outgoing_t`. -/
structure TxDataNormalOrStakingOutgoing where
  recipient : CString
  extraDataLabel : CString
  extraData : CString
  deriving DecidableEq, Repr

/-- The union in `parsed_tx_t`, with the member that was written. -/
inductive TypeSpecific
  | normalOrStakingOutgoingTx (tx : TxDataNormalOrStakingOutgoing)
  | htlcCreationTx (tx : TxDataHtlcCreation)
  | vestingCreationTx (tx : TxDataVestingCreation)
  | stakingIncomingTx (tx : TxDataStakingIncoming)
  deriving DecidableEq, Repr

/-- `parsed_tx_t`. -/
structure ParsedTx where
  typeSpecific : TypeSpecific
  transactionType : TransactionType
  transactionLabelType : TransactionLabelType
  value : CString
  fee : CString
  network : CString
  deriving DecidableEq, Repr

/-- What the branches of `parse_tx` write. -/
structure TxContent where
  typeSpecific : TypeSpecific
  transactionType : TransactionType
  transactionLabelType : TransactionLabelType

/-- The label of outgoing staking transactions. -/
def stakingOutgoingLabel :
    StakingOutgoingDataType → Run ErrorCode TransactionLabelType
  | .removeStake => pure .stakingRemoveStake
  | .deleteValidator => Run.fail .notSupported

/-- The branch for transactions from the staking contract. -/
def parseStakingOutgoingTx (device : Device) (version : TransactionVersion)
    (memory : List UInt8) (fields : TxFields) : Run ErrorCode TxContent := do
  Run.returnOn (fields.flags ≠ 0 ∨ fields.data.length ≠ 0) .notSupported
  let fromStakingContract ← isStakingContract memory fields.sender
  Run.returnOn (fromStakingContract = false) .incorrectData
  let stakingOutgoingType ←
    parseStakingOutgoingData version memory fields.senderData
  let label ← stakingOutgoingLabel stakingOutgoingType
  let recipientBytes ← load memory fields.recipient 20
  let recipient ← printAddress device.pastTotalNumber recipientBytes
  pure {
    typeSpecific :=
      .normalOrStakingOutgoingTx ⟨recipient, ascii "", ascii ""⟩
    transactionType := .stakingOutgoing
    transactionLabelType := label }

/-- The branch for transactions to basic accounts. -/
def parseBasicTx (device : Device) (memory : List UInt8) (fields : TxFields) :
    Run ErrorCode TxContent := do
  Run.returnOn (fields.flags ≠ 0 ∨ fields.senderData.length ≠ 0)
    .notSupported
  let normal ← parseNormalTxData memory fields.data
  let recipientBytes ← load memory fields.recipient 20
  let recipient ← printAddress device.pastTotalNumber recipientBytes
  pure {
    typeSpecific := .normalOrStakingOutgoingTx
      ⟨recipient, normal.extraDataLabel, normal.extraData⟩
    transactionType := .normal
    transactionLabelType :=
      if normal.isCashlink then .cashlink else .regularTransaction }

/-- The check of the branches for contract creations. -/
def checkContractCreation (fields : TxFields) : Run ErrorCode Unit :=
  Run.returnOn (fields.flags ≠ txFlagContractCreation ∨
    fields.senderData.length ≠ 0) .notSupported

/-- The branch for transactions creating vesting contracts. -/
def parseVestingTx (device : Device) (version : TransactionVersion)
    (memory : List UInt8) (fields : TxFields) : Run ErrorCode TxContent := do
  checkContractCreation fields
  let vesting ← parseVestingCreationData device version memory fields.data
    fields.sender fields.senderType fields.value
  pure ⟨.vestingCreationTx vesting, .vestingCreation, .vestingCreation⟩

/-- The branch for transactions creating HTLCs. -/
def parseHtlcTx (device : Device) (version : TransactionVersion)
    (memory : List UInt8) (fields : TxFields) : Run ErrorCode TxContent := do
  checkContractCreation fields
  let htlc ← parseHtlcCreationData device version memory fields.data
    fields.sender fields.senderType fields.validityStartHeight
  pure ⟨.htlcCreationTx htlc, .htlcCreation, .htlcCreation⟩

/-- The label of the types of incoming staking transactions for stakers. -/
def stakingIncomingLabel :
    StakingIncomingDataType → Run ErrorCode TransactionLabelType
  | .createStaker => pure .stakingCreateStaker
  | .addStake => pure .stakingAddStake
  | .updateStaker => pure .stakingUpdateStaker
  | .setActiveStake => pure .stakingSetActiveStake
  | .retireStake => pure .stakingRetireStake
  | .createValidator | .updateValidator | .deactivateValidator
  | .reactivateValidator | .retireValidator => Run.fail .notSupported

/-- The branch for transactions to the staking contract. -/
def parseStakingIncomingTx (device : Device) (version : TransactionVersion)
    (memory : List UInt8) (fields : TxFields) : Run ErrorCode TxContent := do
  Run.returnOn
    ((fields.flags ≠ 0 ∧ fields.flags ≠ txFlagSignaling) ∨
      fields.senderData.length ≠ 0) .notSupported
  let toStakingContract ← isStakingContract memory fields.recipient
  Run.returnOn (toStakingContract = false) .incorrectData
  let staking ← parseStakingIncomingData device version memory fields.data
    fields.sender
  let label ← stakingIncomingLabel staking.type
  Run.returnOn (decide (fields.flags = txFlagSignaling) ≠
    isSignalingTransactionData staking.type) .incorrectData
  pure ⟨.stakingIncomingTx staking, .stakingIncoming, label⟩

/-- The branches of `parse_tx`. -/
def parseTxContent (device : Device) (version : TransactionVersion)
    (memory : List UInt8) (fields : TxFields) : Run ErrorCode TxContent :=
  if fields.senderType = AccountType.staking.code then
    parseStakingOutgoingTx device version memory fields
  else
    match AccountType.ofCode? fields.recipientType with
    | some .basic => parseBasicTx device memory fields
    | some .vesting => parseVestingTx device version memory fields
    | some .htlc => parseHtlcTx device version memory fields
    | some .staking => parseStakingIncomingTx device version memory fields
    | none => Run.fail .incorrectData

/-- `parse_tx`. -/
def parseTx (device : Device) (version : UInt8) (buffer : List UInt8) :
    Run ErrorCode ParsedTx :=
  match TransactionVersion.ofCode? version with
  | none => Run.fail .notSupported
  | some version => do
      let fields ← readTxFields version buffer ⟨some 0, buffer.length⟩
      let content ← parseTxContent device version buffer fields
      pure {
        typeSpecific := content.typeSpecific
        transactionType := content.transactionType
        transactionLabelType := content.transactionLabelType
        value := fields.valueText
        fee := fields.feeText
        network := fields.networkText }

/-- What a transaction does, with what its data says. -/
inductive Content
  | stakingOutgoing
  | normal
  | vestingCreation (vesting : VestingData)
  | htlcCreation (htlc : HtlcData)
  | stakingIncoming (staking : StakingData)

namespace Content

/-- The flags of incoming staking transactions signal transactions without
value. -/
def stakingFlags (staking : StakingData) : UInt8 :=
  if isSignalingTransactionData staking.payload.type then txFlagSignaling
  else 0

/-- The transactions that have a content. -/
def Admits (tx : Transaction version) : Content → Prop
  | stakingOutgoing =>
      tx.senderType = AccountType.staking.code ∧ version = .albatross ∧
        tx.sender = stakingContract ∧ tx.flags = 0 ∧ tx.data = [] ∧
          tx.senderData = [StakingOutgoingDataType.removeStake.code]
  | normal =>
      tx.senderType ≠ AccountType.staking.code ∧
        tx.recipientType = AccountType.basic.code ∧ tx.flags = 0 ∧
          tx.senderData = [] ∧ tx.data.length ≤ lengthNormalTxDataMax
  | vestingCreation vesting =>
      tx.senderType ≠ AccountType.staking.code ∧
        tx.recipientType = AccountType.vesting.code ∧ version = .legacy ∧
          tx.flags = txFlagContractCreation ∧ tx.senderData = [] ∧
            tx.data = vesting.encode ∧
              vesting.Ownable tx.sender tx.senderType ∧
                (vesting.parameters tx.value).Payable
  | htlcCreation htlc =>
      tx.senderType ≠ AccountType.staking.code ∧
        tx.recipientType = AccountType.htlc.code ∧ version = .legacy ∧
          tx.flags = txFlagContractCreation ∧ tx.senderData = [] ∧
            tx.data = htlc.encode ∧ htlc.Refundable tx.sender tx.senderType
  | stakingIncoming staking =>
      tx.senderType ≠ AccountType.staking.code ∧
        tx.recipientType = AccountType.staking.code ∧ version = .albatross ∧
          tx.recipient = stakingContract ∧ tx.flags = stakingFlags staking ∧
            tx.senderData = [] ∧ tx.data = staking.encode ∧
              staking.payload.Payable

/-- The address of a staker that is part of the content is known. -/
def Hashable (device : Device) : Content → Prop
  | stakingIncoming staking => staking.Hashable device
  | _ => True

end Content

/-- The label of a kind of staking data. -/
def StakingPayload.label : StakingPayload → TransactionLabelType
  | createStaker _ => .stakingCreateStaker
  | addStake _ => .stakingAddStake
  | updateStaker _ _ => .stakingUpdateStaker
  | setActiveStake _ => .stakingSetActiveStake
  | retireStake _ => .stakingRetireStake

/-- How a content is shown. -/
def Content.shown (device : Device) (tx : Transaction version) :
    Content → TxContent
  | stakingOutgoing =>
      ⟨.normalOrStakingOutgoingTx
          ⟨userFriendlyAddress tx.recipient.val, [], []⟩,
        .stakingOutgoing, .stakingRemoveStake⟩
  | normal =>
      ⟨.normalOrStakingOutgoingTx
          ⟨userFriendlyAddress tx.recipient.val,
            (shownNormalData tx.data).extraDataLabel,
            (shownNormalData tx.data).extraData⟩,
        .normal,
        if (shownNormalData tx.data).isCashlink then .cashlink
        else .regularTransaction⟩
  | vestingCreation vesting =>
      ⟨.vestingCreationTx (vesting.shown tx.sender tx.value),
        .vestingCreation, .vestingCreation⟩
  | htlcCreation htlc =>
      ⟨.htlcCreationTx (htlc.shown tx.sender tx.validityStartHeight),
        .htlcCreation, .htlcCreation⟩
  | stakingIncoming staking =>
      ⟨.stakingIncomingTx (staking.shown device tx.sender 2),
        .stakingIncoming, staking.payload.label⟩

/-- A transaction that can be reviewed. -/
structure AcceptedTransaction (version : TransactionVersion) where
  tx : Transaction version
  network : Network
  content : Content
  /-- Value and fee can be printed. -/
  payable : tx.Payable
  /-- The network is one of the version. -/
  networkId_eq : tx.networkId = network.id version
  /-- The fields of the transaction agree with its content. -/
  admitted : content.Admits tx

/-- How a transaction is shown. -/
def AcceptedTransaction.shown (device : Device)
    (accepted : AcceptedTransaction version) : ParsedTx where
  typeSpecific := (accepted.content.shown device accepted.tx).typeSpecific
  transactionType := (accepted.content.shown device accepted.tx).transactionType
  transactionLabelType :=
    (accepted.content.shown device accepted.tx).transactionLabelType
  value := amountWithTicker accepted.tx.value.toNat
  fee := amountWithTicker accepted.tx.fee.toNat
  network := accepted.network.name

section Branches

variable {memory : List UInt8} {fields : TxFields} {tx : Transaction version}

/-- No data, as the branches check it. -/
theorem TxFields.Denotes.data_length_eq_zero_iff
    (denotes : fields.Denotes memory tx) :
    fields.data.length = 0 ↔ tx.data = [] := by
  rw [denotes.data.length_eq, List.length_eq_zero_iff]

/-- No sender data, as the branches check it. -/
theorem TxFields.Denotes.senderData_length_eq_zero_iff
    (denotes : fields.Denotes memory tx) :
    fields.senderData.length = 0 ↔ tx.senderData = [] := by
  rw [denotes.senderData.length_eq, List.length_eq_zero_iff]

/-- Exactly removing stake is accepted from the staking contract. -/
theorem parseStakingOutgoingTx_eq_ok_iff
    (device : Device)
    (denotes : fields.Denotes memory tx) :
    parseStakingOutgoingTx device version memory fields = .ok out ↔
      (version = .albatross ∧ tx.sender = stakingContract ∧ tx.flags = 0 ∧
        tx.data = [] ∧
        tx.senderData = [StakingOutgoingDataType.removeStake.code]) ∧
      out = Content.stakingOutgoing.shown device tx := by
  unfold parseStakingOutgoingTx
  rw [isStakingContract_eq denotes.sender, denotes.recipient.load_sub,
    denotes.flags]
  constructor
  · intro result
    obtain ⟨_, plain, result⟩ := Run.bind_eq_ok.mp result
    obtain ⟨_, isContract, result⟩ := Run.bind_eq_ok.mp result
    obtain ⟨_, fromContract, result⟩ := Run.bind_eq_ok.mp result
    obtain ⟨type, parseType, result⟩ := Run.bind_eq_ok.mp result
    cases isContract
    obtain ⟨noFlags, noData⟩ := not_or.mp (Run.returnOn_eq_ok.mp plain)
    obtain ⟨isAlbatross, senderDataEq⟩ :=
      (parseStakingOutgoingData_eq_ok denotes.senderData).mp parseType
    cases type with
    | deleteValidator => cases result
    | removeStake =>
        simp only [stakingOutgoingLabel, Run.pure_eq, Run.bind_ok,
          printAddress_eq tx.recipient.property] at result
        cases result
        refine ⟨⟨isAlbatross, ?_, not_not.mp noFlags, ?_, senderDataEq⟩, rfl⟩
        · have isSender := Run.returnOn_eq_ok.mp fromContract
          simpa using isSender
        · exact denotes.data_length_eq_zero_iff.mp (not_not.mp noData)
  · rintro ⟨⟨isAlbatross, isContract, noFlags, noData, senderDataEq⟩, rfl⟩
    have noDataLength := denotes.data_length_eq_zero_iff.mpr noData
    have parseType := (parseStakingOutgoingData_eq_ok denotes.senderData).mpr
      ⟨isAlbatross, senderDataEq⟩
    rw [Run.returnOn_of_not (by simp [noFlags, noDataLength]), Run.bind_ok,
      Run.bind_ok, Run.returnOn_of_not (by simp [isContract]), Run.bind_ok,
      parseType]
    simp only [stakingOutgoingLabel, Run.pure_eq, Run.bind_ok,
      printAddress_eq tx.recipient.property]
    rfl

/-- Exactly plain transactions are accepted to basic accounts. -/
theorem parseBasicTx_eq_ok_iff
    (device : Device)
    (denotes : fields.Denotes memory tx) :
    parseBasicTx device memory fields = .ok out ↔
      (tx.flags = 0 ∧ tx.senderData = [] ∧
        tx.data.length ≤ lengthNormalTxDataMax) ∧
      out = Content.normal.shown device tx := by
  unfold parseBasicTx
  rw [parseNormalTxData_eq denotes.data, denotes.recipient.load_sub,
    denotes.flags]
  constructor
  · intro result
    obtain ⟨_, plain, result⟩ := Run.bind_eq_ok.mp result
    obtain ⟨_, parseData, result⟩ := Run.bind_eq_ok.mp result
    obtain ⟨noFlags, noSenderData⟩ := not_or.mp (Run.returnOn_eq_ok.mp plain)
    split_ifs at parseData with short
    cases parseData
    simp only [Run.bind_ok, printAddress_eq tx.recipient.property] at result
    cases result
    exact ⟨⟨not_not.mp noFlags, denotes.senderData_length_eq_zero_iff.mp
      (not_not.mp noSenderData), short⟩, rfl⟩
  · rintro ⟨⟨noFlags, noSenderData, short⟩, rfl⟩
    have noLength := denotes.senderData_length_eq_zero_iff.mpr noSenderData
    rw [Run.returnOn_of_not (by simp [noFlags, noLength]), Run.bind_ok,
      if_pos short]
    simp only [Run.bind_ok, printAddress_eq tx.recipient.property]
    rfl

/-- The check of contract creations. -/
theorem checkContractCreation_eq_ok_iff
    (denotes : fields.Denotes memory tx) :
    checkContractCreation fields = .ok () ↔
      tx.flags = txFlagContractCreation ∧ tx.senderData = [] := by
  unfold checkContractCreation
  rw [Run.returnOn_eq_ok, denotes.flags, not_or, not_not, not_not,
    denotes.senderData_length_eq_zero_iff]

/-- Exactly the vesting contracts whose amounts can be printed are
accepted. -/
theorem parseVestingTx_eq_ok_iff
    (device : Device)
    (denotes : fields.Denotes memory tx)
    (payable : tx.Payable) :
    parseVestingTx device version memory fields = .ok out ↔
      ∃ vesting : VestingData,
        (version = .legacy ∧ tx.flags = txFlagContractCreation ∧
          tx.senderData = [] ∧ tx.data = vesting.encode ∧
          vesting.Ownable tx.sender tx.senderType ∧
          (vesting.parameters tx.value).Payable) ∧
        out = (Content.vestingCreation vesting).shown device tx := by
  unfold parseVestingTx
  rw [denotes.senderType, denotes.value]
  constructor
  · intro result
    obtain ⟨_, check, result⟩ := Run.bind_eq_ok.mp result
    obtain ⟨parsed, parseData, result⟩ := Run.bind_eq_ok.mp result
    cases result
    obtain ⟨flags, noSenderData⟩ :=
      (checkContractCreation_eq_ok_iff denotes).mp check
    obtain ⟨rfl, vesting, dataEq, ownable, vestingPayable⟩ :=
      VestingData.parse_inversion denotes.data denotes.sender parseData
    have accepted := VestingData.parse_eq device vesting
      (dataEq ▸ denotes.data) denotes.sender ownable payable.1 vestingPayable
    rw [parseData] at accepted
    cases accepted
    exact ⟨vesting, ⟨rfl, flags, noSenderData, dataEq, ownable,
      vestingPayable⟩, rfl⟩
  · rintro ⟨vesting, ⟨rfl, flags, noSenderData, dataEq, ownable,
      vestingPayable⟩, rfl⟩
    rw [(checkContractCreation_eq_ok_iff denotes).mpr ⟨flags, noSenderData⟩,
      Run.bind_ok, VestingData.parse_eq device vesting
        (dataEq ▸ denotes.data) denotes.sender ownable payable.1
        vestingPayable]
    rfl

/-- Exactly HTLCs with a supported hash algorithm are accepted. -/
theorem parseHtlcTx_eq_ok_iff
    (device : Device)
    (denotes : fields.Denotes memory tx) :
    parseHtlcTx device version memory fields = .ok out ↔
      ∃ htlc : HtlcData,
        (version = .legacy ∧ tx.flags = txFlagContractCreation ∧
          tx.senderData = [] ∧ tx.data = htlc.encode ∧
          htlc.Refundable tx.sender tx.senderType) ∧
        out = (Content.htlcCreation htlc).shown device tx := by
  unfold parseHtlcTx
  rw [denotes.senderType, denotes.validityStartHeight]
  constructor
  · intro result
    obtain ⟨_, check, result⟩ := Run.bind_eq_ok.mp result
    obtain ⟨parsed, parseData, result⟩ := Run.bind_eq_ok.mp result
    cases result
    obtain ⟨flags, noSenderData⟩ :=
      (checkContractCreation_eq_ok_iff denotes).mp check
    obtain ⟨rfl, htlc, dataEq, refundable⟩ :=
      HtlcData.parse_inversion denotes.data denotes.sender parseData
    have accepted := HtlcData.parse_eq device htlc tx.validityStartHeight
      (dataEq ▸ denotes.data) denotes.sender refundable
    rw [parseData] at accepted
    cases accepted
    exact ⟨htlc, ⟨rfl, flags, noSenderData, dataEq, refundable⟩, rfl⟩
  · rintro ⟨htlc, ⟨rfl, flags, noSenderData, dataEq, refundable⟩, rfl⟩
    rw [(checkContractCreation_eq_ok_iff denotes).mpr ⟨flags, noSenderData⟩,
      Run.bind_ok, HtlcData.parse_eq device htlc tx.validityStartHeight
        (dataEq ▸ denotes.data) denotes.sender refundable]
    rfl

/-- The flags that are let through are those of the type of the data. -/
theorem stakingFlags_iff (flags : UInt8) (staking : StakingData) :
    (¬(flags ≠ 0 ∧ flags ≠ txFlagSignaling) ∧
      decide (flags = txFlagSignaling) =
        isSignalingTransactionData staking.payload.type) ↔
      flags = Content.stakingFlags staking := by
  have distinct : (0 : UInt8) ≠ txFlagSignaling := by decide
  unfold Content.stakingFlags
  cases isSignalingTransactionData staking.payload.type with
  | true =>
      rw [if_pos rfl, decide_eq_true_iff]
      constructor
      · exact And.right
      · rintro rfl
        exact ⟨fun other => other.2 rfl, rfl⟩
  | false =>
      rw [if_neg (by decide), decide_eq_false_iff_not]
      constructor
      · rintro ⟨known, notSignaling⟩
        by_contra nonzero
        exact known ⟨nonzero, notSignaling⟩
      · rintro rfl
        exact ⟨fun other => other.1 rfl, distinct⟩

theorem stakingIncomingLabel_type (payload : StakingPayload) :
    stakingIncomingLabel payload.type = .ok payload.label := by
  cases payload <;> rfl

/-- The data of a staking transaction is not empty, so that its place is
known. -/
theorem stakingData_slice
    (denotes : fields.Denotes memory tx)
    (dataEq : tx.data = StakingData.encode staking) :
    fields.data = ⟨some 2, tx.data.length⟩ := by
  apply denotes.dataPointer
  rw [dataEq, StakingData.encode]
  exact List.cons_ne_nil _ _

/-- Exactly the transactions of stakers are accepted to the staking
contract. -/
theorem parseStakingIncomingTx_eq_ok_iff
    (device : Device)
    (denotes : fields.Denotes memory tx) :
    parseStakingIncomingTx device version memory fields = .ok out ↔
      ∃ staking : StakingData,
        (version = .albatross ∧ tx.recipient = stakingContract ∧
          tx.flags = Content.stakingFlags staking ∧ tx.senderData = [] ∧
          tx.data = staking.encode ∧ staking.payload.Payable) ∧
        staking.Hashable device ∧
        out = (Content.stakingIncoming staking).shown device tx := by
  unfold parseStakingIncomingTx
  rw [isStakingContract_eq denotes.recipient, denotes.flags]
  constructor
  · intro result
    obtain ⟨_, plain, result⟩ := Run.bind_eq_ok.mp result
    obtain ⟨_, isContract, result⟩ := Run.bind_eq_ok.mp result
    obtain ⟨_, toContract, result⟩ := Run.bind_eq_ok.mp result
    obtain ⟨parsed, parseData, result⟩ := Run.bind_eq_ok.mp result
    obtain ⟨label, labelEq, result⟩ := Run.bind_eq_ok.mp result
    obtain ⟨_, signaling, result⟩ := Run.bind_eq_ok.mp result
    cases result
    cases isContract
    have isRecipient := Run.returnOn_eq_ok.mp toContract
    obtain ⟨knownFlags, noSenderData⟩ :=
      not_or.mp (Run.returnOn_eq_ok.mp plain)
    obtain ⟨rfl, staking, dataEq, payable, hashable⟩ :=
      parseStakingIncomingData_inversion denotes.data parseData
    have dataCovers := dataEq ▸ denotes.data
    rw [stakingData_slice denotes dataEq] at dataCovers parseData
    rw [parseStakingIncomingData_eq device staking dataCovers denotes.sender
      payable hashable] at parseData
    cases parseData
    have labels := stakingIncomingLabel_type staking.payload
    rw [show staking.payload.type =
      (staking.shown device tx.sender 2).type from rfl, labelEq] at labels
    cases labels
    refine ⟨staking, ⟨rfl, by simpa using isRecipient, ?_,
      denotes.senderData_length_eq_zero_iff.mp (not_not.mp noSenderData),
      dataEq, payable⟩, hashable, rfl⟩
    exact (stakingFlags_iff tx.flags staking).mp
      ⟨knownFlags, not_not.mp (Run.returnOn_eq_ok.mp signaling)⟩
  · rintro ⟨staking, ⟨rfl, isContract, flagsEq, noSenderData, dataEq,
      payable⟩, hashable, rfl⟩
    obtain ⟨knownFlags, signaling⟩ :=
      (stakingFlags_iff tx.flags staking).mpr flagsEq
    have noLength := denotes.senderData_length_eq_zero_iff.mpr noSenderData
    have dataCovers := dataEq ▸ denotes.data
    rw [stakingData_slice denotes dataEq] at dataCovers ⊢
    rw [Run.returnOn_of_not
        (not_or.mpr ⟨knownFlags, not_not.mpr noLength⟩), Run.bind_ok,
      Run.bind_ok, Run.returnOn_of_not (by simp [isContract]), Run.bind_ok,
      parseStakingIncomingData_eq device staking dataCovers denotes.sender
        payable hashable, Run.bind_ok]
    change (stakingIncomingLabel staking.payload.type >>= _) = _
    rw [stakingIncomingLabel_type, Run.bind_ok]
    change (Run.returnOn (decide (tx.flags = txFlagSignaling) ≠
      isSignalingTransactionData staking.payload.type) _ >>= _) = _
    rw [Run.returnOn_of_not (not_not.mpr signaling)]
    rfl

/-- What a transaction does is accepted if and only if it is admitted. -/
theorem parseTxContent_eq_ok_iff
    (device : Device)
    (denotes : fields.Denotes memory tx)
    (payable : tx.Payable) :
    parseTxContent device version memory fields = .ok out ↔
      ∃ content : Content, content.Admits tx ∧ content.Hashable device ∧
        out = content.shown device tx := by
  unfold parseTxContent
  rw [denotes.senderType, denotes.recipientType]
  constructor
  · intro result
    split_ifs at result with fromStaking
    · obtain ⟨admits, rfl⟩ :=
        (parseStakingOutgoingTx_eq_ok_iff device denotes).mp result
      exact ⟨.stakingOutgoing, ⟨fromStaking, admits⟩, trivial, rfl⟩
    · cases accountEq : AccountType.ofCode? tx.recipientType with
      | none => simp [accountEq] at result
      | some account =>
          have codeEq := AccountType.ofCode?_eq_some_iff.mp accountEq
          simp only [accountEq] at result
          cases account with
          | basic =>
              obtain ⟨admits, rfl⟩ :=
                (parseBasicTx_eq_ok_iff device denotes).mp result
              exact ⟨.normal, ⟨fromStaking, codeEq, admits⟩, trivial, rfl⟩
          | vesting =>
              obtain ⟨vesting, admits, rfl⟩ :=
                (parseVestingTx_eq_ok_iff device denotes payable).mp result
              exact ⟨.vestingCreation vesting, ⟨fromStaking, codeEq, admits⟩,
                trivial, rfl⟩
          | htlc =>
              obtain ⟨htlc, admits, rfl⟩ :=
                (parseHtlcTx_eq_ok_iff device denotes).mp result
              exact ⟨.htlcCreation htlc, ⟨fromStaking, codeEq, admits⟩,
                trivial, rfl⟩
          | staking =>
              obtain ⟨staking, admits, hashable, rfl⟩ :=
                (parseStakingIncomingTx_eq_ok_iff device denotes).mp result
              exact ⟨.stakingIncoming staking,
                ⟨fromStaking, codeEq, admits⟩, hashable, rfl⟩
  · rintro ⟨content, admits, hashable, rfl⟩
    cases content with
    | stakingOutgoing =>
        rw [if_pos admits.1]
        exact (parseStakingOutgoingTx_eq_ok_iff device denotes).mpr
          ⟨admits.2, rfl⟩
    | normal =>
        rw [if_neg admits.1, AccountType.ofCode?_eq_some_iff.mpr admits.2.1]
        exact (parseBasicTx_eq_ok_iff device denotes).mpr ⟨admits.2.2, rfl⟩
    | vestingCreation vesting =>
        rw [if_neg admits.1, AccountType.ofCode?_eq_some_iff.mpr admits.2.1]
        exact (parseVestingTx_eq_ok_iff device denotes payable).mpr
          ⟨vesting, admits.2.2, rfl⟩
    | htlcCreation htlc =>
        rw [if_neg admits.1, AccountType.ofCode?_eq_some_iff.mpr admits.2.1]
        exact (parseHtlcTx_eq_ok_iff device denotes).mpr
          ⟨htlc, admits.2.2, rfl⟩
    | stakingIncoming staking =>
        rw [if_neg admits.1, AccountType.ofCode?_eq_some_iff.mpr admits.2.1]
        exact (parseStakingIncomingTx_eq_ok_iff device denotes).mpr
          ⟨staking, admits.2.2, hashable, rfl⟩

end Branches

/-! ## Soundness and completeness of the parser -/

/-- The parser accepts exactly the transactions that can be reviewed, and
shows them. -/
theorem parseTx_eq_ok_iff (device : Device) :
    parseTx device version buffer = .ok parsed ↔
      ∃ known, version = TransactionVersion.code known ∧
        ∃ accepted : AcceptedTransaction known,
          buffer = accepted.tx.encode ∧
          accepted.content.Hashable device ∧
          parsed = accepted.shown device := by
  unfold parseTx
  constructor
  · intro result
    cases versionEq : TransactionVersion.ofCode? version with
    | none => simp [versionEq] at result
    | some known =>
        simp only [versionEq] at result
        obtain ⟨fields, readFields, result⟩ := Run.bind_eq_ok.mp result
        obtain ⟨out, parseContent, result⟩ := Run.bind_eq_ok.mp result
        cases result
        obtain ⟨tx, network, rfl, payable, networkId⟩ :=
          readTxFields_inversion (Covers.whole buffer) readFields
        obtain ⟨other, readOther, denotes, valueText, feeText, networkText⟩ :=
          readTxFields_accept tx (Covers.whole _) payable networkId
        rw [readFields] at readOther
        cases readOther
        obtain ⟨content, admits, hashable, rfl⟩ :=
          (parseTxContent_eq_ok_iff device denotes payable).mp parseContent
        refine ⟨known, TransactionVersion.ofCode?_eq_some_iff.mp versionEq,
          ⟨tx, network, content, payable, networkId, admits⟩, rfl, hashable,
          ?_⟩
        rw [valueText, feeText, networkText]
        rfl
  · rintro ⟨known, rfl, accepted, rfl, hashable, rfl⟩
    obtain ⟨fields, readFields, denotes, valueText, feeText, networkText⟩ :=
      readTxFields_accept accepted.tx (Covers.whole _) accepted.payable
        accepted.networkId_eq
    have parseContent :=
      (parseTxContent_eq_ok_iff device denotes accepted.payable).mpr
        ⟨accepted.content, accepted.admitted, hashable, rfl⟩
    simp only [TransactionVersion.ofCode?_code, readFields, parseContent,
      Run.bind_ok, valueText, feeText, networkText]
    rfl

/-- Every hash the app asks for is computed. -/
def Device.Hashes (device : Device) : Prop :=
  ∀ input, (device.blake2b input).isSome

theorem Content.hashable_of_hashes
    (hashes : device.Hashes)
    (content : Content) :
    content.Hashable device := by
  cases content with
  | stakingIncoming staking =>
      intro proof _ _
      rw [Device.address, Option.isSome_map]
      exact hashes _
  | _ => trivial

/-- On a device that computes its hashes, exactly the transactions that can
be reviewed are accepted, and each is shown by its fields. -/
theorem parseTx_accepts_iff
    (hashes : device.Hashes) :
    parseTx device version buffer = .ok parsed ↔
      ∃ known, version = TransactionVersion.code known ∧
        ∃ accepted : AcceptedTransaction known,
          buffer = accepted.tx.encode ∧ parsed = accepted.shown device := by
  rw [parseTx_eq_ok_iff device]
  constructor
  · rintro ⟨known, versionEq, accepted, bufferEq, _, parsedEq⟩
    exact ⟨known, versionEq, accepted, bufferEq, parsedEq⟩
  · rintro ⟨known, versionEq, accepted, bufferEq, parsedEq⟩
    exact ⟨known, versionEq, accepted, bufferEq,
      Content.hashable_of_hashes hashes accepted.content, parsedEq⟩

open Foundation.Positional (bytesOf bytesOf_length)

/-- The public key of `NQ13 URTV 2LSM 7E2D N50H 93N9 SYKP PDAR GEH9`. -/
def samplePublicKey : Bytes 32 :=
  ⟨bytesOf 32
    0x6b20f8ca4ed445c2d666e80361cbc1b98d0d55ca44ad8c560755d528f8d3d71c,
    bytesOf_length _ _⟩

def sampleAddress : Bytes 20 :=
  ⟨bytesOf 20 0xe677d153553b84db141148ec9d7e77bb55983a29, bytesOf_length _ _⟩

/-- A device on which the hash of the public key is the right one. -/
def sampleDevice : Device where
  pastTotalNumber := 0
  blake2b input := some <|
    if input = samplePublicKey.val then
      ⟨bytesOf 32
        0xe677d153553b84db141148ec9d7e77bb55983a297727eeac0ad60e5e6e4d4539,
        bytesOf_length _ _⟩
    else Bytes.zero

/-- The staker signature of the sample. -/
def sampleStakerSignature : Bytes 64 :=
  ⟨bytesOf 32
      0x72ca20775e73e6cb8cc32218347949264630f198ddc6ef31d574c8cef68d43ed ++
    bytesOf 32
      0x9743d00005297a52758190ccfcdce22cb7d2a6d4dc34b152e685fdb50ba1f505,
    by simp⟩

/-- A staking transaction of the sample address of 100 NIM. -/
def sampleStaking (staking : StakingData)
    (short : staking.encode.length < 2 ^ 16) : Transaction .albatross where
  data := staking.encode
  sender := sampleAddress
  senderType := AccountType.basic.code
  recipient := stakingContract
  recipientType := AccountType.staking.code
  value := 10000000
  fee := 0
  validityStartHeight := 1234
  networkId := Network.test.id .albatross
  flags := 0
  senderData := []
  dataLength_lt := short
  senderDataLength_lt := by decide
  legacySenderData := fun _ => rfl

/-- A legacy transaction of the sample address that creates a contract with
100 NIM. -/
def sampleCreation (recipientType : UInt8) (data : List UInt8)
    (short : data.length < 2 ^ 16) : Transaction .legacy where
  data
  sender := sampleAddress
  senderType := AccountType.basic.code
  recipient := Bytes.zero
  recipientType
  value := 10000000
  fee := 0
  validityStartHeight := 1234
  networkId := Network.test.id .legacy
  flags := txFlagContractCreation
  senderData := []
  dataLength_lt := short
  senderDataLength_lt := by decide
  legacySenderData := fun _ => rfl

/-- Creating a staker with a signature proof. -/
def sampleCreateStaker (proof : ProofData) : StakingData where
  payload := .createStaker .absent
  proof := some proof
  hasProof := rfl

/-- The transaction that creates a staker is one that can be reviewed. -/
def acceptedCreateStaker (proof : ProofData) :
    AcceptedTransaction .albatross where
  tx := sampleStaking (sampleCreateStaker proof) (by
    simp [StakingData.encode, StakingData.proofBytes, sampleCreateStaker,
      StakingPayload.encode, Delegation.encode])
  network := .test
  content := .stakingIncoming (sampleCreateStaker proof)
  payable := ⟨show (10000000 : UInt64) ≤ maxSafeLunaAmount by decide,
    show (0 : UInt64) ≤ maxSafeLunaAmount by decide⟩
  networkId_eq := rfl
  admitted := ⟨show AccountType.basic.code ≠ AccountType.staking.code by
    decide, rfl, rfl, rfl, rfl, rfl, rfl, trivial⟩

/-- The signed creation of a staker is accepted. -/
theorem parseTx_accepts_createStaker :
    sampleDevice.Hashes ∧
      parseTx sampleDevice 1 (acceptedCreateStaker
          ⟨samplePublicKey, sampleStakerSignature⟩).tx.encode =
        .ok ((acceptedCreateStaker
          ⟨samplePublicKey, sampleStakerSignature⟩).shown sampleDevice) :=
  ⟨fun _ => rfl, (parseTx_accepts_iff (fun _ => rfl)).mpr
    ⟨.albatross, rfl, _, rfl, rfl⟩⟩

end NimiqApp
