import NimiqApp.ReviewAgreement

/-!
# What a review tells

Two payments or staking transactions with the same review say the same,
although entries are skipped and two of them share a label.  The entries are
told apart by their labels; the argument is that each value shown under a
label determines what it was printed from.
-/

namespace NimiqApp

/-- The values shown under a label, in order. -/
def valuesOf (item : CString) (entries : List Entry) : List CString :=
  entries.filterMap fun entry =>
    if entry.item = item then some entry.value else none

@[simp] theorem valuesOf_append (item : CString) (front back : List Entry) :
    valuesOf item (front ++ back) =
      valuesOf item front ++ valuesOf item back :=
  List.filterMap_append

@[simp] theorem valuesOf_single (item other value : CString) :
    valuesOf item [⟨other, value⟩] = if other = item then [value] else [] := by
  unfold valuesOf
  by_cases same : other = item
  · simp [same]
  · simp [same]

@[simp] theorem valuesOf_optionalEntry
    (item : CString)
    (isShown : Bool)
    (other value : CString) :
    valuesOf item (optionalEntry isShown other value) =
      if other = item then (if isShown then [value] else []) else [] := by
  cases isShown with
  | true => simp [optionalEntry]
  | false => simp [optionalEntry, valuesOf]

/-- A value is shown under a label if there is an entry with both. -/
theorem mem_valuesOf :
    value ∈ valuesOf item entries ↔ ⟨item, value⟩ ∈ entries := by
  unfold valuesOf
  rw [List.mem_filterMap]
  constructor
  · rintro ⟨⟨other, shown⟩, member, isShown⟩
    split at isShown
    · rename_i same
      cases same
      cases isShown
      exact member
    · cases isShown
  · intro member
    exact ⟨_, member, if_pos rfl⟩

/-- The labels of the reviews. -/
theorem items_distinct :
    ascii "Amount" ≠ ascii "Network" ∧ ascii "Amount" ≠ ascii "Fee" ∧
      ascii "Fee" ≠ ascii "Network" ∧ ascii "Fee" ≠ ascii "Amount" ∧
      ascii "Network" ≠ ascii "Fee" ∧ ascii "Network" ≠ ascii "Amount" := by
  decide

/-- An optional entry is determined by its value when only one value skips
it. -/
theorem skipped_injective
    (isShown : CString → Bool)
    (skips : ∀ left right, isShown left = false → isShown right = false →
      left = right)
    (equal : (if isShown left then [left] else []) =
      if isShown right then [right] else []) :
    left = right := by
  cases leftShown : isShown left <;> cases rightShown : isShown right <;>
    simp only [leftShown, rightShown] at equal
  · exact skips left right leftShown rightShown
  · cases equal
  · cases equal
  · exact List.singleton_injective equal

/-- An amount that is skipped when it is zero is determined. -/
theorem optionalAmount_injective
    (equal : (if decide (left ≠ ascii "0 NIM") then [left] else []) =
      if decide (right ≠ ascii "0 NIM") then [right] else []) :
    left = right :=
  skipped_injective (fun value => decide (value ≠ ascii "0 NIM"))
    (by
      intro left right leftSkipped rightSkipped
      simp only [decide_eq_false_iff_not, not_not] at leftSkipped rightSkipped
      rw [leftSkipped, rightSkipped])
    equal

/-- A text that is skipped when it is empty is determined. -/
theorem optionalText_injective
    {left right : CString}
    (equal : (if decide (left.length ≠ 0) then [left] else []) =
      if decide (right.length ≠ 0) then [right] else []) :
    left = right :=
  skipped_injective (fun value => decide (value.length ≠ 0))
    (by
      intro left right leftSkipped rightSkipped
      simp only [decide_eq_false_iff_not, not_not] at leftSkipped rightSkipped
      rw [List.length_eq_zero_iff.mp leftSkipped,
        List.length_eq_zero_iff.mp rightSkipped])
    equal

/-- A text that is not shown when it is the same as another one. -/
theorem omitted_injective
    {left right usual : CString}
    (equal : (if decide (left ≠ usual) then [left] else []) =
      if decide (right ≠ usual) then [right] else []) :
    left = right :=
  skipped_injective (fun text => decide (text ≠ usual))
    (by
      intro left right leftSame rightSame
      simp only [decide_eq_false_iff_not, not_not] at leftSame rightSame
      rw [leftSame, rightSame])
    equal

/-- The labels fee and network are not used by the entries of a content. -/
def Unlabelled (entries : List Entry) : Prop :=
  valuesOf (ascii "Fee") entries = [] ∧
    valuesOf (ascii "Network") entries = []

/-- Fee, network, value and the entries in between are determined, once it is
known how many of those are amounts. -/
theorem surround_injective
    {left right : ParsedTx}
    (leftUnlabelled : Unlabelled leftEntries)
    (rightUnlabelled : Unlabelled rightEntries)
    (amounts : (valuesOf (ascii "Amount") leftEntries).length =
      (valuesOf (ascii "Amount") rightEntries).length)
    (equal : left.surround leftEntries = right.surround rightEntries) :
    left.value = right.value ∧ left.fee = right.fee ∧
      left.network = right.network ∧ leftEntries = rightEntries := by
  obtain ⟨amountNetwork, amountFee, feeNetwork, feeAmount, networkFee,
    networkAmount⟩ := items_distinct
  have fees := congrArg (valuesOf (ascii "Fee")) equal
  have networks := congrArg (valuesOf (ascii "Network")) equal
  have values := congrArg (valuesOf (ascii "Amount")) equal
  simp only [ParsedTx.surround, valuesOf_append, valuesOf_single,
    valuesOf_optionalEntry, leftUnlabelled.1, rightUnlabelled.1,
    amountFee, networkFee, if_true, if_false, List.nil_append,
    List.append_nil] at fees
  simp only [ParsedTx.surround, valuesOf_append, valuesOf_single,
    valuesOf_optionalEntry, leftUnlabelled.2, rightUnlabelled.2,
    amountNetwork, feeNetwork, if_true, if_false, List.nil_append] at networks
  simp only [ParsedTx.surround, valuesOf_append, valuesOf_single,
    valuesOf_optionalEntry, feeAmount, networkAmount, if_true, if_false,
    List.append_nil] at values
  have feeEq := optionalAmount_injective fees
  have networkEq := List.singleton_injective networks
  have valueEq := optionalAmount_injective
    (List.append_inj' values amounts).1
  refine ⟨valueEq, feeEq, networkEq, ?_⟩
  unfold ParsedTx.surround at equal
  rw [valueEq, feeEq, networkEq] at equal
  exact List.append_cancel_right (List.append_cancel_left equal)

/-- The number of amounts among the entries, by the label of the
transaction. -/
def amountCount : TransactionLabelType → Nat
  | .stakingSetActiveStake | .stakingRetireStake => 1
  | _ => 0

theorem normalEntries_values
    (tx : TxDataNormalOrStakingOutgoing)
    (label : tx.extraDataLabel ∈ [[], ascii "Data", ascii "Data Hex"]) :
    Unlabelled tx.entries ∧ valuesOf (ascii "Amount") tx.entries = [] := by
  have others : ∀ item ∈ [[], ascii "Data", ascii "Data Hex",
      ascii "Recipient"], item ≠ ascii "Fee" ∧ item ≠ ascii "Network" ∧
        item ≠ ascii "Amount" := by decide
  obtain ⟨fee, network, amount⟩ := others tx.extraDataLabel (by
    simp only [List.mem_cons, List.not_mem_nil, or_false] at label ⊢
    tauto)
  obtain ⟨recipientFee, recipientNetwork, recipientAmount⟩ :=
    others (ascii "Recipient") (by simp)
  refine ⟨⟨?_, ?_⟩, ?_⟩ <;>
    simp only [TxDataNormalOrStakingOutgoing.entries, valuesOf_append,
      valuesOf_single, valuesOf_optionalEntry, fee, network, amount,
      recipientFee, recipientNetwork, recipientAmount, if_false,
      List.append_nil]

theorem stakingEntries_values
    (payload : StakingPayload)
    (staker : CString) :
    Unlabelled (payload.entries staker) ∧
      (valuesOf (ascii "Amount") (payload.entries staker)).length =
        amountCount payload.label := by
  have staking : ∀ item ∈ [ascii "Staker", ascii "Delegation",
      ascii "Reactivate all Stake"], item ≠ ascii "Fee" ∧
        item ≠ ascii "Network" ∧ item ≠ ascii "Amount" := by decide
  obtain ⟨stakerFee, stakerNetwork, stakerAmount⟩ :=
    staking (ascii "Staker") (by simp)
  obtain ⟨delegationFee, delegationNetwork, delegationAmount⟩ :=
    staking (ascii "Delegation") (by simp)
  obtain ⟨reactivateFee, reactivateNetwork, reactivateAmount⟩ :=
    staking (ascii "Reactivate all Stake") (by simp)
  obtain ⟨amountNetwork, amountFee, _⟩ := items_distinct
  cases payload <;> refine ⟨⟨?_, ?_⟩, ?_⟩ <;>
    simp only [StakingPayload.entries, StakingPayload.label, amountCount,
      valuesOf_append, valuesOf_single, valuesOf_optionalEntry, stakerFee,
      stakerNetwork, stakerAmount, delegationFee, delegationNetwork,
      delegationAmount, reactivateFee, reactivateNetwork, reactivateAmount,
      amountNetwork, amountFee, if_true, if_false, List.append_nil,
      List.length_nil, List.length_singleton]

/-- The delegation in staking data. -/
def StakingPayload.delegation? : StakingPayload → Option (Bytes 20)
  | createStaker delegation => delegation.address?
  | updateStaker delegation _ => delegation.address?
  | _ => none

/-- The flag to reactivate all stake in staking data. -/
def StakingPayload.reactivateAllStake? : StakingPayload → Option Bool
  | updateStaker _ reactivateAllStake => some (reactivateAllStake ≠ 0)
  | _ => none

/-- The amount of stake to set active or to retire. -/
def StakingPayload.amount? : StakingPayload → Option UInt64
  | setActiveStake amount => some amount
  | retireStake amount => some amount
  | _ => none

/-- What payments and staking transactions say besides value and fee. -/
inductive Meaning
  | payment (recipient : Bytes 20) (data : List UInt8)
  | removeStake (recipient : Bytes 20)
  | stake (type : StakingIncomingDataType) (delegation : Option (Bytes 20))
      (reactivateAllStake : Option Bool) (amount : Option UInt64)
      (shownStaker : CString)

/-- What a content says, unless it creates a contract. -/
def Content.meaning (device : Device) (tx : Transaction version) :
    Content → Option Meaning
  | stakingOutgoing => some (.removeStake tx.recipient)
  | normal => some (.payment tx.recipient tx.data)
  | vestingCreation _ => none
  | htlcCreation _ => none
  | stakingIncoming staking =>
      some (.stake staking.payload.type staking.payload.delegation?
        staking.payload.reactivateAllStake? staking.payload.amount?
        (staking.shownStaker device tx.sender))

/-- Addresses that are shown alike are equal. -/
theorem shownAddress_injective
    {left right : Bytes 20}
    (equal : userFriendlyAddress left.val = userFriendlyAddress right.val) :
    left = right :=
  Subtype.ext
    (userFriendlyAddress_injective left.property right.property equal)

/-- An address that is not shown when it is that of the sender. -/
theorem shownUnlessSender_injective
    {left right sender : Bytes 20}
    (equal :
      (if !decide (left = sender) then [userFriendlyAddress left.val]
        else []) =
      if !decide (right = sender) then [userFriendlyAddress right.val]
        else []) :
    left = right := by
  by_cases leftSender : left = sender <;> by_cases rightSender : right = sender
  · rw [leftSender, rightSender]
  · simp [leftSender, rightSender] at equal
  · simp [leftSender, rightSender] at equal
  · simp only [leftSender, rightSender, decide_false, Bool.not_false, if_true]
      at equal
    exact shownAddress_injective (List.singleton_injective equal)

/-- A delegation is shown unless there is none. -/
theorem Delegation.shown_injective
    {left right : Delegation}
    (equal : left.shown = right.shown) :
    left.address? = right.address? := by
  unfold shown at equal
  cases leftEq : left.address? <;> cases rightEq : right.address? <;>
    simp only [leftEq, rightEq] at equal
  · rfl
  · exact absurd equal.symm (userFriendlyAddress_ne_nil _)
  · exact absurd equal (userFriendlyAddress_ne_nil _)
  · rw [shownAddress_injective equal]

theorem StakingPayload.type_eq_of_label
    {left right : StakingPayload}
    (labels : left.label = right.label) : left.type = right.type := by
  cases left <;> cases right <;> first | rfl | cases labels

/-- The flag to reactivate all stake is shown. -/
theorem reactivateText_injective
    {left right : UInt8}
    (equal : (if left ≠ 0 then ascii "Yes" else ascii "No") =
      if right ≠ 0 then ascii "Yes" else ascii "No") :
    decide (left ≠ 0) = decide (right ≠ 0) := by
  have distinct : ascii "Yes" ≠ ascii "No" := by decide
  by_cases leftZero : left = 0 <;> by_cases rightZero : right = 0
  · rw [leftZero, rightZero]
  · simp only [leftZero, rightZero, ne_eq, not_true_eq_false, if_false,
      not_false_eq_true, if_true] at equal
    exact absurd equal.symm distinct
  · simp only [leftZero, rightZero, ne_eq, not_true_eq_false, if_false,
      not_false_eq_true, if_true] at equal
    exact absurd equal distinct
  · simp [leftZero, rightZero]

/-- An amount is in front of the staker. -/
theorem amountEntries_injective
    {left right : UInt64}
    (equal :
      [Entry.mk (ascii "Amount") (amountWithTicker left.toNat)] ++
          optionalEntry (leftStaker.length ≠ 0) (ascii "Staker") leftStaker =
        [Entry.mk (ascii "Amount") (amountWithTicker right.toNat)] ++
          optionalEntry (rightStaker.length ≠ 0) (ascii "Staker")
            rightStaker) :
    leftStaker = rightStaker ∧ left = right := by
  obtain ⟨amounts, stakers⟩ := List.append_inj equal rfl
  have values := congrArg (valuesOf (ascii "Staker")) stakers
  simp only [valuesOf_optionalEntry, if_true] at values
  have texts := congrArg Entry.value (List.singleton_injective amounts)
  exact ⟨optionalText_injective values,
    UInt64.toNat_inj.mp (amountWithTicker_injective texts)⟩

/-- The entries of staking data of a type determine what it says. -/
theorem StakingPayload.entries_injective
    {left right : StakingPayload}
    (labels : left.label = right.label)
    (equal : left.entries leftStaker = right.entries rightStaker) :
    leftStaker = rightStaker ∧ left.delegation? = right.delegation? ∧
      left.reactivateAllStake? = right.reactivateAllStake? ∧
      left.amount? = right.amount? := by
  have distinct : ascii "Delegation" ≠ ascii "Staker" ∧
      ascii "Reactivate all Stake" ≠ ascii "Staker" ∧
      ascii "Staker" ≠ ascii "Delegation" ∧
      ascii "Reactivate all Stake" ≠ ascii "Delegation" ∧
      ascii "Staker" ≠ ascii "Reactivate all Stake" ∧
      ascii "Delegation" ≠ ascii "Reactivate all Stake" := by decide
  obtain ⟨delegationStaker, reactivateStaker, stakerDelegation,
    reactivateDelegation, stakerReactivate, delegationReactivate⟩ := distinct
  have stakers := congrArg (valuesOf (ascii "Staker")) equal
  have delegations := congrArg (valuesOf (ascii "Delegation")) equal
  have flags := congrArg (valuesOf (ascii "Reactivate all Stake")) equal
  cases left with
  | createStaker delegation =>
      cases right with
      | createStaker other =>
          simp only [entries, valuesOf_append, valuesOf_optionalEntry,
            delegationStaker, stakerDelegation, if_true, if_false,
            List.nil_append, List.append_nil] at stakers delegations
          exact ⟨optionalText_injective stakers, Delegation.shown_injective
            (optionalText_injective delegations), rfl, rfl⟩
      | _ => cases labels
  | addStake staker =>
      cases right with
      | addStake other =>
          simp only [entries, valuesOf_optionalEntry, if_true] at stakers
          exact ⟨optionalText_injective stakers, rfl, rfl, rfl⟩
      | _ => cases labels
  | updateStaker delegation reactivateAllStake =>
      cases right with
      | updateStaker other otherReactivate =>
          simp only [entries, valuesOf_append, valuesOf_optionalEntry,
            valuesOf_single, delegationStaker, reactivateStaker,
            stakerDelegation, reactivateDelegation, stakerReactivate,
            delegationReactivate, if_true, if_false, List.nil_append,
            List.append_nil] at stakers delegations flags
          refine ⟨optionalText_injective stakers, Delegation.shown_injective
            (optionalText_injective delegations), ?_, rfl⟩
          exact congrArg some
            (reactivateText_injective (List.singleton_injective flags))
      | _ => cases labels
  | setActiveStake amount =>
      cases right with
      | setActiveStake other =>
          obtain ⟨stakers, amounts⟩ := amountEntries_injective equal
          exact ⟨stakers, rfl, rfl, congrArg some amounts⟩
      | _ => cases labels
  | retireStake amount =>
      cases right with
      | retireStake other =>
          obtain ⟨stakers, amounts⟩ := amountEntries_injective equal
          exact ⟨stakers, rfl, rfl, congrArg some amounts⟩
      | _ => cases labels

/-- The label of a content. -/
def Content.label (tx : Transaction version) : Content → TransactionLabelType
  | stakingOutgoing => .stakingRemoveStake
  | normal =>
      if (shownNormalData tx.data).isCashlink then .cashlink
      else .regularTransaction
  | vestingCreation _ => .vestingCreation
  | htlcCreation _ => .htlcCreation
  | stakingIncoming staking => staking.payload.label

theorem Content.shown_label
    (device : Device)
    (tx : Transaction version)
    (content : Content) :
    (content.shown device tx).transactionLabelType = content.label tx := by
  cases content <;> rfl

/-- Normal data is shown under one of two labels, if at all. -/
theorem shownNormalData_label (data : List UInt8) :
    (shownNormalData data).extraDataLabel ∈
      [[], ascii "Data", ascii "Data Hex"] := by
  unfold shownNormalData
  split_ifs <;> simp

/-- The entries of a content leave fee and network alone, and the label says
how many amounts there are. -/
theorem Content.entries_values
    (device : Device)
    (tx : Transaction version)
    {content : Content}
    (noContract : ¬content.IsContractCreation) :
    Unlabelled (content.entries device tx) ∧
      (valuesOf (ascii "Amount") (content.entries device tx)).length =
        amountCount (content.label tx) := by
  cases content with
  | stakingOutgoing =>
      obtain ⟨unlabelled, none⟩ := normalEntries_values
        ⟨userFriendlyAddress tx.recipient.val, [], []⟩ (by simp)
      exact ⟨unlabelled, congrArg List.length none⟩
  | normal =>
      obtain ⟨unlabelled, none⟩ := normalEntries_values
        ⟨userFriendlyAddress tx.recipient.val, _, _⟩
        (shownNormalData_label tx.data)
      refine ⟨unlabelled, (congrArg List.length none).trans ?_⟩
      change 0 = amountCount (if (shownNormalData tx.data).isCashlink then _
        else _)
      cases (shownNormalData tx.data).isCashlink <;> rfl
  | vestingCreation vesting => exact absurd trivial noContract
  | htlcCreation htlc => exact absurd trivial noContract
  | stakingIncoming staking => exact stakingEntries_values _ _

/-- The entry of normal data, or its absence, determines how it is shown,
once Cashlinks are told apart. -/
theorem shownNormalData_eq_of_entries
    (cashlinks : (shownNormalData left).isCashlink =
      (shownNormalData right).isCashlink)
    (equal :
      optionalEntry ((shownNormalData left).extraData.length ≠ 0)
          (shownNormalData left).extraDataLabel
          (shownNormalData left).extraData =
        optionalEntry ((shownNormalData right).extraData.length ≠ 0)
          (shownNormalData right).extraDataLabel
          (shownNormalData right).extraData) :
    shownNormalData left = shownNormalData right := by
  by_cases leftNone : (shownNormalData left).extraData = [] <;>
    by_cases rightNone : (shownNormalData right).extraData = []
  · have emptyOrCashlink : ∀ data : List UInt8,
        (shownNormalData data).extraData = [] →
          shownNormalData data =
            ⟨[], [], (shownNormalData data).isCashlink⟩ := by
      intro data none
      rcases shownNormalData_extraData_eq_nil_iff.mp none with rfl | rfl
      · rfl
      · rfl
    rw [emptyOrCashlink left leftNone, emptyOrCashlink right rightNone,
      cashlinks]
  · simp [optionalEntry, leftNone, rightNone] at equal
  · simp [optionalEntry, leftNone, rightNone] at equal
  · simp only [optionalEntry, List.length_eq_zero_iff, leftNone, rightNone,
      ne_eq, not_false_eq_true, decide_true, if_true, List.cons.injEq,
      Entry.mk.injEq, and_true] at equal
    generalize shownNormalData left = leftShown at *
    generalize shownNormalData right = rightShown at *
    cases leftShown
    cases rightShown
    simp only at equal cashlinks
    rw [equal.1, equal.2, cashlinks]

/-- Equal entries of payments show the same recipient and the same data. -/
theorem normalEntries_injective
    {left right : Transaction version}
    (labels : Content.label left .normal = Content.label right .normal)
    (equal : Content.normal.entries device left =
      Content.normal.entries device right) :
    left.recipient = right.recipient ∧ left.data = right.data := by
  obtain ⟨recipients, datas⟩ := List.append_inj equal rfl
  have texts := congrArg Entry.value (List.singleton_injective recipients)
  refine ⟨shownAddress_injective texts, ?_⟩
  refine shownNormalData_injective
    (shownNormalData_eq_of_entries ?_ datas)
  change (if _ then TransactionLabelType.cashlink else _) =
    if _ then TransactionLabelType.cashlink else _ at labels
  cases leftEq : (shownNormalData left.data).isCashlink <;>
    cases rightEq : (shownNormalData right.data).isCashlink <;>
    simp_all

/-- The kind of transactions with a label. -/
def TransactionLabelType.transactionType :
    TransactionLabelType → TransactionType
  | .regularTransaction | .cashlink => .normal
  | .vestingCreation => .vestingCreation
  | .htlcCreation => .htlcCreation
  | .stakingCreateStaker | .stakingAddStake | .stakingUpdateStaker
  | .stakingSetActiveStake | .stakingRetireStake => .stakingIncoming
  | .stakingRemoveStake => .stakingOutgoing

/-- The label tells the kind of a content. -/
theorem Content.label_transactionType
    (device : Device)
    (tx : Transaction version)
    (content : Content) :
    (content.label tx).transactionType =
      (content.shown device tx).transactionType := by
  cases content with
  | normal =>
      change TransactionLabelType.transactionType
        (if (shownNormalData tx.data).isCashlink then _ else _) = .normal
      cases (shownNormalData tx.data).isCashlink <;> rfl
  | stakingIncoming staking =>
      obtain ⟨payload, _, _⟩ := staking
      cases payload <;> rfl
  | _ => rfl

/-- Equal labels and equal entries mean the same. -/
theorem Content.entries_injective
    {leftTx rightTx : Transaction version}
    {left right : Content}
    (leftNoContract : ¬left.IsContractCreation)
    (rightNoContract : ¬right.IsContractCreation)
    (labels : left.label leftTx = right.label rightTx)
    (equal : left.entries device leftTx = right.entries device rightTx) :
    left.meaning device leftTx = right.meaning device rightTx := by
  have kinds : (left.shown device leftTx).transactionType =
      (right.shown device rightTx).transactionType := by
    rw [← label_transactionType, ← label_transactionType, labels]
  cases left with
  | stakingOutgoing =>
      cases right with
      | stakingOutgoing =>
          obtain ⟨recipients, _⟩ := List.append_inj equal rfl
          have texts :=
            congrArg Entry.value (List.singleton_injective recipients)
          simp only [meaning, shownAddress_injective texts]
      | _ => cases kinds
  | normal =>
      cases right with
      | normal =>
          obtain ⟨recipients, datas⟩ := normalEntries_injective labels equal
          simp only [meaning, recipients, datas]
      | _ => cases kinds
  | vestingCreation vesting => exact absurd trivial leftNoContract
  | htlcCreation htlc => exact absurd trivial leftNoContract
  | stakingIncoming staking =>
      cases right with
      | stakingIncoming other =>
          obtain ⟨stakers, delegations, flags, amounts⟩ :=
            StakingPayload.entries_injective labels equal
          simp only [meaning, StakingPayload.type_eq_of_label labels,
            stakers, delegations, flags, amounts]
      | _ => cases kinds

/-- The user interface reviews a parsed transaction with a title and
entries. -/
def UserInterface.Reviews (parsed : ParsedTx) (title : CString)
    (entries : List Entry) : UserInterface → Prop
  | bagl =>
      Bagl.uiTransactionSigning (ε := Empty) parsed =
        .ok (Bagl.reviewScreens title entries)
  | nbgl =>
      ∃ finishTitle reviewSubtitle,
        Nbgl.uiTransactionSigning (ε := Empty) parsed =
          .ok ⟨title, finishTitle, reviewSubtitle, entries⟩

/-- The title of a label. -/
def UserInterface.title (label : TransactionLabelType) :
    UserInterface → CString
  | bagl => Bagl.transactionLabel label
  | nbgl => (Nbgl.reviewTexts label).1

/-- Different labels have different titles. -/
theorem UserInterface.title_injective
    (ui : UserInterface)
    (equal : ui.title left = ui.title right) :
    left = right := by
  cases ui <;> cases left <;> cases right <;>
    first | rfl | exact absurd equal (by decide)

theorem reviewScreens_injective
    (equal : Bagl.reviewScreens leftLabel leftEntries =
      Bagl.reviewScreens rightLabel rightEntries) :
    leftLabel = rightLabel ∧ leftEntries = rightEntries := by
  obtain ⟨labels, screens⟩ := List.cons.inj equal
  refine ⟨Bagl.Screen.confirm.inj labels, ?_⟩
  exact List.map_injective_iff.mpr
    (fun _ _ same => Bagl.Screen.entry.inj same)
    (List.append_cancel_right screens)

/-- A review has the title and the entries of the transaction. -/
theorem UserInterface.reviews_iff
    (device : Device)
    (accepted : AcceptedTransaction version)
    (noContract : ¬accepted.content.IsContractCreation)
    (ui : UserInterface) :
    ui.Reviews (accepted.shown device) heading entries ↔
      heading = ui.title (accepted.content.label accepted.tx) ∧
        entries = accepted.entries device := by
  have label : (accepted.shown device).transactionLabelType =
      accepted.content.label accepted.tx :=
    Content.shown_label device accepted.tx accepted.content
  cases ui with
  | bagl =>
      unfold Reviews UserInterface.title
      rw [Bagl.uiTransactionSigning_eq, label, Except.ok.injEq]
      constructor
      · intro same
        obtain ⟨titles, lists⟩ := reviewScreens_injective same
        exact ⟨titles.symm, lists.symm⟩
      · rintro ⟨rfl, rfl⟩
        rfl
  | nbgl =>
      unfold Reviews UserInterface.title
      rw [Nbgl.uiTransactionSigning_eq device accepted noContract, ← label]
      constructor
      · rintro ⟨finishTitle, reviewSubtitle, same⟩
        cases same
        exact ⟨rfl, rfl⟩
      · rintro ⟨rfl, rfl⟩
        exact ⟨_, _, rfl⟩

/-- Payments and staking transactions with the same review have the same
value, fee and network and mean the same. -/
theorem review_injective
    {left right : AcceptedTransaction version}
    (leftAccepts :
      parseTx device version.code left.tx.encode = .ok leftParsed)
    (rightAccepts :
      parseTx device version.code right.tx.encode = .ok rightParsed)
    (leftNoContract : ¬left.content.IsContractCreation)
    (rightNoContract : ¬right.content.IsContractCreation)
    (leftReview : UserInterface.Reviews leftParsed heading entries ui)
    (rightReview : UserInterface.Reviews rightParsed heading entries ui) :
    left.tx.value = right.tx.value ∧ left.tx.fee = right.tx.fee ∧
      left.tx.networkId = right.tx.networkId ∧
      left.content.meaning device left.tx =
        right.content.meaning device right.tx := by
  obtain ⟨_, rfl⟩ := left.parseTx_eq_ok_iff.mp leftAccepts
  obtain ⟨_, rfl⟩ := right.parseTx_eq_ok_iff.mp rightAccepts
  obtain ⟨rfl, rfl⟩ :=
    (ui.reviews_iff device left leftNoContract).mp leftReview
  obtain ⟨titles, equal⟩ :=
    (ui.reviews_iff device right rightNoContract).mp rightReview
  have labels := ui.title_injective titles
  obtain ⟨leftUnlabelled, leftCount⟩ :=
    Content.entries_values device left.tx leftNoContract
  obtain ⟨rightUnlabelled, rightCount⟩ :=
    Content.entries_values device right.tx rightNoContract
  obtain ⟨values, fees, networks, middles⟩ := surround_injective
    leftUnlabelled rightUnlabelled
    (by rw [leftCount, rightCount, labels]) equal
  have networkEq := Network.name_injective networks
  refine ⟨UInt64.toNat_inj.mp (amountWithTicker_injective values),
    UInt64.toNat_inj.mp (amountWithTicker_injective fees), ?_,
    Content.entries_injective leftNoContract rightNoContract labels middles⟩
  rw [left.networkId_eq, right.networkId_eq, networkEq]

/-- A staker that is created with a proof and one whose proof is left to the
app have the same review, as the staker is the sender. -/
theorem review_injective_createStaker :
    (acceptedCreateStaker
        ⟨samplePublicKey, sampleStakerSignature⟩).content.meaning sampleDevice
        (acceptedCreateStaker ⟨samplePublicKey, sampleStakerSignature⟩).tx =
      (acceptedCreateStaker ProofData.emptyDefault).content.meaning
        sampleDevice (acceptedCreateStaker ProofData.emptyDefault).tx :=
  (review_injective
    ((acceptedCreateStaker _).parseTx_eq_ok_iff.mpr ⟨fun _ _ _ => rfl, rfl⟩)
    ((acceptedCreateStaker _).parseTx_eq_ok_iff.mpr ⟨fun _ _ _ => rfl, rfl⟩)
    id id
    ((UserInterface.bagl.reviews_iff sampleDevice (acceptedCreateStaker _)
      id).mpr ⟨rfl, rfl⟩)
    ((UserInterface.bagl.reviews_iff sampleDevice (acceptedCreateStaker _)
      id).mpr ⟨rfl, rfl⟩)).2.2.2

end NimiqApp
