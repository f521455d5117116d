import NimiqApp.ReviewInjectivity

/-!
# The review of HTLCs

The review of a hashed time-locked contract skips entries that do not matter
much to the sender: of contracts that expire soon with a refund to the sender
the hash steps and the expiry block are skipped.  All other contracts are told
apart.
-/

namespace NimiqApp

namespace TxDataHtlcCreation

variable (tx : TxDataHtlcCreation)

/-- Hash steps and expiry are not shown. -/
def skipsTimeout : Bool :=
  tx.isRefundAddressSenderAddress && tx.isTimingOutSoon

theorem valuesOf_recipient :
    valuesOf (ascii "HTLC Recipient") tx.entries = [tx.redeemAddress] := by
  simp +decide only [entries, valuesOf_append, valuesOf_single,
    valuesOf_optionalEntry, if_true, if_false, List.append_nil]

theorem valuesOf_refund :
    valuesOf (ascii "Refund to") tx.entries =
      if !tx.isRefundAddressSenderAddress then [tx.refundAddress]
      else [] := by
  simp +decide only [entries, valuesOf_append, valuesOf_single,
    valuesOf_optionalEntry, if_true, if_false, List.nil_append,
    List.append_nil]

theorem valuesOf_hashRoot :
    valuesOf (ascii "Hashed Secret") tx.entries = [tx.hashRoot] := by
  simp +decide only [entries, valuesOf_append, valuesOf_single,
    valuesOf_optionalEntry, if_true, if_false, List.nil_append,
    List.append_nil]

theorem valuesOf_hashAlgorithm :
    valuesOf (ascii "Hash Algorithm") tx.entries =
      if !tx.skipsTimeout || !tx.isUsingSha256 then [tx.hashAlgorithm]
      else [] := by
  simp +decide only [entries, valuesOf_append, valuesOf_single,
    valuesOf_optionalEntry, if_true, if_false, List.nil_append,
    List.append_nil, skipsTimeout, Bool.not_and]

theorem valuesOf_hashCount :
    valuesOf (ascii "Hash Steps") tx.entries =
      if tx.hashCount ≠ ascii "1" && !tx.skipsTimeout then [tx.hashCount]
      else [] := by
  simp +decide only [entries, valuesOf_append, valuesOf_single,
    valuesOf_optionalEntry, if_true, if_false, List.nil_append,
    List.append_nil, skipsTimeout, Bool.not_and]

theorem valuesOf_timeout :
    valuesOf (ascii "HTLC Expiry Block") tx.entries =
      if !tx.skipsTimeout then [tx.timeout] else [] := by
  simp +decide only [entries, valuesOf_append, valuesOf_single,
    valuesOf_optionalEntry, if_true, if_false, List.nil_append,
    skipsTimeout, Bool.not_and]

/-- The entries leave fee and network alone, and none is an amount. -/
theorem entries_unlabelled :
    Unlabelled tx.entries ∧ valuesOf (ascii "Amount") tx.entries = [] := by
  refine ⟨⟨?_, ?_⟩, ?_⟩ <;>
    simp +decide only [entries, valuesOf_append, valuesOf_single,
      valuesOf_optionalEntry, if_false, List.append_nil]

end TxDataHtlcCreation

namespace HtlcData

/-- The contract expires soon, with a refund to the sender. -/
def ExpiresSoonForSender (htlc : HtlcData) (sender : Bytes 20)
    (validityStartHeight : UInt32) : Prop :=
  htlc.refundAddress = sender ∧
    htlc.timeout.toNat <
      validityStartHeight.toNat + htlcTimeoutSoonThreshold.toNat

/-- Two contracts are the same but for what does not matter to the sender. -/
structure SameTerms (left right : HtlcData) (sender : Bytes 20)
    (validityStartHeight : UInt32) : Prop where
  redeemAddress : left.redeemAddress = right.redeemAddress
  refundAddress : left.refundAddress = right.refundAddress
  hashAlgorithm : left.hashAlgorithm = right.hashAlgorithm
  hashRoot : left.hashRoot.val = right.hashRoot.val
  countAndTimeout :
    (left.hashCount = right.hashCount ∧ left.timeout = right.timeout) ∨
      (left.ExpiresSoonForSender sender validityStartHeight ∧
        right.ExpiresSoonForSender sender validityStartHeight)

/-- All parameters are shown, but for one hash step. -/
structure ShownEntirely (htlc : HtlcData) (entries : List Entry) : Prop where
  redeemAddress :
    ⟨ascii "HTLC Recipient", userFriendlyAddress htlc.redeemAddress.val⟩ ∈
      entries
  refundAddress :
    ⟨ascii "Refund to", userFriendlyAddress htlc.refundAddress.val⟩ ∈ entries
  hashRoot : ⟨ascii "Hashed Secret", hexText htlc.hashRoot.val⟩ ∈ entries
  hashAlgorithm : ⟨ascii "Hash Algorithm", htlc.hashAlgorithm.name⟩ ∈ entries
  hashCount :
    ⟨ascii "Hash Steps", printUnsigned htlc.hashCount.toNat⟩ ∈ entries ∨
      htlc.hashCount = 1
  timeout :
    ⟨ascii "HTLC Expiry Block", printUnsigned htlc.timeout.toNat⟩ ∈ entries

section Shown

variable {left right htlc : HtlcData} {sender : Bytes 20} {height : UInt32}

theorem skipsTimeout_shown :
    (htlc.shown sender height).skipsTimeout = true ↔
      htlc.ExpiresSoonForSender sender height := by
  simp only [TxDataHtlcCreation.skipsTimeout, shown, Bool.and_eq_true,
    decide_eq_true_eq, ExpiresSoonForSender]

/-- The names of the algorithms that may be used differ. -/
theorem algorithm_injective
    (leftSupported : left.hashAlgorithm ≠ .argon2d)
    (rightSupported : right.hashAlgorithm ≠ .argon2d)
    (equal : left.hashAlgorithm.name = right.hashAlgorithm.name) :
    left.hashAlgorithm = right.hashAlgorithm := by
  generalize left.hashAlgorithm = leftAlgorithm at *
  generalize right.hashAlgorithm = rightAlgorithm at *
  cases leftAlgorithm <;> cases rightAlgorithm <;>
    first | rfl | contradiction

/-- Hash steps and expiry are shown of both contracts or of none. -/
theorem skipsTimeout_of_entries
    (equal : (left.shown sender height).entries =
      (right.shown sender height).entries) :
    (left.shown sender height).skipsTimeout =
      (right.shown sender height).skipsTimeout := by
  have values := congrArg (valuesOf (ascii "HTLC Expiry Block")) equal
  rw [TxDataHtlcCreation.valuesOf_timeout,
    TxDataHtlcCreation.valuesOf_timeout] at values
  cases leftSkips : (left.shown sender height).skipsTimeout <;>
    cases rightSkips : (right.shown sender height).skipsTimeout
  · rfl
  · simp [leftSkips, rightSkips] at values
  · simp [leftSkips, rightSkips] at values
  · rfl

/-- The refund address is shown unless it is the sender. -/
theorem refundAddress_of_entries
    (equal : (left.shown sender height).entries =
      (right.shown sender height).entries) :
    left.refundAddress = right.refundAddress := by
  have values := congrArg (valuesOf (ascii "Refund to")) equal
  rw [TxDataHtlcCreation.valuesOf_refund,
    TxDataHtlcCreation.valuesOf_refund] at values
  exact shownUnlessSender_injective values

/-- The algorithm is shown, or the usual one of a contract that expires
soon. -/
theorem hashAlgorithm_of_entries
    (equal : (left.shown sender height).entries =
      (right.shown sender height).entries) :
    left.hashAlgorithm = right.hashAlgorithm := by
  have skips := skipsTimeout_of_entries equal
  have values := congrArg (valuesOf (ascii "Hash Algorithm")) equal
  rw [TxDataHtlcCreation.valuesOf_hashAlgorithm,
    TxDataHtlcCreation.valuesOf_hashAlgorithm, skips] at values
  change (if !(right.shown sender height).skipsTimeout ||
      !decide (left.hashAlgorithm = .sha256) then
        [left.hashAlgorithm.name] else []) =
    if !(right.shown sender height).skipsTimeout ||
      !decide (right.hashAlgorithm = .sha256) then
        [right.hashAlgorithm.name] else [] at values
  cases rightSkips : (right.shown sender height).skipsTimeout with
  | false =>
      simp only [rightSkips, Bool.not_false, Bool.true_or, if_true] at values
      exact algorithm_injective left.supported right.supported
        (List.singleton_injective values)
  | true =>
      by_cases leftUsual : left.hashAlgorithm = .sha256 <;>
        by_cases rightUsual : right.hashAlgorithm = .sha256
      · rw [leftUsual, rightUsual]
      · simp [rightSkips, leftUsual, rightUsual] at values
      · simp [rightSkips, leftUsual, rightUsual] at values
      · simp only [rightSkips, leftUsual, rightUsual, decide_false,
          Bool.not_false, Bool.or_true, if_true] at values
        exact algorithm_injective left.supported right.supported
          (List.singleton_injective values)

/-- Hash steps and expiry are shown unless the contract expires soon. -/
theorem countAndTimeout_of_entries
    (equal : (left.shown sender height).entries =
      (right.shown sender height).entries) :
    (left.hashCount = right.hashCount ∧ left.timeout = right.timeout) ∨
      (left.ExpiresSoonForSender sender height ∧
        right.ExpiresSoonForSender sender height) := by
  have skips := skipsTimeout_of_entries equal
  by_cases soon : right.ExpiresSoonForSender sender height
  · have rightSkips := skipsTimeout_shown.mpr soon
    rw [rightSkips] at skips
    exact Or.inr ⟨skipsTimeout_shown.mp skips, soon⟩
  · have rightSkips : (right.shown sender height).skipsTimeout = false :=
      Bool.eq_false_iff.mpr (mt skipsTimeout_shown.mp soon)
    have counts := congrArg (valuesOf (ascii "Hash Steps")) equal
    have timeouts := congrArg (valuesOf (ascii "HTLC Expiry Block")) equal
    rw [TxDataHtlcCreation.valuesOf_hashCount,
      TxDataHtlcCreation.valuesOf_hashCount, skips, rightSkips,
      Bool.not_false, Bool.and_true, Bool.and_true] at counts
    rw [TxDataHtlcCreation.valuesOf_timeout,
      TxDataHtlcCreation.valuesOf_timeout, skips, rightSkips, Bool.not_false,
      if_pos rfl, if_pos rfl] at timeouts
    have count := printUnsigned_injective (omitted_injective counts)
    have timeout := printUnsigned_injective
      (List.singleton_injective timeouts)
    exact Or.inl ⟨UInt8.toNat_inj.mp count, UInt32.toNat_inj.mp timeout⟩

/-- Contracts with the same entries have the same terms. -/
theorem sameTerms_of_entries
    (equal : (left.shown sender height).entries =
      (right.shown sender height).entries) :
    left.SameTerms right sender height := by
  have redeems := congrArg (valuesOf (ascii "HTLC Recipient")) equal
  have roots := congrArg (valuesOf (ascii "Hashed Secret")) equal
  rw [TxDataHtlcCreation.valuesOf_recipient,
    TxDataHtlcCreation.valuesOf_recipient] at redeems
  rw [TxDataHtlcCreation.valuesOf_hashRoot,
    TxDataHtlcCreation.valuesOf_hashRoot] at roots
  exact {
    redeemAddress := shownAddress_injective (List.singleton_injective redeems)
    refundAddress := refundAddress_of_entries equal
    hashAlgorithm := hashAlgorithm_of_entries equal
    hashRoot := hexText_injective (List.singleton_injective roots)
    countAndTimeout := countAndTimeout_of_entries equal }

/-- A contract with a refund to somebody else is shown entirely. -/
theorem shownEntirely_of_foreign
    (height : UInt32)
    (foreign : htlc.refundAddress ≠ sender) :
    htlc.ShownEntirely (htlc.shown sender height).entries := by
  have notSender : decide (htlc.refundAddress = sender) = false :=
    decide_eq_false foreign
  have one : printUnsigned 1 = ascii "1" :=
    printUnsigned_of_lt (show 1 < 10 by decide)
  have all : (htlc.shown sender height).entries =
      [⟨ascii "HTLC Recipient", userFriendlyAddress htlc.redeemAddress.val⟩,
        ⟨ascii "Refund to", userFriendlyAddress htlc.refundAddress.val⟩,
        ⟨ascii "Hashed Secret", hexText htlc.hashRoot.val⟩,
        ⟨ascii "Hash Algorithm", htlc.hashAlgorithm.name⟩] ++
      (optionalEntry (printUnsigned htlc.hashCount.toNat ≠ ascii "1")
        (ascii "Hash Steps") (printUnsigned htlc.hashCount.toNat) ++
      [⟨ascii "HTLC Expiry Block", printUnsigned htlc.timeout.toNat⟩]) := by
    simp only [TxDataHtlcCreation.entries, shown, notSender, optionalEntry,
      Bool.not_false, Bool.true_or, Bool.and_true, if_true]
    rfl
  rw [all]
  refine ⟨by simp, by simp, by simp, by simp, ?_, by simp⟩
  by_cases single : htlc.hashCount = 1
  · exact Or.inr single
  · have differs : printUnsigned htlc.hashCount.toNat ≠ ascii "1" := by
      rw [← one]
      intro equal
      exact single (UInt8.toNat_inj.mp (printUnsigned_injective equal))
    left
    simp [optionalEntry, differs]

/-- More entries show more. -/
theorem ShownEntirely.mono
    (shown : htlc.ShownEntirely middle)
    (among : ∀ entry ∈ middle, entry ∈ entries) :
    htlc.ShownEntirely entries where
  redeemAddress := among _ shown.redeemAddress
  refundAddress := among _ shown.refundAddress
  hashRoot := among _ shown.hashRoot
  hashAlgorithm := among _ shown.hashAlgorithm
  hashCount := shown.hashCount.imp_left (among _)
  timeout := among _ shown.timeout

end Shown
end HtlcData

/-- Only the BAGL build shows the review of a contract creation. -/
theorem UserInterface.reviews_contract
    (device : Device)
    (accepted : AcceptedTransaction version)
    (contract : accepted.content.IsContractCreation)
    (review : UserInterface.Reviews (accepted.shown device) heading entries
      ui) :
    entries = accepted.entries device := by
  cases ui with
  | bagl =>
      unfold Reviews at review
      rw [Bagl.uiTransactionSigning_eq, Except.ok.injEq] at review
      exact (reviewScreens_injective review).2.symm
  | nbgl =>
      obtain ⟨_, _, started⟩ := review
      rw [Nbgl.uiTransactionSigning_contract device accepted contract]
        at started
      cases started

/-- HTLC creations of the same sender and of the same height with the same
entries have the same terms, and those with a refund to somebody else are
shown entirely. -/
theorem htlcReview_injective
    {left right : AcceptedTransaction version}
    (leftAccepts :
      parseTx device version.code left.tx.encode = .ok leftParsed)
    (rightAccepts :
      parseTx device version.code right.tx.encode = .ok rightParsed)
    (leftContent : left.content = .htlcCreation leftHtlc)
    (rightContent : right.content = .htlcCreation rightHtlc)
    (senders : left.tx.sender = right.tx.sender)
    (heights : left.tx.validityStartHeight = right.tx.validityStartHeight)
    (leftReview : UserInterface.Reviews leftParsed leftHeading entries ui)
    (rightReview :
      UserInterface.Reviews rightParsed rightHeading entries ui) :
    leftHtlc.SameTerms rightHtlc left.tx.sender
        left.tx.validityStartHeight ∧
      (leftHtlc.refundAddress ≠ left.tx.sender →
        leftHtlc.ShownEntirely entries) := by
  obtain ⟨_, rfl⟩ := left.parseTx_eq_ok_iff.mp leftAccepts
  obtain ⟨_, rfl⟩ := right.parseTx_eq_ok_iff.mp rightAccepts
  have leftEntries := UserInterface.reviews_contract device left
    (leftContent ▸ trivial) leftReview
  have rightEntries := UserInterface.reviews_contract device right
    (rightContent ▸ trivial) rightReview
  unfold AcceptedTransaction.entries at leftEntries rightEntries
  rw [leftContent] at leftEntries
  rw [rightContent] at rightEntries
  change entries = (left.shown device).surround (leftHtlc.shown left.tx.sender
    left.tx.validityStartHeight).entries at leftEntries
  change entries = (right.shown device).surround (rightHtlc.shown
    right.tx.sender right.tx.validityStartHeight).entries at rightEntries
  rw [← senders, ← heights] at rightEntries
  obtain ⟨leftUnlabelled, leftNone⟩ := (leftHtlc.shown left.tx.sender
    left.tx.validityStartHeight).entries_unlabelled
  obtain ⟨rightUnlabelled, rightNone⟩ := (rightHtlc.shown left.tx.sender
    left.tx.validityStartHeight).entries_unlabelled
  have middles := (surround_injective leftUnlabelled rightUnlabelled
    (by rw [leftNone, rightNone]) (leftEntries.symm.trans rightEntries)).2.2.2
  refine ⟨HtlcData.sameTerms_of_entries middles, ?_⟩
  intro foreign
  have shown := HtlcData.shownEntirely_of_foreign left.tx.validityStartHeight
    foreign
  apply shown.mono
  intro entry member
  rw [leftEntries]
  exact List.mem_append_right _ (List.mem_append_left _ member)

/-- A contract of the sample address with a refund to it. -/
def sampleHtlc (timeout : UInt32) : HtlcData where
  refundAddress := sampleAddress
  redeemAddress := Bytes.zero
  hashAlgorithm := .sha256
  hashRoot := Bytes.zero
  hashCount := 1
  timeout
  supported := by decide

/-- A legacy transaction that creates the contract with 100 NIM. -/
def acceptedHtlcCreation (timeout : UInt32) : AcceptedTransaction .legacy where
  tx := sampleCreation AccountType.htlc.code (sampleHtlc timeout).encode (by
    simp [HtlcData.encode, sampleHtlc, sampleAddress, HashAlgorithm.hashSize,
      Bytes.zero, zeroBytes])
  network := .test
  content := .htlcCreation (sampleHtlc timeout)
  payable := (by decide : (10000000 : UInt64) ≤ maxSafeLunaAmount ∧
    (0 : UInt64) ≤ maxSafeLunaAmount)
  networkId_eq := rfl
  admitted := ⟨(by decide :
    AccountType.basic.code ≠ AccountType.staking.code), rfl, rfl, rfl, rfl, rfl, fun _ => rfl⟩

/-- The review of the contract by the BAGL build. -/
theorem acceptedHtlcCreation_reviews (timeout : UInt32) :
    UserInterface.Reviews
      ((acceptedHtlcCreation timeout).shown sampleDevice)
      (Bagl.transactionLabel .htlcCreation)
      ((acceptedHtlcCreation timeout).entries sampleDevice) .bagl :=
  Bagl.uiTransactionSigning_eq sampleDevice (acceptedHtlcCreation timeout)

/-- When the contract expires is not shown if it expires soon. -/
theorem acceptedHtlcCreation_entries
    (timeout : UInt32)
    (soon : timeout.toNat < 1234 + htlcTimeoutSoonThreshold.toNat) :
    (acceptedHtlcCreation timeout).entries sampleDevice =
      ((acceptedHtlcCreation 0).shown sampleDevice).surround
        [⟨ascii "HTLC Recipient", userFriendlyAddress (zeroBytes 20)⟩,
          ⟨ascii "Hashed Secret", hexText (zeroBytes 32)⟩] := by
  have shown : ((sampleHtlc timeout).shown sampleAddress 1234).entries =
      [⟨ascii "HTLC Recipient", userFriendlyAddress (zeroBytes 20)⟩,
        ⟨ascii "Hashed Secret", hexText (zeroBytes 32)⟩] := by
    have isSoon : ((sampleHtlc timeout).shown sampleAddress
        1234).isTimingOutSoon = true := decide_eq_true soon
    have isOwn : ((sampleHtlc timeout).shown sampleAddress
        1234).isRefundAddressSenderAddress = true := by
      simp [HtlcData.shown, sampleHtlc]
    have isUsual : ((sampleHtlc timeout).shown sampleAddress
        1234).isUsingSha256 = true := by
      simp [HtlcData.shown, sampleHtlc]
    simp only [TxDataHtlcCreation.entries, isSoon, isOwn, isUsual,
      Bool.not_true, Bool.or_false, Bool.and_false, optionalEntry,
      Bool.false_eq_true, if_false, List.nil_append, List.append_nil]
    rfl
  have around : (acceptedHtlcCreation timeout).entries sampleDevice =
      ((acceptedHtlcCreation 0).shown sampleDevice).surround
        ((sampleHtlc timeout).shown sampleAddress 1234).entries := rfl
  rw [around, shown]

/-- Contracts that expire soon for their sender have the same review. -/
theorem htlcReview_injective_soon :
    (sampleHtlc 1300).SameTerms (sampleHtlc 1400) sampleAddress 1234 ∧
      ((sampleHtlc 1300).refundAddress ≠ sampleAddress →
        (sampleHtlc 1300).ShownEntirely
          ((acceptedHtlcCreation 1300).entries sampleDevice)) :=
  htlcReview_injective
    ((acceptedHtlcCreation 1300).parseTx_eq_ok_iff.mpr ⟨trivial, rfl⟩)
    ((acceptedHtlcCreation 1400).parseTx_eq_ok_iff.mpr ⟨trivial, rfl⟩)
    rfl rfl rfl rfl (acceptedHtlcCreation_reviews 1300)
    (by
      rw [acceptedHtlcCreation_entries 1300 (by decide),
        ← acceptedHtlcCreation_entries 1400 (by decide)]
      exact acceptedHtlcCreation_reviews 1400)

end NimiqApp
