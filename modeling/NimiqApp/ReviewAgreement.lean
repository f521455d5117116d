import NimiqApp.TransactionReview

/-!
# Both user interfaces

The reviews of the BAGL and of the NBGL build agree on the transactions that
both of them can show.  Legacy contract creations are parsed and shown by the
BAGL build, but fail an assertion of the NBGL build.
-/

namespace NimiqApp

/-- Both builds start a review, and the entries of the NBGL build are the
steps between the title and the decision of the BAGL build. -/
def ReviewsAgree (parsed : ParsedTx) : Prop :=
  ∃ label review,
    Bagl.uiTransactionSigning (ε := Empty) parsed =
      .ok (Bagl.reviewScreens label review.entries) ∧
    Nbgl.uiTransactionSigning (ε := Empty) parsed = .ok review

/-- The length of the data, as it is serialized. -/
def dataLengthField (buffer : List UInt8) : Nat :=
  (buffer.getD 0 0).toNat * 256 + (buffer.getD 1 0).toNat

/-- The sender type, as it is serialized. -/
def senderTypeField (buffer : List UInt8) : UInt8 :=
  buffer.getD (2 + dataLengthField buffer + 20) 0

/-- The recipient type, as it is serialized. -/
def recipientTypeField (buffer : List UInt8) : UInt8 :=
  buffer.getD (2 + dataLengthField buffer + 41) 0

/-- The account types are those of a transaction that creates a contract. -/
def CreatesContract (buffer : List UInt8) : Prop :=
  senderTypeField buffer ≠ AccountType.staking.code ∧
    (recipientTypeField buffer = AccountType.vesting.code ∨
      recipientTypeField buffer = AccountType.htlc.code)

instance (buffer : List UInt8) : Decidable (CreatesContract buffer) :=
  inferInstanceAs (Decidable (_ ∧ _))

namespace Transaction

/-- An element behind a part of known length. -/
theorem getD_behind
    (front : List UInt8)
    (size : front.length = index) :
    (front ++ (byte :: back)).getD index 0 = byte := by
  subst size
  rw [List.getD_eq_getElem?_getD, List.getElem?_append_right (Nat.le_refl _),
    Nat.sub_self]
  rfl

/-- The length of the data is in front. -/
theorem dataLengthField_encode (tx : Transaction version) :
    dataLengthField tx.encode = tx.data.length := by
  have bound := (UInt16.ofNat tx.data.length).toNat_lt
  have high := UInt16.toNat_shiftRight (UInt16.ofNat tx.data.length) 8
  conv_rhs => rw [← toNat_dataLength tx]
  change (UInt16.ofNat tx.data.length >>> 8).toUInt8.toNat * 256 +
    (UInt16.ofNat tx.data.length).toUInt8.toNat = _
  rw [UInt16.toNat_toUInt8, UInt16.toNat_toUInt8, high,
    Nat.shiftRight_eq_div_pow]
  change (UInt16.ofNat tx.data.length).toNat / 256 % 256 * 256 + _ = _
  omega

/-- The sender type is behind the sender. -/
theorem senderTypeField_encode (tx : Transaction version) :
    senderTypeField tx.encode = tx.senderType := by
  unfold senderTypeField
  rw [tx.dataLengthField_encode, encode, ← List.append_assoc,
    ← List.append_assoc, List.singleton_append]
  apply getD_behind
  simp [tx.sender.property, Nat.add_assoc]

/-- The recipient type is behind the recipient. -/
theorem recipientTypeField_encode (tx : Transaction version) :
    recipientTypeField tx.encode = tx.recipientType := by
  unfold recipientTypeField
  rw [tx.dataLengthField_encode, encode, ← List.append_assoc,
    ← List.append_assoc, ← List.append_assoc, ← List.append_assoc,
    List.singleton_append]
  apply getD_behind
  simp [tx.sender.property, tx.recipient.property, Nat.add_assoc]

end Transaction

/-- Contents that create a contract. -/
def Content.IsContractCreation : Content → Prop
  | vestingCreation _ => True
  | htlcCreation _ => True
  | _ => False

theorem AcceptedTransaction.createsContract_iff
    (accepted : AcceptedTransaction version) :
    CreatesContract accepted.tx.encode ↔
      accepted.content.IsContractCreation := by
  obtain ⟨tx, network, content, payable, networkId, admitted⟩ := accepted
  unfold CreatesContract
  rw [tx.senderTypeField_encode, tx.recipientTypeField_encode]
  cases content with
  | stakingOutgoing => simp [Content.IsContractCreation, admitted.1]
  | normal =>
      have basic : AccountType.basic.code ≠ AccountType.vesting.code ∧
          AccountType.basic.code ≠ AccountType.htlc.code := by decide
      simp [Content.IsContractCreation, admitted.2.1, basic]
  | vestingCreation vesting =>
      exact ⟨fun _ => trivial, fun _ => ⟨admitted.1, Or.inl admitted.2.1⟩⟩
  | htlcCreation htlc =>
      exact ⟨fun _ => trivial, fun _ => ⟨admitted.1, Or.inr admitted.2.1⟩⟩
  | stakingIncoming staking =>
      have others : AccountType.staking.code ≠ AccountType.vesting.code ∧
          AccountType.staking.code ≠ AccountType.htlc.code := by decide
      simp [Content.IsContractCreation, admitted.2.1, others]

/-- The review of the NBGL build. -/
def AcceptedTransaction.nbglReview (device : Device)
    (accepted : AcceptedTransaction version) : Nbgl.Review :=
  let texts := Nbgl.reviewTexts (accepted.shown device).transactionLabelType
  ⟨texts.1, texts.2.1, texts.2.2, accepted.entries device⟩

/-- The NBGL build shows all entries unless a contract is created. -/
theorem Nbgl.uiTransactionSigning_eq
    (device : Device)
    (accepted : AcceptedTransaction version)
    (noContract : ¬accepted.content.IsContractCreation) :
    Nbgl.uiTransactionSigning (ε := ε) (accepted.shown device) =
      .ok (accepted.nbglReview device) := by
  obtain ⟨tx, network, content, payable, networkId, admitted⟩ := accepted
  unfold uiTransactionSigning
  cases content with
  | stakingOutgoing =>
      refine Run.bind_eq_ok.mpr ⟨_, ?_, rfl⟩
      exact prepareReviewEntriesNormalOrStakingOutgoing_eq rfl
  | normal =>
      refine Run.bind_eq_ok.mpr ⟨_, ?_, rfl⟩
      exact prepareReviewEntriesNormalOrStakingOutgoing_eq rfl
  | vestingCreation vesting => exact absurd trivial noContract
  | htlcCreation htlc => exact absurd trivial noContract
  | stakingIncoming staking =>
      refine Run.bind_eq_ok.mpr ⟨_, ?_, rfl⟩
      exact prepareReviewEntriesStakingIncoming_eq rfl

/-- A contract creation fails the assertion of the NBGL build. -/
theorem Nbgl.uiTransactionSigning_contract
    (device : Device)
    (accepted : AcceptedTransaction version)
    (contract : accepted.content.IsContractCreation) :
    Nbgl.uiTransactionSigning (ε := ε) (accepted.shown device) =
      .error (.fault .assertion) := by
  obtain ⟨tx, network, content, payable, networkId, admitted⟩ := accepted
  cases content with
  | stakingOutgoing => exact contract.elim
  | normal => exact contract.elim
  | vestingCreation vesting => rfl
  | htlcCreation htlc => rfl
  | stakingIncoming staking => exact contract.elim

/-- The reviews of a transaction that is accepted agree if and only if no
contract is created. -/
theorem reviewsAgree_iff
    (accepts : parseTx device version buffer = .ok parsed) :
    ReviewsAgree parsed ↔ ¬CreatesContract buffer := by
  obtain ⟨known, rfl, accepted, rfl, _, rfl⟩ :=
    (parseTx_eq_ok_iff device).mp accepts
  rw [accepted.createsContract_iff]
  constructor
  · rintro ⟨label, review, _, started⟩ contract
    rw [Nbgl.uiTransactionSigning_contract device accepted contract] at started
    cases started
  · intro noContract
    exact ⟨_, _, Bagl.uiTransactionSigning_eq device accepted,
      Nbgl.uiTransactionSigning_eq device accepted noContract⟩

/-- The reviews of a staker creation agree. -/
theorem reviewsAgree_createStaker :
    ReviewsAgree ((acceptedCreateStaker
      ⟨samplePublicKey, sampleStakerSignature⟩).shown sampleDevice) :=
  (reviewsAgree_iff ((acceptedCreateStaker
      ⟨samplePublicKey, sampleStakerSignature⟩).parseTx_eq_ok_iff.mpr
    ⟨fun _ _ _ => rfl, rfl⟩)).mpr
    (mt (acceptedCreateStaker _).createsContract_iff.mp id)

/-- A vesting contract over 100 blocks for the sample address. -/
def sampleVesting : VestingData where
  ownerAddress := sampleAddress
  terms := .short 100

/-- A legacy transaction that creates the vesting contract with 100 NIM. -/
def acceptedVestingCreation : AcceptedTransaction .legacy where
  tx := sampleCreation AccountType.vesting.code sampleVesting.encode
    (by decide)
  network := .test
  content := .vestingCreation sampleVesting
  payable := by decide
  networkId_eq := rfl
  admitted := ⟨by decide, rfl, rfl, rfl, rfl, rfl, fun _ => rfl,
    Or.inr ⟨by decide, by decide⟩⟩

/-- The vesting contract is parsed, but no review of it is started by the
NBGL build. -/
theorem reviews_disagree_vestingCreation :
    parseTx sampleDevice 0 acceptedVestingCreation.tx.encode =
        .ok (acceptedVestingCreation.shown sampleDevice) ∧
      ¬ReviewsAgree (acceptedVestingCreation.shown sampleDevice) := by
  refine ⟨acceptedVestingCreation.parseTx_eq_ok_iff.mpr ⟨trivial, rfl⟩, ?_⟩
  rintro ⟨label, review, _, started⟩
  rw [Nbgl.uiTransactionSigning_contract sampleDevice acceptedVestingCreation
    trivial] at started
  cases started

end NimiqApp
