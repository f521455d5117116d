import NimiqApp.Grammar
import NimiqApp.ReviewAgreement
import NimiqApp.TransactionRequest

/-!
# The signature of the staker

A staking transaction with the empty default proof is signed twice: by the
staker as it is, and by the sender once the proof is filled in.  The proof is
filled in through the pointers that were kept when the transaction was
parsed; what is signed in the end is again a transaction that is accepted,
with the staker signature in the place of zeros.
-/

namespace NimiqApp

/-- Write a signature and then a public key into the proof at an offset. -/
def fillProof (bytes : List UInt8) (offset : Nat) (publicKey : Bytes 32)
    (signature : Bytes 64) : List UInt8 :=
  overwrite (overwrite bytes (offset + 34) signature.val) (offset + 1)
    publicKey.val

/-- The signature is behind the public key and its two neighbours. -/
theorem overwrite_signature
    (front : List UInt8)
    (proof : ProofData)
    (behind : List UInt8)
    (signature : Bytes 64) :
    overwrite (front ++ (proof.encode ++ behind)) (front.length + 34)
        signature.val =
      front ++ ((ProofData.mk proof.publicKey signature).encode ++
        behind) := by
  have written := overwrite_append
    (front ++ ([0] ++ (proof.publicKey.val ++ [0]))) signature.val
    proof.signature.val behind
    (by rw [proof.signature.property, signature.property])
  have place : (front ++ ([0] ++ (proof.publicKey.val ++ [0]))).length =
      front.length + 34 := by
    simp [proof.publicKey.property]
  rw [place] at written
  simpa [ProofData.encode] using written

/-- The public key is behind algorithm and flags. -/
theorem overwrite_publicKey
    (front : List UInt8)
    (proof : ProofData)
    (behind : List UInt8)
    (publicKey : Bytes 32) :
    overwrite (front ++ (proof.encode ++ behind)) (front.length + 1)
        publicKey.val =
      front ++ ((ProofData.mk publicKey proof.signature).encode ++
        behind) := by
  have written := overwrite_append (front ++ [0]) publicKey.val
    proof.publicKey.val ([0] ++ (proof.signature.val ++ behind))
    (by rw [proof.publicKey.property, publicKey.property])
  have place : (front ++ [(0 : UInt8)]).length = front.length + 1 := by simp
  rw [place] at written
  simpa [ProofData.encode] using written

/-- Filling in a proof replaces it. -/
theorem fillProof_eq
    (front : List UInt8)
    (proof : ProofData)
    (behind : List UInt8)
    (publicKey : Bytes 32)
    (signature : Bytes 64) :
    fillProof (front ++ (proof.encode ++ behind)) front.length publicKey
        signature =
      front ++ ((ProofData.mk publicKey signature).encode ++ behind) := by
  unfold fillProof
  rw [overwrite_signature, overwrite_publicKey]

section Signing

variable {sdk : Sdk} {tx : TransactionContext}
  {privateKey : sdk.PrivateKey} {signature : Bytes 64} {W : Bytes 65}

/-- A transaction is signed into the front of the APDU buffer. -/
theorem signTransaction_eq
    (signs : sdk.eddsaSign privateKey bytes = some signature)
    (signedBytes : (tx.signedBytes : Run Interruption _) = .ok bytes)
    (buffer : ApduBuffer) :
    ∃ next rest, sdk.signTransaction privateKey tx buffer = .ok next ∧
      next.val = signature.val ++ rest ∧ rest.length = 196 := by
  obtain ⟨next, stored, nextEq⟩ :=
    buffer.store_eq (ε := Interruption) 0 signature.val
      (by rw [signature.property]; decide)
  refine ⟨next, buffer.val.drop 64, ?_, ?_, ?_⟩
  · unfold Sdk.signTransaction
    rw [signedBytes, Run.bind_ok, signs]
    exact stored
  · rw [nextEq, overwrite, signature.property]
    rfl
  · rw [List.length_drop, buffer.property]

/-- The transaction is signed by its sender alone. -/
theorem signAsSender_eq
    (signs : sdk.eddsaSign privateKey bytes = some signature)
    (signedBytes : (tx.signedBytes : Run Interruption _) = .ok bytes)
    (buffer : ApduBuffer) :
    sdk.signAsSender privateKey tx buffer = .ok (tx, signature.val) := by
  obtain ⟨next, rest, signed, nextEq, _⟩ :=
    signTransaction_eq signs signedBytes buffer
  unfold Sdk.signAsSender
  rw [signed, Run.bind_ok, nextEq, List.take_left' signature.property]
  rfl

/-- A store through a pointer of the proof replaces a part of it. -/
theorem storeThrough_eq
    {rawTx : Bytes maxRawTx}
    (rawTxEq : rawTx.val = front ++ (ProofData.encode proof ++ behind))
    (place : Nat)
    (bytes : List UInt8)
    (fits : place + bytes.length ≤ 98) :
    ∃ next : Bytes maxRawTx,
      (rawTx.storeThrough (some (front.length + place)) bytes : Run ε _) =
        .ok next ∧
      next.val = overwrite rawTx.val (front.length + place) bytes := by
  apply rawTx.store_eq
  have total := congrArg List.length rawTxEq
  rw [rawTx.property, List.length_append, List.length_append,
    proof.encode_length] at total
  omega

/-- The staker signs the transaction as it is, into the APDU buffer and from
there into the proof. -/
theorem createStakerSignature_stores
    (signs : sdk.eddsaSign privateKey bytes = some signature)
    (signedBytes : (tx.signedBytes : Run Interruption _) = .ok bytes)
    (rawTxEq : tx.rawTx.val = front ++ (ProofData.encode proof ++ behind))
    (buffer : ApduBuffer) :
    ∃ signedBuffer withSignature,
      sdk.signTransaction privateKey tx buffer = .ok signedBuffer ∧
      (load signedBuffer.val (some 0) 64 : Run Interruption _) =
        .ok signature.val ∧
      (tx.rawTx.storeThrough (SignatureProof.atOffset front.length).signature
        signature.val : Run Interruption _) = .ok withSignature ∧
      withSignature.val = front ++
        ((ProofData.mk proof.publicKey signature).encode ++ behind) := by
  obtain ⟨signedBuffer, rest, signed, signedBufferEq, _⟩ :=
    signTransaction_eq signs signedBytes buffer
  have loadSignature : (load signedBuffer.val (some 0) 64 :
      Run Interruption _) = .ok signature.val := by
    rw [load_front (by rw [signedBuffer.property]; decide), signedBufferEq,
      List.take_left' signature.property]
  obtain ⟨withSignature, storeSignature, withSignatureEq⟩ :=
    storeThrough_eq (ε := Interruption) rawTxEq 34 signature.val
      (by rw [signature.property])
  rw [rawTxEq, overwrite_signature] at withSignatureEq
  exact ⟨signedBuffer, withSignature, signed, loadSignature, storeSignature,
    withSignatureEq⟩

/-- The staker signs the transaction as it is, and the proof is filled in. -/
theorem createStakerSignature_eq
    (signs : sdk.eddsaSign privateKey bytes = some signature)
    (generated : sdk.generatePair privateKey = some W)
    (signedBytes : (tx.signedBytes : Run Interruption _) = .ok bytes)
    (rawTxEq : tx.rawTx.val = front ++ (ProofData.encode proof ++ behind))
    (buffer : ApduBuffer) :
    ∃ rawTx nextBuffer,
      sdk.createStakerSignature privateKey
          (SignatureProof.atOffset front.length) tx buffer =
        .ok ({ tx with rawTx }, nextBuffer) ∧
      rawTx.val = front ++
        ((ProofData.mk (copyPublicKey W.val) signature).encode ++
          behind) := by
  obtain ⟨signedBuffer, withSignature, signed, loadSignature, storeSignature,
    withSignatureEq⟩ :=
      createStakerSignature_stores signs signedBytes rawTxEq buffer
  obtain ⟨keyBuffer, storeKey, _⟩ :=
    signedBuffer.store_eq (ε := Interruption) sdk.temporaryCoordinates W.val
      (by rw [W.property]; exact sdk.temporaryCoordinates_fits)
  have loadKey : (load keyBuffer.val (some sdk.temporaryCoordinates)
      W.val.length : Run Interruption _) = .ok W.val :=
    Bytes.store_load storeKey
  rw [W.property] at loadKey
  obtain ⟨filledIn, storePublicKey, filledInEq⟩ :=
    storeThrough_eq (ε := Interruption) withSignatureEq 1
      (copyPublicKey W.val).val
      (by rw [(copyPublicKey W.val).property]; decide)
  rw [withSignatureEq, overwrite_publicKey] at filledInEq
  refine ⟨filledIn, keyBuffer, ?_, filledInEq⟩
  simp only [SignatureProof.atOffset] at storeSignature
  unfold Sdk.createStakerSignature
  rw [signed, Run.bind_ok, loadSignature, Run.bind_ok]
  simp only [SignatureProof.atOffset, storeSignature, Run.bind_ok, generated,
    TransactionContext.orInterrupt, Run.pure_eq, storeKey, loadKey,
    storePublicKey]

/-- The transaction that is left to be signed by the sender is the one with
the proof of the staker. -/
theorem createStakerSignature_filledIn
    (signs : sdk.eddsaSign privateKey
      (front ++ (ProofData.encode proof ++ back)) = some signature)
    (generated : sdk.generatePair privateKey = some W)
    (signedBytes : (tx.signedBytes : Run Interruption _) =
      .ok (front ++ (ProofData.encode proof ++ back)))
    (buffer : ApduBuffer) :
    ∃ (rawTx : Bytes maxRawTx) (nextBuffer : ApduBuffer)
        (tail : List UInt8),
      sdk.createStakerSignature privateKey
          (SignatureProof.atOffset front.length) tx buffer =
        .ok ({ tx with rawTx }, nextBuffer) ∧
      rawTx.val = front ++ ((ProofData.mk (copyPublicKey W.val)
        signature).encode ++ (back ++ tail)) ∧
      (TransactionContext.signedBytes { tx with rawTx } :
        Run Interruption _) = .ok (front ++
          ((ProofData.mk (copyPublicKey W.val) signature).encode ++
            back)) := by
  obtain ⟨length, tail, rawTxEq⟩ :=
    TransactionContext.signedBytes_eq_ok.mp signedBytes
  rw [List.append_assoc, List.append_assoc] at rawTxEq
  obtain ⟨rawTx, keyBuffer, created, filledInEq⟩ :=
    createStakerSignature_eq signs generated signedBytes rawTxEq buffer
  refine ⟨rawTx, keyBuffer, tail, created, filledInEq,
    TransactionContext.signedBytes_eq_ok.mpr ⟨?_, tail, ?_⟩⟩
  · simp [length]
  · simp [filledInEq]

/-- The transaction as it is signed by the sender is the one with the proof
of the staker, whose signature is returned as well. -/
theorem signAsStakerAndSender_eq
    {senderSignature : Bytes 64}
    (signs : sdk.eddsaSign privateKey
      (front ++ (ProofData.encode proof ++ back)) = some signature)
    (signsFilled : sdk.eddsaSign privateKey
      (front ++ ((ProofData.mk (copyPublicKey W.val) signature).encode ++
        back)) = some senderSignature)
    (generated : sdk.generatePair privateKey = some W)
    (signedBytes : (tx.signedBytes : Run Interruption _) =
      .ok (front ++ (ProofData.encode proof ++ back)))
    (buffer : ApduBuffer) :
    ∃ rawTx : Bytes maxRawTx,
      sdk.signAsStakerAndSender privateKey
          (SignatureProof.atOffset front.length) tx buffer =
        .ok ({ tx with rawTx }, senderSignature.val ++ signature.val) ∧
      (TransactionContext.signedBytes { tx with rawTx } :
        Run Interruption _) = .ok (front ++
          ((ProofData.mk (copyPublicKey W.val) signature).encode ++
            back)) := by
  obtain ⟨rawTx, keyBuffer, tail, created, filledInEq, filledBytes⟩ :=
    createStakerSignature_filledIn signs generated signedBytes buffer
  refine ⟨rawTx, ?_, filledBytes⟩
  obtain ⟨signedBuffer, rest, signed, signedBufferEq, restLength⟩ :=
    signTransaction_eq signsFilled filledBytes keyBuffer
  have covers : Covers rawTx.val ⟨some front.length, 98⟩
      ((ProofData.mk (copyPublicKey W.val) signature).encode ++ []) := by
    have placed := Covers.behind front
      (ProofData.mk (copyPublicKey W.val) signature).encode (back ++ tail)
    rw [ProofData.encode_length, List.append_assoc, ← filledInEq] at placed
    rwa [List.append_nil]
  have loadSignature :
      (load rawTx.val (SignatureProof.atOffset front.length).signature 64 :
        Run Interruption _) = .ok signature.val :=
    (SignatureProof.denotes_atOffset covers).signature.load_sub
  obtain ⟨replyBuffer, storeSignature, replyBufferEq⟩ :=
    signedBuffer.store_eq (ε := Interruption) 64 signature.val
      (by rw [signature.property]; decide)
  have reply : replyBuffer.val =
      senderSignature.val ++ (signature.val ++ rest.drop 64) := by
    have written := overwrite_append senderSignature.val signature.val
      (rest.take 64) (rest.drop 64)
      (by rw [signature.property, List.length_take]; omega)
    rw [senderSignature.property, List.take_append_drop] at written
    rw [replyBufferEq, signedBufferEq, written]
  unfold Sdk.signAsStakerAndSender
  rw [created, Run.bind_ok]
  simp only [signed, Run.bind_ok, loadSignature, storeSignature, reply]
  rw [← List.append_assoc, List.take_left']
  · rfl
  · simp [senderSignature.property, signature.property]

end Signing

/-- The bytes of a transaction behind its data. -/
def Transaction.behindData (tx : Transaction version) : List UInt8 :=
  tx.sender.val ++ ([tx.senderType] ++
    (tx.recipient.val ++ ([tx.recipientType] ++
      (u64Bytes tx.value ++ (u64Bytes tx.fee ++
        (u32Bytes tx.validityStartHeight ++
          ([tx.networkId] ++ ([tx.flags] ++ tx.senderDataBytes))))))))

theorem Transaction.encode_eq (tx : Transaction version) :
    tx.encode = u16Bytes (UInt16.ofNat tx.data.length) ++
      (tx.data ++ tx.behindData) := rfl

/-- The data of a staking transaction with another proof. -/
def StakingData.withProof (staking : StakingData) (proof : ProofData)
    (hasProof : staking.proof.isSome) : StakingData where
  payload := staking.payload
  proof := some proof
  hasProof := by rw [← staking.hasProof, hasProof, Option.isSome_some]

/-- Proofs have the same length. -/
theorem StakingData.withProof_encode_length
    (staking : StakingData)
    (proof : ProofData)
    (hasProof : staking.proof.isSome) :
    (staking.withProof proof hasProof).encode.length =
      staking.encode.length := by
  obtain ⟨old, oldEq⟩ := Option.isSome_iff_exists.mp hasProof
  simp [encode, proofBytes, withProof, oldEq]

/-- How the address of a staker is shown: not at all if it is the sender. -/
def shownAddress (staker sender : Bytes 20) : CString :=
  if staker = sender then [] else userFriendlyAddress staker.val

/-- The sender is left out, and nobody else. -/
theorem shownAddress_eq_nil_iff :
    shownAddress staker sender = [] ↔ staker = sender := by
  unfold shownAddress
  by_cases same : staker = sender
  · simp [same]
  · simp [same, userFriendlyAddress_ne_nil]

/-- A parsed transaction with another text for its staker. -/
def ParsedTx.withStaker (parsed : ParsedTx) (staker : CString) : ParsedTx :=
  match parsed.typeSpecific with
  | .stakingIncomingTx tx =>
      { parsed with
        typeSpecific := .stakingIncomingTx
          { tx with validatorOrStakerAddress := staker } }
  | _ => parsed

namespace AcceptedTransaction

section WithProof

variable (accepted : AcceptedTransaction version)
  (isStaking : accepted.content = .stakingIncoming staking)
  (hasProof : staking.proof.isSome)

/-- A staking transaction that is accepted, with another proof. -/
def withProof (proof : ProofData) : AcceptedTransaction version where
  tx := { accepted.tx with
    data := (staking.withProof proof hasProof).encode
    dataLength_lt := by
      have admitted := accepted.admitted
      rw [isStaking] at admitted
      rw [staking.withProof_encode_length, ← admitted.2.2.2.2.2.2.1]
      exact accepted.tx.dataLength_lt }
  network := accepted.network
  content := .stakingIncoming (staking.withProof proof hasProof)
  payable := accepted.payable
  networkId_eq := accepted.networkId_eq
  admitted := by
    have admitted := accepted.admitted
    rw [isStaking] at admitted
    obtain ⟨sender, recipientType, isAlbatross, recipient, flags, noData, _,
      payable⟩ := admitted
    exact ⟨sender, recipientType, isAlbatross, recipient, flags, noData, rfl,
      payable⟩

/-- The proof has its place in the transaction, whatever proof it is. -/
theorem encode_withProof
    (oldEq : staking.proof = some old) :
    ∃ front back, front.length = 2 + staking.proofOffset ∧
      accepted.tx.encode = front ++ (old.encode ++ back) ∧
      ∀ proof, (accepted.withProof isStaking hasProof proof).tx.encode =
        front ++ (proof.encode ++ back) := by
  have admitted := accepted.admitted
  rw [isStaking] at admitted
  have dataEq := admitted.2.2.2.2.2.2.1
  refine ⟨u16Bytes (UInt16.ofNat accepted.tx.data.length) ++
    ([staking.payload.type.code] ++ staking.payload.encode),
    accepted.tx.behindData, ?_, ?_, ?_⟩
  · simp [StakingData.proofOffset, Nat.add_comm]
  · rw [Transaction.encode_eq, dataEq]
    simp only [StakingData.encode, StakingData.proofBytes, oldEq,
      List.append_assoc]
  · intro proof
    rw [Transaction.encode_eq]
    change u16Bytes (UInt16.ofNat
      (staking.withProof proof hasProof).encode.length) ++
        ((staking.withProof proof hasProof).encode ++
          accepted.tx.behindData) = _
    rw [staking.withProof_encode_length, ← dataEq]
    simp only [StakingData.encode, StakingData.withProof,
      StakingData.proofBytes, List.append_assoc]

/-- Only the staker that is shown depends on the proof. -/
theorem withProof_shown
    (device : Device)
    (notEmpty : ¬ProofData.IsEmptyDefault proof)
    (addressEq : device.address proof.publicKey.val = some address) :
    (accepted.withProof isStaking hasProof proof).shown device =
      (accepted.shown device).withStaker
        (shownAddress address accepted.tx.sender) := by
  have staker : (staking.withProof proof hasProof).shownStaker device
      accepted.tx.sender = shownAddress address accepted.tx.sender := by
    simp only [StakingData.shownStaker, StakingData.staker,
      StakingData.withProof, if_neg notEmpty, addressEq]
    rfl
  have data : (staking.withProof proof hasProof).shown device
      accepted.tx.sender 2 =
    { staking.shown device accepted.tx.sender 2 with
      validatorOrStakerAddress :=
        shownAddress address accepted.tx.sender } := by
    unfold StakingData.shown
    rw [staker, hasProof]
    rfl
  unfold AcceptedTransaction.shown ParsedTx.withStaker
  rw [isStaking]
  change ParsedTx.mk (.stakingIncomingTx
    ((staking.withProof proof hasProof).shown device accepted.tx.sender 2))
      _ _ _ _ _ = _
  rw [data]
  rfl

end WithProof
end AcceptedTransaction

/-! ## Proofs that are left to the app -/

/-- A parsed staking transaction leaves the proof at an offset to the app:
the public key and the signature are zero. -/
structure LeavesProof (parsed : ParsedTx) (bytes : List UInt8)
    (offset : Nat) : Prop where
  isStaking : parsed.transactionType = .stakingIncoming
  parsedAs : ∃ staking,
    parsed.typeSpecific = .stakingIncomingTx staking ∧
      staking.hasValidatorOrStakerSignatureProof = true ∧
      staking.validatorOrStakerSignatureProof =
        SignatureProof.atOffset offset
  publicKey : (bytes.drop (offset + 1)).take 32 = zeroBytes 32
  signature : (bytes.drop (offset + 34)).take 64 = zeroBytes 64

/-- The fields of a proof in their places. -/
theorem ProofData.fields_eq
    (front : List UInt8)
    (proof : ProofData)
    (back : List UInt8) :
    ((front ++ (proof.encode ++ back)).drop (front.length + 1)).take 32 =
        proof.publicKey.val ∧
      ((front ++ (proof.encode ++ back)).drop (front.length + 34)).take 64 =
        proof.signature.val := by
  constructor
  · rw [← List.drop_drop, List.drop_left]
    have split : proof.encode ++ back = [0] ++
        (proof.publicKey.val ++ ([0] ++ (proof.signature.val ++ back))) := by
      simp [encode]
    rw [split]
    exact List.take_left' proof.publicKey.property
  · have place : ([0] ++ (proof.publicKey.val ++ [0])).length = 34 := by
      simp [proof.publicKey.property]
    rw [← List.drop_drop, List.drop_left]
    have split : proof.encode ++ back = ([0] ++ (proof.publicKey.val ++ [0])) ++
        (proof.signature.val ++ back) := by
      simp [encode]
    rw [split, List.drop_left' place]
    exact List.take_left' proof.signature.property

section Reviewed

variable {device : Device} {accepted : AcceptedTransaction version}

/-- A staking transaction is shown as such. -/
theorem AcceptedTransaction.shown_staking
    (device : Device)
    (accepted : AcceptedTransaction version)
    (isStaking : accepted.content = .stakingIncoming staking) :
    (accepted.shown device).transactionType = .stakingIncoming ∧
      (accepted.shown device).typeSpecific =
        .stakingIncomingTx (staking.shown device accepted.tx.sender 2) := by
  unfold AcceptedTransaction.shown
  rw [isStaking]
  exact ⟨rfl, rfl⟩

/-- Only staking transactions are shown as such. -/
theorem AcceptedTransaction.of_shown_staking
    (accepted : AcceptedTransaction version)
    (type : (accepted.shown device).transactionType = .stakingIncoming) :
    ∃ staking, accepted.content = .stakingIncoming staking := by
  unfold AcceptedTransaction.shown at type
  cases contentEq : accepted.content with
  | stakingIncoming staking => exact ⟨staking, rfl⟩
  | stakingOutgoing =>
      rw [contentEq] at type
      cases type
  | normal =>
      rw [contentEq] at type
      cases type
  | vestingCreation vesting =>
      rw [contentEq] at type
      cases type
  | htlcCreation htlc =>
      rw [contentEq] at type
      cases type

/-- The proof of a transaction that is accepted is left to the app if it is
the empty default. -/
theorem leavesProof_iff
    (isStaking : accepted.content = .stakingIncoming staking)
    (proofEq : staking.proof = some proof) :
    LeavesProof (accepted.shown device) accepted.tx.encode offset ↔
      proof.IsEmptyDefault ∧ offset = 2 + staking.proofOffset := by
  have hasProof : staking.proof.isSome := by rw [proofEq]; rfl
  obtain ⟨front, back, place, encodeEq, _⟩ :=
    accepted.encode_withProof isStaking hasProof proofEq
  obtain ⟨publicKey, signature⟩ := proof.fields_eq front back
  obtain ⟨type, typeSpecific⟩ :=
    accepted.shown_staking device isStaking
  have pointers : (staking.shown device accepted.tx.sender
      2).validatorOrStakerSignatureProof =
        SignatureProof.atOffset (2 + staking.proofOffset) := by
    simp [StakingData.shown, hasProof]
  constructor
  · rintro ⟨_, ⟨parsed, parsedEq, _, proofAt⟩, keyZero, signatureZero⟩
    rw [typeSpecific] at parsedEq
    cases parsedEq
    rw [pointers] at proofAt
    have offsetEq : offset = 2 + staking.proofOffset := by
      simp only [SignatureProof.atOffset, SignatureProof.mk.injEq,
        Option.some.injEq] at proofAt
      omega
    rw [offsetEq, ← place, encodeEq] at keyZero signatureZero
    exact ⟨⟨publicKey.symm.trans keyZero, signature.symm.trans signatureZero⟩,
      offsetEq⟩
  · rintro ⟨⟨keyZero, signatureZero⟩, rfl⟩
    refine ⟨type, ⟨_, typeSpecific, hasProof, pointers⟩, ?_, ?_⟩
    · rw [← place, encodeEq, publicKey, keyZero]
    · rw [← place, encodeEq, signature, signatureZero]

/-- What is left to the app is the proof of the transaction. -/
theorem LeavesProof.proof
    (leaves : LeavesProof (accepted.shown device) accepted.tx.encode offset)
    (isStaking : accepted.content = .stakingIncoming staking) :
    ∃ proof, staking.proof = some proof ∧ proof.IsEmptyDefault ∧
      offset = 2 + staking.proofOffset := by
  cases proofEq : staking.proof with
  | none =>
      obtain ⟨_, ⟨parsed, parsedEq, hasProof, _⟩, _, _⟩ := leaves
      cases parsedEq.symm.trans (accepted.shown_staking device isStaking).2
      simp [StakingData.shown, proofEq] at hasProof
  | some proof =>
      exact ⟨proof, rfl, (leavesProof_iff isStaking proofEq).mp leaves⟩

/-- A reviewed transaction was accepted, and is stored as it is encoded. -/
theorem TransactionContext.Reviewed.inversion
    {tx : TransactionContext}
    (reviewed : tx.Reviewed device bytes) :
    ∃ known, tx.transactionVersion = TransactionVersion.code known ∧
      ∃ (accepted : AcceptedTransaction known) (tail : List UInt8),
        bytes = accepted.tx.encode ∧
        accepted.content.Hashable device ∧
        tx.parsed = accepted.shown device ∧
        tx.rawTxLength.toNat = accepted.tx.encode.length ∧
        tx.rawTx.val = accepted.tx.encode ++ tail := by
  obtain ⟨known, versionEq, accepted, rfl, hashable, parsedEq⟩ :=
    (parseTx_eq_ok_iff device).mp reviewed.parsed
  obtain ⟨length, tail, rawTxEq⟩ :=
    TransactionContext.signedBytes_eq_ok.mp reviewed.signedBytes
  exact ⟨known, versionEq, accepted, tail, rfl, hashable, parsedEq, length,
    rawTxEq⟩

/-- The pointers that were kept denote the proof of the transaction. -/
theorem AcceptedTransaction.denotes_proof
    (accepted : AcceptedTransaction version)
    (isStaking : accepted.content = .stakingIncoming staking)
    (proofEq : staking.proof = some proof)
    (rawTxEq : rawTx = accepted.tx.encode ++ tail) :
    (SignatureProof.atOffset (2 + staking.proofOffset)).Denotes rawTx
      proof := by
  obtain ⟨front, back, place, encodeEq, _⟩ :=
    accepted.encode_withProof isStaking (by rw [proofEq]; rfl) proofEq
  have placed := Covers.behind front proof.encode (back ++ tail)
  rw [← place]
  have covers : Covers rawTx ⟨some front.length, proof.encode.length⟩
      (proof.encode ++ []) := by
    rw [rawTxEq, encodeEq, List.append_nil]
    simpa using placed
  exact SignatureProof.denotes_atOffset covers

/-- The app looks for a proof to fill in exactly where one is left to it. -/
theorem emptyStakerProof_eq
    {tx : TransactionContext}
    (rawTxEq : tx.rawTx.val = accepted.tx.encode ++ tail)
    (parsedEq : tx.parsed = accepted.shown device) :
    (∃ offset, LeavesProof tx.parsed accepted.tx.encode offset ∧
        (tx.emptyStakerProof : Run ε _) =
          .ok (some (SignatureProof.atOffset offset))) ∨
      ((∀ offset, ¬LeavesProof tx.parsed accepted.tx.encode offset) ∧
        (tx.emptyStakerProof : Run ε _) = .ok none) := by
  unfold TransactionContext.emptyStakerProof
  rw [parsedEq]
  by_cases type : (accepted.shown device).transactionType = .stakingIncoming
  · obtain ⟨staking, isStaking⟩ := accepted.of_shown_staking type
    have member : ((accepted.shown device).stakingIncomingTx : Run ε _) =
        .ok (staking.shown device accepted.tx.sender 2) := by
      unfold ParsedTx.stakingIncomingTx
      rw [(accepted.shown_staking device isStaking).2]
      rfl
    rw [if_pos type, member, Run.bind_ok]
    cases proofEq : staking.proof with
    | none =>
        refine Or.inr ⟨?_, by simp [StakingData.shown, proofEq]⟩
        intro offset leaves
        obtain ⟨proof, someProof, _⟩ := leaves.proof isStaking
        cases proofEq.symm.trans someProof
    | some proof =>
        have denotes := accepted.denotes_proof isStaking proofEq rawTxEq
        simp only [StakingData.shown, proofEq, Option.isSome_some, if_true,
          isEmptyDefaultSignatureProof_eq denotes, Run.bind_ok]
        by_cases empty : proof.IsEmptyDefault
        · refine Or.inl ⟨2 + staking.proofOffset, ?_, by simp [empty]⟩
          exact (leavesProof_iff isStaking proofEq).mpr ⟨empty, rfl⟩
        · refine Or.inr ⟨?_, by simp [empty]⟩
          intro offset leaves
          exact empty ((leavesProof_iff isStaking proofEq).mp leaves).1
  · rw [if_neg type]
    exact Or.inr ⟨fun _ leaves => type leaves.isStaking, rfl⟩

end Reviewed

/-! ## Approval -/

/-- The sender of a serialized transaction. -/
def senderField (bytes : List UInt8) : List UInt8 :=
  (bytes.drop (2 + dataLengthField bytes)).take 20

theorem Transaction.senderField_encode (tx : Transaction version) :
    senderField tx.encode = tx.sender.val := by
  unfold senderField
  rw [tx.dataLengthField_encode, Transaction.encode_eq, ← List.append_assoc,
    List.drop_left' (by simp)]
  exact List.take_left' tx.sender.property

/-- The staker entry after the proof was filled in: the address of the public
key, unless it is the sender. -/
def stakerEntry (address : Bytes 20) (bytes : List UInt8) : CString :=
  if address.val = senderField bytes then []
  else userFriendlyAddress address.val

theorem stakerEntry_encode
    (address : Bytes 20)
    (tx : Transaction version) :
    stakerEntry address tx.encode = shownAddress address tx.sender := by
  unfold stakerEntry shownAddress
  rw [tx.senderField_encode]
  simp only [Subtype.ext_iff]

/-- What approving a transaction does with a proof that is left to the app:
the bytes `filled` are signed in the end. -/
structure FillsInProof (sdk : Sdk) (tx : TransactionContext)
    (buffer : ApduBuffer) (bytes : List UInt8) (offset : Nat)
    (publicKey : Bytes 32) (address : Bytes 20)
    (sign : List UInt8 → Bytes 64) (filled : List UInt8) : Prop where
  /-- Only the public key and the signature of the proof change. -/
  filled_eq : filled = fillProof bytes offset publicKey (sign bytes)
  /-- Zeroing them leads back. -/
  cleared : fillProof filled offset Bytes.zero Bytes.zero = bytes
  /-- Both signatures are returned, and the transaction is left filled in. -/
  reply : ∃ rawTx : Bytes maxRawTx,
    sdk.onTransactionApproved tx buffer =
      .ok ({ tx with rawTx },
        ⟨(sign filled).val ++ (sign bytes).val, .ok⟩) ∧
    (TransactionContext.signedBytes { tx with rawTx } : Run Empty _) =
      .ok filled
  /-- What is signed is accepted, and only the staker is shown anew. -/
  accepted : parseTx sdk.toDevice tx.transactionVersion filled =
    .ok (tx.parsed.withStaker (stakerEntry address bytes))

section Approval

variable {sdk : Sdk} {tx : TransactionContext}
  {privateKey : sdk.PrivateKey} {sign : List UInt8 → Bytes 64}
  {W : Bytes 65}

/-- A transaction without a proof to fill in is signed as it is. -/
theorem onTransactionApproved_plain
    (derived : sdk.derivePrivateKey tx.bip32Path = some privateKey)
    (signs : ∀ message, sdk.eddsaSign privateKey message =
      some (sign message))
    (signedBytes : (tx.signedBytes : Run Interruption _) = .ok bytes)
    (noProof : (tx.emptyStakerProof : Run Interruption _) = .ok none)
    (buffer : ApduBuffer) :
    sdk.onTransactionApproved tx buffer =
      .ok (tx, ⟨(sign bytes).val, .ok⟩) := by
  have signed := signAsSender_eq (signs bytes) signedBytes buffer
  unfold Sdk.onTransactionApproved Sdk.signApprovedTransaction
  simp only [derived, TransactionContext.orInterrupt, Run.pure_eq,
    Run.bind_ok, noProof, signed]
  rw [ioFinalizeAsyncReply_ok (by rw [(sign bytes).property]; decide)]

/-- A transaction with a proof to fill in is signed twice. -/
theorem onTransactionApproved_proof
    (derived : sdk.derivePrivateKey tx.bip32Path = some privateKey)
    (generated : sdk.generatePair privateKey = some W)
    (signs : ∀ message, sdk.eddsaSign privateKey message =
      some (sign message))
    (signedBytes : (tx.signedBytes : Run Interruption _) =
      .ok (front ++ (ProofData.encode proof ++ back)))
    (toFillIn : (tx.emptyStakerProof : Run Interruption _) =
      .ok (some (SignatureProof.atOffset front.length)))
    (buffer : ApduBuffer) :
    let bytes := front ++ (ProofData.encode proof ++ back)
    let filled := front ++ ((ProofData.mk (copyPublicKey W.val)
      (sign bytes)).encode ++ back)
    ∃ rawTx : Bytes maxRawTx,
      sdk.onTransactionApproved tx buffer =
        .ok ({ tx with rawTx },
          ⟨(sign filled).val ++ (sign bytes).val, .ok⟩) ∧
      (TransactionContext.signedBytes { tx with rawTx } : Run Empty _) =
        .ok filled := by
  intro bytes filled
  obtain ⟨rawTx, signed, filledBytes⟩ :=
    signAsStakerAndSender_eq (signs bytes) (signs filled) generated
      signedBytes buffer
  refine ⟨rawTx, ?_, TransactionContext.signedBytes_congr filledBytes⟩
  unfold Sdk.onTransactionApproved Sdk.signApprovedTransaction
  simp only [derived, TransactionContext.orInterrupt, Run.pure_eq,
    Run.bind_ok, toFillIn, signed]
  rw [ioFinalizeAsyncReply_ok]
  simp [(sign _).property]

/-- Approving a reviewed transaction fills in the proof that is left to the
app. -/
theorem onTransactionApproved_fillsIn
    (reviewed : tx.Reviewed sdk.toDevice bytes)
    (derived : sdk.derivePrivateKey tx.bip32Path = some privateKey)
    (generated : sdk.generatePair privateKey = some W)
    (signs : ∀ message, sdk.eddsaSign privateKey message =
      some (sign message))
    (publicKey_ne_zero : (copyPublicKey W.val).val ≠ zeroBytes 32)
    (addressEq : sdk.address (copyPublicKey W.val).val = some address)
    (buffer : ApduBuffer)
    (leaves : LeavesProof tx.parsed bytes offset) :
    ∃ filled, FillsInProof sdk tx buffer bytes offset
      (copyPublicKey W.val) address sign filled := by
  obtain ⟨known, versionEq, accepted, tail, rfl, _, parsedEq, _, rawTxEq⟩ :=
    reviewed.inversion
  have signedBytes : (tx.signedBytes : Run Interruption _) =
      .ok accepted.tx.encode :=
    TransactionContext.signedBytes_congr reviewed.signedBytes
  have lookedFor := emptyStakerProof_eq (ε := Interruption) rawTxEq parsedEq
  obtain ⟨staking, isStaking⟩ :=
    accepted.of_shown_staking (parsedEq ▸ leaves.isStaking)
  obtain ⟨proof, proofEq, empty, rfl⟩ :=
    LeavesProof.proof (parsedEq ▸ leaves) isStaking
  have hasProof : staking.proof.isSome := by rw [proofEq]; rfl
  obtain ⟨front, back, place, encodeEq, encodeWith⟩ :=
    accepted.encode_withProof isStaking hasProof proofEq
  have toFillIn : (tx.emptyStakerProof : Run Interruption _) =
      .ok (some (SignatureProof.atOffset front.length)) := by
    rcases lookedFor with ⟨offset, found, lookedFor⟩ | ⟨absent, _⟩
    · obtain ⟨_, rfl⟩ :=
        (leavesProof_iff isStaking proofEq).mp (parsedEq ▸ found)
      rw [place]
      exact lookedFor
    · exact absurd leaves (absent _)
  rw [encodeEq] at signedBytes
  obtain ⟨rawTx, approved, filledBytes⟩ := onTransactionApproved_proof
    derived generated signs signedBytes toFillIn buffer
  refine ⟨_, ?_, ?_, ⟨rawTx, ?_, filledBytes⟩, ?_⟩
  · rw [← place, encodeEq, fillProof_eq]
  · have proofIs : ProofData.mk Bytes.zero Bytes.zero = proof := by
      obtain ⟨publicKey, signature⟩ := proof
      rw [show publicKey = Bytes.zero from Subtype.ext empty.1,
        show signature = Bytes.zero from Subtype.ext empty.2]
    rw [← place, fillProof_eq, encodeEq, proofIs]
  · rw [encodeEq]
    exact approved
  · rw [versionEq, ← encodeWith, AcceptedTransaction.parseTx_eq_ok_iff,
      accepted.withProof_shown isStaking hasProof sdk.toDevice
        (fun isEmpty => publicKey_ne_zero isEmpty.1) addressEq,
      parsedEq, stakerEntry_encode]
    refine ⟨?_, rfl⟩
    intro other otherEq _
    cases otherEq
    rw [addressEq]
    rfl

/-- Approving a reviewed transaction fills in the proof of the staker exactly
if it is left to the app, and signs the transaction as it is otherwise. -/
theorem onTransactionApproved_signs
    (reviewed : tx.Reviewed sdk.toDevice bytes)
    (derived : sdk.derivePrivateKey tx.bip32Path = some privateKey)
    (generated : sdk.generatePair privateKey = some W)
    (signs : ∀ message, sdk.eddsaSign privateKey message =
      some (sign message))
    (publicKey_ne_zero : (copyPublicKey W.val).val ≠ zeroBytes 32)
    (addressEq : sdk.address (copyPublicKey W.val).val = some address)
    (buffer : ApduBuffer) :
    (∀ offset, LeavesProof tx.parsed bytes offset →
      ∃ filled, FillsInProof sdk tx buffer bytes offset
        (copyPublicKey W.val) address sign filled) ∧
      ((∀ offset, ¬LeavesProof tx.parsed bytes offset) →
        sdk.onTransactionApproved tx buffer =
          .ok (tx, ⟨(sign bytes).val, .ok⟩)) := by
  constructor
  · intro offset leaves
    exact onTransactionApproved_fillsIn reviewed derived generated signs
      publicKey_ne_zero addressEq buffer leaves
  · intro absent
    obtain ⟨known, _, accepted, tail, rfl, _, parsedEq, _, rawTxEq⟩ :=
      reviewed.inversion
    have signedBytes : (tx.signedBytes : Run Interruption _) =
        .ok accepted.tx.encode :=
      TransactionContext.signedBytes_congr reviewed.signedBytes
    rcases emptyStakerProof_eq (ε := Interruption) rawTxEq parsedEq with
      ⟨offset, found, _⟩ | ⟨_, noProof⟩
    · exact absurd found (absent offset)
    · exact onTransactionApproved_plain derived signs signedBytes noProof
        buffer

end Approval

/-- The context of an accepted transaction before it is approved. -/
def AcceptedTransaction.context (accepted : AcceptedTransaction version)
    (device : Device) (path : List UInt32)
    (short : accepted.tx.encode.length ≤ maxRawTx) : TransactionContext where
  bip32Path := path
  transactionVersion := version.code
  rawTx := ⟨accepted.tx.encode ++
      zeroBytes (maxRawTx - accepted.tx.encode.length), by
    simp [zeroBytes, short]⟩
  rawTxLength := UInt32.ofNat accepted.tx.encode.length
  parsed := accepted.shown device

theorem AcceptedTransaction.context_reviewed
    (accepted : AcceptedTransaction version)
    (hashable : accepted.content.Hashable device)
    (short : accepted.tx.encode.length ≤ maxRawTx) :
    (accepted.context device path short).Reviewed device
      accepted.tx.encode where
  signedBytes := by
    refine TransactionContext.signedBytes_eq_ok.mpr ⟨?_, _, rfl⟩
    apply UInt32.toNat_ofNat_of_lt'
    unfold maxRawTx at short
    change _ < 4294967296
    omega
  parsed := accepted.parseTx_eq_ok_iff.mpr ⟨hashable, rfl⟩

/-- The signature of the sender on the sample. -/
def sampleSenderSignature : Bytes 64 :=
  ⟨Foundation.Positional.bytesOf 32
      0x27dccfd7c0fe6c820944ec5cd23969ef1b6d0294c1b0c06531f949178b215177 ++
    Foundation.Positional.bytesOf 32
      0xe027be855562665ff4d4cac381176770423b65728092c4c509ab24f7c214f703,
    by simp⟩

/-- The creation of a staker whose proof is left to the app. -/
def sampleUnsigned : AcceptedTransaction .albatross :=
  acceptedCreateStaker ProofData.emptyDefault

set_option maxRecDepth 2000 in
theorem sampleUnsigned_short :
    sampleUnsigned.tx.encode.length ≤ maxRawTx := by
  decide

/-- The signatures of the sample key before and after the proof is filled
in. -/
def sampleSign (message : List UInt8) : Bytes 64 :=
  if message = sampleUnsigned.tx.encode then sampleStakerSignature
  else sampleSenderSignature

/-- The proof of the sample is filled in, and the transaction with the proof
is signed. -/
theorem createStaker_filledIn :
    ∃ filled, FillsInProof (sampleSdk sampleSign fun _ => Bytes.zero)
      (sampleUnsigned.context sampleDevice samplePath
        sampleUnsigned_short)
      Bytes.zero sampleUnsigned.tx.encode 4
      (copyPublicKey sampleCoordinates.val) sampleAddress sampleSign filled :=
  (onTransactionApproved_signs
    (sampleUnsigned.context_reviewed (fun _ _ _ => rfl)
      sampleUnsigned_short)
    rfl rfl (fun _ => rfl) (by decide) rfl Bytes.zero).1 4
    ((leavesProof_iff rfl rfl).mpr ⟨⟨rfl, rfl⟩, rfl⟩)

end NimiqApp
