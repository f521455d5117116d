import NimiqApp.Foundation.Ends
import NimiqApp.ReviewInjectivity
import NimiqApp.StakerSignature

/-!
# Stakers that are not shown

The review of an incoming staking transaction leaves out the staker if it is
the sender, and if the proof of the staker is left to the app.  Whatever is
signed in the end, a staker that was not shown is one of the user's own.
-/

namespace NimiqApp

open Foundation (Ends)

section Inversion

variable {sdk : Sdk} {tx next : TransactionContext}
  {privateKey : sdk.PrivateKey}

/-- A cryptographic function that was called failed. -/
def Interruption.CryptographyFailed : Stop Interruption → Prop
  | .error interruption => interruption.sw = .cryptographyFail
  | .fault _ => True

theorem TransactionContext.orInterrupt_ends
    (tx : TransactionContext)
    (call : Option α) :
    Ends (fun value => call = some value) Interruption.CryptographyFailed
      (tx.orInterrupt call) := by
  cases call with
  | none => exact .threw rfl
  | some value => exact .returned rfl

/-- Loads only fault. -/
theorem load_interruption
    (memory : List UInt8)
    (pointer : Pointer)
    (count : Nat) :
    Ends (fun bytes => (load memory pointer count : Run Interruption _) =
      .ok bytes) Interruption.CryptographyFailed
        (load memory pointer count) := by
  unfold load
  split
  · exact .returned rfl
  · split
    · exact .threw trivial
    · split
      · exact .returned rfl
      · exact .threw trivial

/-- Stores only fault. -/
theorem store_interruption
    (array : Bytes size)
    (offset : Nat)
    (bytes : List UInt8) :
    Ends (fun stored => (array.store offset bytes : Run Interruption _) =
      .ok stored) Interruption.CryptographyFailed
        (array.store offset bytes) := by
  unfold Bytes.store
  split
  · exact .returned rfl
  · exact .threw trivial

theorem storeThrough_interruption
    (array : Bytes size)
    (pointer : Pointer)
    (bytes : List UInt8) :
    Ends (fun stored =>
        (array.storeThrough pointer bytes : Run Interruption _) = .ok stored)
      Interruption.CryptographyFailed (array.storeThrough pointer bytes) := by
  cases pointer with
  | none => exact .threw trivial
  | some offset => exact store_interruption array offset bytes

/-- The signature of a transaction is in the front of the buffer. -/
def SignsTransaction (sdk : Sdk) (privateKey : sdk.PrivateKey)
    (tx : TransactionContext) (buffer : ApduBuffer) : Prop :=
  ∃ bytes signature,
    sdk.eddsaSign privateKey bytes = some signature ∧
      (load buffer.val (some 0) 64 : Run Interruption _) =
        .ok signature.val ∧
      (tx.signedBytes : Run Interruption _) = .ok bytes

theorem signTransaction_ends
    (privateKey : sdk.PrivateKey)
    (tx : TransactionContext)
    (buffer : ApduBuffer) :
    Ends (SignsTransaction sdk privateKey tx)
      Interruption.CryptographyFailed
      (sdk.signTransaction privateKey tx buffer) := by
  unfold Sdk.signTransaction
  apply Ends.bind (load_interruption _ _ _)
  intro bytes loaded
  apply Ends.bind (tx.orInterrupt_ends _)
  intro signature signed
  apply Ends.imp (store_interruption _ _ _)
  intro next stored
  have front : (load next.val (some 0) signature.val.length :
      Run Interruption _) = .ok signature.val := Bytes.store_load stored
  rw [signature.property] at front
  exact ⟨bytes, signature, signed, front, loaded⟩

/-- The proof is filled in with a signature and the public key of the path. -/
def FilledInWith (sdk : Sdk) (privateKey : sdk.PrivateKey)
    (proof : SignatureProof) (tx next : TransactionContext) : Prop :=
  ∃ (W : Bytes 65) (signature : Bytes 64) (between rawTx : Bytes maxRawTx),
    sdk.generatePair privateKey = some W ∧
      (tx.rawTx.storeThrough proof.signature signature.val :
        Run Interruption _) = .ok between ∧
      (between.storeThrough proof.publicKey (copyPublicKey W.val).val :
        Run Interruption _) = .ok rawTx ∧
      next = { tx with rawTx }

theorem createStakerSignature_ends
    (privateKey : sdk.PrivateKey)
    (proof : SignatureProof)
    (tx : TransactionContext)
    (buffer : ApduBuffer) :
    Ends (fun out => FilledInWith sdk privateKey proof tx out.1)
      Interruption.CryptographyFailed
      (sdk.createStakerSignature privateKey proof tx buffer) := by
  unfold Sdk.createStakerSignature
  apply Ends.bind (signTransaction_ends privateKey tx buffer)
  rintro signedBuffer ⟨_, signature, _, front, _⟩
  rw [front, Run.bind_ok]
  apply Ends.bind (storeThrough_interruption _ _ _)
  intro between storedSignature
  apply Ends.bind (TransactionContext.orInterrupt_ends _ _)
  intro W generated
  apply Ends.bind (store_interruption _ _ _)
  intro keyBuffer storedKey
  have loadKey : (load keyBuffer.val (some sdk.temporaryCoordinates)
      W.val.length : Run Interruption _) = .ok W.val :=
    Bytes.store_load storedKey
  rw [W.property] at loadKey
  rw [loadKey, Run.bind_ok]
  apply Ends.bind (storeThrough_interruption _ _ _)
  intro rawTx storedPublicKey
  exact .returned
    ⟨W, signature, between, rawTx, generated, storedSignature,
      storedPublicKey, rfl⟩

/-- What an approval leaves behind: the transaction as it was, or with the
proof filled in. -/
def LeftBehind (sdk : Sdk) (tx next : TransactionContext) : Prop :=
  ((tx.emptyStakerProof : Run Interruption _) = .ok none ∧ next = tx) ∨
    ∃ privateKey proof,
      sdk.derivePrivateKey tx.bip32Path = some privateKey ∧
        (tx.emptyStakerProof : Run Interruption _) = .ok (some proof) ∧
        FilledInWith sdk privateKey proof tx next

theorem signApprovedTransaction_ends
    (sdk : Sdk)
    (tx : TransactionContext)
    (buffer : ApduBuffer)
    (lookedFor : (tx.emptyStakerProof : Run Interruption _) = .ok proof) :
    Ends (fun out => LeftBehind sdk tx out.1)
      Interruption.CryptographyFailed
      (sdk.signApprovedTransaction tx buffer) := by
  unfold Sdk.signApprovedTransaction
  apply Ends.bind (tx.orInterrupt_ends _)
  intro privateKey derived
  rw [lookedFor, Run.bind_ok]
  cases proof with
  | none =>
      unfold Sdk.signAsSender
      apply Ends.bind (signTransaction_ends privateKey tx buffer)
      intro _ _
      exact .returned (Or.inl ⟨lookedFor, rfl⟩)
  | some proof =>
      unfold Sdk.signAsStakerAndSender
      apply Ends.bind (createStakerSignature_ends privateKey proof tx buffer)
      rintro ⟨next, keyBuffer⟩ filledIn
      apply Ends.bind (signTransaction_ends privateKey next keyBuffer)
      intro signedBuffer _
      apply Ends.bind (load_interruption _ _ _)
      intro signature _
      apply Ends.bind (store_interruption _ _ _)
      intro replyBuffer _
      exact .returned (Or.inr ⟨privateKey, proof, derived, lookedFor, filledIn⟩)

/-- An approval that succeeds signs the transaction it leaves behind. -/
theorem onTransactionApproved_leftBehind
    (lookedFor : (tx.emptyStakerProof : Run Interruption _) = .ok proof)
    (approved : sdk.onTransactionApproved tx buffer = .ok (next, reply))
    (succeeded : reply.sw = .ok) :
    LeftBehind sdk tx next := by
  have ends := signApprovedTransaction_ends sdk tx buffer lookedFor
  unfold Sdk.onTransactionApproved at approved
  cases signed : sdk.signApprovedTransaction tx buffer with
  | ok out =>
      obtain ⟨left, data⟩ := out
      rw [signed] at approved ends
      cases approved
      cases ends with
      | returned holds => exact holds
  | error stop =>
      rw [signed] at approved ends
      cases ends with
      | threw failed =>
          cases stop with
          | error interruption =>
              cases approved
              rw [ioFinalizeAsyncReply_nil] at succeeded
              change interruption.sw = .cryptographyFail at failed
              rw [failed] at succeeded
              cases succeeded
          | fault reason => cases approved

end Inversion

/-- The staker the network takes data to be about: the address in the data,
or that of the public key in the proof. -/
def StakingData.effectiveStaker (device : Device) (staking : StakingData) :
    Option (Bytes 20) :=
  match staking.payload with
  | .addStake staker => some staker
  | _ => staking.proof.bind fun proof =>
      device.address proof.publicKey.val

/-- The address is that of the public key of a path. -/
def Sdk.IsAddressOfPath (sdk : Sdk) (path : List UInt32)
    (address : Option (Bytes 20)) : Prop :=
  ∃ privateKey W, sdk.derivePrivateKey path = some privateKey ∧
    sdk.generatePair privateKey = some W ∧
    address = sdk.address (copyPublicKey W.val).val

/-- A staker is shown, or is the sender, or is the user of the path. -/
def Sdk.StakerDisclosed (sdk : Sdk) (path : List UInt32)
    (sender : Bytes 20) (entries : List Entry)
    (staker : Option (Bytes 20)) : Prop :=
  (∃ address, staker = some address ∧
      valuesOf (ascii "Staker") entries =
        [userFriendlyAddress address.val]) ∨
    (valuesOf (ascii "Staker") entries = [] ∧
      (staker = some sender ∨ sdk.IsAddressOfPath path staker))

/-- Unless the proof is left to the app, the staker that is looked at is the
effective one. -/
theorem StakingData.effectiveStaker_eq
    {staking : StakingData}
    (hashable : staking.Hashable device)
    (filledIn : ∀ proof, staking.proof = some proof →
      ¬proof.IsEmptyDefault) :
    ∃ address, staking.effectiveStaker device = some address ∧
      staking.staker device = some address := by
  obtain ⟨payload, proof, hasProof⟩ := staking
  cases proof with
  | none =>
      cases payload with
      | addStake staker => exact ⟨staker, rfl, rfl⟩
      | _ => cases hasProof
  | some proof =>
      have notEmpty := filledIn proof rfl
      obtain ⟨address, addressEq⟩ :=
        Option.isSome_iff_exists.mp (hashable proof rfl notEmpty)
      refine ⟨address, ?_, ?_⟩
      · cases payload with
        | addStake staker => cases hasProof
        | _ => exact addressEq
      · unfold staker
        simp only [if_neg notEmpty, addressEq]

/-- The effective staker of data with a proof that was filled in. -/
theorem StakingData.effectiveStaker_withProof
    (staking : StakingData)
    (proof : ProofData)
    (hasProof : staking.proof.isSome) :
    (staking.withProof proof hasProof).effectiveStaker device =
      device.address proof.publicKey.val := by
  obtain ⟨payload, old, isProof⟩ := staking
  unfold effectiveStaker withProof
  cases payload with
  | addStake staker =>
      change old.isSome = true at hasProof
      rw [hasProof] at isProof
      cases isProof
  | _ => rfl

/-- Only the staker has the label of a staker. -/
theorem StakingPayload.valuesOf_staker
    (payload : StakingPayload)
    (staker : CString) :
    valuesOf (ascii "Staker") (payload.entries staker) =
      if decide (staker.length ≠ 0) then [staker] else [] := by
  cases payload <;>
    simp +decide only [entries, valuesOf_append, valuesOf_single,
      valuesOf_optionalEntry, if_true, if_false, List.nil_append,
      List.append_nil]

/-- The staker among the entries of a transaction. -/
theorem AcceptedTransaction.valuesOf_staker
    (device : Device)
    (accepted : AcceptedTransaction version)
    (isStaking : accepted.content = .stakingIncoming staking) :
    valuesOf (ascii "Staker") (accepted.entries device) =
      if decide ((staking.shownStaker device accepted.tx.sender).length ≠ 0)
      then [staking.shownStaker device accepted.tx.sender] else [] := by
  unfold entries ParsedTx.surround
  rw [isStaking, ← staking.payload.valuesOf_staker]
  simp +decide only [valuesOf_append, valuesOf_single,
    valuesOf_optionalEntry, if_false, List.nil_append, List.append_nil]
  rfl

section Approval

variable {sdk : Sdk} {tx next : TransactionContext}

/-- The proof of the path is in the place of the proof that was left to the
app. -/
theorem FilledInWith.rawTx_eq
    (filledIn : FilledInWith sdk privateKey
      (SignatureProof.atOffset front.length) tx next)
    (rawTxEq : tx.rawTx.val = front ++ (ProofData.encode proof ++ behind)) :
    ∃ W signature, sdk.generatePair privateKey = some W ∧
      next.rawTxLength = tx.rawTxLength ∧
      next.rawTx.val = front ++
        ((ProofData.mk (copyPublicKey W.val) signature).encode ++
          behind) := by
  obtain ⟨W, signature, between, rawTx, generated, storedSignature,
    storedPublicKey, rfl⟩ := filledIn
  have betweenEq := (Bytes.store_inversion storedSignature).2
  have filledEq := (Bytes.store_inversion storedPublicKey).2
  rw [rawTxEq, overwrite_signature] at betweenEq
  rw [betweenEq, overwrite_publicKey] at filledEq
  exact ⟨W, signature, generated, rfl, filledEq⟩

/-- A transaction whose proof was left to the app names the staker of the
path when it is signed. -/
theorem filledIn_effectiveStaker
    {accepted : AcceptedTransaction version}
    (isStaking : accepted.content = .stakingIncoming staking)
    (proofEq : staking.proof = some proof)
    (rawTxEq : tx.rawTx.val = accepted.tx.encode ++ tail)
    (length : tx.rawTxLength.toNat = accepted.tx.encode.length)
    (filledIn : FilledInWith sdk privateKey
      (SignatureProof.atOffset (2 + staking.proofOffset)) tx next) :
    ∃ (signed : Transaction version) (signedStaking : StakingData) (W : _),
      (next.signedBytes : Run Empty _) = .ok signed.encode ∧
        signed.data = signedStaking.encode ∧
        sdk.generatePair privateKey = some W ∧
        signedStaking.effectiveStaker sdk.toDevice =
          sdk.address (copyPublicKey W.val).val := by
  have hasProof : staking.proof.isSome := by rw [proofEq]; rfl
  obtain ⟨front, back, place, encodeEq, encodeWith⟩ :=
    accepted.encode_withProof isStaking hasProof proofEq
  rw [← place] at filledIn
  rw [encodeEq, List.append_assoc, List.append_assoc] at rawTxEq
  obtain ⟨W, signature, generated, lengthEq, nextEq⟩ :=
    filledIn.rawTx_eq rawTxEq
  have same := encodeWith ⟨copyPublicKey W.val, signature⟩
  refine ⟨(accepted.withProof isStaking hasProof
    ⟨copyPublicKey W.val, signature⟩).tx, _, W, ?_, rfl, generated,
    staking.effectiveStaker_withProof
      ⟨copyPublicKey W.val, signature⟩ hasProof⟩
  refine TransactionContext.signedBytes_eq_ok.mpr ⟨?_, tail, ?_⟩
  · rw [lengthEq, length, encodeEq, same]
    simp
  · rw [nextEq, same, List.append_assoc, List.append_assoc]

/-- A staker that is not shown in the review of a staking transaction is the
sender or the user whose key signs the transaction. -/
theorem onTransactionApproved_staker
    (reviewed : tx.Reviewed sdk.toDevice bytes)
    (isIncoming : tx.parsed.transactionType = .stakingIncoming)
    (review : UserInterface.Reviews tx.parsed heading entries ui)
    (approved : sdk.onTransactionApproved tx buffer = .ok (next, reply))
    (succeeded : reply.sw = .ok) :
    ∃ (signed : Transaction .albatross) (staking : StakingData),
      (next.signedBytes : Run Empty _) = .ok signed.encode ∧
        signed.data = staking.encode ∧
        sdk.StakerDisclosed tx.bip32Path signed.sender entries
          (staking.effectiveStaker sdk.toDevice) := by
  obtain ⟨known, _, accepted, tail, rfl, hashable, parsedEq, length,
    rawTxEq⟩ := reviewed.inversion
  obtain ⟨staking, isStaking⟩ :=
    accepted.of_shown_staking (parsedEq ▸ isIncoming)
  have admitted := accepted.admitted
  rw [isStaking] at admitted hashable
  obtain ⟨_, _, rfl, _, _, _, dataEq, _⟩ := admitted
  have entriesEq : entries = accepted.entries sdk.toDevice := by
    rw [parsedEq] at review
    exact ((ui.reviews_iff sdk.toDevice accepted
      (isStaking ▸ id)).mp review).2
  have shown := accepted.valuesOf_staker sdk.toDevice isStaking
  rw [← entriesEq] at shown
  rcases emptyStakerProof_eq (ε := Interruption) rawTxEq parsedEq with
    ⟨offset, leaves, lookedFor⟩ | ⟨absent, lookedFor⟩
  · obtain ⟨proof, proofEq, empty, rfl⟩ :=
      LeavesProof.proof (parsedEq ▸ leaves) isStaking
    rcases onTransactionApproved_leftBehind lookedFor approved succeeded with
      ⟨noProof, _⟩ | ⟨privateKey, other, derived, otherEq, filledIn⟩
    · rw [lookedFor] at noProof
      cases noProof
    · rw [lookedFor] at otherEq
      cases otherEq
      obtain ⟨signed, signedStaking, W, signedBytes, signedData, generated,
        effective⟩ := filledIn_effectiveStaker isStaking proofEq rawTxEq
          length filledIn
      have hidden : staking.shownStaker sdk.toDevice accepted.tx.sender =
          [] := by
        simp only [StakingData.shownStaker, StakingData.staker, proofEq,
          if_pos empty]
      rw [hidden] at shown
      exact ⟨signed, signedStaking, signedBytes, signedData, Or.inr
        ⟨shown, Or.inr ⟨privateKey, W, derived, generated, effective⟩⟩⟩
  · rcases onTransactionApproved_leftBehind lookedFor approved succeeded with
      ⟨_, rfl⟩ | ⟨_, other, _, otherEq, _⟩
    · refine ⟨accepted.tx, staking, reviewed.signedBytes, dataEq, ?_⟩
      obtain ⟨address, effective, stakerEq⟩ :=
        StakingData.effectiveStaker_eq hashable (by
          intro proof proofEq empty
          exact absent _ (parsedEq ▸
            (leavesProof_iff isStaking proofEq).mpr ⟨empty, rfl⟩))
      have text : staking.shownStaker sdk.toDevice accepted.tx.sender =
          shownAddress address accepted.tx.sender := by
        simp only [StakingData.shownStaker, stakerEq]
        rfl
      rw [text] at shown
      by_cases isSender : address = accepted.tx.sender
      · rw [shownAddress_eq_nil_iff.mpr isSender] at shown
        exact Or.inr ⟨shown, Or.inl (effective.trans (congrArg some isSender))⟩
      · unfold shownAddress at shown
        rw [if_neg isSender] at shown
        refine Or.inl ⟨address, effective, ?_⟩
        rw [shown, if_pos]
        exact decide_eq_true fun none =>
          userFriendlyAddress_ne_nil _ (List.length_eq_zero_iff.mp none)
    · rw [lookedFor] at otherEq
      cases otherEq

end Approval
/-- The staker of the sample is not shown, as its proof is filled in with the
key of the sender. -/
theorem onTransactionApproved_staker_sample :
    ∃ (signed : Transaction .albatross) (staking : StakingData),
      signed.data = staking.encode ∧
        (sampleSdk sampleSign fun _ => Bytes.zero).StakerDisclosed samplePath
          signed.sender (sampleUnsigned.entries sampleDevice)
          (staking.effectiveStaker sampleDevice) := by
  have reviewed : (sampleUnsigned.context sampleDevice samplePath
      sampleUnsigned_short).Reviewed sampleDevice sampleUnsigned.tx.encode :=
    sampleUnsigned.context_reviewed (fun _ _ _ => rfl) sampleUnsigned_short
  have review : UserInterface.Reviews
      (sampleUnsigned.shown sampleDevice)
      (UserInterface.bagl.title (sampleUnsigned.content.label
        sampleUnsigned.tx))
      (sampleUnsigned.entries sampleDevice) .bagl :=
    (UserInterface.bagl.reviews_iff sampleDevice sampleUnsigned id).mpr
      ⟨rfl, rfl⟩
  obtain ⟨filled, fillsIn⟩ : ∃ filled,
      FillsInProof (sampleSdk sampleSign fun _ => Bytes.zero)
        (sampleUnsigned.context sampleDevice samplePath
          sampleUnsigned_short)
        Bytes.zero sampleUnsigned.tx.encode 4
        (copyPublicKey sampleCoordinates.val) sampleAddress sampleSign
        filled :=
    onTransactionApproved_fillsIn reviewed rfl rfl (fun _ => rfl) (by decide)
      rfl Bytes.zero ((leavesProof_iff rfl rfl).mpr ⟨⟨rfl, rfl⟩, rfl⟩)
  obtain ⟨rawTx, approved, _⟩ := fillsIn.reply
  obtain ⟨signed, staking, _, dataEq, disclosed⟩ :=
    onTransactionApproved_staker reviewed rfl review approved rfl
  exact ⟨signed, staking, dataEq, disclosed⟩

end NimiqApp
