import NimiqApp.Approval

/-!
# The replies to approvals

Approvals use the APDU buffer as scratch memory.  As long as what is reviewed
is in memory, they go through, and their replies are a matter of the keys,
the signatures and what is reviewed alone.
-/

namespace NimiqApp

/-- The reply with signatures, or that there are none. -/
def Reply.signed : Option (List UInt8) → Reply
  | some signatures => ⟨signatures, .ok⟩
  | none => ⟨[], .cryptographyFail⟩

/-- The signatures for a transaction, in the order in which they are
returned.  If a proof of the staker is left to the app, the staker signs the
transaction as it is, and the sender signs it with the proof. -/
def Sdk.transactionSignatures (sdk : Sdk) (path : List UInt32)
    (bytes : List UInt8) (leftProof : Option Nat) :
    Option (List UInt8) := do
  let privateKey ← sdk.derivePrivateKey path
  let signature ← sdk.eddsaSign privateKey bytes
  match leftProof with
  | none => some signature.val
  | some offset => do
      let publicKey ← sdk.generatePair privateKey
      let senderSignature ← sdk.eddsaSign privateKey
        (fillProof bytes offset (copyPublicKey publicKey.val) signature)
      some (senderSignature.val ++ signature.val)

/-- The signature for a message. -/
def Sdk.messageSignature (sdk : Sdk) (path : List UInt32)
    (prefixedMessageHash : Bytes 32) : Option (List UInt8) := do
  let privateKey ← sdk.derivePrivateKey path
  let signature ← sdk.eddsaSign privateKey prefixedMessageHash.val
  some signature.val

section Failing

variable {sdk : Sdk} {tx : TransactionContext}
  {privateKey : sdk.PrivateKey} {signature : Bytes 64} {W : Bytes 65}

/-- An approval that fails for the cryptography. -/
def Sdk.FailsToSign (run : Run Interruption α) : Prop :=
  ∃ tx, run = .error (.error ⟨.cryptographyFail, tx⟩)

theorem Sdk.FailsToSign.bind
    {run : Run Interruption α}
    (fails : Sdk.FailsToSign run)
    (next : α → Run Interruption β) :
    Sdk.FailsToSign (run >>= next) := by
  obtain ⟨tx, rfl⟩ := fails
  exact ⟨tx, rfl⟩

/-- Without a signature, nothing is written. -/
theorem signTransaction_fails
    (noSignature : sdk.eddsaSign privateKey bytes = none)
    (signedBytes : (tx.signedBytes : Run Interruption _) = .ok bytes)
    (buffer : ApduBuffer) :
    Sdk.FailsToSign (sdk.signTransaction privateKey tx buffer) := by
  unfold Sdk.signTransaction
  rw [signedBytes, Run.bind_ok, noSignature]
  exact ⟨tx, rfl⟩

/-- Without a public key, the proof is left half filled in. -/
theorem createStakerSignature_fails
    (signs : sdk.eddsaSign privateKey
      (front ++ (ProofData.encode proof ++ back)) = some signature)
    (noKey : sdk.generatePair privateKey = none)
    (signedBytes : (tx.signedBytes : Run Interruption _) =
      .ok (front ++ (ProofData.encode proof ++ back)))
    (buffer : ApduBuffer) :
    Sdk.FailsToSign (sdk.createStakerSignature privateKey
      (SignatureProof.atOffset front.length) tx buffer) := by
  obtain ⟨_, tail, rawTxEq⟩ :=
    TransactionContext.signedBytes_eq_ok.mp signedBytes
  rw [List.append_assoc, List.append_assoc] at rawTxEq
  obtain ⟨signedBuffer, withSignature, signed, loadSignature, storeSignature,
    _⟩ := createStakerSignature_stores signs signedBytes rawTxEq buffer
  unfold Sdk.createStakerSignature
  rw [signed, Run.bind_ok, loadSignature, Run.bind_ok, storeSignature,
    Run.bind_ok, noKey]
  exact ⟨_, rfl⟩

/-- The transaction is signed by its sender alone, or not at all. -/
theorem signAsSender_signatures
    (derived : sdk.derivePrivateKey path = some privateKey)
    (signedBytes : (tx.signedBytes : Run Interruption _) = .ok bytes)
    (buffer : ApduBuffer) :
    match sdk.transactionSignatures path bytes none with
    | some signatures =>
        ∃ next, sdk.signAsSender privateKey tx buffer =
          .ok (next, signatures)
    | none => Sdk.FailsToSign (sdk.signAsSender privateKey tx buffer) := by
  unfold Sdk.transactionSignatures
  rw [derived]
  cases signs : sdk.eddsaSign privateKey bytes with
  | none =>
      simp only [Option.bind_eq_bind, Option.bind_some, signs,
        Option.bind_none]
      exact (signTransaction_fails signs signedBytes buffer).bind _
  | some signature =>
      simp only [Option.bind_eq_bind, Option.bind_some, signs]
      exact ⟨tx, signAsSender_eq signs signedBytes buffer⟩

/-- The transaction is signed by the staker and the sender, or not at all. -/
theorem signAsStakerAndSender_signatures
    (derived : sdk.derivePrivateKey path = some privateKey)
    (signedBytes : (tx.signedBytes : Run Interruption _) =
      .ok (front ++ (ProofData.encode proof ++ back)))
    (buffer : ApduBuffer) :
    match sdk.transactionSignatures path
      (front ++ (ProofData.encode proof ++ back)) (some front.length) with
    | some signatures =>
        ∃ next, sdk.signAsStakerAndSender privateKey
          (SignatureProof.atOffset front.length) tx buffer =
            .ok (next, signatures)
    | none =>
        Sdk.FailsToSign (sdk.signAsStakerAndSender privateKey
          (SignatureProof.atOffset front.length) tx buffer) := by
  unfold Sdk.transactionSignatures
  rw [derived]
  cases signs : sdk.eddsaSign privateKey
      (front ++ (ProofData.encode proof ++ back)) with
  | none =>
      simp only [Option.bind_eq_bind, Option.bind_some, signs,
        Option.bind_none]
      exact ((signTransaction_fails signs signedBytes buffer).bind _).bind _
  | some signature =>
      cases generated : sdk.generatePair privateKey with
      | none =>
          simp only [Option.bind_eq_bind, Option.bind_some, signs, generated,
            Option.bind_none]
          exact (createStakerSignature_fails signs generated signedBytes
            buffer).bind _
      | some W =>
          simp only [Option.bind_eq_bind, Option.bind_some, signs, generated,
            fillProof_eq]
          cases signsFilled : sdk.eddsaSign privateKey
              (front ++ ((ProofData.mk (copyPublicKey W.val)
                signature).encode ++ back)) with
          | none =>
              obtain ⟨rawTx, keyBuffer, _, created, _, filledBytes⟩ :=
                createStakerSignature_filledIn signs generated signedBytes
                  buffer
              simp only [Option.bind_none]
              unfold Sdk.signAsStakerAndSender
              rw [created, Run.bind_ok]
              exact (signTransaction_fails signsFilled filledBytes
                keyBuffer).bind _
          | some senderSignature =>
              obtain ⟨rawTx, signed, _⟩ := signAsStakerAndSender_eq signs
                signsFilled generated signedBytes buffer
              simp only [Option.bind_some]
              exact ⟨_, signed⟩

end Failing

/-- A proof of the staker is left to the app at an offset, or nowhere. -/
def LeftProof (parsed : ParsedTx) (bytes : List UInt8) (place : Option Nat) :
    Prop :=
  ∀ offset, place = some offset ↔ LeavesProof parsed bytes offset

section Transactions

variable {sdk : Sdk} {tx : TransactionContext}

/-- The proof that is left to the app is found in the bytes that are
signed. -/
theorem TransactionContext.Reviewed.emptyStakerProof
    (reviewed : tx.Reviewed device bytes) :
    (LeftProof tx.parsed bytes none ∧
        (tx.emptyStakerProof : Run ε _) = .ok none) ∨
      ∃ front proof back, bytes = front ++ (ProofData.encode proof ++ back) ∧
        LeftProof tx.parsed bytes (some front.length) ∧
        (tx.emptyStakerProof : Run ε _) =
          .ok (some (SignatureProof.atOffset front.length)) := by
  obtain ⟨known, _, accepted, tail, rfl, _, parsedEq, _, rawTxEq⟩ :=
    reviewed.inversion
  rcases emptyStakerProof_eq (ε := ε) rawTxEq parsedEq with
    ⟨offset, leaves, found⟩ | ⟨absent, notFound⟩
  · obtain ⟨staking, isStaking⟩ :=
      accepted.of_shown_staking (parsedEq ▸ leaves.isStaking)
    obtain ⟨proof, proofEq, empty, rfl⟩ :=
      LeavesProof.proof (parsedEq ▸ leaves) isStaking
    obtain ⟨front, back, place, encodeEq, _⟩ :=
      accepted.encode_withProof isStaking (by rw [proofEq]; rfl) proofEq
    refine Or.inr ⟨front, proof, back, encodeEq, ?_, by rw [place, found]⟩
    intro offset
    rw [parsedEq, leavesProof_iff isStaking proofEq, Option.some.injEq, place]
    exact ⟨fun same => ⟨empty, same.symm⟩, fun found => found.2.symm⟩
  · refine Or.inl ⟨?_, notFound⟩
    intro offset
    exact ⟨nofun, fun leaves => absurd leaves (absent offset)⟩

/-- What approving a reviewed transaction computes, whatever is in the APDU
buffer. -/
theorem TransactionContext.Reviewed.signs
    (reviewed : tx.Reviewed sdk.toDevice bytes) :
    ∃ place, LeftProof tx.parsed bytes place ∧ ∀ buffer,
      match sdk.transactionSignatures tx.bip32Path bytes place with
      | some signatures =>
          ∃ next, sdk.signApprovedTransaction tx buffer =
            .ok (next, signatures)
      | none => Sdk.FailsToSign (sdk.signApprovedTransaction tx buffer) := by
  have signedBytes : (tx.signedBytes : Run Interruption _) = .ok bytes :=
    TransactionContext.signedBytes_congr reviewed.signedBytes
  unfold Sdk.signApprovedTransaction
  rcases reviewed.emptyStakerProof (ε := Interruption) with
    ⟨left, notFound⟩ | ⟨front, proof, back, rfl, left, found⟩
  · refine ⟨none, left, ?_⟩
    intro buffer
    cases derived : sdk.derivePrivateKey tx.bip32Path with
    | none =>
        unfold Sdk.transactionSignatures
        rw [derived]
        exact ⟨tx, rfl⟩
    | some privateKey =>
        simp only [TransactionContext.orInterrupt, Run.pure_eq, Run.bind_ok,
          notFound]
        exact signAsSender_signatures derived signedBytes buffer
  · refine ⟨some front.length, left, ?_⟩
    intro buffer
    cases derived : sdk.derivePrivateKey tx.bip32Path with
    | none =>
        unfold Sdk.transactionSignatures
        rw [derived]
        exact ⟨tx, rfl⟩
    | some privateKey =>
        simp only [TransactionContext.orInterrupt, Run.pure_eq, Run.bind_ok,
          found]
        exact signAsStakerAndSender_signatures derived signedBytes buffer

/-- One signature is returned, or two if a proof was left to the app. -/
theorem Sdk.transactionSignatures_length
    (result : sdk.transactionSignatures path bytes place =
      some signatures) :
    signatures.length = if place.isSome then 128 else 64 := by
  unfold Sdk.transactionSignatures at result
  simp only [Option.bind_eq_bind, Option.bind_eq_some_iff] at result
  obtain ⟨privateKey, _, signature, _, result⟩ := result
  cases place with
  | none =>
      cases result
      exact signature.property
  | some offset =>
      simp only [Option.bind_eq_some_iff] at result
      obtain ⟨publicKey, _, senderSignature, _, result⟩ := result
      cases result
      rw [List.length_append, senderSignature.property, signature.property]
      rfl

/-- The reply to the approval of a reviewed transaction. -/
theorem TransactionContext.Reviewed.approval
    (reviewed : tx.Reviewed sdk.toDevice bytes) :
    ∃ place, LeftProof tx.parsed bytes place ∧ ∀ buffer, ∃ next,
      sdk.onTransactionApproved tx buffer = .ok (next,
        Reply.signed
          (sdk.transactionSignatures tx.bip32Path bytes place)) := by
  obtain ⟨place, left, signs⟩ := reviewed.signs
  refine ⟨place, left, ?_⟩
  intro buffer
  have signed := signs buffer
  unfold Sdk.onTransactionApproved
  cases result : sdk.transactionSignatures tx.bip32Path bytes place with
  | none =>
      rw [result] at signed
      obtain ⟨next, signed⟩ := signed
      rw [signed]
      exact ⟨next, rfl⟩
  | some signatures =>
      rw [result] at signed
      obtain ⟨next, signed⟩ := signed
      rw [signed]
      refine ⟨next, ?_⟩
      simp only [Reply.signed]
      rw [ioFinalizeAsyncReply_ok]
      · rfl
      · rw [Sdk.transactionSignatures_length result]
        split <;> omega

end Transactions

/-- The reply to the approval of a message. -/
theorem Sdk.onMessageApproved_eq
    (sdk : Sdk)
    (msg : MessageSigningContext Shared) :
    sdk.onMessageApproved msg = .ok (Reply.signed
      (sdk.messageSignature msg.bip32Path msg.prefixedMessageHash)) := by
  unfold Sdk.onMessageApproved Sdk.signMessage Sdk.messageSignature
  cases derived : sdk.derivePrivateKey msg.bip32Path with
  | none => rfl
  | some privateKey =>
      simp only [cryptography_some, Run.bind_ok, Option.bind_eq_bind,
        Option.bind_some]
      cases signs : sdk.eddsaSign privateKey msg.prefixedMessageHash.val with
      | none => rfl
      | some signature =>
          simp only [cryptography_some, Option.bind_some, Reply.signed]
          rw [ioFinalizeAsyncReply_ok (by rw [signature.property]; decide)]
          rfl

section Reviews

variable {app : App} {req : app.layout.Memory}
  {review : OpenReview app.layout.Shared}

/-- The reply to the approval of a review: the public key, or the
signatures. -/
inductive OpenReview.ApprovedWith (app : App) :
    OpenReview app.layout.Shared → Reply → Prop
  | publicKey {pk : PublicKeyContext} :
      ApprovedWith app (.publicKey pk)
        ⟨(copyPublicKey pk.publicKey.val).val ++
          if pk.returnSignature then pk.signature.val else [], .ok⟩
  | transaction {tx : TransactionContext} {bytes : List UInt8}
      {place : Option Nat}
      (reviewed : tx.Reviewed app.toDevice bytes)
      (left : LeftProof tx.parsed bytes place) :
      ApprovedWith app (.transaction tx)
        (Reply.signed
          (app.transactionSignatures tx.bip32Path bytes place))
  | message {msg : MessageSigningContext app.layout.Shared} :
      ApprovedWith app (.message msg)
        (Reply.signed
          (app.messageSignature msg.bip32Path msg.prefixedMessageHash))

/-- A review that is in memory can be approved, and whatever is in the APDU
buffer does not matter for the reply. -/
theorem OpenReview.InMemory.approves
    (inMemory : review.InMemory app req) :
    ∃ reply, review.ApprovedWith app reply ∧
      ∀ buffer, ∃ next, app.onApproved buffer req review =
        .ok (next, reply) := by
  cases review with
  | publicKey pk =>
      obtain ⟨rfl, _⟩ := inMemory
      refine ⟨_, .publicKey, ?_⟩
      intro buffer
      refine ⟨req, ?_⟩
      unfold App.onApproved
      simp only [onAddressApproved_eq, Run.bind_ok]
      rfl
  | transaction tx =>
      obtain ⟨rfl, bytes, reviewed⟩ := inMemory
      have onDevice : (app.layout.tx.read req).Reviewed app.toSdk.toDevice
          bytes := reviewed
      obtain ⟨place, left, approval⟩ := onDevice.approval
      refine ⟨_, .transaction reviewed left, ?_⟩
      intro buffer
      obtain ⟨next, approved⟩ := approval buffer
      unfold App.onApproved App.approveTransaction
      simp only [approved, Run.bind_ok]
      exact ⟨_, rfl⟩
  | message msg =>
      have same : SameRequest msg (app.layout.msg.read req) := inMemory
      refine ⟨_, .message, ?_⟩
      intro buffer
      refine ⟨req, ?_⟩
      unfold App.onApproved
      simp only [← Sdk.onMessageApproved_sameRequest same,
        Sdk.onMessageApproved_eq, Run.bind_ok]
      rfl

end Reviews

/-- The client sends nothing but `INS_KEEP_ALIVE` while a review is on the
screen. -/
def Waits {app : App} (_ : List (Event × Output app.layout.Shared))
    (state : State app) (event : Event) : Prop :=
  ∀ command, event = .command command → state.review.isSome →
    command.IsKeepAlive

section Waiting

variable {app : App} {state next : State app}
  {output : Output app.layout.Shared} {event : Event}

/-- Only a launch puts a review on the screen. -/
theorem State.Reacts.review_of_silent
    {review : OpenReview app.layout.Shared}
    (reacts : state.Reacts event next output)
    (silent : output.launched = none)
    (onScreen : next.review = some review) :
    state.review = some review := by
  cases reacts with
  | handled idle handles =>
      simp only at onScreen
      rwa [silent] at onScreen
  | refused idle refuses => exact onScreen
  | heartbeat due => exact onScreen
  | tick timer early => exact onScreen
  | approve _ approved => cases onScreen
  | reject _ => cases onScreen
  | messageStep _ displayed => exact onScreen
  | restart => cases onScreen

/-- A review on the screen is in memory. -/
def State.ReviewsInMemory (state : State app) : Prop :=
  ∀ review, state.review = some review →
    review.InMemory app state.ctx.req

/-- With a client that waits, reviews stay in memory. -/
theorem State.reviewsInMemory_step
    (inMemory : state.ReviewsInMemory)
    (reacts : state.Reacts event next output)
    (waits : ∀ command, event = .command command → state.review.isSome →
      command.IsKeepAlive) :
    next.ReviewsInMemory := by
  intro review onScreen
  cases silent : output.launched with
  | some launched =>
      obtain ⟨shown, launchedInMemory⟩ := reacts.launched_inMemory silent
      rw [onScreen] at shown
      cases shown
      exact launchedInMemory
  | none =>
      have before := reacts.review_of_silent silent onScreen
      refine (reacts.keeps_inMemory silent ?_ onScreen ?_).2
      · intro command isCommand
        exact waits command isCommand (by rw [before]; rfl)
      · intro current isCurrent
        rw [before] at isCurrent
        cases isCurrent
        exact ⟨rfl, inMemory review before⟩

/-- Nothing is reviewed after start-up. -/
theorem State.reviewsInMemory_start : (State.start app).ReviewsInMemory :=
  fun _ onScreen => absurd onScreen (Option.some_ne_none _).symm

end Waiting
end NimiqApp
