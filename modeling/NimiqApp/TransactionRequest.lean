import NimiqApp.Requests

/-!
# Signing transactions

`handle_sign_transaction` collects the chunks of a transaction, parses it and
starts its review.  `on_transaction_approved` signs it; if the signature
proof of a staker is left to the app, that proof is signed first and written
into the transaction.
-/

namespace NimiqApp

/-- The first chunk: path, version and the start of the transaction. -/
def TransactionContext.first (tx : TransactionContext) (buffer : List UInt8)
    (data : Slice) : Run StatusWord TransactionContext := do
  let (bip32Path, data) ←
    Run.orReturn .wrongDataLength (readBip32Path buffer data)
  let (transactionVersion, data) ←
    Run.orReturn .wrongDataLength (readU8 buffer data)
  Run.returnOn (data.length > maxRawTx) .wrongDataLength
  let chunk ← load buffer data.pointer data.length
  let rawTx ← tx.rawTx.store 0 chunk
  pure { tx with
    bip32Path, transactionVersion, rawTx
    rawTxLength := UInt32.ofNat data.length }

/-- A further chunk. -/
def TransactionContext.more (tx : TransactionContext) (buffer : List UInt8)
    (data : Slice) : Run StatusWord TransactionContext := do
  let offset := tx.rawTxLength
  let rawTxLength := tx.rawTxLength + UInt32.ofNat data.length
  Run.returnOn (rawTxLength.toNat > maxRawTx) .wrongDataLength
  let chunk ← load buffer data.pointer data.length
  let rawTx ← tx.rawTx.store offset.toNat chunk
  pure { tx with rawTx, rawTxLength }

/-- Parse the transaction and start its review. -/
def App.reviewTransaction (app : App) (tx : TransactionContext) :
    Run StatusWord TransactionContext := do
  let buffer ← load tx.rawTx.val (some 0) tx.rawTxLength.toNat
  let parsed ←
    Run.orErrorToSw (parseTx app.toDevice tx.transactionVersion buffer)
  app.ui.uiTransactionSigning parsed
  pure { tx with parsed }

/-- The first or a further chunk, as the first parameter says. -/
def TransactionContext.chunk (p1 : UInt8) (tx : TransactionContext)
    (buffer : List UInt8) (data : Slice) :
    Run StatusWord TransactionContext :=
  if p1 = p1First then tx.first buffer data else tx.more buffer data

/-- The end of a chunk: the review of the transaction after the last one. -/
def App.finishTransactionChunk (app : App) (p2 : UInt8)
    (req : app.layout.Memory) (tx : TransactionContext) :
    Run StatusWord (Handled app) :=
  if p2 = p2More then
    pure ⟨app.layout.tx.write req tx, .response []⟩
  else do
    let tx ← app.reviewTransaction tx
    pure ⟨app.layout.tx.write req tx, .review (.transaction tx)⟩

/-- The check of the parameters of all requests made of chunks. -/
def checkChunkParameters (p1 p2 : UInt8) : Run StatusWord Unit :=
  Run.returnOn ((p1 ≠ p1First ∧ p1 ≠ p1More) ∨ (p2 ≠ p2Last ∧ p2 ≠ p2More))
    .wrongP1P2

/-- `handle_sign_transaction`. -/
def App.handleSignTransaction (app : App) (p1 p2 : UInt8)
    (buffer : List UInt8) (data : Slice) (req : app.layout.Memory) :
    Run StatusWord (Handled app) := do
  checkChunkParameters p1 p2
  let tx ← (app.layout.tx.read req).chunk p1 buffer data
  app.finishTransactionChunk p2 req tx

/-- How `on_transaction_approved` ends early: with a status word, and with
the context as it is then. -/
structure Interruption where
  sw : StatusWord
  tx : TransactionContext

/-- A call of a cryptographic function in `on_transaction_approved`. -/
def TransactionContext.orInterrupt (tx : TransactionContext) :
    Option α → Run Interruption α
  | some value => pure value
  | none => Run.fail ⟨.cryptographyFail, tx⟩

/-- The transaction as it is signed. -/
def TransactionContext.signedBytes (tx : TransactionContext) :
    Run ε (List UInt8) :=
  load tx.rawTx.val (some 0) tx.rawTxLength.toNat

/-- Sign the transaction into the front of the APDU buffer. -/
def Sdk.signTransaction (sdk : Sdk) (privateKey : sdk.PrivateKey)
    (tx : TransactionContext) (buffer : ApduBuffer) :
    Run Interruption ApduBuffer := do
  let bytes ← tx.signedBytes
  let signature ← tx.orInterrupt (sdk.eddsaSign privateKey bytes)
  buffer.store 0 signature.val

/-- Sign as the staker, and write the signature and the public key into the
signature proof. -/
def Sdk.createStakerSignature (sdk : Sdk) (privateKey : sdk.PrivateKey)
    (proof : SignatureProof) (tx : TransactionContext)
    (buffer : ApduBuffer) :
    Run Interruption (TransactionContext × ApduBuffer) := do
  let buffer ← sdk.signTransaction privateKey tx buffer
  let signature ← load buffer.val (some 0) 64
  let rawTx ← tx.rawTx.storeThrough proof.signature signature
  let tx := { tx with rawTx }
  let publicKey ← tx.orInterrupt (sdk.generatePair privateKey)
  let buffer ← buffer.store sdk.temporaryCoordinates publicKey.val
  let W ← load buffer.val (some sdk.temporaryCoordinates) 65
  let rawTx ← tx.rawTx.storeThrough proof.publicKey (copyPublicKey W).val
  pure ({ tx with rawTx }, buffer)

/-- The signature proof the app is to fill in, if there is one. -/
def TransactionContext.emptyStakerProof (tx : TransactionContext) :
    Run ε (Option SignatureProof) :=
  if tx.parsed.transactionType = .stakingIncoming then do
    let staking ← tx.parsed.stakingIncomingTx
    if staking.hasValidatorOrStakerSignatureProof then do
      let isEmpty ← isEmptyDefaultSignatureProof tx.rawTx.val
        staking.validatorOrStakerSignatureProof
      pure (if isEmpty then some staking.validatorOrStakerSignatureProof
        else none)
    else pure none
  else pure none

/-- Both signatures of `on_transaction_approved`, when the proof of the
staker is filled in. -/
def Sdk.signAsStakerAndSender (sdk : Sdk) (privateKey : sdk.PrivateKey)
    (proof : SignatureProof) (tx : TransactionContext)
    (buffer : ApduBuffer) :
    Run Interruption (TransactionContext × List UInt8) := do
  let (tx, buffer) ← sdk.createStakerSignature privateKey proof tx buffer
  let buffer ← sdk.signTransaction privateKey tx buffer
  let stakerSignature ← load tx.rawTx.val proof.signature 64
  let buffer ← buffer.store 64 stakerSignature
  pure (tx, buffer.val.take 128)

/-- The signature of `on_transaction_approved` alone. -/
def Sdk.signAsSender (sdk : Sdk) (privateKey : sdk.PrivateKey)
    (tx : TransactionContext) (buffer : ApduBuffer) :
    Run Interruption (TransactionContext × List UInt8) := do
  let buffer ← sdk.signTransaction privateKey tx buffer
  pure (tx, buffer.val.take 64)

/-- `on_transaction_approved` up to its label `end`. -/
def Sdk.signApprovedTransaction (sdk : Sdk) (tx : TransactionContext)
    (buffer : ApduBuffer) :
    Run Interruption (TransactionContext × List UInt8) := do
  let privateKey ← tx.orInterrupt (sdk.derivePrivateKey tx.bip32Path)
  let proof ← tx.emptyStakerProof
  match proof with
  | some proof => sdk.signAsStakerAndSender privateKey proof tx buffer
  | none => sdk.signAsSender privateKey tx buffer

/-- `on_transaction_approved`, with the context it leaves behind and its
reply. -/
def Sdk.onTransactionApproved (sdk : Sdk) (tx : TransactionContext)
    (buffer : ApduBuffer) : Run Empty (TransactionContext × Reply) :=
  match sdk.signApprovedTransaction tx buffer with
  | .ok (tx, data) => pure (tx, ioFinalizeAsyncReply data .ok)
  | .error (.error interruption) =>
      pure (interruption.tx, ioFinalizeAsyncReply [] interruption.sw)
  | .error (.fault reason) => Run.fault reason

/-- The bytes that are signed are in the front of the buffer. -/
theorem TransactionContext.signedBytes_eq_ok
    {tx : TransactionContext} :
    (tx.signedBytes : Run ε _) = .ok bytes ↔
      tx.rawTxLength.toNat = bytes.length ∧
        ∃ rest, tx.rawTx.val = bytes ++ rest := by
  unfold TransactionContext.signedBytes
  constructor
  · intro loaded
    by_cases within : tx.rawTxLength.toNat ≤ tx.rawTx.val.length
    · rw [load_front within] at loaded
      cases loaded
      exact ⟨(List.length_take_of_le within).symm, _,
        (List.take_append_drop _ _).symm⟩
    · unfold load at loaded
      rw [if_neg (by omega)] at loaded
      simp only [Nat.zero_add] at loaded
      rw [if_neg within] at loaded
      cases loaded
  · rintro ⟨length, rest, rawTx⟩
    rw [length, rawTx, load_front (by simp), List.take_left]

/-- The signed bytes do not depend on how errors are returned. -/
theorem TransactionContext.signedBytes_congr
    {tx : TransactionContext}
    (loaded : (tx.signedBytes : Run ε _) = .ok bytes) :
    (tx.signedBytes : Run δ _) = .ok bytes :=
  signedBytes_eq_ok.mpr (signedBytes_eq_ok.mp loaded)

/-- The context of a transaction that was parsed for its review. -/
structure TransactionContext.Reviewed (device : Device)
    (tx : TransactionContext) (bytes : List UInt8) : Prop where
  signedBytes : (tx.signedBytes : Run Empty _) = .ok bytes
  parsed : parseTx device tx.transactionVersion bytes = .ok tx.parsed

/-- A review starts with the transaction that was parsed. -/
theorem App.reviewTransaction_reviewed
    {app : App}
    (result : app.reviewTransaction tx = .ok next) :
    next = { tx with parsed := next.parsed } ∧
      ∃ bytes, next.Reviewed app.toDevice bytes := by
  unfold App.reviewTransaction at result
  obtain ⟨bytes, loaded, result⟩ := Run.bind_eq_ok.mp result
  obtain ⟨parsed, parse, result⟩ := Run.bind_eq_ok.mp result
  obtain ⟨_, _, result⟩ := Run.bind_eq_ok.mp result
  cases result
  exact ⟨rfl, bytes, TransactionContext.signedBytes_congr loaded,
    Run.orErrorToSw_eq_ok.mp parse⟩

end NimiqApp
