import NimiqApp.Requests

/-!
# Requesting a public key

`handle_get_public_key` returns a public key, confirmed by the user or not,
and a signature of a verification message with it.  That message is signed
without being shown, so it has to be one that means nothing.
-/

namespace NimiqApp

/-- What a verification message has to start with. -/
def dummyDataPrefix : CString := ascii "dummy-data:"

/-- The verification message, if a signature is asked for.  The prefix is
compared before the length of the message is known to suffice. -/
def readVerificationMessage (buffer : List UInt8) (returnSignature : Bool)
    (data : Slice) : Run StatusWord (Slice × Slice) :=
  if returnSignature then do
    Run.returnOn (data.length > 31) .incorrectData
    let msgLength := data.length
    let (msg, data) ←
      Run.orReturn .wrongDataLength (readSubBuffer data.length data)
    let front ← load buffer msg dummyDataPrefix.length
    Run.returnOn (front ≠ dummyDataPrefix) .incorrectData
    pure (⟨msg, msgLength⟩, data)
  else pure (⟨none, 0⟩, data)

/-- The signature of the verification message, if there is one. -/
def Sdk.signVerificationMessage (sdk : Sdk) (buffer : List UInt8)
    (privateKey : sdk.PrivateKey) (returnSignature : Bool) (msg : Slice)
    (signature : Bytes 64) : Run StatusWord (Bytes 64) :=
  if returnSignature ∧ msg.pointer ≠ none then do
    let message ← load buffer msg.pointer msg.length
    cryptography (sdk.eddsaSign privateKey message)
  else pure signature

/-- `set_result_get_public_key`. -/
def setResultGetPublicKey (destinationLength : Nat) (pk : PublicKeyContext) :
    Run ErrorCode (List UInt8) := do
  let signature := if pk.returnSignature then pk.signature.val else []
  Run.returnOn
    (destinationLength < 32 + if pk.returnSignature then 64 else 0)
    .invalidLength
  pure ((copyPublicKey pk.publicKey.val).val ++ signature)

/-- `ui_public_key`.  The NBGL build breaks the address into lines. -/
def UserInterface.uiPublicKey (pk : PublicKeyContext) :
    UserInterface → PublicKeyContext
  | bagl => pk
  | nbgl =>
      { pk with address := (pk.address.set 14 10).set 29 10 }

/-- The answer to the request: a review of the address, or the key. -/
def App.answerGetPublicKey (app : App) (p2 : UInt8) (pk : PublicKeyContext) :
    Run StatusWord (PublicKeyContext × Answer app.layout.Shared) :=
  if p2 &&& p2Confirm ≠ 0 then do
    let address ← Run.orErrorToSw (printPublicKeyAsAddress app.toDevice
      (copyPublicKey pk.publicKey.val).val)
    let pk := app.ui.uiPublicKey { pk with address }
    pure (pk, .review (.publicKey pk))
  else do
    let response ← Run.orErrorToSw (setResultGetPublicKey 260 pk)
    pure (pk, .response response)

/-- `handle_get_public_key`. -/
def App.handleGetPublicKey (app : App) (p1 p2 : UInt8) (buffer : List UInt8)
    (data : Slice) (req : app.layout.Memory) :
    Run StatusWord (Handled app) := do
  Run.returnOn ((p1 ≠ p1Signature ∧ p1 ≠ p1NoSignature) ∨
    (p2 ≠ p2Confirm ∧ p2 ≠ p2NoConfirm)) .wrongP1P2
  let returnSignature := decide (p1 = p1Signature)
  let (bip32Path, data) ←
    Run.orReturn .wrongDataLength (readBip32Path buffer data)
  let (msg, data) ← readVerificationMessage buffer returnSignature data
  Run.returnOn (data.length ≠ 0) .wrongDataLength
  let privateKey ← cryptography (app.derivePrivateKey bip32Path)
  let publicKey ← cryptography (app.generatePair privateKey)
  let pk := app.layout.pk.read req
  let signature ← app.signVerificationMessage buffer privateKey
    returnSignature msg pk.signature
  let (pk, answer) ← app.answerGetPublicKey p2
    { pk with publicKey, signature, returnSignature }
  pure ⟨app.layout.pk.write req pk, answer⟩

/-- `on_address_approved`. -/
def onAddressApproved (pk : PublicKeyContext) : Run Empty Reply :=
  match Run.orErrorToSw (setResultGetPublicKey 260 pk) with
  | .ok data => pure (ioFinalizeAsyncReply data .ok)
  | .error (.error sw) => pure (ioFinalizeAsyncReply [] sw)
  | .error (.fault reason) => Run.fault reason

/-- There is room for the key and its signature. -/
theorem setResultGetPublicKey_eq (pk : PublicKeyContext) :
    setResultGetPublicKey 260 pk =
      .ok ((copyPublicKey pk.publicKey.val).val ++
        if pk.returnSignature then pk.signature.val else []) := by
  unfold setResultGetPublicKey
  simp only
  rw [Run.returnOn_of_not (by split <;> omega), Run.bind_ok]
  rfl

/-- An approved key is returned with its signature. -/
theorem onAddressApproved_eq (pk : PublicKeyContext) :
    onAddressApproved pk =
      .ok ⟨(copyPublicKey pk.publicKey.val).val ++
        if pk.returnSignature then pk.signature.val else [], .ok⟩ := by
  unfold onAddressApproved
  rw [setResultGetPublicKey_eq]
  change (.ok (ioFinalizeAsyncReply _ _) : Run Empty Reply) = _
  rw [ioFinalizeAsyncReply_ok]
  rw [List.length_append, (copyPublicKey pk.publicKey.val).property]
  cases pk.returnSignature with
  | false => simp
  | true => simp [pk.signature.property]

theorem printPublicKeyAsAddress_noFault
    (device : Device)
    (publicKey : List UInt8) :
    Run.NoFault
      (Run.orErrorToSw (printPublicKeyAsAddress device publicKey)) := by
  unfold printPublicKeyAsAddress publicKeyToAddress
  cases device.address publicKey with
  | none => exact Run.NoFault.error _
  | some address =>
      simp only [Run.pure_eq, Run.bind_ok, printAddress_eq address.property]
      exact Run.NoFault.ok _

theorem App.answerGetPublicKey_noFault
    (app : App)
    (p2 : UInt8)
    (pk : PublicKeyContext) :
    Run.NoFault (app.answerGetPublicKey p2 pk) := by
  unfold App.answerGetPublicKey
  split
  · apply Run.NoFault.bind (printPublicKeyAsAddress_noFault _ _)
    intro address _
    exact Run.NoFault.ok _
  · rw [setResultGetPublicKey_eq]
    exact Run.NoFault.ok _

/-- Answering only changes the address. -/
theorem App.answerGetPublicKey_frame
    {app : App}
    {answer : Answer app.layout.Shared}
    (result : app.answerGetPublicKey p2 pk = .ok (next, answer)) :
    ∃ address, next = { pk with address } := by
  unfold App.answerGetPublicKey at result
  split at result
  · obtain ⟨address, _, result⟩ := Run.bind_eq_ok.mp result
    cases result
    cases app.ui with
    | bagl => exact ⟨_, rfl⟩
    | nbgl => exact ⟨_, rfl⟩
  · obtain ⟨response, _, result⟩ := Run.bind_eq_ok.mp result
    cases result
    exact ⟨_, rfl⟩

/-- A message that may be signed without being shown. -/
def IsDummyData (message : List UInt8) : Prop :=
  dummyDataPrefix.length ≤ message.length ∧ message.length ≤ 31 ∧
    message.take dummyDataPrefix.length = dummyDataPrefix

instance (message : List UInt8) : Decidable (IsDummyData message) :=
  inferInstanceAs (Decidable (_ ∧ _ ∧ _))

section Reading

variable {buffer : List UInt8} {data : Slice} {message : List UInt8}

/-- A message that is long enough is read if it is dummy data. -/
theorem readVerificationMessage_eq
    (covers : Covers buffer data message)
    (long : dummyDataPrefix.length ≤ message.length) :
    ∃ msg next, Covers buffer msg message ∧ msg.length = message.length ∧
      msg.pointer ≠ none ∧ next.length = 0 ∧
      readVerificationMessage buffer true data =
        if IsDummyData message then .ok (msg, next)
        else .error (.error .incorrectData) := by
  have size := covers.length_eq
  have start : Covers buffer data (message ++ []) := by
    rwa [List.append_nil]
  obtain ⟨pointer, next, readMessage, messageCovers, rest⟩ :=
    start.readSubBuffer_accept size.symm
  have present : pointer ≠ none := by
    intro isNull
    have empty := messageCovers.null isNull
    rw [empty] at long
    exact absurd long (by decide)
  refine ⟨⟨pointer, data.length⟩, next, messageCovers, size, present,
    rest.length_eq, ?_⟩
  have front : (load buffer pointer dummyDataPrefix.length :
      Run StatusWord _) = .ok (message.take dummyDataPrefix.length) :=
    (messageCovers.front long).load_sub
  unfold readVerificationMessage
  rw [if_pos rfl]
  by_cases tooLong : message.length > 31
  · have noDummy : ¬IsDummyData message := by
      intro dummy
      exact absurd dummy.2.1 (by omega)
    rw [if_neg noDummy, Run.returnOn, if_pos (by omega)]
    rfl
  · rw [Run.returnOn_of_not (by omega), Run.bind_ok]
    simp only [readMessage, Run.orReturn_ok, Run.bind_ok, front]
    by_cases starts : message.take dummyDataPrefix.length = dummyDataPrefix
    · rw [if_pos ⟨long, by omega, starts⟩,
        Run.returnOn_of_not (by simpa using starts)]
      rfl
    · rw [if_neg (fun dummy => starts dummy.2.2), Run.returnOn,
        if_pos starts]
      rfl

/-- A message shorter than the prefix is compared with bytes behind it. -/
theorem readVerificationMessage_short
    (covers : Covers buffer data message)
    (atEnd : ∀ offset, data.pointer = some offset →
      offset + message.length = buffer.length)
    (short : message.length < dummyDataPrefix.length) :
    ∃ reason, readVerificationMessage buffer true data =
      .error (.fault reason) := by
  have size := covers.length_eq
  have prefixLength : dummyDataPrefix.length = 11 := by decide
  have start : Covers buffer data (message ++ []) := by
    rwa [List.append_nil]
  have readMessage := start.readSubBuffer_eq
  rw [← size] at readMessage
  unfold readVerificationMessage
  rw [if_pos rfl, Run.returnOn_of_not (by omega), Run.bind_ok]
  simp only [readMessage, Run.orReturn_ok, Run.bind_ok]
  unfold load
  rw [if_neg (by omega)]
  by_cases empty : data.length = 0
  · simp only [Slice.leading, empty, if_true]
    exact ⟨.nullPointer, rfl⟩
  · simp only [Slice.leading, empty, if_false]
    cases pointerEq : data.pointer with
    | none => exact ⟨.nullPointer, rfl⟩
    | some offset =>
        have last := atEnd offset pointerEq
        simp only
        rw [if_neg (by omega)]
        exact ⟨.outOfBounds, rfl⟩

end Reading

/-- Sign a message and answer with the key. -/
def App.signedPublicKey (app : App) (p2 : UInt8) (path : List UInt32)
    (message : List UInt8) (req : app.layout.Memory) :
    Run StatusWord (Handled app) := do
  let privateKey ← cryptography (app.derivePrivateKey path)
  let publicKey ← cryptography (app.generatePair privateKey)
  let signature ← cryptography (app.eddsaSign privateKey message)
  let (pk, answer) ← app.answerGetPublicKey p2
    { app.layout.pk.read req with
      publicKey, signature, returnSignature := true }
  pure ⟨app.layout.pk.write req pk, answer⟩

theorem App.signedPublicKey_noFault
    (app : App)
    (p2 : UInt8)
    (path : List UInt32)
    (message : List UInt8)
    (req : app.layout.Memory) :
    Run.NoFault (app.signedPublicKey p2 path message req) := by
  unfold App.signedPublicKey
  apply Run.NoFault.bind (Run.NoFault.cryptography _)
  intro privateKey _
  apply Run.NoFault.bind (Run.NoFault.cryptography _)
  intro publicKey _
  apply Run.NoFault.bind (Run.NoFault.cryptography _)
  intro signature _
  apply Run.NoFault.bind (app.answerGetPublicKey_noFault _ _)
  intro answered _
  exact Run.NoFault.ok _

/-- The signature is kept for the reply. -/
theorem App.signedPublicKey_inversion
    {app : App}
    {req : app.layout.Memory}
    {handled : Handled app}
    (result : app.signedPublicKey p2 path message req = .ok handled) :
    ∃ privateKey, app.derivePrivateKey path = some privateKey ∧
      app.eddsaSign privateKey message =
        some (app.layout.pk.read handled.req).signature := by
  unfold App.signedPublicKey at result
  obtain ⟨privateKey, derived, result⟩ := Run.bind_eq_ok.mp result
  obtain ⟨publicKey, _, result⟩ := Run.bind_eq_ok.mp result
  obtain ⟨signature, signed, result⟩ := Run.bind_eq_ok.mp result
  obtain ⟨⟨pk, answer⟩, answered, result⟩ := Run.bind_eq_ok.mp result
  obtain ⟨address, rfl⟩ := App.answerGetPublicKey_frame answered
  cases result
  refine ⟨privateKey, cryptography_eq_ok.mp derived, ?_⟩
  rw [app.layout.pk.read_write]
  exact cryptography_eq_ok.mp signed

/-- The second parameters that are accepted. -/
def ConfirmationParameter (p2 : UInt8) : Prop :=
  p2 = p2Confirm ∨ p2 = p2NoConfirm

/-- The check of the parameters. -/
theorem ConfirmationParameter.check (valid : ConfirmationParameter p2) :
    Run.returnOn ((p1Signature ≠ p1Signature ∧ p1Signature ≠ p1NoSignature) ∨
      (p2 ≠ p2Confirm ∧ p2 ≠ p2NoConfirm)) StatusWord.wrongP1P2 =
        .ok () := by
  apply Run.returnOn_of_not
  rintro (wrong | wrong)
  · exact wrong.1 rfl
  · exact not_or.mpr wrong valid

section Handling

variable (app : App) {buffer : List UInt8} {data : Slice} {p2 : UInt8}
  (req : app.layout.Memory)

/-- Other second parameters are refused. -/
theorem App.handleGetPublicKey_wrongP2
    (invalid : ¬ConfirmationParameter p2) :
    app.handleGetPublicKey p1Signature p2 buffer data req =
      .error (.error .wrongP1P2) := by
  unfold App.handleGetPublicKey
  rw [Run.returnOn, if_pos (Or.inr (not_or.mp invalid))]
  rfl

/-- A path that cannot be read is refused. -/
theorem App.handleGetPublicKey_noPath
    (covers : Covers buffer data bytes)
    (valid : ConfirmationParameter p2)
    (noPath : ∀ path rest, ValidPath path →
      bytes ≠ bip32PathBytes path ++ rest) :
    app.handleGetPublicKey p1Signature p2 buffer data req =
      .error (.error .wrongDataLength) := by
  unfold App.handleGetPublicKey
  rw [valid.check, Run.bind_ok, readBip32Path_reads.reject covers noPath]
  rfl

/-- A message of the length of the prefix at least is signed if it is dummy
data, and refused otherwise. -/
theorem App.handleGetPublicKey_message
    (covers : Covers buffer data (bip32PathBytes path ++ message))
    (valid : ConfirmationParameter p2)
    (validPath : ValidPath path)
    (long : dummyDataPrefix.length ≤ message.length) :
    app.handleGetPublicKey p1Signature p2 buffer data req =
      if IsDummyData message then app.signedPublicKey p2 path message req
      else .error (.error .incorrectData) := by
  obtain ⟨next, readPath, behind⟩ :=
    readBip32Path_reads.accept_next validPath covers
  obtain ⟨msg, last, msgCovers, size, present, nothing, readMessage⟩ :=
    readVerificationMessage_eq behind long
  unfold App.handleGetPublicKey
  rw [valid.check, Run.bind_ok, readPath]
  simp only [Run.orReturn_ok, Run.bind_ok, decide_true, readMessage]
  by_cases dummy : IsDummyData message
  · rw [if_pos dummy, if_pos dummy, Run.bind_ok]
    simp only
    rw [Run.returnOn_of_not (by rw [nothing]; decide), Run.bind_ok]
    have signed : ∀ privateKey signature,
        app.signVerificationMessage buffer privateKey true msg signature =
          cryptography (app.eddsaSign privateKey message) := by
      intro privateKey signature
      unfold Sdk.signVerificationMessage
      rw [if_pos ⟨rfl, present⟩, msgCovers.load_sub, Run.bind_ok]
    simp only [signed]
    rfl
  · rw [if_neg dummy, if_neg dummy]
    rfl

/-- A shorter message leads out of the data. -/
theorem App.handleGetPublicKey_short
    (covers : Covers buffer data (bip32PathBytes path ++ message))
    (valid : ConfirmationParameter p2)
    (validPath : ValidPath path)
    (atEnd : ∀ offset, data.pointer = some offset →
      offset + data.length = buffer.length)
    (short : message.length < dummyDataPrefix.length) :
    ∃ reason, app.handleGetPublicKey p1Signature p2 buffer data req =
      .error (.fault reason) := by
  have readPath := readBip32Path_reads.accept validPath covers
  have total := covers.length_eq
  rw [List.length_append] at total
  obtain ⟨reason, faults⟩ :=
    readVerificationMessage_short covers.advance (by
      intro offset atOffset
      obtain ⟨previous, previousEq, rfl⟩ :
          ∃ previous, data.pointer = some previous ∧
            previous + (bip32PathBytes path).length = offset := by
        simpa [Slice.advance] using atOffset
      have last := atEnd previous previousEq
      omega) short
  refine ⟨reason, ?_⟩
  unfold App.handleGetPublicKey
  rw [valid.check, Run.bind_ok, readPath]
  simp only [Run.orReturn_ok, Run.bind_ok, decide_true, faults]
  rfl

end Handling
end NimiqApp
