import NimiqApp.ApprovalReplies
import NimiqApp.Continuity
import NimiqApp.Foundation.Refinement

/-!
# The protocol

What the app does for a client, without memory, buffers and offsets.  A
command asks for something, chunks are put together, the user decides on a
subject, and the reply is a matter of the keys and of the subject.
-/

namespace NimiqApp

/-- Decode the front of some bytes, in a memory of nothing else. -/
def decodeWith (read : List UInt8 → Slice → Run Unit (α × Slice))
    (bytes : List UInt8) : Option (α × List UInt8) :=
  match read bytes ⟨some 0, bytes.length⟩ with
  | .ok (value, next) => some (value, bytes.drop (bytes.length - next.length))
  | .error _ => none

/-- A reader decodes exactly the encodings of its values. -/
theorem Reads.decodeWith_eq_some
    {valid : α → Prop}
    {read : List UInt8 → Slice → Run Unit (α × Slice)}
    {encode : α → List UInt8}
    (reads : Reads valid read encode) :
    decodeWith read bytes = some (value, rest) ↔
      valid value ∧ bytes = encode value ++ rest := by
  have covers := Covers.whole bytes
  unfold decodeWith
  constructor
  · intro decoded
    split at decoded
    · rename_i other next result
      cases decoded
      obtain ⟨behind, isValid, bytesEq, _, atEnd⟩ :=
        reads.inversion covers result
      refine ⟨isValid, ?_⟩
      have size := atEnd.length_eq
      have total := congrArg List.length bytesEq
      rw [List.length_append] at total
      have place : bytes.length - next.length = (encode value).length := by
        omega
      rw [place]
      conv_rhs => rw [bytesEq, List.drop_left]
      exact bytesEq
    · cases decoded
  · rintro ⟨isValid, rfl⟩
    rw [reads.accept isValid covers]
    have place : (encode value ++ rest).length - rest.length =
        (encode value).length := by
      rw [List.length_append]
      omega
    simp only [Slice.advance_length]
    rw [List.length_append, Nat.add_sub_cancel_left, ← List.length_append,
      place, List.drop_left]

/-- A path and what is behind it. -/
def decodePath : List UInt8 → Option (List UInt32 × List UInt8) :=
  decodeWith readBip32Path

theorem decodePath_eq_some :
    decodePath bytes = some (path, rest) ↔
      ValidPath path ∧ bytes = bip32PathBytes path ++ rest :=
  readBip32Path_reads.decodeWith_eq_some

/-- The data of a transaction. -/
def decodeTransaction (sent : List UInt8) :
    Option (List UInt32 × UInt8 × List UInt8) :=
  match decodePath sent with
  | some (path, version :: bytes) => some (path, version, bytes)
  | _ => none

/-- The data of a message. -/
def decodeMessage (sent : List UInt8) :
    Option (List UInt32 × UInt8 × UInt32 × List UInt8) :=
  match decodePath sent with
  | some (path, flags :: rest) =>
      match decodeWith readU32 rest with
      | some (messageLength, message) =>
          some (path, flags, messageLength, message)
      | none => none
  | _ => none

theorem decodeTransaction_eq_some :
    decodeTransaction sent = some (path, version, bytes) ↔
      CarriesTransaction path version bytes sent := by
  unfold decodeTransaction
  constructor
  · intro decoded
    split at decoded
    · rename_i found
      cases decoded
      obtain ⟨validPath, sentEq⟩ := decodePath_eq_some.mp found
      exact ⟨validPath, sentEq⟩
    · cases decoded
  · rintro ⟨validPath, sentEq⟩
    rw [decodePath_eq_some.mpr ⟨validPath, sentEq⟩]

theorem decodeMessage_eq_some :
    decodeMessage sent = some (path, flags, messageLength, message) ↔
      CarriesMessage path flags messageLength message sent := by
  unfold decodeMessage
  constructor
  · intro decoded
    split at decoded
    · rename_i found
      obtain ⟨validPath, rfl⟩ := decodePath_eq_some.mp found
      split at decoded
      · rename_i foundLength
        obtain ⟨_, rfl⟩ := readU32_reads.decodeWith_eq_some.mp foundLength
        cases decoded
        exact ⟨validPath, rfl⟩
      · cases decoded
    · cases decoded
  · rintro ⟨validPath, sentEq⟩
    rw [decodePath_eq_some.mpr ⟨validPath, sentEq⟩]
    simp only
    rw [readU32_reads.decodeWith_eq_some.mpr ⟨trivial, rfl⟩]

/-- What is sent in chunks. -/
inductive Kind
  | transaction
  | message
  deriving DecidableEq, Repr

/-- The instruction for chunks of a kind. -/
def Kind.ins : Kind → UInt8
  | transaction => insSignTx
  | message => insSignMessage

/-- What a command asks for: a public key, with or without a signature of a
message and the consent of the user, a chunk to be collected, or more time. -/
inductive Request
  | publicKey (path : List UInt32) (message : Option (List UInt8))
      (confirm : Bool)
  | chunk (kind : Kind) (isFirst isLast : Bool) (part : List UInt8)
  | keepAlive

/-- A request for a public key. -/
def publicKeyRequest (p1 p2 : UInt8) (bytes : List UInt8) :
    Run StatusWord Request := do
  Run.returnOn ((p1 ≠ p1Signature ∧ p1 ≠ p1NoSignature) ∨
    (p2 ≠ p2Confirm ∧ p2 ≠ p2NoConfirm)) .wrongP1P2
  match decodePath bytes with
  | none => Run.fail .wrongDataLength
  | some (path, message) =>
      if p1 = p1Signature then do
        Run.returnOn (message.length > 31) .incorrectData
        -- There is no pointer to an empty message.
        if message = [] then Run.fault .nullPointer
        else do
          Run.returnOn (¬dummyDataPrefix <+: message) .incorrectData
          pure (.publicKey path (some message) (p2 = p2Confirm))
      else do
        Run.returnOn (message ≠ []) .wrongDataLength
        pure (.publicKey path none (p2 = p2Confirm))

/-- A request with a chunk. -/
def chunkRequest (kind : Kind) (p1 p2 : UInt8) (part : List UInt8) :
    Run StatusWord Request := do
  checkChunkParameters p1 p2
  pure (.chunk kind (p1 = p1First) (p2 = p2Last) part)

/-- The data of a command. -/
def Command.carried (command : Command) : List UInt8 :=
  (command.buffer.val.drop offsetCdata).take
    (command.byte offsetLc).toNat

/-- What a command asks for. -/
def Command.request (command : Command) : Run StatusWord Request := do
  Run.returnOn (¬command.WellFormed) .wrongDataLength
  Run.returnOn (command.byte offsetCla ≠ cla) .claNotSupported
  let ins := command.byte offsetIns
  let p1 := command.byte offsetP1
  let p2 := command.byte offsetP2
  if ins = insGetPublicKey then publicKeyRequest p1 p2 command.carried
  else if ins = insSignTx then
    chunkRequest .transaction p1 p2 command.carried
  else if ins = insSignMessage then
    chunkRequest .message p1 p2 command.carried
  else if ins = insKeepAlive then pure .keepAlive
  else Run.fail .insNotSupported

/-- What the user decides on. -/
inductive Subject
  | publicKey (path : List UInt32) (message : Option (List UInt8))
  | transaction (path : List UInt32) (version : UInt8) (bytes : List UInt8)
  | message (path : List UInt32) (flags : UInt8) (message : List UInt8)

/-- The public key at a path, followed by the signature of a message. -/
def Sdk.publicKeyReply (sdk : Sdk) (path : List UInt32)
    (message : Option (List UInt8)) : Option (List UInt8) := do
  let privateKey ← sdk.derivePrivateKey path
  let publicKey ← sdk.generatePair privateKey
  match message with
  | none => some (copyPublicKey publicKey.val).val
  | some message => do
      let signature ← sdk.eddsaSign privateKey message
      some ((copyPublicKey publicKey.val).val ++ signature.val)

/-- The offset of the proof that a transaction leaves to the app. -/
def leftProof (parsed : ParsedTx) (bytes : List UInt8) : Option Nat :=
  match parsed.typeSpecific with
  | .stakingIncomingTx staking =>
      match staking.validatorOrStakerSignatureProof.publicKey with
      | some (offset + 1) =>
          if parsed.transactionType = .stakingIncoming ∧
              staking.hasValidatorOrStakerSignatureProof = true ∧
              staking.validatorOrStakerSignatureProof =
                SignatureProof.atOffset offset ∧
              (bytes.drop (offset + 1)).take 32 = zeroBytes 32 ∧
              (bytes.drop (offset + 34)).take 64 = zeroBytes 64 then
            some offset
          else none
      | _ => none
  | _ => none

/-- The proof of a transaction that is found is the one that is left. -/
theorem leftProof_left (parsed : ParsedTx) (bytes : List UInt8) :
    LeftProof parsed bytes (leftProof parsed bytes) := by
  intro offset
  unfold leftProof
  constructor
  · intro found
    split at found
    · rename_i staking isStaking
      split at found
      · split at found
        · rename_i holds
          cases found
          exact ⟨holds.1, ⟨staking, isStaking, holds.2.1, holds.2.2.1⟩,
            holds.2.2.2.1, holds.2.2.2.2⟩
        · cases found
      · cases found
    · cases found
  · rintro ⟨isStaking, ⟨staking, parsedAs, hasProof, proofAt⟩, zeroKey,
      zeroSignature⟩
    rw [parsedAs]
    simp only
    have pointer : staking.validatorOrStakerSignatureProof.publicKey =
        some (offset + 1) := by
      rw [proofAt]
      rfl
    rw [pointer]
    simp only
    rw [if_pos ⟨isStaking, hasProof, proofAt, zeroKey, zeroSignature⟩]

/-- The reply when the user approves a subject. -/
def Subject.reply (app : App) (sha256 : List UInt8 → Bytes 32) :
    Subject → Reply
  | .publicKey path signs => Reply.signed (app.publicKeyReply path signs)
  | .transaction path version bytes =>
      match parseTx app.toDevice version bytes with
      | .ok parsed => Reply.signed
          (app.transactionSignatures path bytes (leftProof parsed bytes))
      | .error _ => Reply.signed none
  | .message path _ text =>
      Reply.signed (app.messageSignature path (sha256 (signedMessage text)))

/-- What the data of some chunks leads to: nothing as long as more of it is
expected, or a subject. -/
def App.collect (app : App) (isLast : Bool) (sent : List UInt8) :
    Kind → Run StatusWord (Option Subject)
  | .transaction =>
      match decodeTransaction sent with
      | none => Run.fail .wrongDataLength
      | some (path, version, bytes) => do
          Run.returnOn (bytes.length > maxRawTx) .wrongDataLength
          if isLast then do
            let _ ← app.parseForReview version bytes
            pure (some (.transaction path version bytes))
          else pure none
  | .message =>
      match decodeMessage sent with
      | none => Run.fail .wrongDataLength
      | some (path, flags, messageLength, message) => do
          Run.returnOn (message.length > messageLength.toNat) .wrongDataLength
          if isLast then do
            Run.returnOn (message.length ≠ messageLength.toNat)
              .wrongDataLength
            pure (some (.message path flags message))
          else pure none

/-- What the app keeps of its past. -/
structure Session where
  /-- The data of the chunks that are continued by further ones. -/
  collecting : Option (Kind × List UInt8)
  /-- What the user is to decide on. -/
  subject : Option Subject
  /-- A command waits for its reply. -/
  unanswered : Bool
  /-- The time to the next heartbeat, in milliseconds. -/
  timer : UInt16

/-- What an event leads to outside of the session. -/
structure Effect where
  reply : Option Reply
  launched : Option Subject

namespace Session

variable (app : App) (sha256 : List UInt8 → Bytes 32)

/-- Nothing has happened. -/
def start : Session where
  collecting := none
  subject := none
  unanswered := false
  timer := 0

/-- A request was accepted: another chunk may follow, the reply is there, or
the user is asked. -/
def accept (session : Session) (collecting : Option (Kind × List UInt8))
    (effect : Effect) : Session × Effect :=
  ({ session with
    collecting
    subject := effect.launched.or session.subject
    unanswered := effect.reply.isNone
    timer := u2fRequestTimeout }, effect)

/-- The data up to a chunk.  A further chunk continues those before it. -/
def upTo (session : Session) (kind : Kind) (isFirst : Bool)
    (part : List UInt8) : Run StatusWord (List UInt8) :=
  if isFirst then pure part
  else
    match session.collecting with
    | some (before, sent) =>
        if before = kind then pure (sent ++ part)
        else Run.fail .wrongDataLength
    | none => Run.fail .wrongDataLength

/-- What a request leads to. -/
def handle (session : Session) : Request → Run StatusWord (Session × Effect)
  | .publicKey path message confirm =>
      match app.publicKeyReply path message with
      | none => Run.fail .cryptographyFail
      | some data =>
          if confirm then
            match app.address (data.take 32) with
            | none => Run.fail .cryptographyFail
            | some _ => pure (session.accept none
                ⟨none, some (.publicKey path message)⟩)
          else pure (session.accept none ⟨some ⟨data, .ok⟩, none⟩)
  | .chunk kind isFirst isLast part => do
      let sent ← session.upTo kind isFirst part
      match ← app.collect isLast sent kind with
      | none => pure (session.accept (some (kind, sent))
          ⟨some ⟨[], .ok⟩, none⟩)
      | some subject => pure (session.accept none ⟨none, some subject⟩)
  | .keepAlive => pure (session.accept none ⟨none, none⟩)

/-- A command, also one that is refused. -/
def receive (session : Session) (command : Command) :
    Run Empty (Session × Effect) :=
  match command.request >>= session.handle app with
  | .ok handled => pure handled
  | .error (.error sw) =>
      pure ({ session with
        collecting := none
        unanswered := false
        timer := 0 }, ⟨some ⟨[], sw⟩, none⟩)
  | .error (.fault reason) => Run.fault reason

/-- The user has decided. -/
def decide (session : Session) (reply : Reply) : Session × Effect :=
  ({ session with
    subject := none
    unanswered := false }, ⟨some reply, none⟩)

/-- The reaction to an event.  Steps of a review are not seen here. -/
def step (session : Session) : Event → Option (Session × Effect)
  | .command command =>
      if session.unanswered then none
      else (session.receive app command).toOption
  | .ticker isU2f =>
      let (ctx, reply) := tickerEvent isU2f ⟨(), session.timer⟩
      some ({ session with
        timer := ctx.u2fTimer
        unanswered := session.unanswered && reply.isNone }, ⟨reply, none⟩)
  | .approve => do
      let subject ← session.subject
      pure (session.decide (subject.reply app sha256))
  | .reject => do
      let _ ← session.subject
      pure (session.decide onRejected)
  | .messageStep _ => none
  | .restart => some (start, ⟨none, none⟩)

end Session

/-- The protocol as a system. -/
def App.protocol (app : App) (sha256 : List UInt8 → Bytes 32) :
    Foundation.System Session Event Effect where
  start := Session.start
  step := Session.step app sha256

end NimiqApp
