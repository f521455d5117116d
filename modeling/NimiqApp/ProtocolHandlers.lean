import NimiqApp.Crashes
import NimiqApp.Leftovers
import NimiqApp.Protocol

/-!
# The handlers and the protocol

Each handler does with the memory what the protocol says of its request: it
accepts what the protocol accepts, with the same reply or a review of the same
subject, and refuses the rest with the same status word.
-/

namespace NimiqApp

open Foundation (Agree)

/-- A review is one of a subject. -/
inductive Subject.ShownBy (app : App) (sha256 : List UInt8 → Bytes 32) :
    Subject → OpenReview app.layout.Shared → Prop
  | publicKey {path : List UInt32} {signs : Option (List UInt8)}
      {pk : PublicKeyContext}
      (reply : app.publicKeyReply path signs =
        some ((copyPublicKey pk.publicKey.val).val ++
          if pk.returnSignature then pk.signature.val else []))
      (shows : app.ShowsAddress pk) :
      ShownBy app sha256 (.publicKey path signs) (.publicKey pk)
  | transaction {path : List UInt32} {version : UInt8} {bytes : List UInt8}
      {tx : TransactionContext}
      (collected : tx.Collected path version bytes)
      (parse : parseTx app.toDevice version bytes = .ok tx.parsed) :
      ShownBy app sha256 (.transaction path version bytes) (.transaction tx)
  | message {path : List UInt32} {flags : UInt8} {text : List UInt8}
      {msg : MessageSigningContext app.layout.Shared}
      (presents : msg.Presents sha256 path flags text) :
      ShownBy app sha256 (.message path flags text) (.message msg)

/-- The memory holds the message whose chunks were sent, and both hashes have
absorbed it. -/
def App.AbsorbsSent (app : App)
    (absorbed : app.HashContext → List UInt8 → Prop) (sent : List UInt8)
    (req : app.layout.Memory) : Prop :=
  ∃ path flags messageLength message,
    CarriesMessage path flags messageLength message sent ∧
    message.length ≤ messageLength.toNat ∧
    app.Absorbs absorbed path flags messageLength message
      (app.layout.msg.read req)

/-- The memory holds the data of the chunks so far. -/
def App.HoldsCollected (app : App)
    (absorbed : app.HashContext → List UInt8 → Prop)
    (req : app.layout.Memory) : Option (Kind × List UInt8) → Prop
  | none => True
  | some (.transaction, sent) => app.HoldsTransaction sent req
  | some (.message, sent) => app.AbsorbsSent absorbed sent req

/-- A command was handled as the protocol accepts its request. -/
structure App.Accepts (app : App) (sha256 : List UInt8 → Bytes 32)
    (absorbed : app.HashContext → List UInt8 → Prop) (session : Session)
    (handled : Handled app) (result : Session × Effect) : Prop where
  accepted : result = session.accept result.1.collecting result.2
  reply : handled.answer.output.reply = result.2.reply
  launched : Option.Rel (Subject.ShownBy app sha256) result.2.launched
    handled.answer.output.launched
  alone : result.2.launched.isSome → result.1.collecting = none
  holds : app.HoldsCollected absorbed handled.req result.1.collecting

section Handlers

variable {app : App} {sha256 : List UInt8 → Bytes 32}
  {absorbed : app.HashContext → List UInt8 → Prop} {session : Session}
  {command : Command} {req : app.layout.Memory}

/-- Compute the key and the signature that are asked for. -/
def App.respond (app : App) (p2 : UInt8) (path : List UInt32)
    (message : Option (List UInt8)) (req : app.layout.Memory) :
    Run StatusWord (Handled app) := do
  let privateKey ← cryptography (app.derivePrivateKey path)
  let publicKey ← cryptography (app.generatePair privateKey)
  let pk := app.layout.pk.read req
  let signature ←
    match message with
    | none => pure pk.signature
    | some message => cryptography (app.eddsaSign privateKey message)
  let (pk, answer) ← app.answerGetPublicKey p2
    { pk with publicKey, signature, returnSignature := message.isSome }
  pure ⟨app.layout.pk.write req pk, answer⟩

/-- The confirmation of the address is asked for. -/
theorem ConfirmationParameter.confirms
    (valid : ConfirmationParameter p2) :
    p2 &&& p2Confirm ≠ 0 ↔ p2 = p2Confirm := by
  rcases valid with rfl | rfl <;> decide

/-- The review of a key shows its address, and leaves the rest. -/
theorem App.uiPublicKey_shows
    {pk : PublicKeyContext}
    {address : CString}
    (prints : printPublicKeyAsAddress app.toDevice
      (copyPublicKey pk.publicKey.val).val = .ok address) :
    ∃ shown, app.ShowsAddress (app.ui.uiPublicKey { pk with address }) ∧
      app.ui.uiPublicKey { pk with address } =
        { pk with address := shown } := by
  unfold App.ShowsAddress
  cases app.ui with
  | bagl => exact ⟨_, ⟨_, prints, rfl⟩, rfl⟩
  | nbgl => exact ⟨_, ⟨_, prints, rfl⟩, rfl⟩

/-- The answer is a review of the address, or the key. -/
theorem App.answerGetPublicKey_agrees
    (valid : ConfirmationParameter p2)
    (pk : PublicKeyContext)
    (reply : app.publicKeyReply path message =
      some ((copyPublicKey pk.publicKey.val).val ++
        if pk.returnSignature then pk.signature.val else [])) :
    Agree (app.Accepts sha256 absorbed session)
      (app.answerGetPublicKey p2 pk >>= fun answered =>
        pure ⟨app.layout.pk.write req answered.1, answered.2⟩)
      (session.handle app (.publicKey path message (p2 = p2Confirm))) := by
  have key : (((copyPublicKey pk.publicKey.val).val ++
      if pk.returnSignature then pk.signature.val else []).take 32) =
        (copyPublicKey pk.publicKey.val).val :=
    List.take_left' (copyPublicKey pk.publicKey.val).property
  unfold App.answerGetPublicKey
  simp only [Session.handle, reply, key, valid.confirms, decide_eq_true_eq]
  by_cases confirm : p2 = p2Confirm
  · rw [if_pos confirm, if_pos confirm]
    unfold printPublicKeyAsAddress publicKeyToAddress
    cases hashed : app.address (copyPublicKey pk.publicKey.val).val with
    | none => exact .stopped
    | some address =>
        have printed : printAddress app.pastTotalNumber address.val =
            .ok (userFriendlyAddress address.val) :=
          printAddress_eq address.property
        have prints : printPublicKeyAsAddress app.toDevice
            (copyPublicKey pk.publicKey.val).val =
              .ok (userFriendlyAddress address.val) := by
          unfold printPublicKeyAsAddress publicKeyToAddress
          rw [hashed]
          exact printed
        obtain ⟨shown, shows, sameKey⟩ :=
          app.uiPublicKey_shows prints
        simp only [Run.pure_eq, Run.bind_ok, printed]
        refine .returned ⟨rfl, rfl, .some (.publicKey ?_ shows),
          fun _ => rfl, trivial⟩
        rw [sameKey]
        exact reply
  · rw [if_neg confirm, if_neg confirm, setResultGetPublicKey_eq]
    exact .returned ⟨rfl, rfl, .none, (absurd · Bool.false_ne_true), trivial⟩

/-- The key is computed, and reviewed or returned. -/
theorem App.respond_agrees
    (valid : ConfirmationParameter p2)
    (path : List UInt32)
    (message : Option (List UInt8)) :
    Agree (app.Accepts sha256 absorbed session)
      (app.respond p2 path message req)
      (session.handle app (.publicKey path message (p2 = p2Confirm))) := by
  have fails : app.publicKeyReply path message = none →
      session.handle app (.publicKey path message (p2 = p2Confirm)) =
        .error (.error .cryptographyFail) := by
    intro noReply
    simp only [Session.handle, noReply]
    rfl
  unfold App.respond
  unfold Sdk.publicKeyReply at fails
  cases derived : app.derivePrivateKey path with
  | none =>
      rw [fails (by rw [derived]; rfl)]
      exact .stopped
  | some privateKey =>
      cases generated : app.generatePair privateKey with
      | none =>
          rw [fails (by rw [derived]; simp [generated])]
          simp only [cryptography_some, Run.bind_ok, generated]
          exact .stopped
      | some publicKey =>
          simp only [cryptography_some, Run.bind_ok, generated]
          cases message with
          | none =>
              refine App.answerGetPublicKey_agrees valid _ ?_
              unfold Sdk.publicKeyReply
              rw [derived, Option.bind_eq_bind, Option.bind_some, generated]
              exact congrArg some (List.append_nil _).symm
          | some message =>
              cases signs : app.eddsaSign privateKey message with
              | none =>
                  rw [fails (by rw [derived]; simp [generated, signs])]
                  simp only [signs]
                  exact .stopped
              | some signature =>
                  simp only [signs, cryptography_some, Run.bind_ok]
                  refine App.answerGetPublicKey_agrees valid _ ?_
                  unfold Sdk.publicKeyReply
                  rw [derived, Option.bind_eq_bind, Option.bind_some,
                    generated]
                  simp only [signs]
                  rfl

/-- Without a signature, the path is all that is read. -/
theorem App.handleGetPublicKey_unsigned
    (covers : Covers command.buffer.val command.data
      (bip32PathBytes path ++ rest))
    (validPath : ValidPath path)
    (valid : ConfirmationParameter p2) :
    app.handleGetPublicKey p1NoSignature p2 command.buffer.val command.data
        req =
      if rest = [] then app.respond p2 path none req
      else .error (.error .wrongDataLength) := by
  obtain ⟨next, readPath, behind⟩ :=
    readBip32Path_reads.accept_next validPath covers
  have size := behind.length_eq
  have checked : Run.returnOn ((p1NoSignature ≠ p1Signature ∧
      p1NoSignature ≠ p1NoSignature) ∨ (p2 ≠ p2Confirm ∧ p2 ≠ p2NoConfirm))
      StatusWord.wrongP1P2 = .ok () := by
    apply Run.returnOn_of_not
    rintro (wrong | wrong)
    · exact wrong.2 rfl
    · exact not_or.mpr wrong valid
  unfold App.handleGetPublicKey readVerificationMessage
    Sdk.signVerificationMessage
  rw [checked, Run.bind_ok, readPath]
  simp only [Run.orReturn_ok, Run.bind_ok]
  have noSignature : decide (p1NoSignature = p1Signature) = false := by decide
  simp only [noSignature, Bool.false_eq_true, if_false, false_and,
    Run.pure_eq, Run.bind_ok]
  by_cases empty : rest = []
  · subst empty
    rw [if_pos rfl, Run.returnOn_of_not (by rw [size]; exact not_not.mpr rfl)]
    rfl
  · rw [if_neg empty, Run.returnOn, if_pos (by
      rw [size]
      exact mt List.length_eq_zero_iff.mp empty)]
    rfl

/-- With a signature, the message behind the path decides. -/
theorem App.handleGetPublicKey_signed
    (carries : command.Carries insGetPublicKey p1Signature p2
      (bip32PathBytes path ++ message))
    (validPath : ValidPath path)
    (valid : ConfirmationParameter p2)
    (decided : ¬StartsPrefix message) :
    app.handleGetPublicKey p1Signature p2 command.buffer.val command.data
        req =
      if message = [] then .error (.fault .nullPointer)
      else if message.length ≤ 31 ∧ dummyDataPrefix <+: message then
        app.respond p2 path (some message) req
      else .error (.error .incorrectData) := by
  have covers := carries.covers
  by_cases long : dummyDataPrefix.length ≤ message.length
  · have nonempty : message ≠ [] := by
      rintro rfl
      exact absurd long (by decide)
    rw [app.handleGetPublicKey_message req covers valid validPath long,
      if_neg nonempty]
    have dummy : IsDummyData message ↔
        message.length ≤ 31 ∧ dummyDataPrefix <+: message := by
      unfold IsDummyData
      rw [List.prefix_iff_eq_take]
      exact ⟨fun holds => ⟨holds.2.1, holds.2.2.symm⟩,
        fun holds => ⟨long, holds.1, holds.2.symm⟩⟩
    simp only [dummy]
    rfl
  · have readPath := readBip32Path_reads.accept validPath covers
    have behind := covers.advance
    have other : ¬dummyDataPrefix <+: message :=
      fun isPrefix => long isPrefix.length_le
    unfold App.handleGetPublicKey
    rw [valid.check, Run.bind_ok, readPath]
    simp only [Run.orReturn_ok, Run.bind_ok, decide_true]
    by_cases empty : message = []
    · subst empty
      rw [if_pos rfl, readVerificationMessage_nothing behind]
      rfl
    · have short := Nat.lt_of_not_le long
      have notPrefix : ¬message <+: dummyDataPrefix :=
        fun isPrefix => decided ⟨empty, short, isPrefix⟩
      obtain ⟨offset, atOffset⟩ : ∃ offset,
          (command.data.advance (bip32PathBytes path).length).pointer =
            some offset := ⟨_, rfl⟩
      rw [readVerificationMessage_other behind empty short notPrefix atOffset,
        if_pos (validPath.room command offset atOffset), if_neg empty,
        if_neg (fun holds => other holds.2)]
      rfl

/-- Requests for public keys. -/
theorem App.handleGetPublicKey_agrees
    (carries : command.Carries insGetPublicKey p1 p2 bytes)
    (bounded : ¬command.ReadsBehind) :
    Agree (app.Accepts sha256 absorbed session)
      (app.handleGetPublicKey p1 p2 command.buffer.val command.data req)
      (publicKeyRequest p1 p2 bytes >>= session.handle app) := by
  by_cases checked : (p1 ≠ p1Signature ∧ p1 ≠ p1NoSignature) ∨
      (p2 ≠ p2Confirm ∧ p2 ≠ p2NoConfirm)
  · unfold App.handleGetPublicKey publicKeyRequest
    rw [Run.returnOn, if_pos checked]
    exact .stopped
  · have valid : ConfirmationParameter p2 := by
      unfold ConfirmationParameter
      tauto
    have covers := carries.covers
    unfold publicKeyRequest
    rw [Run.returnOn_of_not checked, Run.bind_ok]
    cases decoded : decodePath bytes with
    | none =>
        have noPath : readBip32Path command.buffer.val command.data =
            .error (.error ()) := by
          apply readBip32Path_reads.reject covers
          intro path rest validPath bytesEq
          rw [decodePath_eq_some.mpr ⟨validPath, bytesEq⟩] at decoded
          cases decoded
        unfold App.handleGetPublicKey
        rw [Run.returnOn_of_not checked, Run.bind_ok, noPath]
        exact .stopped
    | some found =>
        obtain ⟨path, message⟩ := found
        obtain ⟨validPath, rfl⟩ := decodePath_eq_some.mp decoded
        simp only
        by_cases withSignature : p1 = p1Signature
        · subst withSignature
          rw [if_pos rfl]
          have decides : ¬StartsPrefix message := fun starts =>
            bounded ⟨p2, path, message, valid, validPath, carries, starts⟩
          rw [App.handleGetPublicKey_signed carries validPath valid decides]
          by_cases empty : message = []
          · subst empty
            exact .stopped
          · rw [if_neg empty, if_neg empty]
            by_cases long : message.length > 31
            · rw [if_neg (fun holds => absurd holds.1 (Nat.not_le.mpr long)),
                Run.returnOn, if_pos long]
              exact .stopped
            · rw [Run.returnOn_of_not long, Run.bind_ok]
              by_cases isDummy : dummyDataPrefix <+: message
              · rw [if_pos ⟨Nat.le_of_not_gt long, isDummy⟩,
                  Run.returnOn_of_not (not_not.mpr isDummy), Run.bind_ok]
                exact App.respond_agrees valid path (some message)
              · rw [if_neg (fun holds => isDummy holds.2), Run.returnOn,
                  if_pos isDummy]
                exact .stopped
        · have without : p1 = p1NoSignature := by tauto
          subst without
          rw [if_neg withSignature,
            App.handleGetPublicKey_unsigned covers validPath valid]
          by_cases empty : message = []
          · rw [if_pos empty, Run.returnOn_of_not (not_not.mpr empty),
              Run.bind_ok]
            exact App.respond_agrees valid path none
          · rw [if_neg empty, Run.returnOn, if_pos empty]
            exact .stopped

/-! ## Transactions -/

/-- A first chunk without a path and a version, or with too many bytes. -/
theorem TransactionContext.first_refused
    (covers : Covers buffer data part)
    (long : ∀ path version bytes, CarriesTransaction path version bytes part →
      maxRawTx < bytes.length)
    (tx : TransactionContext) :
    tx.first buffer data = .error (.error .wrongDataLength) := by
  cases decoded : decodePath part with
  | none =>
      have noPath : readBip32Path buffer data = .error (.error ()) := by
        apply readBip32Path_reads.reject covers
        intro path rest validPath partEq
        rw [decodePath_eq_some.mpr ⟨validPath, partEq⟩] at decoded
        cases decoded
      unfold TransactionContext.first
      rw [noPath]
      rfl
  | some found =>
      obtain ⟨path, rest⟩ := found
      obtain ⟨validPath, rfl⟩ := decodePath_eq_some.mp decoded
      cases rest with
      | nil =>
          obtain ⟨next, readPath, behind⟩ :=
            readBip32Path_reads.accept_next validPath covers
          have noVersion : readU8 buffer next = .error (.error ()) :=
            readU8_reads.reject behind nofun
          unfold TransactionContext.first
          rw [readPath, Run.orReturn_ok, Run.bind_ok]
          simp only
          rw [noVersion]
          rfl
      | cons version bytes =>
          exact tx.first_refuses validPath covers
            (long path version bytes ⟨validPath, rfl⟩)

/-- A chunk is refused unless its data, with what was sent before, is that of
a transaction that fits. -/
theorem Follows.transactionChunk_refused
    (follows : Follows (app.HoldsTransaction · req) p1 sent)
    (carries : command.Carries insSignTx p1 p2 part)
    (long : ∀ path version bytes,
      CarriesTransaction path version bytes (sent ++ part) →
        maxRawTx < bytes.length) :
    (app.layout.tx.read req).chunk p1 command.buffer.val command.data =
      .error (.error .wrongDataLength) := by
  rcases follows with
    ⟨rfl, rfl⟩ | ⟨rfl, path, version, bytes, carried, collected⟩
  · exact TransactionContext.first_refused carries.covers long _
  · exact collected.more_refuses carries.covers carries.header.1
      (long path version _ (carried.append part))

/-- The data of a chunk and of those before it. -/
theorem Session.upTo_eq
    {kind : Kind}
    (part : List UInt8)
    (p1Cases : p1 = p1First ∨ p1 = p1More)
    (continues : p1 = p1More →
      ∃ sent, session.collecting = some (kind, sent)) :
    ∃ sent, session.upTo kind (p1 = p1First) part = .ok (sent ++ part) ∧
      Follows (fun sent => session.collecting = some (kind, sent)) p1 sent := by
  rcases p1Cases with rfl | rfl
  · exact ⟨[], rfl, Or.inl ⟨rfl, rfl⟩⟩
  · obtain ⟨sent, collecting⟩ := continues rfl
    refine ⟨sent, ?_, Or.inr ⟨rfl, collecting⟩⟩
    unfold Session.upTo
    rw [if_neg (by decide), collecting]
    exact if_pos rfl

/-- A transaction that is reviewed was parsed. -/
theorem App.parseForReview_parsed
    (app : App)
    (outcome : app.parseForReview version bytes = .ok parsed) :
    parseTx app.toDevice version bytes = .ok parsed := by
  unfold App.parseForReview at outcome
  obtain ⟨_, parse, outcome⟩ := Run.bind_eq_ok.mp outcome
  obtain ⟨_, _, outcome⟩ := Run.bind_eq_ok.mp outcome
  cases outcome
  exact Run.orErrorToSw_eq_ok.mp parse

/-- What was collected does not depend on what was parsed. -/
theorem TransactionContext.Collected.withParsed
    {tx : TransactionContext}
    (collected : tx.Collected path version bytes)
    (parsed : ParsedTx) :
    { tx with parsed }.Collected path version bytes :=
  ⟨collected.bip32Path, collected.transactionVersion, collected.rawTxLength,
    collected.rawTx⟩

/-- Chunks of transactions. -/
theorem App.handleSignTransaction_agrees
    (holds : app.HoldsCollected absorbed req session.collecting)
    (carries : command.Carries insSignTx p1 p2 part)
    (continues : p1 = p1More →
      ∃ sent, session.collecting = some (.transaction, sent)) :
    Agree (app.Accepts sha256 absorbed session)
      (app.handleSignTransaction p1 p2 command.buffer.val command.data req)
      (chunkRequest .transaction p1 p2 part >>= session.handle app) := by
  unfold App.handleSignTransaction chunkRequest
  rw [bind_assoc]
  refine .behind rfl ?_
  intro _ checked
  obtain ⟨p1Cases, p2Cases⟩ := checkChunkParameters_inversion checked
  obtain ⟨sent, upTo, follows⟩ := Session.upTo_eq part p1Cases continues
  have inMemory : Follows (app.HoldsTransaction · req) p1 sent := by
    refine Follows.mono follows fun before collecting => ?_
    rw [collecting] at holds
    exact holds
  rw [Run.pure_eq, Run.bind_ok]
  simp only [Session.handle, upTo, Run.bind_ok, App.collect]
  by_cases fits : ∃ path version bytes,
      CarriesTransaction path version bytes (sent ++ part) ∧
        bytes.length ≤ maxRawTx
  · obtain ⟨path, version, bytes, carried, short⟩ := fits
    obtain ⟨tx, chunk, collected⟩ :=
      inMemory.transactionChunk_accepted carries carried short
    rw [chunk, Run.bind_ok, decodeTransaction_eq_some.mpr carried]
    simp only
    rw [Run.returnOn_of_not (Nat.not_lt.mpr short), Run.bind_ok]
    rcases p2Cases with rfl | rfl
    · unfold App.finishTransactionChunk
      rw [if_neg (by decide), App.reviewTransaction_eq collected]
      simp only [decide_true, if_true]
      cases outcome : app.parseForReview version bytes with
      | error stop => exact .stopped
      | ok parsed =>
          have parse : parseTx app.toDevice version bytes = .ok parsed :=
            app.parseForReview_parsed outcome
          have shown : Subject.ShownBy app sha256
              (.transaction path version bytes)
              (.transaction { tx with parsed }) :=
            .transaction (collected.withParsed parsed) parse
          exact .returned ⟨rfl, rfl, .some shown, fun _ => rfl, trivial⟩
    · have isMore : decide (p2More = p2Last) = false := by decide
      simp only [isMore, Bool.false_eq_true, if_false, Run.pure_eq,
        Run.bind_ok]
      refine .returned ⟨rfl, rfl, .none, (absurd · Bool.false_ne_true), ?_⟩
      refine ⟨path, version, bytes, carried, ?_⟩
      rw [app.layout.tx.read_write]
      exact collected
  · have long : ∀ path version bytes,
        CarriesTransaction path version bytes (sent ++ part) →
          maxRawTx < bytes.length := by
      intro path version bytes carried
      by_contra short
      exact fits ⟨path, version, bytes, carried, Nat.le_of_not_gt short⟩
    rw [inMemory.transactionChunk_refused carries long]
    cases decoded : decodeTransaction (sent ++ part) with
    | none => exact .stopped
    | some found =>
        obtain ⟨path, version, bytes⟩ := found
        simp only
        rw [Run.returnOn, if_pos (long path version bytes
          (decodeTransaction_eq_some.mp decoded))]
        exact .stopped

/-! ## Messages -/

/-- The data of a message determines it. -/
theorem CarriesMessage.unique
    (carried : CarriesMessage path flags messageLength message sent)
    (other : CarriesMessage path' flags' messageLength' message' sent) :
    path = path' ∧ flags = flags' ∧ messageLength = messageLength' ∧
      message = message' := by
  have same := (decodeMessage_eq_some.mpr carried).symm.trans
    (decodeMessage_eq_some.mpr other)
  cases same
  exact ⟨rfl, rfl, rfl, rfl⟩

/-- A chunk within the length of the message is absorbed. -/
theorem Follows.messageChunk_absorbs
    (follows : Follows (app.AbsorbsSent absorbed · req) p1 sent)
    (streams : app.StreamsSha256 sha256 absorbed)
    (carries : command.Carries insSignMessage p1 p2 part)
    (carried : CarriesMessage path flags messageLength message (sent ++ part))
    (within : message.length ≤ messageLength.toNat) :
    ∃ msg, app.messageChunk p1 command.buffer.val command.data
        (app.layout.msg.read req) = .ok msg ∧
      app.Absorbs absorbed path flags messageLength message msg := by
  rcases follows with
    ⟨rfl, rfl⟩ | ⟨rfl, path', flags', length', before, earlier, _, absorbs⟩
  · obtain ⟨validPath, partEq⟩ := carried
    rw [List.nil_append] at partEq
    obtain ⟨started, rest, start, absorbs, behind⟩ := App.startMessage_eq
      (app.layout.msg.read req) streams validPath (partEq ▸ carries.covers)
    obtain ⟨next, processed, all⟩ :=
      absorbs.processMessage_eq streams behind within
    refine ⟨next, ?_, all⟩
    unfold App.messageChunk
    rw [if_pos rfl, start]
    exact processed
  · obtain ⟨rfl, rfl, rfl, rfl⟩ := carried.unique (earlier.append part)
    exact absorbs.processMessage_eq streams carries.covers within

/-- Bytes beyond the length of the message are refused. -/
theorem App.Absorbs.processMessage_refused
    (absorbs : app.Absorbs absorbed path flags messageLength bytes msg)
    (covers : Covers buffer data chunk)
    (bounded : bytes.length + chunk.length < 2 ^ 32)
    (within : bytes.length ≤ messageLength.toNat)
    (long : messageLength.toNat < (bytes ++ chunk).length) :
    app.processMessage buffer data msg =
      .error (.error .wrongDataLength) := by
  rw [List.length_append] at long
  have size := covers.length_eq
  have countEq : (UInt32.ofNat chunk.length).toNat = chunk.length :=
    UInt32.toNat_ofNat_of_lt' (by unfold UInt32.size; omega)
  have exceeds : msg.processedMessageLength + UInt32.ofNat data.length >
      msg.messageLength := by
    rw [gt_iff_lt, UInt32.lt_iff_toNat_lt, UInt32.toNat_add,
      absorbs.processed, absorbs.lengthEq, size, countEq,
      Nat.mod_eq_of_lt bounded]
    exact long
  unfold App.processMessage
  rw [if_pos (by rw [size]; omega)]
  simp only
  rw [Run.returnOn, if_pos exceeds]
  rfl

/-- A first chunk without the start of a message. -/
theorem App.startMessage_refused
    (covers : Covers buffer data part)
    (absent : ∀ path flags messageLength message,
      ¬CarriesMessage path flags messageLength message part)
    (msg : MessageSigningContext app.layout.Shared) :
    app.startMessage buffer data msg = .error (.error .wrongDataLength) := by
  cases decoded : decodePath part with
  | none =>
      have noPath : readBip32Path buffer data = .error (.error ()) := by
        apply readBip32Path_reads.reject covers
        intro path rest validPath partEq
        rw [decodePath_eq_some.mpr ⟨validPath, partEq⟩] at decoded
        cases decoded
      unfold App.startMessage
      rw [noPath]
      rfl
  | some found =>
      obtain ⟨path, rest⟩ := found
      obtain ⟨validPath, rfl⟩ := decodePath_eq_some.mp decoded
      obtain ⟨next, readPath, behind⟩ :=
        readBip32Path_reads.accept_next validPath covers
      unfold App.startMessage
      rw [readPath, Run.orReturn_ok, Run.bind_ok]
      simp only
      cases rest with
      | nil =>
          have noFlags : readU8 buffer next = .error (.error ()) :=
            readU8_reads.reject behind nofun
          rw [noFlags]
          rfl
      | cons flags rest =>
          have flagsFirst : Covers buffer next ([flags] ++ rest) := behind
          obtain ⟨atLength, readFlags, lengthCovers⟩ :=
            readU8_reads.accept_next trivial flagsFirst
          have noLength : readU32 buffer atLength = .error (.error ()) := by
            apply readU32_reads.reject lengthCovers
            rintro messageLength message _ rfl
            exact absent path flags messageLength message ⟨validPath, rfl⟩
          rw [readFlags, Run.orReturn_ok, Run.bind_ok]
          simp only
          rw [noLength]
          rfl

/-- A chunk is refused unless its data, with what was sent before, is within
the length of a message. -/
theorem Follows.messageChunk_refused
    (follows : Follows (app.AbsorbsSent absorbed · req) p1 sent)
    (streams : app.StreamsSha256 sha256 absorbed)
    (carries : command.Carries insSignMessage p1 p2 part)
    (bounded : (sent ++ part).length < 2 ^ 32)
    (long : ∀ path flags messageLength message,
      CarriesMessage path flags messageLength message (sent ++ part) →
        messageLength.toNat < message.length) :
    app.messageChunk p1 command.buffer.val command.data
        (app.layout.msg.read req) = .error (.error .wrongDataLength) := by
  rcases follows with ⟨rfl, rfl⟩ |
    ⟨rfl, path, flags, messageLength, before, earlier, within, absorbs⟩
  · unfold App.messageChunk
    rw [if_pos rfl]
    by_cases carried : ∃ path flags messageLength message,
        CarriesMessage path flags messageLength message part
    · obtain ⟨path, flags, messageLength, message, carried⟩ := carried
      have exceeds := long path flags messageLength message carried
      have size := carried.length_le
      obtain ⟨validPath, rfl⟩ := carried
      obtain ⟨started, rest, start, absorbs, behind⟩ := App.startMessage_eq
        (app.layout.msg.read req) streams validPath carries.covers
      rw [start]
      rw [List.nil_append] at bounded
      exact absorbs.processMessage_refused behind
        (by rw [List.length_nil]; omega) (Nat.zero_le _) exceeds
    · rw [App.startMessage_refused carries.covers]
      · rfl
      · intro path flags messageLength message carriesPart
        exact carried ⟨path, flags, messageLength, message, carriesPart⟩
  · have size := earlier.length_le
    rw [List.length_append] at bounded
    exact absorbs.processMessage_refused carries.covers (by omega) within
      (long _ _ _ _ (earlier.append part))

/-- Chunks of messages. -/
theorem App.handleSignMessage_agrees
    (streams : app.StreamsSha256 sha256 absorbed)
    (holds : app.HoldsCollected absorbed req session.collecting)
    (carries : command.Carries insSignMessage p1 p2 part)
    (continues : p1 = p1More → ∃ sent,
      session.collecting = some (.message, sent) ∧
        (sent ++ part).length < 2 ^ 32) :
    Agree (app.Accepts sha256 absorbed session)
      (app.handleSignMessage p1 p2 command.buffer.val command.data req)
      (chunkRequest .message p1 p2 part >>= session.handle app) := by
  unfold App.handleSignMessage chunkRequest
  rw [bind_assoc]
  refine .behind rfl ?_
  intro _ checked
  obtain ⟨p1Cases, p2Cases⟩ := checkChunkParameters_inversion checked
  obtain ⟨sent, upTo, follows⟩ := Session.upTo_eq part p1Cases
    (fun isMore => (continues isMore).imp fun _ holds => holds.1)
  have bounded : (sent ++ part).length < 2 ^ 32 := by
    rcases follows with ⟨rfl, rfl⟩ | ⟨isMore, collecting⟩
    · exact Nat.lt_trans carries.header.1 (by decide)
    · obtain ⟨_, other, short⟩ := continues isMore
      cases collecting.symm.trans other
      exact short
  have inMemory : Follows (app.AbsorbsSent absorbed · req) p1 sent := by
    refine Follows.mono follows fun before collecting => ?_
    rw [collecting] at holds
    exact holds
  rw [Run.pure_eq, Run.bind_ok]
  simp only [Session.handle, upTo, Run.bind_ok, App.collect]
  by_cases fits : ∃ path flags messageLength message,
      CarriesMessage path flags messageLength message (sent ++ part) ∧
        message.length ≤ messageLength.toNat
  · obtain ⟨path, flags, messageLength, message, carried, within⟩ := fits
    obtain ⟨msg, chunk, absorbs⟩ :=
      inMemory.messageChunk_absorbs streams carries carried within
    rw [chunk, Run.bind_ok, decodeMessage_eq_some.mpr carried]
    simp only
    rw [Run.returnOn_of_not (Nat.not_lt.mpr within), Run.bind_ok]
    rcases p2Cases with rfl | rfl
    · unfold App.finishMessageChunk
      rw [if_neg (by decide)]
      simp only [decide_true, if_true]
      by_cases whole : message.length = messageLength.toNat
      · obtain ⟨shown, review, presents⟩ :=
          absorbs.reviewMessage_eq streams whole
        rw [review, Run.returnOn_of_not (not_not.mpr whole)]
        exact .returned ⟨rfl, rfl, .some (.message presents), fun _ => rfl,
          trivial⟩
      · have incomplete : msg.processedMessageLength ≠ msg.messageLength := by
          intro equal
          apply whole
          rw [← absorbs.processed, ← absorbs.lengthEq, equal]
        unfold App.reviewMessage
        rw [Run.returnOn, if_pos incomplete, Run.returnOn, if_pos whole]
        exact .stopped
    · have isMore : decide (p2More = p2Last) = false := by decide
      simp only [isMore, Bool.false_eq_true, if_false, Run.pure_eq,
        Run.bind_ok]
      refine .returned ⟨rfl, rfl, .none, (absurd · Bool.false_ne_true), ?_⟩
      refine ⟨path, flags, messageLength, message, carried, within, ?_⟩
      rw [app.layout.msg.read_write]
      exact absorbs
  · have long : ∀ path flags messageLength message,
        CarriesMessage path flags messageLength message (sent ++ part) →
          messageLength.toNat < message.length := by
      intro path flags messageLength message carried
      by_contra short
      exact fits
        ⟨path, flags, messageLength, message, carried, Nat.le_of_not_gt short⟩
    rw [inMemory.messageChunk_refused streams carries bounded long]
    cases decoded : decodeMessage (sent ++ part) with
    | none => exact .stopped
    | some found =>
        obtain ⟨path, flags, messageLength, message⟩ := found
        simp only
        rw [Run.returnOn, if_pos (long path flags messageLength message
          (decodeMessage_eq_some.mp decoded))]
        exact .stopped

/-- A command of the right length and class carries its data. -/
theorem Command.WellFormed.carries_carried
    (wellFormed : command.WellFormed)
    (claEq : command.byte offsetCla = cla) :
    command.Carries (command.byte offsetIns) (command.byte offsetP1)
      (command.byte offsetP2) command.carried := by
  obtain ⟨bytes, carries⟩ := wellFormed.carries claEq
  have covers := carries.covers
  obtain ⟨rest, restEq⟩ := covers.within offsetCdata rfl
  have same : command.carried = bytes := by
    change (command.buffer.val.drop offsetCdata).take command.data.length = _
    rw [restEq, covers.length_eq, List.take_left]
  rw [same]
  exact carries

/-- The data that a command carries is what is read off it. -/
theorem Command.Carries.carried
    (carries : command.Carries ins p1 p2 bytes) : command.carried = bytes :=
  ((carries.wellFormed.carries_carried carries.header.2.1).unique
    carries).2.2.2

/-- A command that carries a chunk asks for it to be collected. -/
theorem Command.Carries.request_chunk
    {kind : Kind}
    (carries : command.Carries kind.ins p1 p2 part) :
    command.request = chunkRequest kind p1 p2 part := by
  obtain ⟨_, claEq, insEq, p1Eq, p2Eq, _⟩ := carries.header
  unfold Command.request
  rw [Run.returnOn_of_not (not_not.mpr carries.wellFormed), Run.bind_ok, claEq,
    Run.returnOn_of_not (not_not.mpr rfl), Run.bind_ok, insEq, p1Eq, p2Eq,
    carries.carried]
  cases kind with
  | transaction => rfl
  | message => rfl

/-- A command may ask for nothing but more time. -/
theorem Command.IsKeepAlive.request
    (keepAlive : command.IsKeepAlive) : command.request = .ok .keepAlive := by
  obtain ⟨p1, p2, bytes, carries⟩ := keepAlive
  obtain ⟨_, claEq, insEq, _⟩ := carries.header
  unfold Command.request
  rw [Run.returnOn_of_not (not_not.mpr carries.wellFormed), Run.bind_ok, claEq,
    Run.returnOn_of_not (not_not.mpr rfl), Run.bind_ok, insEq]
  rfl

/-- A command leads to what the protocol says of it, if the client continues
what it started, and lets nothing be read behind it. -/
theorem App.handleCommand_agrees
    (streams : app.StreamsSha256 sha256 absorbed)
    (holds : app.HoldsCollected absorbed req session.collecting)
    (bounded : ¬command.ReadsBehind)
    (continues : ∀ kind p2 part,
      command.Carries kind.ins p1More p2 part →
        ∃ sent, session.collecting = some (kind, sent) ∧
          (kind = .message → (sent ++ part).length < 2 ^ 32)) :
    Agree (app.Accepts sha256 absorbed session)
      (app.handleCommand command req)
      (command.request >>= session.handle app) := by
  unfold App.handleCommand App.handleApdu Command.request
  simp only [bind_assoc]
  refine .behind rfl ?_
  intro _ checked
  have wellFormed := not_not.mp (Run.returnOn_eq_ok.mp checked)
  refine .behind rfl ?_
  intro _ claChecked
  have carries := wellFormed.carries_carried
    (not_not.mp (Run.returnOn_eq_ok.mp claChecked))
  split_ifs with isPublicKey isTransaction isMessage isKeepAlive
  · rw [isPublicKey] at carries
    exact App.handleGetPublicKey_agrees carries bounded
  · rw [isTransaction] at carries
    apply App.handleSignTransaction_agrees holds carries
    intro isMore
    rw [isMore] at carries
    obtain ⟨sent, collecting, _⟩ := continues .transaction _ _ carries
    exact ⟨sent, collecting⟩
  · rw [isMessage] at carries
    apply App.handleSignMessage_agrees streams holds carries
    intro isMore
    rw [isMore] at carries
    obtain ⟨sent, collecting, short⟩ := continues .message _ _ carries
    exact ⟨sent, collecting, short rfl⟩
  · exact .returned ⟨rfl, rfl, .none, (absurd · Bool.false_ne_true), trivial⟩
  · exact .stopped

end Handlers
end NimiqApp
