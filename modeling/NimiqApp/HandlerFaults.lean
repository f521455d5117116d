import NimiqApp.BaglFlows
import NimiqApp.ChunkLengths
import NimiqApp.CleanFailure

/-!
# Where handlers fault

A command may leave the defined behaviour: its handler reads through a null
pointer or fails an assertion.  For each kind of command these are the cases,
as long as the memory holds the request that a further chunk belongs to.
-/

namespace NimiqApp

/-- The computation leaves the defined behaviour. -/
def Run.Faults (run : Run ε α) : Prop :=
  ∃ reason, run = .error (.fault reason)

theorem Run.NoFault.not_faults
    {run : Run ε α}
    (noFault : Run.NoFault run) :
    ¬run.Faults := by
  rintro ⟨reason, faults⟩
  exact noFault reason faults

/-- An error in front of a fault hides it. -/
theorem Run.Faults.not_error
    {conclusion : Prop}
    (faults : Run.Faults (.error (.error code) : Run ε α)) :
    conclusion := by
  obtain ⟨reason, equal⟩ := faults
  cases equal

/-- A sequence faults where its second part does. -/
theorem Run.NoFault.bind_faults_iff
    {first : Run ε α} {next : α → Run ε β}
    (noFault : Run.NoFault first) :
    Run.Faults (first >>= next) ↔
      ∃ value, first = .ok value ∧ (next value).Faults := by
  constructor
  · rintro ⟨reason, faults⟩
    cases first with
    | ok value => exact ⟨value, rfl, reason, faults⟩
    | error stop => exact absurd (by simpa using faults) (noFault reason)
  · rintro ⟨value, rfl, faults⟩
    exact faults

/-- A sequence faults where its first part does, if only that can. -/
theorem Run.faults_bind_iff
    {first : Run ε α} {next : α → Run ε β}
    (noFault : ∀ value, Run.NoFault (next value)) :
    Run.Faults (first >>= next) ↔ first.Faults := by
  rcases first with (code | reason) | value
  · exact iff_of_false Run.Faults.not_error Run.Faults.not_error
  · exact iff_of_true ⟨reason, rfl⟩ ⟨reason, rfl⟩
  · exact iff_of_false (noFault value).not_faults
      (Run.NoFault.ok value).not_faults

/-- What becomes of a result does not matter for faults. -/
theorem Run.map_faults_iff
    {run : Run ε α} {change : α → β} :
    Run.Faults (run.map change) ↔ run.Faults := by
  rcases run with (code | reason) | value
  · exact iff_of_false Run.Faults.not_error Run.Faults.not_error
  · exact iff_of_true ⟨reason, rfl⟩ ⟨reason, rfl⟩
  · exact iff_of_false (Run.NoFault.ok _).not_faults
      (Run.NoFault.ok _).not_faults

theorem Run.NoFault.returnOn
    {condition : Prop} [Decidable condition] {code : ε} :
    Run.NoFault (Run.returnOn condition code) := by
  unfold Run.returnOn
  split
  · exact Run.NoFault.error code
  · exact Run.NoFault.ok ()

section PublicKeys

variable {app : App} {buffer : List UInt8} {data : Slice}
  {req : app.layout.Memory}

/-- A message in front of enough memory is compared without a fault. -/
theorem readVerificationMessage_noFault
    (covers : Covers buffer data message)
    (nonempty : message ≠ [])
    (room : ∀ offset, data.pointer = some offset →
      offset + dummyDataPrefix.length ≤ buffer.length) :
    Run.NoFault (readVerificationMessage buffer true data) ∧
      ∀ msg next, readVerificationMessage buffer true data =
        .ok (msg, next) → Covers buffer msg message := by
  have size := covers.length_eq
  have start : Covers buffer data (message ++ []) := by
    rwa [List.append_nil]
  have present : data.length ≠ 0 := by
    rw [size]
    exact mt List.length_eq_zero_iff.mp nonempty
  obtain ⟨offset, atOffset⟩ : ∃ offset, data.pointer = some offset :=
    Option.ne_none_iff_exists'.mp (mt covers.null nonempty)
  have readMessage := start.readSubBuffer_eq
  rw [← size, Slice.leading, if_neg present] at readMessage
  have front : (load buffer data.pointer dummyDataPrefix.length :
      Run StatusWord _) = .ok ((buffer.drop offset).take
        dummyDataPrefix.length) := by
    unfold load
    rw [if_neg (by decide), atOffset]
    simp only
    rw [if_pos (room offset atOffset)]
    rfl
  unfold readVerificationMessage
  rw [if_pos rfl]
  simp only [readMessage, Run.orReturn_ok, Run.bind_ok, front]
  constructor
  · apply Run.NoFault.bind Run.NoFault.returnOn
    intro _ _
    apply Run.NoFault.bind Run.NoFault.returnOn
    intro _ _
    exact Run.NoFault.ok _
  · intro msg next result
    obtain ⟨_, _, result⟩ := Run.bind_eq_ok.mp result
    obtain ⟨_, _, result⟩ := Run.bind_eq_ok.mp result
    cases result
    exact covers

/-- What follows the verification message does not fault. -/
theorem App.handleGetPublicKey_noFault
    (read : ∀ path next, readBip32Path buffer data = .ok (path, next) →
      Run.NoFault (readVerificationMessage buffer (decide (p1 = p1Signature))
          next) ∧
        ∀ msg rest, readVerificationMessage buffer
          (decide (p1 = p1Signature)) next = .ok (msg, rest) →
            ∃ message, Covers buffer msg message)
    (covers : Covers buffer data bytes) :
    Run.NoFault (app.handleGetPublicKey p1 p2 buffer data req) := by
  unfold App.handleGetPublicKey
  apply Run.NoFault.bind Run.NoFault.returnOn
  intro _ _
  apply Run.NoFault.bind (readBip32Path_reads.noFault covers)
  rintro ⟨path, next⟩ readPath
  obtain ⟨noFault, messageCovers⟩ :=
    read path next (Run.orReturn_eq_ok.mp readPath)
  apply Run.NoFault.bind noFault
  rintro ⟨msg, rest⟩ readMessage
  obtain ⟨message, messageCovers⟩ := messageCovers msg rest readMessage
  apply Run.NoFault.bind Run.NoFault.returnOn
  intro _ _
  apply Run.NoFault.bind (Run.NoFault.cryptography _)
  intro privateKey _
  apply Run.NoFault.bind (Run.NoFault.cryptography _)
  intro publicKey _
  have signed : Run.NoFault (app.signVerificationMessage buffer privateKey
      (decide (p1 = p1Signature)) msg (app.layout.pk.read req).signature) := by
    unfold Sdk.signVerificationMessage
    split
    · rw [messageCovers.length_eq, messageCovers.load_eq, Run.bind_ok]
      exact Run.NoFault.cryptography _
    · exact Run.NoFault.ok _
  apply Run.NoFault.bind signed
  intro signature _
  apply Run.NoFault.bind (app.answerGetPublicKey_noFault _ _)
  rintro ⟨pk, answer⟩ _
  exact Run.NoFault.ok _

/-- Nothing is compared through a null pointer. -/
theorem readVerificationMessage_nothing
    (covers : Covers buffer data []) :
    readVerificationMessage buffer true data =
      .error (.fault .nullPointer) := by
  have size : data.length = 0 := covers.length_eq
  have nothing : readSubBuffer 0 data = .ok (none, data) := by
    unfold readSubBuffer
    rw [if_pos rfl]
    rfl
  unfold readVerificationMessage
  rw [if_pos rfl, size, Run.returnOn_of_not (by decide), Run.bind_ok]
  simp only [nothing, Run.orReturn_ok, Run.bind_ok]
  rfl

/-- A path takes four bytes for each entry. -/
theorem bip32PathBytes_length (path : List UInt32) :
    (bip32PathBytes path).length = 1 + 4 * path.length := by
  have entries : (path.flatMap u32Bytes).length = 4 * path.length := by
    induction path with
    | nil => rfl
    | cons entry path inductionHypothesis =>
        rw [List.flatMap_cons, List.length_append, inductionHypothesis,
          u32Bytes_length, List.length_cons]
        omega
  unfold bip32PathBytes
  rw [List.length_cons, entries, Nat.add_comm]

/-- Behind a path there is room for the prefix of a verification message. -/
theorem ValidPath.room
    (validPath : ValidPath path)
    (command : Command)
    (offset : Nat)
    (behind : (command.data.advance (bip32PathBytes path).length).pointer =
      some offset) :
    offset + dummyDataPrefix.length ≤ command.buffer.val.length := by
  have bound : path.length ≤ 10 := validPath.2
  have prefixLength : dummyDataPrefix.length = 11 := by decide
  have place : offsetCdata + (bip32PathBytes path).length = offset :=
    Option.some.inj behind
  rw [← place, bip32PathBytes_length, command.buffer.property, prefixLength]
  unfold offsetCdata
  omega

/-- A command that requests a public key. -/
theorem Command.Carries.handleGetPublicKey
    {command : Command}
    (carries : command.Carries insGetPublicKey p1 p2 bytes)
    (req : app.layout.Memory) :
    app.handleCommand command req =
      app.handleGetPublicKey p1 p2 command.buffer.val command.data req := by
  obtain ⟨_, claEq, insEq, p1Eq, p2Eq, _⟩ := carries.header
  rw [carries.handleApdu]
  unfold App.handleApdu
  rw [claEq, Run.returnOn_of_not (not_not.mpr rfl), Run.bind_ok, insEq, p1Eq,
    p2Eq]
  rfl

/-- A request for a public key leaves the defined behaviour exactly if it asks
for a signature of nothing. -/
theorem App.handleGetPublicKey_faults_iff
    {command : Command}
    (carries : command.Carries insGetPublicKey p1 p2 bytes) :
    (app.handleGetPublicKey p1 p2 command.buffer.val command.data
        req).Faults ↔
      p1 = p1Signature ∧ ConfirmationParameter p2 ∧
        ∃ path, ValidPath path ∧ bytes = bip32PathBytes path := by
  have covers := carries.covers
  constructor
  · intro faults
    by_contra others
    by_cases withSignature : p1 = p1Signature
    · subst withSignature
      by_cases valid : ConfirmationParameter p2
      · refine (App.handleGetPublicKey_noFault ?_ covers).not_faults faults
        intro path next readPath
        obtain ⟨message, validPath, rfl, rfl, messageCovers⟩ :=
          readBip32Path_reads.inversion covers readPath
        have nonempty : message ≠ [] := by
          rintro rfl
          exact others ⟨rfl, valid, path, validPath, List.append_nil _⟩
        obtain ⟨noFault, ownMessage⟩ := readVerificationMessage_noFault
          messageCovers nonempty (validPath.room _)
        exact ⟨noFault, fun msg rest result =>
          ⟨message, ownMessage msg rest result⟩⟩
      · rw [app.handleGetPublicKey_wrongP2 req valid] at faults
        exact faults.not_error
    · refine (App.handleGetPublicKey_noFault ?_ covers).not_faults faults
      intro path next _
      rw [decide_eq_false withSignature]
      refine ⟨Run.NoFault.ok _, ?_⟩
      rintro msg rest ⟨⟩
      exact ⟨[], rfl, fun _ => rfl, nofun⟩
  · rintro ⟨rfl, valid, path, validPath, rfl⟩
    have start : Covers command.buffer.val command.data
        (bip32PathBytes path ++ []) := by
      rwa [List.append_nil]
    obtain ⟨next, readPath, atEnd⟩ :=
      readBip32Path_reads.accept_next validPath start
    refine ⟨.nullPointer, ?_⟩
    unfold App.handleGetPublicKey
    rw [valid.check, Run.bind_ok, readPath]
    simp only [Run.orReturn_ok, Run.bind_ok, decide_true,
      readVerificationMessage_nothing atEnd]
    rfl

end PublicKeys

section Transactions

variable {tx : TransactionContext}

/-- A further chunk of what was collected leads to no fault. -/
theorem TransactionContext.Collected.more_noFault
    (collected : tx.Collected path version bytes)
    (covers : Covers buffer data part)
    (partShort : part.length < 256) :
    Run.NoFault (tx.more buffer data) := by
  have bound := collected.length_le
  unfold maxRawTx at bound
  refine (TransactionContext.more_appends covers ?_).1
  rw [collected.rawTxLength]
  omega

/-- The start of the review faults exactly if the NBGL build is to show the
creation of a contract. -/
theorem App.parseForReview_faults_iff
    (app : App)
    (version : UInt8)
    (bytes : List UInt8) :
    (app.parseForReview version bytes).Faults ↔
      app.ui = .nbgl ∧ CreatesContract bytes ∧
        ∃ parsed, parseTx app.toDevice version bytes = .ok parsed := by
  have failure := parseTx_failsCleanly app.toDevice version bytes
  unfold App.parseForReview
  rcases failure.outcome with ⟨parsed, accepted⟩ | ⟨code, _, refused⟩
  · obtain ⟨known, rfl, transaction, rfl, hashable, rfl⟩ :=
      (parseTx_eq_ok_iff app.toDevice).mp accepted
    rw [accepted, transaction.createsContract_iff]
    change Run.Faults (app.ui.uiTransactionSigning _ >>= _) ↔ _
    cases ui : app.ui with
    | bagl =>
        rw [UserInterface.bagl_uiTransactionSigning]
        exact iff_of_false (Run.NoFault.ok _).not_faults fun nbgl =>
          nomatch nbgl.1
    | nbgl =>
        unfold UserInterface.uiTransactionSigning
        by_cases contract : transaction.content.IsContractCreation
        · simp only [Nbgl.uiTransactionSigning_contract _ transaction contract]
          exact iff_of_true ⟨_, rfl⟩ ⟨trivial, contract, _, rfl⟩
        · simp only [Nbgl.uiTransactionSigning_eq _ transaction contract]
          exact iff_of_false (Run.NoFault.ok _).not_faults fun created =>
            contract created.2.1
  · obtain ⟨sw, _, swEq⟩ := failure.statusWord code refused
    rw [swEq, refused]
    refine iff_of_false (Run.NoFault.error sw).not_faults ?_
    rintro ⟨_, _, parsed, accepted⟩
    cases accepted

/-- The last chunk faults if the start of the review does. -/
theorem App.finishTransactionChunk_faults_iff
    {app : App}
    {req : app.layout.Memory}
    (collected : tx.Collected path version bytes) :
    (app.finishTransactionChunk p2Last req tx).Faults ↔
      (app.parseForReview version bytes).Faults := by
  unfold App.finishTransactionChunk
  rw [if_neg (by decide), App.reviewTransaction_eq collected]
  refine (Run.faults_bind_iff ?_).trans Run.map_faults_iff
  intro tx
  exact Run.NoFault.ok _

/-- The data of chunks is that of one transaction at most. -/
theorem CarriesTransaction.unique
    (left : CarriesTransaction path version bytes sent)
    (right : CarriesTransaction otherPath otherVersion otherBytes sent) :
    path = otherPath ∧ version = otherVersion ∧ bytes = otherBytes := by
  obtain ⟨leftValid, leftEq⟩ := left
  obtain ⟨rightValid, rightEq⟩ := right
  obtain ⟨rfl, behindPath⟩ := readBip32Path_reads.unique leftValid rightValid
    (leftEq.symm.trans rightEq)
  exact ⟨rfl, List.cons.inj behindPath⟩

end Transactions

section Chunks

variable {app : App} {req : app.layout.Memory} {command : Command}
  {sent part : List UInt8}

/-- What was sent before a chunk: nothing before a first one, and what the
memory holds before a further one. -/
def Follows (holds : List UInt8 → Prop) (p1 : UInt8) (sent : List UInt8) :
    Prop :=
  p1 = p1First ∧ sent = [] ∨ p1 = p1More ∧ holds sent

variable (follows : Follows (app.HoldsTransaction · req) p1 sent)
  (carries : command.Carries insSignTx p1 p2 part)
include follows carries

/-- A chunk of a transaction does not fault. -/
theorem Follows.transactionChunk_noFault :
    Run.NoFault ((app.layout.tx.read req).chunk p1 command.buffer.val
      command.data) := by
  rcases follows with ⟨rfl, rfl⟩ | ⟨rfl, path, version, bytes, _, collected⟩
  · exact TransactionContext.first_noFault carries.covers
  · exact collected.more_noFault carries.covers carries.header.1

/-- A chunk of a transaction that is accepted is collected with what was sent
before. -/
theorem Follows.transactionChunk_collected
    (chunk : (app.layout.tx.read req).chunk p1 command.buffer.val
      command.data = .ok tx) :
    ∃ path version bytes,
      CarriesTransaction path version bytes (sent ++ part) ∧
        tx.Collected path version bytes := by
  rcases follows with
    ⟨rfl, rfl⟩ | ⟨rfl, path, version, bytes, carried, collected⟩
  · exact TransactionContext.first_inversion carries.covers chunk
  · exact ⟨path, version, bytes ++ part, carried.append part,
      collected.more_inversion carries.covers carries.header.1 chunk⟩

/-- A chunk of a transaction that fits is accepted. -/
theorem Follows.transactionChunk_accepted
    (carried : CarriesTransaction path version bytes (sent ++ part))
    (short : bytes.length ≤ maxRawTx) :
    ∃ tx, (app.layout.tx.read req).chunk p1 command.buffer.val
        command.data = .ok tx ∧
      tx.Collected path version bytes := by
  rcases follows with
    ⟨rfl, rfl⟩ | ⟨rfl, otherPath, otherVersion, before, earlier, collected⟩
  · obtain ⟨validPath, partEq⟩ := carried
    rw [List.nil_append] at partEq
    exact TransactionContext.first_collects _ validPath
      (partEq ▸ carries.covers) short
  · obtain ⟨rfl, rfl, rfl⟩ := carried.unique (earlier.append part)
    exact collected.more_collects carries.covers carries.header.1 short

/-- The last chunk of a transaction faults exactly if the NBGL build is to
show the creation of a contract. -/
theorem Follows.handleSignTransaction_faults_iff :
    (app.handleSignTransaction p1 p2 command.buffer.val command.data
        req).Faults ↔
      p2 = p2Last ∧ app.ui = .nbgl ∧ ∃ path version bytes,
        CarriesTransaction path version bytes (sent ++ part) ∧
        CreatesContract bytes ∧
        ∃ parsed, parseTx app.toDevice version bytes = .ok parsed := by
  have noFault := follows.transactionChunk_noFault carries
  unfold App.handleSignTransaction
  constructor
  · intro faults
    obtain ⟨_, checked, faults⟩ :=
      Run.NoFault.returnOn.bind_faults_iff.mp faults
    obtain ⟨_, p2Cases⟩ := checkChunkParameters_inversion checked
    obtain ⟨tx, chunk, faults⟩ := noFault.bind_faults_iff.mp faults
    obtain ⟨path, version, bytes, carried, collected⟩ :=
      follows.transactionChunk_collected carries chunk
    rcases p2Cases with rfl | rfl
    · rw [App.finishTransactionChunk_faults_iff collected,
        App.parseForReview_faults_iff] at faults
      exact ⟨rfl, faults.1, path, version, bytes, carried, faults.2⟩
    · exact absurd faults (Run.NoFault.ok _).not_faults
  · rintro ⟨rfl, isNbgl, path, version, bytes, carried, contract, parsed,
      accepted⟩
    obtain ⟨known, rfl, transaction, rfl, _, rfl⟩ :=
      (parseTx_eq_ok_iff app.toDevice).mp accepted
    obtain ⟨tx, chunk, collected⟩ := follows.transactionChunk_accepted carries
      carried transaction.encode_length_bounds.2
    rw [checkChunkParameters_eq (follows.imp And.left And.left) (Or.inl rfl),
      Run.bind_ok, chunk, Run.bind_ok,
      App.finishTransactionChunk_faults_iff collected,
      App.parseForReview_faults_iff]
    exact ⟨isNbgl, contract, _, accepted⟩

end Chunks

section Displayable

variable {HashContext : Type} {layout : Layout HashContext}
  {msg : MessageSigningContext layout.Shared}

/-- Messages that can be displayed as text are short. -/
def MessageSigningContext.TextIsShort (msg : MessageSigningContext Shared) :
    Prop :=
  msg.isPrintableAscii = true →
    msg.messageLength.toNat ≤ maxPrintableMessageLength

/-- The message can be displayed in the way in which it is, and in every
other way that is offered. -/
structure Layout.Displayable (layout : Layout HashContext)
    (msg : MessageSigningContext layout.Shared) : Prop where
  textIsShort : msg.TextIsShort
  current : Bagl.canDisplay msg (layout.displayType msg) = true

/-- Whatever is not displayed by its hash is short. -/
theorem MessageSigningContext.TextIsShort.short
    {msg : MessageSigningContext Shared}
    (textIsShort : msg.TextIsShort)
    (possible : Bagl.canDisplay msg displayType = true)
    (notHash : displayType ≠ .hash) :
    msg.messageLength.toNat ≤ maxPrintableMessageLength := by
  cases displayType with
  | ascii => exact textIsShort possible
  | hex => exact of_decide_eq_true possible
  | hash => exact absurd rfl notHash

end Displayable

section Messages

variable {app : App} {msg next : MessageSigningContext app.layout.Shared}

/-- Another context of the same request. -/
theorem Layout.Displayable.congr
    (displayable : app.layout.Displayable msg)
    (same : SameRequest msg next)
    (possible : Bagl.canDisplay msg (app.layout.displayType next) = true) :
    app.layout.Displayable next where
  textIsShort := by
    have textIsShort := displayable.textIsShort
    unfold MessageSigningContext.TextIsShort at textIsShort ⊢
    rw [← same]
    exact textIsShort
  current := by
    rw [Bagl.canDisplay_sameRequest same]
    exact possible

/-- Every step that is offered for a message that can be displayed is
displayed, and leaves it so. -/
theorem Layout.Displayable.displayMessageStep
    (displayable : app.layout.Displayable msg)
    (offered : Bagl.offersMessageStep app.layout msg step = true) :
    ∃ next, (Bagl.displayMessageStep app msg step : Run ε _) = .ok next ∧
      app.layout.Displayable next := by
  obtain ⟨next, displayed⟩ : ∃ next,
      (Bagl.displayMessageStep app msg step : Run ε _) = .ok next := by
    cases step with
    | messageLength =>
        exact app.layout.printMessage_succeeds msg fun out =>
          out.store_snprintf (printUnsigned msg.messageLength.toNat)
    | message =>
        apply app.layout.uxMessageSigningPreparePrintedMessage_succeeds
        exact displayable.textIsShort.short displayable.current
    | display displayType =>
        apply app.uiMessageSigning_succeeds
        exact displayable.textIsShort.short
          (Bool.and_eq_true _ _ ▸ offered : _ = true ∧ _ = true).1
  refine ⟨next, displayed, displayable.congr
    (Bagl.displayMessageStep_sameRequest displayed) ?_⟩
  rw [Bagl.displayMessageStep_displayType displayed]
  cases step with
  | messageLength => exact displayable.current
  | message => exact displayable.current
  | display displayType =>
      exact (Bool.and_eq_true _ _ ▸ offered : _ = true ∧ _ = true).1

/-- The bytes of a message that are hashed lead to no fault. -/
theorem App.Hashes.processMessage_noFault
    (hashes : app.Hashes path flags messageLength bytes msg)
    (covers : Covers buffer data part)
    (partShort : part.length < 256) :
    Run.NoFault (app.processMessage buffer data msg) := by
  unfold App.processMessage
  split
  · rw [covers.length_eq]
    simp only
    by_cases exceeds : msg.processedMessageLength + UInt32.ofNat part.length >
        msg.messageLength
    · rw [Run.returnOn, if_pos exceeds]
      exact Run.NoFault.error _
    · rw [Run.returnOn_of_not exceeds, Run.bind_ok, covers.load_eq,
        Run.bind_ok]
      have copied : Run.NoFault (copyPrintableMessage part msg :
          Run StatusWord _) := by
        by_cases printable : messageLength.toNat ≤ maxPrintableMessageLength
        · obtain ⟨within, place⟩ :=
            hashes.short printable partShort exceeds
          apply copyPrintableMessage_noFault
          rw [place, hashes.lengthEq, ← List.length_append]
          exact within
        · unfold copyPrintableMessage
          rw [hashes.lengthEq, if_neg printable]
          exact Run.NoFault.ok msg
      refine Run.NoFault.bind copied ?_
      intro next _
      refine Run.NoFault.bind (app.hashMessage_noFault part next) ?_
      intro hashed _
      exact Run.NoFault.ok _
  · exact Run.NoFault.ok _

/-- A message whose bytes were hashed can be displayed as text only if it is
short. -/
theorem App.Hashes.textIsShort
    (hashes : app.Hashes path flags messageLength bytes msg) :
    msg.TextIsShort := by
  intro isText
  rw [hashes.printableAscii, Bool.and_eq_true, decide_eq_true_iff] at isText
  rw [hashes.lengthEq]
  exact isText.1

/-- The review of a message starts in the way it is told to. -/
theorem App.uiMessageSigning_displayType
    (result : (app.uiMessageSigning displayType atMessage msg : Run ε _) =
      .ok next) :
    app.layout.displayType next = displayType := by
  have typed : app.layout.displayType
      (app.layout.setDisplayType displayType msg) = displayType := by
    unfold Layout.displayType Layout.setDisplayType
    rw [app.layout.confirm.read_modify]
  unfold App.uiMessageSigning at result
  simp only at result
  split at result
  · exact (Bagl.preparePrintedMessage_displayType result).trans typed
  · cases result
    exact typed

/-- The review of a message that was hashed starts without a fault, and the
message can be displayed. -/
theorem App.reviewMessage_displayable
    (textIsShort : msg.TextIsShort) :
    Run.NoFault (app.reviewMessage msg) ∧
      ∀ shown, app.reviewMessage msg = .ok shown →
        app.layout.Displayable shown := by
  unfold App.reviewMessage
  have hashed : Run.NoFault (app.finalizeHashes msg) := by
    unfold App.finalizeHashes
    refine Run.NoFault.bind (Run.NoFault.cryptography _) ?_
    rintro ⟨_, _⟩ _
    refine Run.NoFault.bind (Run.NoFault.cryptography _) ?_
    rintro ⟨_, _⟩ _
    exact Run.NoFault.ok _
  have textKept : ∀ final, app.finalizeHashes msg = .ok final →
      final.TextIsShort := by
    intro final result
    unfold App.finalizeHashes at result
    obtain ⟨_, _, result⟩ := Run.bind_eq_ok.mp result
    obtain ⟨_, _, result⟩ := Run.bind_eq_ok.mp result
    cases result
    exact textIsShort
  have started : ∀ final, final.TextIsShort → ∃ shown,
      (app.uiMessageSigning (preferredDisplayType final) false final :
        Run StatusWord _) = .ok shown :=
    fun final isShort => app.uiMessageSigning_succeeds final
      (isShort.short (Bagl.canDisplay_preferred final))
  constructor
  · apply Run.NoFault.bind Run.NoFault.returnOn
    intro _ _
    apply Run.NoFault.bind hashed
    intro final result
    obtain ⟨shown, start⟩ := started final (textKept final result)
    rw [start]
    exact Run.NoFault.ok shown
  · intro shown result
    obtain ⟨_, _, result⟩ := Run.bind_eq_ok.mp result
    obtain ⟨final, finalEq, result⟩ := Run.bind_eq_ok.mp result
    have same := app.uiMessageSigning_sameRequest result
    have possible := Bagl.canDisplay_preferred final
    have isShort := textKept final finalEq
    constructor
    · unfold MessageSigningContext.TextIsShort at isShort ⊢
      rw [← same]
      exact isShort
    · rw [App.uiMessageSigning_displayType result,
        Bagl.canDisplay_sameRequest same]
      exact possible

variable {req : app.layout.Memory} {command : Command}
  {sent part : List UInt8}

/-- A chunk of a message does not fault, and leaves a message that can be
displayed as text only if it is short. -/
theorem Follows.messageChunk
    (follows : Follows (app.HoldsMessage · req) p1 sent)
    (carries : command.Carries insSignMessage p1 p2 part) :
    Run.NoFault (app.messageChunk p1 command.buffer.val command.data
        (app.layout.msg.read req)) ∧
      ∀ msg, app.messageChunk p1 command.buffer.val command.data
        (app.layout.msg.read req) = .ok msg → msg.TextIsShort := by
  rcases follows with
    ⟨rfl, rfl⟩ | ⟨rfl, path, flags, messageLength, message, _, hashes⟩
  · refine ⟨(App.messageChunk_firstAppends carries).1, ?_⟩
    intro msg chunk
    obtain ⟨_, _, _, _, _, hashes⟩ := App.messageChunk_first carries chunk
    exact hashes.textIsShort
  · refine ⟨hashes.processMessage_noFault carries.covers carries.header.1, ?_⟩
    intro msg chunk
    exact (hashes.processMessage carries.covers carries.header.1
      chunk).textIsShort

/-- A chunk of a message is handled without a fault. -/
theorem Follows.handleSignMessage_noFault
    (follows : Follows (app.HoldsMessage · req) p1 sent)
    (carries : command.Carries insSignMessage p1 p2 part) :
    Run.NoFault (app.handleSignMessage p1 p2 command.buffer.val command.data
      req) := by
  obtain ⟨noFault, textIsShort⟩ := follows.messageChunk carries
  unfold App.handleSignMessage App.finishMessageChunk
  apply Run.NoFault.bind Run.NoFault.returnOn
  intro _ _
  apply Run.NoFault.bind noFault
  intro msg chunk
  split
  · exact Run.NoFault.ok _
  · apply Run.NoFault.bind
      (App.reviewMessage_displayable (textIsShort msg chunk)).1
    intro shown _
    exact Run.NoFault.ok _

end Messages
end NimiqApp
