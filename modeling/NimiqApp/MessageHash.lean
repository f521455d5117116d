import NimiqApp.Chunks

/-!
# The hash of a message

However a message is cut into chunks, it is hashed as a whole, alone and
behind the prefix of signed messages with its length.  The bytes that are
hashed for signing determine the message.
-/

namespace NimiqApp

/-- The bytes that are hashed for signing, for the part of a message of some
length that was received so far. -/
def prefixedBytes (length : Nat) (bytes : List UInt8) : List UInt8 :=
  messageSigningPrefix ++ printUnsigned length ++ bytes

/-- The bytes that are hashed for signing a message. -/
def signedMessage (message : List UInt8) : List UInt8 :=
  prefixedBytes message.length message

/-- The length in front of a message is not delimited from it, but it grows
with the message. -/
theorem signedMessage_length_lt
    (shorter : left.length < right.length) :
    (signedMessage left).length < (signedMessage right).length := by
  have digits := printUnsigned_length_mono (Nat.le_of_lt shorter)
  unfold signedMessage prefixedBytes
  simp only [List.length_append]
  omega

/-- Different messages are signed by different bytes. -/
theorem signedMessage_injective
    (equal : signedMessage left = signedMessage right) : left = right := by
  have lengths : left.length = right.length := by
    rcases Nat.lt_trichotomy left.length right.length with
      shorter | same | longer
    · have less := signedMessage_length_lt shorter
      rw [equal] at less
      exact absurd less (Nat.lt_irrefl _)
    · exact same
    · have less := signedMessage_length_lt longer
      rw [equal] at less
      exact absurd less (Nat.lt_irrefl _)
  unfold signedMessage prefixedBytes at equal
  rw [lengths] at equal
  exact List.append_cancel_left equal

/-- The hash functions of the SDK are a streaming SHA-256; `absorbed` tells
what a context was updated with. -/
structure Sdk.StreamsSha256 (sdk : Sdk) (sha256 : List UInt8 → Bytes 32)
    (absorbed : sdk.HashContext → List UInt8 → Prop) : Prop where
  init : absorbed sdk.sha256Init []
  update : ∀ {context bytes} chunk, absorbed context bytes →
    ∃ next, sdk.hashUpdate context chunk = some next ∧
      absorbed next (bytes ++ chunk)
  final : ∀ {context bytes}, absorbed context bytes →
    ∃ next, sdk.hashFinal context = some (next, sha256 bytes)

/-- The part of a message that was received so far. -/
structure App.Absorbs (app : App)
    (absorbed : app.HashContext → List UInt8 → Prop) (path : List UInt32)
    (flags : UInt8) (messageLength : UInt32) (bytes : List UInt8)
    (msg : MessageSigningContext app.layout.Shared) : Prop where
  bip32Path : msg.bip32Path = path
  flagsEq : msg.flags = flags
  lengthEq : msg.messageLength = messageLength
  processed : msg.processedMessageLength.toNat = bytes.length
  printable : messageLength.toNat ≤ maxPrintableMessageLength →
    ∃ behind, msg.printableMessage.val = bytes ++ behind
  printableAscii : msg.isPrintableAscii =
    (decide (messageLength.toNat ≤ maxPrintableMessageLength) &&
      isPrintableAscii bytes)
  messageHashContext :
    absorbed (app.layout.prepare.read msg.shared).messageHashContext bytes
  prefixedMessageHashContext :
    absorbed (app.layout.prepare.read msg.shared).prefixedMessageHashContext
      (prefixedBytes messageLength.toNat bytes)

section Absorb

variable {app : App} {sha256 : List UInt8 → Bytes 32}
  {absorbed : app.HashContext → List UInt8 → Prop}
  {msg : MessageSigningContext app.layout.Shared}

/-- Before the first byte, the prefix and the length were hashed. -/
theorem App.prepareHashes_eq
    (streams : app.StreamsSha256 sha256 absorbed)
    (messageLength : UInt32) :
    ∃ prepare, app.prepareHashes messageLength = .ok prepare ∧
      absorbed prepare.messageHashContext [] ∧
      absorbed prepare.prefixedMessageHashContext
        (prefixedBytes messageLength.toNat []) := by
  obtain ⟨context, update, contextAbsorbed⟩ :=
    streams.update messageSigningPrefix streams.init
  obtain ⟨next, updateLength, nextAbsorbed⟩ :=
    streams.update (printUnsigned messageLength.toNat) contextAbsorbed
  refine ⟨⟨app.sha256Init, next⟩, ?_, streams.init, ?_⟩
  · unfold App.prepareHashes
    rw [update, cryptography_some, Run.bind_ok, cString_printUint32]
    simp only
    rw [updateLength]
    rfl
  · unfold prefixedBytes
    rwa [List.append_nil]

/-- The first chunk up to the bytes of the message. -/
theorem App.startMessage_eq
    (msg : MessageSigningContext app.layout.Shared)
    (streams : app.StreamsSha256 sha256 absorbed)
    (validPath : ValidPath path)
    (covers : Covers buffer data (bip32PathBytes path ++
      flags :: (u32Bytes messageLength ++ bytes))) :
    ∃ next rest, app.startMessage buffer data msg = .ok (next, rest) ∧
      app.Absorbs absorbed path flags messageLength [] next ∧
      Covers buffer rest bytes := by
  obtain ⟨atFlags, readPath, flagsCovers⟩ :=
    readBip32Path_reads.accept_next validPath covers
  have flagsFirst : Covers buffer atFlags
      ([flags] ++ (u32Bytes messageLength ++ bytes)) := flagsCovers
  obtain ⟨atLength, readFlags, lengthCovers⟩ :=
    readU8_reads.accept_next trivial flagsFirst
  obtain ⟨rest, readLength, behind⟩ :=
    readU32_reads.accept_next trivial lengthCovers
  obtain ⟨prepare, prepared, messageAbsorbed, prefixAbsorbed⟩ :=
    App.prepareHashes_eq streams messageLength
  refine ⟨{ msg with
    bip32Path := path
    flags, messageLength
    processedMessageLength := 0
    isPrintableAscii := messageLength.toNat ≤ maxPrintableMessageLength
    shared := app.layout.prepare.write msg.shared prepare }, rest, ?_, ?_,
    behind⟩
  · unfold App.startMessage
    rw [readPath, Run.orReturn_ok, Run.bind_ok]
    simp only
    rw [readFlags, Run.orReturn_ok, Run.bind_ok]
    simp only
    rw [readLength, Run.orReturn_ok, Run.bind_ok, prepared, Run.bind_ok]
    rfl
  · constructor
    · rfl
    · rfl
    · rfl
    · rfl
    · exact fun _ => ⟨_, (List.nil_append _).symm⟩
    · exact (Bool.and_true _).symm
    · rw [app.layout.prepare.read_write]
      exact messageAbsorbed
    · rw [app.layout.prepare.read_write]
      exact prefixAbsorbed

/-- The sum of the lengths does not wrap. -/
theorem App.Absorbs.toNat_add
    (absorbs : app.Absorbs absorbed path flags messageLength bytes msg)
    (within : bytes.length + count ≤ messageLength.toNat) :
    (msg.processedMessageLength + UInt32.ofNat count).toNat =
      bytes.length + count := by
  have bound := messageLength.toNat_lt
  have countEq : (UInt32.ofNat count).toNat = count :=
    UInt32.toNat_ofNat_of_lt' (by unfold UInt32.size; omega)
  rw [UInt32.toNat_add, absorbs.processed, countEq, Nat.mod_eq_of_lt]
  omega

/-- Printable characters come in parts. -/
theorem isPrintableAscii_append (left right : List UInt8) :
    isPrintableAscii (left ++ right) =
      (isPrintableAscii left && isPrintableAscii right) :=
  List.all_append

/-- A part of a message that can be printed is copied behind the part
before. -/
theorem App.Absorbs.copyPrintableMessage_eq
    (absorbs : app.Absorbs absorbed path flags messageLength bytes msg)
    (within : (bytes ++ chunk).length ≤ messageLength.toNat) :
    ∃ printableMessage,
      (copyPrintableMessage chunk msg : Run ε _) =
        .ok { msg with
          printableMessage
          isPrintableAscii :=
            decide (messageLength.toNat ≤ maxPrintableMessageLength) &&
              isPrintableAscii (bytes ++ chunk) } ∧
        (messageLength.toNat ≤ maxPrintableMessageLength →
          ∃ behind, printableMessage.val = bytes ++ chunk ++ behind) := by
  unfold copyPrintableMessage
  rw [absorbs.lengthEq]
  by_cases short : messageLength.toNat ≤ maxPrintableMessageLength
  · obtain ⟨behind, front⟩ := absorbs.printable short
    obtain ⟨stored, rest, result, storedEq⟩ :=
      Bytes.store_append (ε := ε) front (Nat.le_trans within short)
    refine ⟨stored, ?_, fun _ => ⟨rest, storedEq⟩⟩
    rw [if_pos short, absorbs.processed, result, Run.bind_ok,
      absorbs.printableAscii, isPrintableAscii_append, Bool.and_assoc]
    rfl
  · refine ⟨msg.printableMessage, ?_, fun other => absurd other short⟩
    have notPrintable : msg.isPrintableAscii = false := by
      rw [absorbs.printableAscii, decide_eq_false short, Bool.false_and]
    rw [if_neg short, decide_eq_false short, Bool.false_and, ← notPrintable,
      ← absorbs.lengthEq]
    rfl

/-- A chunk within the length of the message is absorbed. -/
theorem App.Absorbs.processMessage_eq
    (absorbs : app.Absorbs absorbed path flags messageLength bytes msg)
    (streams : app.StreamsSha256 sha256 absorbed)
    (covers : Covers buffer data chunk)
    (within : (bytes ++ chunk).length ≤ messageLength.toNat) :
    ∃ next, app.processMessage buffer data msg = .ok next ∧
      app.Absorbs absorbed path flags messageLength (bytes ++ chunk)
        next := by
  have lengths := covers.length_eq
  have sum := absorbs.toNat_add (by rwa [List.length_append] at within)
  rw [← List.length_append] at sum
  unfold App.processMessage
  by_cases empty : data.length = 0
  · rw [if_neg (not_not.mpr empty)]
    rw [lengths] at empty
    rw [List.length_eq_zero_iff.mp empty, List.append_nil]
    exact ⟨msg, rfl, absorbs⟩
  · obtain ⟨printableMessage, copied, printable⟩ :=
      absorbs.copyPrintableMessage_eq (ε := StatusWord) within
    obtain ⟨messageContext, updated, messageAbsorbed⟩ :=
      streams.update chunk absorbs.messageHashContext
    obtain ⟨prefixedContext, prefixedUpdated, prefixedAbsorbed⟩ :=
      streams.update chunk absorbs.prefixedMessageHashContext
    refine ⟨{ msg with
      printableMessage
      isPrintableAscii :=
        decide (messageLength.toNat ≤ maxPrintableMessageLength) &&
          isPrintableAscii (bytes ++ chunk)
      processedMessageLength :=
        msg.processedMessageLength + UInt32.ofNat chunk.length
      shared := app.layout.prepare.write msg.shared
        ⟨messageContext, prefixedContext⟩ }, ?_, ?_⟩
    · rw [if_pos empty, lengths]
      simp only
      rw [Run.returnOn_of_not, Run.bind_ok, covers.load_eq, Run.bind_ok,
        copied, Run.bind_ok]
      · unfold App.hashMessage
        simp only
        rw [updated, cryptography_some, Run.bind_ok, prefixedUpdated,
          cryptography_some, Run.bind_ok]
        rfl
      · rw [gt_iff_lt, UInt32.lt_iff_toNat_lt, sum, absorbs.lengthEq]
        omega
    · constructor
      · exact absorbs.bip32Path
      · exact absorbs.flagsEq
      · exact absorbs.lengthEq
      · exact sum
      · exact printable
      · rfl
      · rw [app.layout.prepare.read_write]
        exact messageAbsorbed
      · rw [app.layout.prepare.read_write]
        unfold prefixedBytes at prefixedAbsorbed ⊢
        rwa [← List.append_assoc]

/-- The whole of a message was received. -/
theorem App.Absorbs.finalizeHashes_eq
    (absorbs : app.Absorbs absorbed path flags messageLength bytes msg)
    (streams : app.StreamsSha256 sha256 absorbed)
    (whole : bytes.length = messageLength.toNat) :
    ∃ shared, app.finalizeHashes msg =
      .ok { msg with
        shared
        messageHash := sha256 bytes
        prefixedMessageHash := sha256 (signedMessage bytes) } := by
  obtain ⟨messageContext, finished⟩ := streams.final absorbs.messageHashContext
  obtain ⟨prefixedContext, prefixedFinished⟩ :=
    streams.final absorbs.prefixedMessageHashContext
  refine ⟨app.layout.prepare.write msg.shared
    ⟨messageContext, prefixedContext⟩, ?_⟩
  unfold App.finalizeHashes signedMessage
  simp only
  rw [finished, cryptography_some, Run.bind_ok, whole]
  simp only
  rw [prefixedFinished, cryptography_some, Run.bind_ok]
  rfl

end Absorb

/-- The context of a review is that of a request for a message. -/
structure MessageSigningContext.Presents (sha256 : List UInt8 → Bytes 32)
    (path : List UInt32) (flags : UInt8) (message : List UInt8)
    (msg : MessageSigningContext Shared) : Prop where
  bip32Path : msg.bip32Path = path
  flagsEq : msg.flags = flags
  messageLength : msg.messageLength.toNat = message.length
  processed : msg.processedMessageLength = msg.messageLength
  messageHash : msg.messageHash = sha256 message
  prefixedMessageHash : msg.prefixedMessageHash = sha256 (signedMessage message)
  printableAscii : msg.isPrintableAscii = true ↔
    message.length ≤ maxPrintableMessageLength ∧
      ∀ byte ∈ message, 32 ≤ byte.toNat ∧ byte.toNat ≤ 126
  printable : message.length ≤ maxPrintableMessageLength →
    msg.printableMessage.val.take message.length = message

/-- What a review shows and signs is not in the memory shared with the hash
contexts. -/
theorem MessageSigningContext.Presents.sameRequest
    {msg next : MessageSigningContext Shared}
    (presents : msg.Presents sha256 entries preferences message)
    (same : SameRequest msg next) :
    next.Presents sha256 entries preferences message := by
  rw [← same]
  exact ⟨presents.bip32Path, presents.flagsEq, presents.messageLength,
    presents.processed, presents.messageHash, presents.prefixedMessageHash,
    presents.printableAscii, presents.printable⟩

theorem isPrintableAscii_eq_true_iff :
    isPrintableAscii bytes = true ↔
      ∀ byte ∈ bytes, 32 ≤ byte.toNat ∧ byte.toNat ≤ 126 := by
  unfold isPrintableAscii
  simp only [List.all_eq_true, Bool.not_eq_true', Bool.or_eq_false_iff,
    decide_eq_false_iff_not, gt_iff_lt, UInt8.lt_iff_toNat_lt, Nat.not_lt]
  rfl

section Review

variable {app : App} {sha256 : List UInt8 → Bytes 32}
  {absorbed : app.HashContext → List UInt8 → Prop}
  {msg : MessageSigningContext app.layout.Shared}

/-- The messages that are displayed in another way than by their hash are
short. -/
theorem preferredDisplayType_displayable
    (short : msg.isPrintableAscii = true →
      msg.messageLength.toNat ≤ maxPrintableMessageLength)
    (shown : preferredDisplayType msg ≠ .hash) :
    msg.messageLength.toNat ≤ maxPrintableMessageLength := by
  unfold preferredDisplayType at shown
  split_ifs at shown with asAscii asHex
  · exact short asAscii.1
  · exact asHex.1
  · exact absurd rfl shown

/-- The review of a message starts once all of it was received. -/
theorem App.Absorbs.reviewMessage_eq
    (absorbs : app.Absorbs absorbed path flags messageLength message msg)
    (streams : app.StreamsSha256 sha256 absorbed)
    (whole : message.length = messageLength.toNat) :
    ∃ next, app.reviewMessage msg = .ok next ∧
      next.Presents sha256 path flags message := by
  obtain ⟨shared, finalized⟩ := absorbs.finalizeHashes_eq streams whole
  have processed : msg.processedMessageLength = msg.messageLength := by
    rw [← UInt32.toNat_inj, absorbs.processed, absorbs.lengthEq, whole]
  let hashed := { msg with
    shared
    messageHash := sha256 message
    prefixedMessageHash := sha256 (signedMessage message) }
  have presents : hashed.Presents sha256 path flags message := by
    constructor
    · exact absorbs.bip32Path
    · exact absorbs.flagsEq
    · exact (congrArg UInt32.toNat absorbs.lengthEq).trans whole.symm
    · exact processed
    · rfl
    · rfl
    · rw [absorbs.printableAscii, Bool.and_eq_true, decide_eq_true_iff,
        isPrintableAscii_eq_true_iff, whole]
    · intro short
      obtain ⟨behind, front⟩ := absorbs.printable (whole ▸ short)
      rw [front, List.take_left]
  obtain ⟨next, started⟩ : ∃ next, (app.uiMessageSigning
      (preferredDisplayType hashed) false hashed : Run StatusWord _) =
        .ok next := by
    apply app.uiMessageSigning_succeeds
    apply preferredDisplayType_displayable
    intro ascii
    rw [presents.messageLength]
    exact (presents.printableAscii.mp ascii).1
  refine ⟨next, ?_,
    presents.sameRequest (app.uiMessageSigning_sameRequest started)⟩
  unfold App.reviewMessage
  rw [Run.returnOn_of_not (not_not.mpr processed), Run.bind_ok, finalized,
    Run.bind_ok]
  exact started

end Review

/-- The message in memory is the part that was received so far. -/
def State.AbsorbsMessage {app : App}
    (absorbed : app.HashContext → List UInt8 → Prop) (path : List UInt32)
    (flags : UInt8) (messageLength : UInt32) (bytes : List UInt8)
    (state : State app) : Prop :=
  app.Absorbs absorbed path flags messageLength bytes
    (app.layout.msg.read state.ctx.req)

section Chunks

variable {app : App} {sha256 : List UInt8 → Bytes 32}
  {absorbed : app.HashContext → List UInt8 → Prop}
  {state : State app} {command : Command}
  {msg : MessageSigningContext app.layout.Shared}

/-- A chunk that is absorbed, with more to come. -/
theorem State.receive_messageMore
    (carries : command.Carries insSignMessage p1 p2More part)
    (p1Cases : p1 = p1First ∨ p1 = p1More)
    (collects : app.messageChunk p1 command.buffer.val command.data
      (app.layout.msg.read state.ctx.req) = .ok msg)
    (absorbs : app.Absorbs absorbed path flags messageLength bytes msg) :
    ∃ next, state.receive command = .ok (next, Output.accepted) ∧
      next.AbsorbsMessage absorbed path flags messageLength bytes := by
  refine ⟨_, State.receive_handled
    ⟨app.layout.msg.write state.ctx.req msg, .response []⟩ ?_, ?_⟩
  · rw [carries.handleSignMessage]
    unfold App.handleSignMessage
    rw [checkChunkParameters_eq p1Cases (Or.inr rfl), Run.bind_ok, collects,
      Run.bind_ok]
    rfl
  · unfold State.AbsorbsMessage
    rw [app.layout.msg.read_write]
    exact absorbs

/-- The last chunk starts the review of the message. -/
theorem State.receive_messageLast
    (streams : app.StreamsSha256 sha256 absorbed)
    (carries : command.Carries insSignMessage p1 p2Last part)
    (p1Cases : p1 = p1First ∨ p1 = p1More)
    (collects : app.messageChunk p1 command.buffer.val command.data
      (app.layout.msg.read state.ctx.req) = .ok msg)
    (absorbs : app.Absorbs absorbed path flags messageLength message msg)
    (whole : message.length = messageLength.toNat) :
    ∃ next shown,
      state.receive command = .ok (next, ⟨none, some (.message shown)⟩) ∧
        next.review = some (.message shown) ∧
        app.layout.msg.read next.ctx.req = shown ∧
        shown.Presents sha256 path flags message := by
  obtain ⟨shown, reviewed, presents⟩ :=
    absorbs.reviewMessage_eq streams whole
  refine ⟨_, shown, State.receive_handled
    ⟨app.layout.msg.write state.ctx.req shown, .review (.message shown)⟩ ?_,
    rfl, app.layout.msg.read_write _ _, presents⟩
  rw [carries.handleSignMessage]
  unfold App.handleSignMessage App.finishMessageChunk
  rw [checkChunkParameters_eq p1Cases (Or.inl rfl), Run.bind_ok, collects,
    Run.bind_ok, if_neg (by decide), reviewed]
  rfl

/-- A further chunk within the length of the message. -/
theorem State.AbsorbsMessage.collects
    (absorbs :
      state.AbsorbsMessage absorbed path flags messageLength bytes)
    (streams : app.StreamsSha256 sha256 absorbed)
    (carries : command.Carries insSignMessage p1More p2 part)
    (within : (bytes ++ part).length ≤ messageLength.toNat) :
    ∃ msg, app.messageChunk p1More command.buffer.val command.data
        (app.layout.msg.read state.ctx.req) = .ok msg ∧
      app.Absorbs absorbed path flags messageLength (bytes ++ part) msg :=
  App.Absorbs.processMessage_eq absorbs streams carries.covers within

/-- Further chunks within the length of the message are accepted. -/
theorem State.AbsorbsMessage.accepts
    (streams : app.StreamsSha256 sha256 absorbed)
    (absorbs :
      state.AbsorbsMessage absorbed path flags messageLength bytes)
    (carries : command.Carries insSignMessage p1More p2More part)
    (within : (bytes ++ part).length ≤ messageLength.toNat) :
    ∃ next, state.receive command = .ok (next, Output.accepted) ∧
      next.AbsorbsMessage absorbed path flags messageLength
        (bytes ++ part) := by
  obtain ⟨msg, collects, msgAbsorbs⟩ :=
    absorbs.collects streams carries within
  exact State.receive_messageMore carries (Or.inr rfl) collects msgAbsorbs

/-- A first chunk within the length of the message. -/
theorem State.absorbs_first
    (state : State app)
    (streams : app.StreamsSha256 sha256 absorbed)
    (carries : command.Carries insSignMessage p1First p2
      (bip32PathBytes path ++ flags :: (u32Bytes messageLength ++ part)))
    (validPath : ValidPath path)
    (within : part.length ≤ messageLength.toNat) :
    ∃ msg, app.messageChunk p1First command.buffer.val command.data
        (app.layout.msg.read state.ctx.req) = .ok msg ∧
      app.Absorbs absorbed path flags messageLength part msg := by
  obtain ⟨started, rest, startEq, startAbsorbs, covers⟩ :=
    App.startMessage_eq (app.layout.msg.read state.ctx.req) streams
      validPath carries.covers
  obtain ⟨msg, processed, absorbs⟩ :=
    startAbsorbs.processMessage_eq streams covers within
  refine ⟨msg, ?_, absorbs⟩
  unfold App.messageChunk
  rw [if_pos rfl, startEq, Run.bind_ok]
  exact processed

/-- A first chunk with more to come is accepted. -/
theorem State.receive_messageFirst
    (state : State app)
    (streams : app.StreamsSha256 sha256 absorbed)
    (carries : command.Carries insSignMessage p1First p2More
      (bip32PathBytes path ++ flags :: (u32Bytes messageLength ++ part)))
    (validPath : ValidPath path)
    (within : part.length ≤ messageLength.toNat) :
    ∃ next, state.receive command = .ok (next, Output.accepted) ∧
      next.AbsorbsMessage absorbed path flags messageLength part := by
  obtain ⟨msg, collects, absorbs⟩ :=
    state.absorbs_first streams carries validPath within
  exact State.receive_messageMore carries (Or.inl rfl) collects absorbs

/-- All chunks of a message are accepted, and its review is started with the
hashes of the message as a whole. -/
theorem signMessage_presents
    (streams : app.StreamsSha256 sha256 absorbed)
    (validPath : ValidPath path)
    (cut : Cut insSignMessage p1First
      ((bip32PathBytes path ++ flags :: (u32Bytes messageLength ++ part)) ::
        parts) commands)
    (whole : (part ++ parts.flatten).length = messageLength.toNat)
    (state : State app) :
    ∃ before last middle next msg, commands = before ++ [last] ∧
      state.Accepts before middle ∧
      middle.receive last = .ok (next, ⟨none, some (.message msg)⟩) ∧
      next.review = some (.message msg) ∧
      app.layout.msg.read next.ctx.req = msg ∧
      msg.Presents sha256 path flags (part ++ parts.flatten) := by
  have partShort : part.length ≤ messageLength.toNat := by
    rw [List.length_append] at whole
    omega
  cases cut with
  | last carries =>
      rename_i command
      obtain ⟨msg, collects, absorbs⟩ :=
        state.absorbs_first streams carries validPath partShort
      rw [List.flatten_nil, List.append_nil] at whole ⊢
      obtain ⟨next, shown, received, onScreen, inMemory, presents⟩ :=
        State.receive_messageLast streams carries (Or.inl rfl) collects
          absorbs whole
      exact ⟨[], command, state, next, shown, rfl, .nil, received, onScreen,
        inMemory, presents⟩
  | more carries rest =>
      rename_i command commands
      obtain ⟨next, received, nextAbsorbs⟩ :=
        state.receive_messageFirst streams carries validPath partShort
      obtain ⟨before, last, lastPart, bytes, middle, rfl, lastCarries,
        accepted, middleAbsorbs, total⟩ :=
        rest.collect (State.AbsorbsMessage.accepts streams) nextAbsorbs
          whole.le
      rw [← total] at whole ⊢
      obtain ⟨lastMsg, lastCollects, lastAbsorbs⟩ :=
        middleAbsorbs.collects streams lastCarries whole.le
      obtain ⟨final, shown, finalReceived, onScreen, inMemory, presents⟩ :=
        State.receive_messageLast streams lastCarries (Or.inr rfl)
          lastCollects lastAbsorbs whole
      exact ⟨command :: before, last, middle, final, shown, rfl,
        .cons received accepted, finalReceived, onScreen, inMemory, presents⟩

end Chunks

section Chunked

variable {app : App} {sha256 : List UInt8 → Bytes 32}
  {absorbed : app.HashContext → List UInt8 → Prop}

/-- However a message is cut, its review is started with the hashes of the
message, and different messages are signed by different bytes. -/
theorem signMessage_chunked
    (streams : app.StreamsSha256 sha256 absorbed)
    (validPath : ValidPath path)
    (bounded : (part :: parts).flatten.length < 2 ^ 32)
    (cut : Cut insSignMessage p1First
      ((bip32PathBytes path ++ flags ::
        (u32Bytes (UInt32.ofNat (part :: parts).flatten.length) ++ part)) ::
          parts) commands)
    (state : State app) :
    (∃ before last middle next msg, commands = before ++ [last] ∧
      state.Accepts before middle ∧
      middle.receive last = .ok (next, ⟨none, some (.message msg)⟩) ∧
      next.review = some (.message msg) ∧
      app.layout.msg.read next.ctx.req = msg ∧
      msg.Presents sha256 path flags (part :: parts).flatten) ∧
    ∀ left right, signedMessage left = signedMessage right → left = right := by
  constructor
  · exact signMessage_presents streams validPath cut
      (UInt32.toNat_ofNat_of_lt' bounded).symm state
  · intro left right
    exact signedMessage_injective

end Chunked

/-- The hash contexts of the sample device are what they absorbed. -/
theorem sampleSdk_streams
    (eddsaSign : List UInt8 → Bytes 64)
    (sha256 : List UInt8 → Bytes 32) :
    (sampleSdk eddsaSign sha256).StreamsSha256 sha256 Eq := by
  constructor
  · rfl
  · rintro context bytes chunk rfl
    exact ⟨_, rfl, rfl⟩
  · rintro context bytes rfl
    exact ⟨_, rfl⟩

open Foundation.Positional (bytesOf bytesOf_length)

/-- A hash by its number. -/
def sampleHash (number : Nat) : Bytes 32 :=
  ⟨bytesOf 32 number, bytesOf_length _ _⟩

/-- The hashes of `Hello` and of the empty message, alone and behind the
prefix. -/
def sampleSha256 (bytes : List UInt8) : Bytes 32 :=
  if bytes = ascii "Hello" then sampleHash
    0x185f8db32271fe25f561a6fc938b2e264306ec304eda518007d1764826381969
  else if bytes = signedMessage (ascii "Hello") then sampleHash
    0x16fa9b665fe592881164d5374e5bee235a31705efdf91f768adf046d688841e8
  else if bytes = [] then sampleHash
    0xe3b0c44298fc1c149afbf4c8996fb92427ae41e4649b934ca495991b7852b855
  else if bytes = signedMessage [] then sampleHash
    0x47d0ddc0c1569ea553e7e21097fcf28271778546d41326d79113dbf4d2ecedaa
  else Bytes.zero

/-- The first part has two characters, the second none. -/
def helloParts : List (List UInt8) :=
  [ascii "He", [], ascii "llo"]

/-- The data of the first chunk. -/
def helloFirst : List UInt8 :=
  bip32PathBytes samplePath ++
    0 :: (u32Bytes (UInt32.ofNat helloParts.flatten.length) ++ ascii "He")

theorem helloFirst_length :
    helloFirst.length ≤ 255 := by
  decide

/-- The commands that carry the parts. -/
def helloChunks : List Command :=
  [.carrying insSignMessage p1First p2More helloFirst helloFirst_length,
    .carrying insSignMessage p1More p2More [] Command.noData_length,
    .carrying insSignMessage p1More p2Last (ascii "llo") (by decide)]

/-- The app that signs the message. -/
def helloApp : App :=
  sampleApp .bagl (fun _ => Bytes.zero) sampleSha256

theorem helloApp_streams : helloApp.StreamsSha256 sampleSha256 Eq :=
  sampleSdk_streams _ _

theorem helloChunks_cut :
    Cut insSignMessage p1First [helloFirst, [], ascii "llo"] helloChunks :=
  .more (Command.carrying_carries _)
    (.more (Command.carrying_carries _)
      (.last (Command.carrying_carries _)))

/-- The hashes of the message are those of `Hello`. -/
theorem signMessage_chunked_hello :
    ∃ before last middle next msg, helloChunks = before ++ [last] ∧
      (State.start helloApp).Accepts before middle ∧
      middle.receive last = .ok (next, ⟨none, some (.message msg)⟩) ∧
      next.review = some (.message msg) ∧
      helloApp.layout.msg.read next.ctx.req = msg ∧
      msg.Presents sampleSha256 samplePath 0 helloParts.flatten :=
  (signMessage_chunked helloApp_streams (by decide) (by decide)
    helloChunks_cut _).1

end NimiqApp
