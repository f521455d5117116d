import NimiqApp.TransactionRequest

/-!
# Signing messages

`handle_sign_message` hashes the chunks of a message as they come, alone and
behind the prefix of signed messages, and starts the review of the message.
`on_message_approved` signs the hash of the prefixed message.
-/

namespace NimiqApp

section Chunks

variable (app : App)

/-- The contexts of the hashes before the first byte of the message: the
second one has absorbed the prefix with the length of the message. -/
def App.prepareHashes (messageLength : UInt32) :
    Run StatusWord (Prepare app.HashContext) := do
  let prefixedMessageHashContext ←
    cryptography (app.hashUpdate app.sha256Init messageSigningPrefix)
  let decimalMessageLength :=
    cString (snprintf stringLengthUint32 (printUnsigned messageLength.toNat))
  let prefixedMessageHashContext ←
    cryptography (app.hashUpdate prefixedMessageHashContext
      decimalMessageLength)
  pure ⟨app.sha256Init, prefixedMessageHashContext⟩

/-- The start of the first chunk: path, flags and length of the message. -/
def App.startMessage (buffer : List UInt8) (data : Slice)
    (msg : MessageSigningContext app.layout.Shared) :
    Run StatusWord (MessageSigningContext app.layout.Shared × Slice) := do
  let (bip32Path, data) ←
    Run.orReturn .wrongDataLength (readBip32Path buffer data)
  let (flags, data) ← Run.orReturn .wrongDataLength (readU8 buffer data)
  let (messageLength, data) ←
    Run.orReturn .wrongDataLength (readU32 buffer data)
  let prepare ← app.prepareHashes messageLength
  pure ({ msg with
    bip32Path, flags, messageLength
    processedMessageLength := 0
    isPrintableAscii := messageLength.toNat ≤ maxPrintableMessageLength
    shared := app.layout.prepare.write msg.shared prepare }, data)

/-- The copy of a message that can be printed. -/
def copyPrintableMessage (chunk : List UInt8)
    (msg : MessageSigningContext Shared) :
    Run ε (MessageSigningContext Shared) :=
  if msg.messageLength.toNat ≤ maxPrintableMessageLength then do
    let printableMessage ←
      msg.printableMessage.store msg.processedMessageLength.toNat chunk
    pure { msg with
      printableMessage
      isPrintableAscii := msg.isPrintableAscii && isPrintableAscii chunk }
  else pure msg

/-- Both hashes absorb a chunk. -/
def App.hashMessage (chunk : List UInt8)
    (msg : MessageSigningContext app.layout.Shared) :
    Run StatusWord (MessageSigningContext app.layout.Shared) := do
  let prepare := app.layout.prepare.read msg.shared
  let messageHashContext ←
    cryptography (app.hashUpdate prepare.messageHashContext chunk)
  let prefixedMessageHashContext ←
    cryptography (app.hashUpdate prepare.prefixedMessageHashContext chunk)
  pure { msg with
    shared := app.layout.prepare.write msg.shared
      ⟨messageHashContext, prefixedMessageHashContext⟩ }

/-- The bytes of the message in a chunk.  The sum of the lengths is computed
in 32 bits. -/
def App.processMessage (buffer : List UInt8) (data : Slice)
    (msg : MessageSigningContext app.layout.Shared) :
    Run StatusWord (MessageSigningContext app.layout.Shared) :=
  if data.length ≠ 0 then do
    let processedMessageLength :=
      msg.processedMessageLength + UInt32.ofNat data.length
    Run.returnOn (processedMessageLength > msg.messageLength) .wrongDataLength
    let chunk ← load buffer data.pointer data.length
    let msg ← copyPrintableMessage chunk msg
    let msg ← app.hashMessage chunk msg
    pure { msg with processedMessageLength }
  else pure msg

/-- The first or a further chunk, as the first parameter says. -/
def App.messageChunk (p1 : UInt8) (buffer : List UInt8) (data : Slice)
    (msg : MessageSigningContext app.layout.Shared) :
    Run StatusWord (MessageSigningContext app.layout.Shared) :=
  if p1 = p1First then do
    let (msg, data) ← app.startMessage buffer data msg
    app.processMessage buffer data msg
  else app.processMessage buffer data msg

/-- How a message is displayed at first. -/
def preferredDisplayType (msg : MessageSigningContext Shared) :
    MessageDisplayType :=
  if msg.isPrintableAscii ∧ msg.flags &&&
      (messageFlagPreferDisplayTypeHex ||| messageFlagPreferDisplayTypeHash) =
        0 then
    .ascii
  else if msg.messageLength.toNat ≤ maxPrintableMessageLength ∧
      msg.flags &&& messageFlagPreferDisplayTypeHash = 0 then
    .hex
  else .hash

/-- Both hashes, once all of the message was processed. -/
def App.finalizeHashes (msg : MessageSigningContext app.layout.Shared) :
    Run StatusWord (MessageSigningContext app.layout.Shared) := do
  let prepare := app.layout.prepare.read msg.shared
  let (messageHashContext, messageHash) ←
    cryptography (app.hashFinal prepare.messageHashContext)
  let (prefixedMessageHashContext, prefixedMessageHash) ←
    cryptography (app.hashFinal prepare.prefixedMessageHashContext)
  pure { msg with
    messageHash, prefixedMessageHash
    shared := app.layout.prepare.write msg.shared
      ⟨messageHashContext, prefixedMessageHashContext⟩ }

/-- Hash the message and start its review. -/
def App.reviewMessage (msg : MessageSigningContext app.layout.Shared) :
    Run StatusWord (MessageSigningContext app.layout.Shared) := do
  Run.returnOn (msg.processedMessageLength ≠ msg.messageLength)
    .wrongDataLength
  let msg ← app.finalizeHashes msg
  app.uiMessageSigning (preferredDisplayType msg) false msg

/-- The end of a chunk: the review of the message after the last one. -/
def App.finishMessageChunk (p2 : UInt8) (req : app.layout.Memory)
    (msg : MessageSigningContext app.layout.Shared) :
    Run StatusWord (Handled app) :=
  if p2 = p2More then
    pure ⟨app.layout.msg.write req msg, .response []⟩
  else do
    let msg ← app.reviewMessage msg
    pure ⟨app.layout.msg.write req msg, .review (.message msg)⟩

/-- `handle_sign_message`. -/
def App.handleSignMessage (p1 p2 : UInt8) (buffer : List UInt8)
    (data : Slice) (req : app.layout.Memory) :
    Run StatusWord (Handled app) := do
  checkChunkParameters p1 p2
  let msg ← app.messageChunk p1 buffer data (app.layout.msg.read req)
  app.finishMessageChunk p2 req msg

end Chunks

/-- The signature of `on_message_approved`. -/
def Sdk.signMessage (sdk : Sdk) (msg : MessageSigningContext Shared) :
    Run StatusWord (Bytes 64) := do
  let privateKey ← cryptography (sdk.derivePrivateKey msg.bip32Path)
  cryptography (sdk.eddsaSign privateKey msg.prefixedMessageHash.val)

/-- `on_message_approved`. -/
def Sdk.onMessageApproved (sdk : Sdk) (msg : MessageSigningContext Shared) :
    Run Empty Reply :=
  match sdk.signMessage msg with
  | .ok signature => pure (ioFinalizeAsyncReply signature.val .ok)
  | .error (.error sw) => pure (ioFinalizeAsyncReply [] sw)
  | .error (.fault reason) => Run.fault reason

/-- What is signed is in a message context outside of the memory shared with
the review. -/
theorem Sdk.onMessageApproved_sameRequest
    {sdk : Sdk}
    {left right : MessageSigningContext Shared}
    (same : SameRequest left right) :
    sdk.onMessageApproved left = sdk.onMessageApproved right := by
  rw [← same]
  rfl

end NimiqApp
