import NimiqApp.Foundation.Overlay
import NimiqApp.ParseTx
import NimiqApp.Sdk
import NimiqApp.TransactionReview

/-!
# Global memory

`ctx` holds the request in progress in a union of three contexts, and the
context of message signing holds a union of its own.  What a member reads
that was not written last depends on the layout of the memory, which is a
parameter.
-/

namespace NimiqApp

open Foundation (Member Overlay)

/-- `G_io_apdu_buffer`, for the five bytes of a header and 255 of data. -/
abbrev ApduBuffer := Bytes 260

/-- `publicKeyContext_t`; of the public key its coordinates `W`. -/
structure PublicKeyContext where
  publicKey : Bytes 65
  address : CString
  signature : Bytes 64
  returnSignature : Bool
  deriving DecidableEq

/-- `transactionContext_t`, with the entries of the path. -/
structure TransactionContext where
  bip32Path : List UInt32
  transactionVersion : UInt8
  rawTx : Bytes maxRawTx
  rawTxLength : UInt32
  parsed : ParsedTx
  deriving DecidableEq

/-- The part of `messageSigningContext_t` for preparing the hashes. -/
structure Prepare (HashContext : Type) where
  messageHashContext : HashContext
  prefixedMessageHashContext : HashContext
  deriving DecidableEq

/-- `PRINTED_MESSAGE_BUFFER_LENGTH`. -/
def printedMessageBufferLength : Nat := maxPrintableMessageLength * 2 + 1

/-- The part of `messageSigningContext_t` for the confirmation, as far as it
lies over the hash contexts. -/
structure Confirm where
  displayType : MessageDisplayType
  printedMessageLabel : CString
  printedMessage : Bytes printedMessageBufferLength
  deriving DecidableEq

/-- `messageSigningContext_t`.  A static assertion keeps the two hashes apart
from the memory shared between preparation and confirmation. -/
structure MessageSigningContext (Shared : Type) where
  bip32Path : List UInt32
  messageLength : UInt32
  processedMessageLength : UInt32
  shared : Shared
  messageHash : Bytes 32
  prefixedMessageHash : Bytes 32
  printableMessage : Bytes maxPrintableMessageLength
  isPrintableAscii : Bool
  flags : UInt8
  deriving DecidableEq

def PublicKeyContext.zero : PublicKeyContext where
  publicKey := Bytes.zero
  address := []
  signature := Bytes.zero
  returnSignature := false

/-- A zeroed `parsed_tx_t`. -/
def ParsedTx.zero : ParsedTx where
  typeSpecific := .normalOrStakingOutgoingTx ⟨[], [], []⟩
  transactionType := .normal
  transactionLabelType := .regularTransaction
  value := []
  fee := []
  network := []

def TransactionContext.zero : TransactionContext where
  bip32Path := []
  transactionVersion := 0
  rawTx := Bytes.zero
  rawTxLength := 0
  parsed := ParsedTx.zero

/-- A zeroed context over zeroed shared memory. -/
def MessageSigningContext.zero (shared : Shared) :
    MessageSigningContext Shared where
  bip32Path := []
  messageLength := 0
  processedMessageLength := 0
  shared
  messageHash := Bytes.zero
  prefixedMessageHash := Bytes.zero
  printableMessage := Bytes.zero
  isPrintableAscii := false
  flags := 0

/-- The layout of `ctx.req` and of the union in the context of message
signing. -/
structure Layout (HashContext : Type) where
  /-- The memory of `ctx.req`. -/
  Memory : Type
  zeroed : Memory
  /-- The memory shared between preparation and confirmation. -/
  Shared : Type
  zeroedShared : Shared
  pk : Member Memory PublicKeyContext
  tx : Member Memory TransactionContext
  msg : Member Memory (MessageSigningContext Shared)
  prepare : Member Shared (Prepare HashContext)
  confirm : Member Shared Confirm
  pk_zeroed : pk.read zeroed = .zero
  tx_zeroed : tx.read zeroed = .zero
  msg_zeroed : msg.read zeroed = .zero zeroedShared

/-- `generalContext_t`. -/
structure GeneralContext (Memory : Type) where
  req : Memory
  u2fTimer : UInt16

/-- The app, built for a device with one of the user interfaces. -/
structure App extends Sdk where
  ui : UserInterface
  layout : Layout HashContext

open Foundation.Positional (bytesOf bytesOf_length)

/-- The coordinates of the sample public key. -/
def sampleCoordinates : Bytes 65 :=
  ⟨[4] ++ bytesOf 32
      0x46245f205a652df33c162aaed0c6fb5f9107ec0f1b8d9527b18c8a112ce861f4 ++
    bytesOf 32
      0x1cd7d3f828d55507568cad44ca550d8db9c1cb6103e866d6c245d44ecaf8206b,
    by simp⟩

/-- The sample device with the key of one path, its signatures and hashes of
the bytes absorbed before. -/
def sampleSdk (eddsaSign : List UInt8 → Bytes 64)
    (sha256 : List UInt8 → Bytes 32) : Sdk where
  toDevice := sampleDevice
  PrivateKey := Unit
  derivePrivateKey _ := some ()
  generatePair _ := some sampleCoordinates
  eddsaSign _ message := some (eddsaSign message)
  temporaryCoordinates := 8
  temporaryCoordinates_fits := by decide
  HashContext := List UInt8
  sha256Init := []
  hashUpdate absorbed bytes := some (absorbed ++ bytes)
  hashFinal absorbed := some (absorbed, sha256 absorbed)

/-- The first bytes of other memory, with zeros behind them. -/
def Bytes.over (bytes : List UInt8) : Bytes size :=
  ⟨(bytes ++ zeroBytes size).take size, by simp [zeroBytes]⟩

/-- The parts of the context of message signing that share memory. -/
inductive SharedPart
  | prepare
  | confirm
  deriving DecidableEq

/-- The type of a part, with the bytes absorbed as the state of a hash. -/
abbrev SharedPart.Value : SharedPart → Type
  | .prepare => Prepare (List UInt8)
  | .confirm => Confirm

instance : ∀ part : SharedPart, DecidableEq part.Value
  | .prepare => inferInstanceAs (DecidableEq (Prepare (List UInt8)))
  | .confirm => inferInstanceAs (DecidableEq Confirm)

/-- The printed texts lie over the bytes absorbed. -/
def sampleShared : Overlay SharedPart.Value where
  view
    | .prepare, .prepare, prepare => prepare
    | .prepare, .confirm, prepare => {
        displayType := .ascii
        printedMessageLabel := prepare.prefixedMessageHashContext
        printedMessage := Bytes.over prepare.messageHashContext }
    | .confirm, .prepare, confirm => {
        messageHashContext := confirm.printedMessage.val
        prefixedMessageHashContext := confirm.printedMessageLabel }
    | .confirm, .confirm, confirm => confirm
  view_self part _ := by cases part <;> rfl

/-- The contexts that share the memory of `ctx.req`. -/
inductive RequestContext
  | pk
  | tx
  | msg
  deriving DecidableEq

/-- The type of a context. -/
abbrev RequestContext.Value : RequestContext → Type
  | .pk => PublicKeyContext
  | .tx => TransactionContext
  | .msg => MessageSigningContext (Sigma SharedPart.Value)

instance : ∀ context : RequestContext, DecidableEq context.Value
  | .pk => inferInstanceAs (DecidableEq PublicKeyContext)
  | .tx => inferInstanceAs (DecidableEq TransactionContext)
  | .msg => inferInstanceAs
      (DecidableEq (MessageSigningContext (Sigma SharedPart.Value)))

/-- The shared memory of the sample app before it is written. -/
def sampleZeroedShared : Sigma SharedPart.Value :=
  ⟨.prepare, [], []⟩

/-- The paths lie over each other, and so do the public key, the transaction
and the message; all else reads as zeros. -/
def sampleRequest : Overlay RequestContext.Value where
  view
    | .pk, .pk, pk => pk
    | .pk, .tx, pk => { TransactionContext.zero with
        rawTx := Bytes.over pk.publicKey.val }
    | .pk, .msg, pk => { MessageSigningContext.zero sampleZeroedShared with
        printableMessage := Bytes.over pk.publicKey.val }
    | .tx, .pk, tx => { PublicKeyContext.zero with
        publicKey := Bytes.over tx.rawTx.val }
    | .tx, .tx, tx => tx
    | .tx, .msg, tx => { MessageSigningContext.zero sampleZeroedShared with
        bip32Path := tx.bip32Path
        printableMessage := Bytes.over tx.rawTx.val }
    | .msg, .pk, msg => { PublicKeyContext.zero with
        publicKey := Bytes.over msg.printableMessage.val }
    | .msg, .tx, msg => { TransactionContext.zero with
        bip32Path := msg.bip32Path
        rawTx := Bytes.over msg.printableMessage.val }
    | .msg, .msg, msg => msg
  view_self context _ := by cases context <;> rfl

/-- The layout of the sample app. -/
def sampleLayout : Layout (List UInt8) where
  Memory := Sigma RequestContext.Value
  zeroed := ⟨.pk, .zero⟩
  Shared := Sigma SharedPart.Value
  zeroedShared := sampleZeroedShared
  pk := sampleRequest.member .pk
  tx := sampleRequest.member .tx
  msg := sampleRequest.member .msg
  prepare := sampleShared.member .prepare
  confirm := sampleShared.member .confirm
  pk_zeroed := rfl
  tx_zeroed := rfl
  msg_zeroed := rfl

/-- An app on the sample device. -/
def sampleApp (ui : UserInterface) (eddsaSign : List UInt8 → Bytes 64)
    (sha256 : List UInt8 → Bytes 32) : App where
  toSdk := sampleSdk eddsaSign sha256
  ui
  layout := sampleLayout

/-- The path of the sample public key. -/
def samplePath : List UInt32 :=
  [0x8000002C, 0x800000F2, 0x80000000, 0x80000000]

end NimiqApp
