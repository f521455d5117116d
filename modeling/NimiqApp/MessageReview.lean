import NimiqApp.Globals
import NimiqApp.NormalData

/-!
# The review of a message

A message is shown as text, in hexadecimal or by its hash.  What is shown is
printed into memory that was shared with the hash contexts before.
-/

namespace NimiqApp

/-- The loop of `print_hex` keeps the length of its buffer. -/
theorem printHexLoop_length
    (result : printHexLoop data offset out = .ok text) :
    text.length = out.length := by
  induction data generalizing offset out with
  | nil =>
      cases result
      rfl
  | cons byte data inductionHypothesis =>
      unfold printHexLoop writeAt at result
      split at result
      · rename_i fits
        rw [inductionHypothesis result, overwrite_length fits]
      · cases result

/-- `print_hex` of the first bytes of an array into another one. -/
def printHexOf (array : List UInt8) (length : Nat) (out : Bytes size) :
    Run ErrorCode (Bytes size) := do
  Run.returnOn (size < length * 2 + 1) .invalidLength
  let data ← load array (some 0) length
  match result : printHexLoop data 0 out.val with
  | .ok text => pure ⟨text, (printHexLoop_length result).trans out.property⟩
  | .error stop => .error stop

/-- `LEDGER_ASSERT(call == ERROR_NONE)`. -/
def Run.orAssert : Run ErrorCode α → Run ε α :=
  Run.mapError fun _ => Run.fault .assertion

@[simp] theorem Run.orAssert_eq_ok {run : Run ErrorCode α} :
    (Run.orAssert run : Run ε α) = .ok value ↔ run = .ok value := by
  rcases run with (_ | _) | _ <;> simp [Run.orAssert, Run.mapError]

/-- The loop of `print_hex` succeeds when there is room. -/
theorem printHexLoop_succeeds
    (fits : offset + data.length * 2 + 1 ≤ out.length) :
    ∃ text, printHexLoop data offset out = .ok text := by
  induction data generalizing offset out with
  | nil => exact ⟨out, rfl⟩
  | cons byte data inductionHypothesis =>
      rw [List.length_cons] at fits
      have room : offset + (hexByte byte ++ [0]).length ≤ out.length := by
        simp only [hexByte, List.length_append, List.length_cons,
          List.length_nil]
        omega
      unfold printHexLoop
      rw [writeAt_eq room, Run.bind_ok]
      apply inductionHypothesis
      rw [overwrite_length room]
      omega

/-- The front of an array is loaded. -/
theorem load_front
    {array : List UInt8}
    (within : length ≤ array.length) :
    (load array (some 0) length : Run ε _) = .ok (array.take length) :=
  ((Covers.whole array).front within).load_sub

/-- Printing in hexadecimal succeeds when there is room. -/
theorem printHexOf_succeeds
    (array : List UInt8)
    (length : Nat)
    (out : Bytes size)
    (within : length ≤ array.length)
    (fits : length * 2 + 1 ≤ size) :
    ∃ text, printHexOf array length out = .ok text := by
  obtain ⟨text, printed⟩ : ∃ text,
      printHexLoop (array.take length) 0 out.val = .ok text := by
    apply printHexLoop_succeeds
    rw [List.length_take_of_le within, out.property]
    omega
  unfold printHexOf
  rw [Run.returnOn_of_not (by omega), Run.bind_ok, load_front within,
    Run.bind_ok]
  split
  · exact ⟨_, rfl⟩
  · rename_i stop failed
    rw [printed] at failed
    cases failed

section Prepare

variable {HashContext : Type} (layout : Layout HashContext)

/-- Set the display type. -/
def Layout.setDisplayType (displayType : MessageDisplayType)
    (msg : MessageSigningContext layout.Shared) :
    MessageSigningContext layout.Shared :=
  { msg with
    shared := layout.confirm.modify
      (fun confirm => { confirm with displayType }) msg.shared }

/-- Set the label of what is printed. -/
def Layout.setPrintedMessageLabel (printedMessageLabel : CString)
    (msg : MessageSigningContext layout.Shared) :
    MessageSigningContext layout.Shared :=
  { msg with
    shared := layout.confirm.modify
      (fun confirm => { confirm with printedMessageLabel }) msg.shared }

/-- Print into the buffer of the printed message. -/
def Layout.printMessage
    (print : Bytes printedMessageBufferLength →
      Run ε (Bytes printedMessageBufferLength))
    (msg : MessageSigningContext layout.Shared) :
    Run ε (MessageSigningContext layout.Shared) := do
  let confirm := layout.confirm.read msg.shared
  let printedMessage ← print confirm.printedMessage
  pure { msg with
    shared := layout.confirm.write msg.shared { confirm with printedMessage } }

/-- The message as text, with its terminator. -/
def printMessageText (msg : MessageSigningContext Shared)
    (out : Bytes size) : Run ε (Bytes size) := do
  let message ←
    load msg.printableMessage.val (some 0) msg.messageLength.toNat
  let out ← out.store 0 message
  out.store msg.messageLength.toNat [0]

/-- `ux_message_signing_prepare_printed_message`. -/
def Layout.uxMessageSigningPreparePrintedMessage
    (msg : MessageSigningContext layout.Shared) :
    Run ε (MessageSigningContext layout.Shared) :=
  match (layout.confirm.read msg.shared).displayType with
  | .ascii =>
      layout.printMessage (printMessageText msg)
        (layout.setPrintedMessageLabel (ascii "Message") msg)
  | .hex =>
      layout.printMessage
        (fun out => Run.orAssert (printHexOf msg.printableMessage.val
          msg.messageLength.toUInt16.toNat out))
        (layout.setPrintedMessageLabel (ascii "Message Hex") msg)
  | .hash =>
      layout.printMessage
        (fun out => Run.orAssert (printHexOf msg.messageHash.val 32 out))
        (layout.setPrintedMessageLabel (ascii "Message Hash") msg)

end Prepare

/-- `ui_message_signing`.  The BAGL build prepares the message when its step
is displayed, the NBGL build for all of the review. -/
def App.uiMessageSigning (app : App) (displayType : MessageDisplayType)
    (startAtMessageDisplay : Bool)
    (msg : MessageSigningContext app.layout.Shared) :
    Run ε (MessageSigningContext app.layout.Shared) :=
  let msg := app.layout.setDisplayType displayType msg
  if app.ui = .nbgl ∨ startAtMessageDisplay then
    app.layout.uxMessageSigningPreparePrintedMessage msg
  else pure msg

namespace Bagl

/-- The steps of the message flow that write to memory. -/
inductive MessageStep
  | messageLength
  | message
  | display (displayType : MessageDisplayType)
  deriving DecidableEq, Repr

/-- The message can be displayed in a way. -/
def canDisplay (msg : MessageSigningContext Shared) :
    MessageDisplayType → Bool
  | .ascii => msg.isPrintableAscii
  | .hex => msg.messageLength.toNat ≤ maxPrintableMessageLength
  | .hash => true

/-- The flow offers a step. -/
def offersMessageStep (layout : Layout HashContext)
    (msg : MessageSigningContext layout.Shared) : MessageStep → Bool
  | .messageLength => true
  | .message => true
  | .display displayType =>
      canDisplay msg displayType &&
        (layout.confirm.read msg.shared).displayType ≠ displayType

/-- What a step of the message flow writes. -/
def displayMessageStep (app : App)
    (msg : MessageSigningContext app.layout.Shared) :
    MessageStep → Run ε (MessageSigningContext app.layout.Shared)
  | .messageLength =>
      app.layout.printMessage
        (fun out => out.store 0 (snprintf printedMessageBufferLength
          (printUnsigned msg.messageLength.toNat))) msg
  | .message => app.layout.uxMessageSigningPreparePrintedMessage msg
  | .display displayType => app.uiMessageSigning displayType true msg

end Bagl

/-- Two contexts are those of the same request: they differ at most in the
memory shared between preparation and confirmation. -/
def SameRequest (left right : MessageSigningContext Shared) : Prop :=
  { left with shared := right.shared } = right

namespace SameRequest

theorem refl (msg : MessageSigningContext Shared) : SameRequest msg msg := rfl

theorem trans
    {first second third : MessageSigningContext Shared}
    (left : SameRequest first second)
    (right : SameRequest second third) :
    SameRequest first third := by
  unfold SameRequest at *
  rw [← right, ← left]

end SameRequest

section Frame

variable {HashContext : Type} {layout : Layout HashContext}
  {msg next : MessageSigningContext layout.Shared}

theorem Layout.setDisplayType_sameRequest
    (layout : Layout HashContext)
    (displayType : MessageDisplayType)
    (msg : MessageSigningContext layout.Shared) :
    SameRequest msg (layout.setDisplayType displayType msg) := rfl

theorem Layout.setPrintedMessageLabel_sameRequest
    (layout : Layout HashContext)
    (label : CString)
    (msg : MessageSigningContext layout.Shared) :
    SameRequest msg (layout.setPrintedMessageLabel label msg) := rfl

theorem Layout.printMessage_sameRequest
    {print : Bytes printedMessageBufferLength →
      Run ε (Bytes printedMessageBufferLength)}
    (result : layout.printMessage print msg = .ok next) :
    SameRequest msg next := by
  obtain ⟨_, _, result⟩ := Run.bind_eq_ok.mp result
  cases result
  rfl

/-- Preparing the message keeps the request. -/
theorem Layout.uxMessageSigningPreparePrintedMessage_sameRequest
    (result : (layout.uxMessageSigningPreparePrintedMessage msg : Run ε _) =
      .ok next) :
    SameRequest msg next := by
  unfold Layout.uxMessageSigningPreparePrintedMessage at result
  split at result
  · exact (layout.setPrintedMessageLabel_sameRequest _ msg).trans
      (layout.printMessage_sameRequest result)
  · exact (layout.setPrintedMessageLabel_sameRequest _ msg).trans
      (layout.printMessage_sameRequest result)
  · exact (layout.setPrintedMessageLabel_sameRequest _ msg).trans
      (layout.printMessage_sameRequest result)

end Frame

/-- Starting the review keeps the request. -/
theorem App.uiMessageSigning_sameRequest
    {app : App}
    {msg next : MessageSigningContext app.layout.Shared}
    (result : (app.uiMessageSigning displayType atMessage msg : Run ε _) =
      .ok next) :
    SameRequest msg next := by
  unfold App.uiMessageSigning at result
  split at result
  · exact (app.layout.setDisplayType_sameRequest displayType msg).trans
      (app.layout.uxMessageSigningPreparePrintedMessage_sameRequest result)
  · cases result
    rfl

/-- The steps of the flow keep the request. -/
theorem Bagl.displayMessageStep_sameRequest
    {app : App}
    {msg next : MessageSigningContext app.layout.Shared}
    (result : (displayMessageStep app msg step : Run ε _) = .ok next) :
    SameRequest msg next := by
  cases step with
  | messageLength =>
      unfold displayMessageStep at result
      exact app.layout.printMessage_sameRequest result
  | message =>
      exact app.layout.uxMessageSigningPreparePrintedMessage_sameRequest result
  | display displayType => exact app.uiMessageSigning_sameRequest result

/-- There is room for a short message as text. -/
theorem printMessageText_succeeds
    (msg : MessageSigningContext Shared)
    (out : Bytes printedMessageBufferLength)
    (short : msg.messageLength.toNat ≤ maxPrintableMessageLength) :
    ∃ text, (printMessageText msg out : Run ε _) = .ok text := by
  have room : maxPrintableMessageLength + 1 ≤ printedMessageBufferLength := by
    decide
  have within : msg.messageLength.toNat ≤ msg.printableMessage.val.length := by
    rw [msg.printableMessage.property]
    exact short
  obtain ⟨copied, copy, _⟩ := out.store_eq (ε := ε) 0
    (msg.printableMessage.val.take msg.messageLength.toNat)
    (by rw [List.length_take_of_le within]; omega)
  obtain ⟨text, terminate, _⟩ := copied.store_eq (ε := ε)
    msg.messageLength.toNat [0] (by rw [List.length_singleton]; omega)
  refine ⟨text, ?_⟩
  unfold printMessageText
  rw [load_front within, Run.bind_ok, copy, Run.bind_ok, terminate]

/-- Printing that succeeds for every buffer succeeds. -/
theorem Layout.printMessage_succeeds
    (layout : Layout HashContext)
    (msg : MessageSigningContext layout.Shared)
    {print : Bytes printedMessageBufferLength →
      Run ε (Bytes printedMessageBufferLength)}
    (succeeds : ∀ out, ∃ text, print out = .ok text) :
    ∃ next, layout.printMessage print msg = .ok next := by
  obtain ⟨text, printed⟩ :=
    succeeds (layout.confirm.read msg.shared).printedMessage
  unfold Layout.printMessage
  simp only [printed, Run.bind_ok]
  exact ⟨_, rfl⟩

/-- A message is prepared unless it is too long for how it is displayed. -/
theorem Layout.uxMessageSigningPreparePrintedMessage_succeeds
    (layout : Layout HashContext)
    (msg : MessageSigningContext layout.Shared)
    (displayable :
      (layout.confirm.read msg.shared).displayType ≠ .hash →
        msg.messageLength.toNat ≤ maxPrintableMessageLength) :
    ∃ next, (layout.uxMessageSigningPreparePrintedMessage msg : Run ε _) =
      .ok next := by
  unfold Layout.uxMessageSigningPreparePrintedMessage
  split
  · rename_i isAscii
    apply layout.printMessage_succeeds
    intro out
    exact printMessageText_succeeds msg out (displayable (by simp [isAscii]))
  · rename_i isHex
    have short := displayable (by simp [isHex])
    have narrow : msg.messageLength.toUInt16.toNat =
        msg.messageLength.toNat := by
      rw [UInt32.toNat_toUInt16, Nat.mod_eq_of_lt]
      unfold maxPrintableMessageLength at short
      omega
    apply layout.printMessage_succeeds
    intro out
    obtain ⟨text, printed⟩ := printHexOf_succeeds msg.printableMessage.val
      msg.messageLength.toUInt16.toNat out
      (by rw [narrow, msg.printableMessage.property]; exact short)
      (by
        rw [narrow]
        unfold printedMessageBufferLength
        omega)
    exact ⟨text, Run.orAssert_eq_ok.mpr printed⟩
  · apply layout.printMessage_succeeds
    intro out
    obtain ⟨text, printed⟩ := printHexOf_succeeds msg.messageHash.val 32 out
      (by rw [msg.messageHash.property]) (by decide)
    exact ⟨text, Run.orAssert_eq_ok.mpr printed⟩

/-- The review of a message starts unless the message is too long for how it
is displayed. -/
theorem App.uiMessageSigning_succeeds
    (app : App)
    (msg : MessageSigningContext app.layout.Shared)
    (displayable : displayType ≠ .hash →
      msg.messageLength.toNat ≤ maxPrintableMessageLength) :
    ∃ next, (app.uiMessageSigning displayType atMessage msg : Run ε _) =
      .ok next := by
  unfold App.uiMessageSigning
  simp only
  split
  · apply app.layout.uxMessageSigningPreparePrintedMessage_succeeds
    simpa [Layout.setDisplayType] using displayable
  · exact ⟨_, rfl⟩

end NimiqApp
