import NimiqApp.MessageHash

/-!
# How a message is displayed

The message, its hexadecimal digits or those of its hash are printed into a
buffer that earlier steps of the review and the hash contexts used before.
Every way of printing writes a terminator, but printing nothing in
hexadecimal writes nothing at all.
-/

namespace NimiqApp

/-- The string in a buffer, which is terminated within it. -/
def HoldsText (buffer : List UInt8) (text : CString) : Prop :=
  (0 : UInt8) ∈ buffer ∧ cString buffer = text

theorem HoldsText.of_append
    (noTerminator : (0 : UInt8) ∉ text)
    (bufferEq : buffer = text ++ 0 :: rest) :
    HoldsText buffer text := by
  rw [bufferEq]
  exact ⟨by simp, cString_append_zero noTerminator⟩

/-- `print_hex` of the front of an array. -/
theorem printHexOf_inversion
    (result : printHexOf array length out = .ok text)
    (within : length ≤ array.length) :
    length * 2 + 1 ≤ out.val.length ∧
      printHexLoop (array.take length) 0 out.val = .ok text.val := by
  unfold printHexOf at result
  obtain ⟨_, fits, result⟩ := Run.bind_eq_ok.mp result
  obtain ⟨data, loaded, result⟩ := Run.bind_eq_ok.mp result
  rw [load_front within] at loaded
  cases loaded
  refine ⟨?_, ?_⟩
  · have room := Run.returnOn_eq_ok.mp fits
    rw [out.property]
    omega
  · split at result
    · rename_i printed
      cases result
      exact printed
    · cases result

/-- Printing something in hexadecimal replaces what is in the buffer. -/
theorem printHexOf_holds
    (result : printHexOf array length out = .ok text)
    (within : length ≤ array.length)
    (nonempty : 0 < length) :
    HoldsText text.val (hexText (array.take length)) := by
  obtain ⟨fits, printed⟩ := printHexOf_inversion result within
  have size := List.length_take_of_le within
  have loop := printHexLoop_eq (array.take length) []
    (out.val.take (2 * length + 1)) (out.val.drop (2 * length + 1))
    (by
      intro empty
      rw [empty, List.length_nil] at size
      omega)
    (by
      rw [size, List.length_take]
      omega)
  rw [List.nil_append, List.take_append_drop, List.length_nil, printed]
    at loop
  exact HoldsText.of_append (hexText_no_terminator _)
    (Except.ok.inj loop)

/-- Printing nothing in hexadecimal leaves the buffer as it was. -/
theorem printHexOf_zero
    (result : printHexOf array 0 out = .ok text) : text = out := by
  have printed := (printHexOf_inversion result (Nat.zero_le _)).2
  rw [List.take_zero] at printed
  exact Subtype.ext (Except.ok.inj printed).symm

/-- The text for each way of displaying a message. -/
def messageText (messageHash : Bytes 32) (message : List UInt8) :
    MessageDisplayType → CString
  | .ascii => message
  | .hex => hexText message
  | .hash => hexText messageHash.val

/-- Printing that leaves the buffer as it was. -/
def PrintsNothing (message : List UInt8) (displayType : MessageDisplayType) :
    Prop :=
  displayType = .hex ∧ message = []

section Prepare

variable {HashContext : Type} {layout : Layout HashContext}
  {msg : MessageSigningContext layout.Shared}

/-- What is displayed of a message. -/
def Layout.printed (layout : Layout HashContext)
    (msg : MessageSigningContext layout.Shared) : List UInt8 :=
  (layout.confirm.read msg.shared).printedMessage.val

/-- How a message is displayed. -/
def Layout.displayType (layout : Layout HashContext)
    (msg : MessageSigningContext layout.Shared) : MessageDisplayType :=
  (layout.confirm.read msg.shared).displayType

/-- The message is shown the way it is displayed. -/
def Layout.Shows (layout : Layout HashContext) (message : List UInt8)
    (msg : MessageSigningContext layout.Shared) : Prop :=
  HoldsText (layout.printed msg)
    (messageText msg.messageHash message (layout.displayType msg))

/-- A way of preparing a message succeeds for the same request, and shows
the message under a condition. -/
def Layout.Prepares (layout : Layout HashContext) (message : List UInt8)
    (condition : Prop) (msg : MessageSigningContext layout.Shared)
    (run : Run ε (MessageSigningContext layout.Shared)) : Prop :=
  ∃ next, run = .ok next ∧ SameRequest msg next ∧
    layout.displayType next = layout.displayType msg ∧
    (layout.Shows message next ↔ condition)

/-- Printing behind a label, which has memory of its own. -/
theorem Layout.prepares_of_print
    (label : CString)
    {print : Bytes printedMessageBufferLength →
      Run ε (Bytes printedMessageBufferLength)}
    (printed : print (layout.confirm.read msg.shared).printedMessage =
      .ok text)
    (shows : HoldsText text.val (messageText msg.messageHash message
      (layout.displayType msg)) ↔ condition) :
    layout.Prepares message condition msg
      (layout.printMessage print
        (layout.setPrintedMessageLabel label msg)) := by
  unfold Layout.printMessage Layout.setPrintedMessageLabel
  simp only [layout.confirm.read_modify]
  rw [printed, Run.bind_ok]
  refine ⟨_, rfl, rfl, ?_, ?_⟩
  · unfold Layout.displayType
    rw [layout.confirm.read_write]
  · unfold Layout.Shows Layout.printed Layout.displayType
    rw [layout.confirm.read_write]
    exact shows

/-- A short message is printed with its terminator. -/
theorem printMessageText_eq
    (presents : msg.Presents sha256 path preferences message)
    (short : message.length ≤ maxPrintableMessageLength)
    (out : Bytes printedMessageBufferLength) :
    ∃ text rest, (printMessageText msg out : Run ε _) = .ok text ∧
      text.val = message ++ 0 :: rest := by
  have room : maxPrintableMessageLength + 1 ≤ printedMessageBufferLength := by
    decide
  have within : message.length ≤ msg.printableMessage.val.length := by
    rw [msg.printableMessage.property]
    exact short
  obtain ⟨copied, behind, copy, copiedEq⟩ :=
    Bytes.store_append (ε := ε) (List.nil_append out.val).symm
      (by rw [List.nil_append]; omega : ([] ++ message).length ≤ _)
  obtain ⟨text, rest, terminate, textEq⟩ :=
    Bytes.store_append (ε := ε) copiedEq
      (by simp; omega : ([] ++ message ++ [0]).length ≤ _)
  rw [List.nil_append, List.append_assoc] at textEq
  refine ⟨text, rest, ?_, textEq⟩
  rw [List.length_nil] at copy
  rw [List.nil_append] at terminate
  unfold printMessageText
  rw [presents.messageLength, load_front within, Run.bind_ok,
    presents.printable short, copy, Run.bind_ok, terminate]

/-- A short message is shown as text. -/
theorem Layout.prepares_ascii
    (presents : msg.Presents sha256 path preferences message)
    (isAscii : layout.displayType msg = .ascii)
    (printable : msg.isPrintableAscii = true) :
    layout.Prepares message True msg
      (layout.printMessage (printMessageText msg)
        (layout.setPrintedMessageLabel label msg) : Run ε _) := by
  obtain ⟨short, characters⟩ := presents.printableAscii.mp printable
  obtain ⟨text, rest, printed, textEq⟩ :=
    printMessageText_eq (ε := ε) presents short
      (layout.confirm.read msg.shared).printedMessage
  apply layout.prepares_of_print label printed
  rw [isAscii, iff_true]
  refine HoldsText.of_append ?_ textEq
  intro terminator
  exact absurd (characters 0 terminator).1 (by decide)

/-- The bytes of an array are shown in hexadecimal, if there are any. -/
theorem Layout.prepares_printHex
    (msg : MessageSigningContext layout.Shared)
    (message : List UInt8)
    (label : CString)
    (array : List UInt8)
    (length : Nat)
    (within : length ≤ array.length)
    (fits : length * 2 + 1 ≤ printedMessageBufferLength)
    (textEq : messageText msg.messageHash message (layout.displayType msg) =
      hexText (array.take length)) :
    layout.Prepares message
      (length = 0 → HoldsText (layout.printed msg) []) msg
      (layout.printMessage
        (fun out => Run.orAssert (printHexOf array length out))
        (layout.setPrintedMessageLabel label msg) : Run ε _) := by
  obtain ⟨text, printed⟩ := printHexOf_succeeds array length
    (layout.confirm.read msg.shared).printedMessage within fits
  apply layout.prepares_of_print label (Run.orAssert_eq_ok.mpr printed)
  rw [textEq]
  rcases Nat.eq_zero_or_pos length with isZero | nonempty
  · subst isZero
    rw [printHexOf_zero printed, List.take_zero]
    exact ⟨fun holds _ => holds, fun holds => holds rfl⟩
  · exact ⟨fun _ isZero => absurd isZero (Nat.ne_of_gt nonempty),
      fun _ => printHexOf_holds printed within nonempty⟩

/-- Preparing a message shows it, unless nothing is printed in hexadecimal
and the buffer does not hold the empty string already. -/
theorem Layout.uxMessageSigningPreparePrintedMessage_prepares
    (presents : msg.Presents sha256 path preferences message)
    (displayable : Bagl.canDisplay msg (layout.displayType msg) = true) :
    layout.Prepares message
      (PrintsNothing message (layout.displayType msg) →
        HoldsText (layout.printed msg) []) msg
      (layout.uxMessageSigningPreparePrintedMessage msg : Run ε _) := by
  have size := presents.messageLength
  have buffer : maxPrintableMessageLength * 2 + 1 =
    printedMessageBufferLength := rfl
  unfold Layout.uxMessageSigningPreparePrintedMessage PrintsNothing
  rcases typeEq : layout.displayType msg with _ | _ | _ <;>
    rw [typeEq] at displayable <;>
    rw [show (layout.confirm.read msg.shared).displayType = _ from typeEq]
  · rw [show ((MessageDisplayType.ascii = .hex ∧ message = []) →
      HoldsText (layout.printed msg) []) = True by simp]
    exact layout.prepares_ascii presents typeEq displayable
  · have short : message.length ≤ maxPrintableMessageLength :=
      size ▸ of_decide_eq_true displayable
    have narrow : msg.messageLength.toUInt16.toNat = message.length := by
      rw [UInt32.toNat_toUInt16, size, Nat.mod_eq_of_lt]
      unfold maxPrintableMessageLength at short
      omega
    simp only [narrow]
    have prepares := layout.prepares_printHex (ε := ε) msg message
      (ascii "Message Hex") msg.printableMessage.val message.length
      (by rw [msg.printableMessage.property]; exact short) (by omega)
      (by rw [typeEq, presents.printable short]; rfl)
    simpa [List.length_eq_zero_iff] using prepares
  · have prepares := layout.prepares_printHex (ε := ε) msg message
      (ascii "Message Hash") msg.messageHash.val 32
      (by rw [msg.messageHash.property]) (by decide)
      (by
        rw [typeEq, List.take_of_length_le (by rw [msg.messageHash.property])]
        rfl)
    simpa using prepares

end Prepare

/-- The messages that can be displayed in a way. -/
def DisplayPermitted (message : List UInt8) : MessageDisplayType → Prop
  | .ascii => message.length ≤ maxPrintableMessageLength ∧
      ∀ byte ∈ message, 32 ≤ byte.toNat ∧ byte.toNat ≤ 126
  | .hex => message.length ≤ maxPrintableMessageLength
  | .hash => True

namespace Bagl

/-- The way a step prepares the message for, if it does. -/
def preparedType (layout : Layout HashContext)
    (msg : MessageSigningContext layout.Shared) :
    MessageStep → Option MessageDisplayType
  | .messageLength => none
  | .message => some (layout.displayType msg)
  | .display displayType => some displayType

/-- The contexts after steps that the flow offered one after the other. -/
inductive Visits (app : App)
    (started : MessageSigningContext app.layout.Shared) :
    MessageSigningContext app.layout.Shared → Prop
  | started : Visits app started started
  | visit {current next : MessageSigningContext app.layout.Shared}
      (visits : Visits app started current)
      (offered : offersMessageStep app.layout current step = true)
      (displayed :
        (displayMessageStep app current step : Run Empty _) = .ok next) :
      Visits app started next

end Bagl

section Flow

variable {app : App}
  {msg current : MessageSigningContext app.layout.Shared}

/-- Whether a message can be displayed in a way does not change. -/
theorem Bagl.canDisplay_sameRequest
    (same : SameRequest msg current)
    (displayType : MessageDisplayType) :
    canDisplay current displayType = canDisplay msg displayType := by
  rw [← same]
  rfl

/-- The flow offers the ways in which a message can be displayed. -/
theorem Bagl.canDisplay_iff
    (presents : msg.Presents sha256 path preferences message) :
    canDisplay msg displayType = true ↔
      DisplayPermitted message displayType := by
  cases displayType with
  | ascii => exact presents.printableAscii
  | hex =>
      unfold canDisplay DisplayPermitted
      rw [decide_eq_true_iff, presents.messageLength]
  | hash => exact iff_of_true rfl trivial

/-- The message can be displayed the way that is preferred at first. -/
theorem Bagl.canDisplay_preferred
    (msg : MessageSigningContext app.layout.Shared) :
    canDisplay msg (preferredDisplayType msg) = true := by
  unfold preferredDisplayType
  split_ifs with asAscii asHex
  · exact asAscii.1
  · exact decide_eq_true asHex.1
  · rfl

/-- The length of a message is printed whatever it is. -/
theorem Bytes.store_snprintf
    (out : Bytes printedMessageBufferLength)
    (text : CString) :
    ∃ stored, (out.store 0 (snprintf printedMessageBufferLength text) :
      Run ε _) = .ok stored := by
  obtain ⟨stored, result, _⟩ := out.store_eq (ε := ε) 0
    (snprintf printedMessageBufferLength text) (by
      rw [Nat.zero_add]
      exact snprintf_length_le (by decide))
  exact ⟨stored, result⟩

/-- Printing keeps the way a message is displayed. -/
theorem Layout.printMessage_displayType
    {print : Bytes printedMessageBufferLength →
      Run ε (Bytes printedMessageBufferLength)}
    {layout : Layout HashContext}
    {msg next : MessageSigningContext layout.Shared}
    (result : layout.printMessage print msg = .ok next) :
    layout.displayType next = layout.displayType msg := by
  obtain ⟨_, _, result⟩ := Run.bind_eq_ok.mp result
  cases result
  unfold Layout.displayType
  rw [layout.confirm.read_write]

/-- Preparing a message in some way. -/
theorem App.prepares_displayType
    (presents : msg.Presents sha256 path preferences message)
    (displayable : Bagl.canDisplay msg displayType = true) :
    ∃ next,
      (app.layout.uxMessageSigningPreparePrintedMessage
        (app.layout.setDisplayType displayType msg) : Run ε _) = .ok next ∧
      SameRequest msg next ∧ app.layout.displayType next = displayType ∧
      (app.layout.Shows message next ↔
        (PrintsNothing message displayType →
          HoldsText (app.layout.printed msg) [])) := by
  have typed : app.layout.displayType
      (app.layout.setDisplayType displayType msg) = displayType := by
    unfold Layout.displayType Layout.setDisplayType
    rw [app.layout.confirm.read_modify]
  have printed : app.layout.printed
      (app.layout.setDisplayType displayType msg) =
        app.layout.printed msg := by
    unfold Layout.printed Layout.setDisplayType
    rw [app.layout.confirm.read_modify]
  have same := app.layout.setDisplayType_sameRequest displayType msg
  obtain ⟨next, result, nextSame, nextType, shows⟩ :=
    app.layout.uxMessageSigningPreparePrintedMessage_prepares (ε := ε)
      (presents.sameRequest same) (by
        rw [typed, Bagl.canDisplay_sameRequest same]
        exact displayable)
  rw [typed, printed] at shows
  exact ⟨next, result, same.trans nextSame, nextType.trans typed, shows⟩

/-- Every step of the flow that is offered is displayed, and shows the
message if it is prepared. -/
theorem Bagl.displayMessageStep_eq
    (presents : msg.Presents sha256 path preferences message)
    (displayable :
      canDisplay msg (app.layout.displayType msg) = true)
    (offered : offersMessageStep app.layout msg step = true) :
    ∃ next, (displayMessageStep app msg step : Run ε _) = .ok next ∧
      SameRequest msg next ∧
      canDisplay next (app.layout.displayType next) = true ∧
      ∀ displayType, preparedType app.layout msg step = some displayType →
        app.layout.displayType next = displayType ∧
        DisplayPermitted message displayType ∧
        (app.layout.Shows message next ↔
          (PrintsNothing message displayType →
            HoldsText (app.layout.printed msg) [])) := by
  cases step with
  | messageLength =>
      obtain ⟨next, result⟩ := app.layout.printMessage_succeeds (ε := ε) msg
        fun out => out.store_snprintf (printUnsigned msg.messageLength.toNat)
      refine ⟨next, result, app.layout.printMessage_sameRequest result, ?_,
        ?_⟩
      · rw [canDisplay_sameRequest
            (app.layout.printMessage_sameRequest result),
          app.layout.printMessage_displayType result]
        exact displayable
      · rintro displayType ⟨⟩
  | message =>
      obtain ⟨next, result, same, sameType, shows⟩ :=
        app.layout.uxMessageSigningPreparePrintedMessage_prepares (ε := ε)
          presents displayable
      refine ⟨next, result, same, ?_, ?_⟩
      · rw [canDisplay_sameRequest same, sameType]
        exact displayable
      · rintro displayType ⟨⟩
        exact ⟨sameType, (canDisplay_iff presents).mp displayable, shows⟩
  | display displayType =>
      have permitted := (Bool.and_eq_true _ _ ▸ offered :
        canDisplay msg displayType = true ∧ _).1
      obtain ⟨next, result, same, nextType, shows⟩ :=
        app.prepares_displayType (ε := ε) presents permitted
      refine ⟨next, ?_, same, ?_, ?_⟩
      · unfold displayMessageStep App.uiMessageSigning
        simp only
        rw [if_pos (Or.inr trivial)]
        exact result
      · rw [canDisplay_sameRequest same, nextType]
        exact permitted
      · rintro _ ⟨⟩
        exact ⟨nextType, (canDisplay_iff presents).mp permitted, shows⟩

/-- The steps that were visited keep the request, and leave a way of
displaying the message that is possible. -/
theorem Bagl.Visits.invariant
    (visits : Visits app msg current)
    (presents : msg.Presents sha256 path preferences message)
    (displayable : canDisplay msg (app.layout.displayType msg) = true) :
    SameRequest msg current ∧
      canDisplay current (app.layout.displayType current) = true := by
  induction visits with
  | started => exact ⟨SameRequest.refl msg, displayable⟩
  | visit _ offered displayed inductionHypothesis =>
      obtain ⟨same, possible⟩ := inductionHypothesis
      obtain ⟨next, result, nextSame, nextPossible, _⟩ :=
        displayMessageStep_eq (ε := Empty) (presents.sameRequest same)
          possible offered
      rw [displayed] at result
      cases result
      exact ⟨same.trans nextSame, nextPossible⟩

end Flow

section Shown

variable {app : App}

/-- The review of a message starts, its flow displays every step it offers,
and what is prepared is the message, in a way that is permitted for it, for
the same request.  Only when nothing is printed in hexadecimal it depends on
the buffer whether that is shown. -/
theorem messageShown
    {msg : MessageSigningContext app.layout.Shared}
    (presents : msg.Presents sha256 path preferences message) :
    ∃ started,
      (app.uiMessageSigning (preferredDisplayType msg) false msg :
        Run StatusWord _) = .ok started ∧
      SameRequest msg started ∧
      app.layout.displayType started = preferredDisplayType msg ∧
      DisplayPermitted message (preferredDisplayType msg) ∧
      (app.ui = .nbgl →
        (app.layout.Shows message started ↔
          (PrintsNothing message (preferredDisplayType msg) →
            HoldsText (app.layout.printed msg) []))) ∧
      ∀ current, Bagl.Visits app started current → ∀ step,
        Bagl.offersMessageStep app.layout current step = true →
        ∃ next,
          (Bagl.displayMessageStep app current step : Run Empty _) =
            .ok next ∧
          SameRequest msg next ∧
          ∀ displayType,
            Bagl.preparedType app.layout current step = some displayType →
            app.layout.displayType next = displayType ∧
            DisplayPermitted message displayType ∧
            (app.layout.Shows message next ↔
              (PrintsNothing message displayType →
                HoldsText (app.layout.printed current) [])) := by
  have permitted := (Bagl.canDisplay_iff presents).mp
    (Bagl.canDisplay_preferred msg)
  obtain ⟨started, result, same, startedType, shows⟩ : ∃ started,
      (app.uiMessageSigning (preferredDisplayType msg) false msg :
        Run StatusWord _) = .ok started ∧
      SameRequest msg started ∧
      app.layout.displayType started = preferredDisplayType msg ∧
      (app.ui = .nbgl →
        (app.layout.Shows message started ↔
          (PrintsNothing message (preferredDisplayType msg) →
            HoldsText (app.layout.printed msg) []))) := by
    unfold App.uiMessageSigning
    by_cases isNbgl : app.ui = .nbgl
    · obtain ⟨next, result, same, nextType, shows⟩ :=
        app.prepares_displayType (ε := StatusWord) presents
          (Bagl.canDisplay_preferred msg)
      simp only
      rw [if_pos (Or.inl isNbgl)]
      exact ⟨next, result, same, nextType, fun _ => shows⟩
    · simp only
      rw [if_neg (by simp [isNbgl])]
      refine ⟨_, rfl, app.layout.setDisplayType_sameRequest _ msg, ?_,
        fun other => absurd other isNbgl⟩
      unfold Layout.displayType Layout.setDisplayType
      rw [app.layout.confirm.read_modify]
  refine ⟨started, result, same, startedType, permitted, shows, ?_⟩
  intro current visits step offered
  have possible : Bagl.canDisplay started
      (app.layout.displayType started) = true := by
    rw [Bagl.canDisplay_sameRequest same, startedType]
    exact Bagl.canDisplay_preferred msg
  obtain ⟨currentSame, currentPossible⟩ :=
    visits.invariant (presents.sameRequest same) possible
  obtain ⟨next, displayed, nextSame, _, prepared⟩ :=
    Bagl.displayMessageStep_eq (ε := Empty)
      (presents.sameRequest (same.trans currentSame)) currentPossible offered
  exact ⟨next, displayed, (same.trans currentSame).trans nextSame, prepared⟩

end Shown

/-- The context of the review of `Hello`. -/
def helloMessage : MessageSigningContext helloApp.layout.Shared where
  bip32Path := samplePath
  messageLength := 5
  processedMessageLength := 5
  shared := helloApp.layout.zeroedShared
  messageHash := sampleSha256 (ascii "Hello")
  prefixedMessageHash := sampleSha256 (signedMessage (ascii "Hello"))
  printableMessage := ⟨ascii "Hello" ++ zeroBytes 155, rfl⟩
  isPrintableAscii := true
  flags := 0

theorem helloMessage_presents :
    helloMessage.Presents sampleSha256 samplePath 0 (ascii "Hello") where
  bip32Path := rfl
  flagsEq := rfl
  messageLength := rfl
  processed := rfl
  messageHash := rfl
  prefixedMessageHash := rfl
  printableAscii := iff_of_true rfl
    ⟨by decide, isPrintableAscii_eq_true_iff.mp (by decide)⟩
  printable := fun _ => rfl

/-- Whatever is visited, `Hello` is shown. -/
theorem messageShown_hello :
    ∃ started,
      (helloApp.uiMessageSigning (preferredDisplayType helloMessage) false
        helloMessage : Run StatusWord _) = .ok started ∧
      ∀ current, Bagl.Visits helloApp started current → ∀ step,
        Bagl.offersMessageStep helloApp.layout current step = true →
        ∃ next,
          (Bagl.displayMessageStep helloApp current step : Run Empty _) =
            .ok next ∧
          ∀ displayType,
            Bagl.preparedType helloApp.layout current step =
              some displayType →
            helloApp.layout.Shows (ascii "Hello") next := by
  obtain ⟨started, result, _, _, _, _, shows⟩ :=
    messageShown helloMessage_presents
  refine ⟨started, result, ?_⟩
  intro current visits step offered
  obtain ⟨next, displayed, _, prepared⟩ := shows current visits step offered
  refine ⟨next, displayed, ?_⟩
  intro displayType isPrepared
  apply (prepared displayType isPrepared).2.2.mpr
  intro nothing
  exact absurd nothing.2 (by decide)

/-- A command for the empty message, to be displayed in hexadecimal. -/
def emptyMessageCommand : Command :=
  .carrying insSignMessage p1First p2Last
    (bip32PathBytes samplePath ++
      messageFlagPreferDisplayTypeHex :: u32Bytes 0) (by decide)

set_option maxRecDepth 4000 in
/-- After the step with the length of the message, the digits of the empty
message are shown as `0`. -/
theorem emptyMessage_notShown :
    ∃ state output shown next,
      (State.start helloApp).receive emptyMessageCommand =
        .ok (state, output) ∧
      (Bagl.displayMessageStep helloApp
        (helloApp.layout.msg.read state.ctx.req) .messageLength :
          Run Empty _) = .ok shown ∧
      (Bagl.displayMessageStep helloApp shown .message :
        Run Empty _) = .ok next ∧
      helloApp.layout.displayType next = .hex ∧
      cString (helloApp.layout.printed next) = ascii "0" ∧
      ¬helloApp.layout.Shows [] next := by
  refine ⟨_, _, _, _, rfl, rfl, rfl, ?_, ?_, ?_⟩
  · rfl
  · rfl
  · rintro ⟨_, shown⟩
    cases shown

end NimiqApp
