import NimiqApp.MessageHash
import NimiqApp.Refusals
import NimiqApp.TransactionLength

/-!
# Chunks that continue a request

The memory keeps no note of the request in progress.  A further chunk is
added to whatever the memory holds; that this is the request it belongs to
is a matter of the order of the commands and of what happens between them.
-/

namespace NimiqApp

open Foundation (Ends)

/-- The data of chunks, put together, is that of a transaction. -/
structure CarriesTransaction (path : List UInt32) (version : UInt8)
    (bytes sent : List UInt8) : Prop where
  validPath : ValidPath path
  sentEq : sent = bip32PathBytes path ++ version :: bytes

/-- The data of chunks, put together, is that of a message. -/
structure CarriesMessage (path : List UInt32) (flags : UInt8)
    (messageLength : UInt32) (message sent : List UInt8) : Prop where
  validPath : ValidPath path
  sentEq : sent =
    bip32PathBytes path ++ flags :: (u32Bytes messageLength ++ message)

theorem CarriesMessage.length_le
    (carries : CarriesMessage path flags messageLength message sent) :
    message.length ≤ sent.length := by
  rw [carries.sentEq]
  simp only [List.length_append, List.length_cons]
  omega

theorem CarriesTransaction.append
    (carries : CarriesTransaction path version bytes sent)
    (part : List UInt8) :
    CarriesTransaction path version (bytes ++ part) (sent ++ part) where
  validPath := carries.validPath
  sentEq := by
    rw [carries.sentEq, List.append_assoc]
    rfl

theorem CarriesMessage.append
    (carries : CarriesMessage path flags messageLength message sent)
    (part : List UInt8) :
    CarriesMessage path flags messageLength (message ++ part)
      (sent ++ part) where
  validPath := carries.validPath
  sentEq := by
    rw [carries.sentEq, List.append_assoc, List.cons_append,
      List.append_assoc]

/-- What a first chunk that is accepted carries is in memory. -/
theorem TransactionContext.first_inversion
    {tx next : TransactionContext}
    (covers : Covers buffer data sent)
    (result : tx.first buffer data = .ok next) :
    ∃ path version bytes, CarriesTransaction path version bytes sent ∧
      next.Collected path version bytes := by
  have read := result
  unfold TransactionContext.first at read
  obtain ⟨⟨path, atVersion⟩, readPath, read⟩ := Run.bind_eq_ok.mp read
  obtain ⟨⟨version, atBytes⟩, readVersion, _⟩ := Run.bind_eq_ok.mp read
  obtain ⟨behindPath, validPath, rfl, _, versionCovers⟩ :=
    readBip32Path_reads.inversion covers (Run.orReturn_eq_ok.mp readPath)
  obtain ⟨bytes, _, rfl, _, _⟩ :=
    readU8_reads.inversion versionCovers (Run.orReturn_eq_ok.mp readVersion)
  refine ⟨path, version, bytes, ⟨validPath, rfl⟩, ?_⟩
  by_cases short : bytes.length ≤ maxRawTx
  · obtain ⟨other, first, collected⟩ :=
      tx.first_collects validPath covers short
    rw [first] at result
    cases result
    exact collected
  · rw [tx.first_refuses validPath covers (Nat.lt_of_not_le short)] at result
    cases result

/-- A further chunk that is accepted is added. -/
theorem TransactionContext.Collected.more_inversion
    {tx next : TransactionContext}
    (collected : tx.Collected path version bytes)
    (covers : Covers buffer data part)
    (partShort : part.length < 256)
    (result : tx.more buffer data = .ok next) :
    next.Collected path version (bytes ++ part) := by
  by_cases short : (bytes ++ part).length ≤ maxRawTx
  · obtain ⟨other, more, added⟩ :=
      collected.more_collects covers partShort short
    rw [more] at result
    cases result
    exact added
  · rw [collected.more_refuses covers partShort (Nat.lt_of_not_le short)]
      at result
    cases result

/-- A hash context that was initialized and updated with some bytes. -/
inductive Sdk.Hashed (sdk : Sdk) : sdk.HashContext → List UInt8 → Prop
  | init : Hashed sdk sdk.sha256Init []
  | update {context next : sdk.HashContext} {bytes chunk : List UInt8}
      (hashed : Hashed sdk context bytes)
      (updated : sdk.hashUpdate context chunk = some next) :
      Hashed sdk next (bytes ++ chunk)

/-- The context of message signing is that of the part of a message that was
received so far.  The length is counted in 32 bits. -/
structure App.Hashes (app : App) (path : List UInt32) (flags : UInt8)
    (messageLength : UInt32) (bytes : List UInt8)
    (msg : MessageSigningContext app.layout.Shared) : Prop where
  bip32Path : msg.bip32Path = path
  flagsEq : msg.flags = flags
  lengthEq : msg.messageLength = messageLength
  processed : msg.processedMessageLength = UInt32.ofNat bytes.length
  printable : messageLength.toNat ≤ maxPrintableMessageLength →
    bytes.length ≤ messageLength.toNat ∧
      ∃ behind, msg.printableMessage.val = bytes ++ behind
  printableAscii : msg.isPrintableAscii =
    (decide (messageLength.toNat ≤ maxPrintableMessageLength) &&
      isPrintableAscii bytes)
  messageHashContext :
    app.Hashed (app.layout.prepare.read msg.shared).messageHashContext bytes
  prefixedMessageHashContext :
    app.Hashed (app.layout.prepare.read msg.shared).prefixedMessageHashContext
      (prefixedBytes messageLength.toNat bytes)

section Messages

variable {app : App} {msg next : MessageSigningContext app.layout.Shared}

/-- Both contexts are initialized, and the second one was updated with the
prefix and the length. -/
theorem App.prepareHashes_inversion
    (result : app.prepareHashes messageLength = .ok prepare) :
    app.Hashed prepare.messageHashContext [] ∧
      app.Hashed prepare.prefixedMessageHashContext
        (prefixedBytes messageLength.toNat []) := by
  unfold App.prepareHashes at result
  obtain ⟨context, updated, result⟩ := Run.bind_eq_ok.mp result
  rw [cString_printUint32] at result
  obtain ⟨withLength, lengthUpdated, result⟩ := Run.bind_eq_ok.mp result
  cases result
  refine ⟨.init, ?_⟩
  have hashed := Sdk.Hashed.update
    (.update .init (cryptography_eq_ok.mp updated))
    (cryptography_eq_ok.mp lengthUpdated)
  unfold prefixedBytes
  rwa [List.append_nil]

/-- The first chunk up to the bytes of the message. -/
theorem App.startMessage_inversion
    (covers : Covers buffer data sent)
    (result : app.startMessage buffer data msg = .ok (next, rest)) :
    ∃ path flags messageLength bytes,
      CarriesMessage path flags messageLength bytes sent ∧
      Covers buffer rest bytes ∧
      app.Hashes path flags messageLength [] next := by
  unfold App.startMessage at result
  obtain ⟨⟨path, atFlags⟩, readPath, result⟩ := Run.bind_eq_ok.mp result
  obtain ⟨⟨flags, atLength⟩, readFlags, result⟩ := Run.bind_eq_ok.mp result
  obtain ⟨⟨messageLength, atBytes⟩, readLength, result⟩ :=
    Run.bind_eq_ok.mp result
  obtain ⟨prepare, prepared, result⟩ := Run.bind_eq_ok.mp result
  cases result
  obtain ⟨behindPath, validPath, rfl, _, flagsCovers⟩ :=
    readBip32Path_reads.inversion covers (Run.orReturn_eq_ok.mp readPath)
  obtain ⟨behindFlags, _, rfl, _, lengthCovers⟩ :=
    readU8_reads.inversion flagsCovers (Run.orReturn_eq_ok.mp readFlags)
  obtain ⟨bytes, _, rfl, _, bytesCovers⟩ :=
    readU32_reads.inversion lengthCovers (Run.orReturn_eq_ok.mp readLength)
  obtain ⟨messageHashed, prefixedHashed⟩ :=
    App.prepareHashes_inversion prepared
  refine ⟨path, flags, messageLength, bytes, ⟨validPath, rfl⟩, bytesCovers,
    ?_⟩
  constructor
  · rfl
  · rfl
  · rfl
  · rfl
  · exact fun _ => ⟨Nat.zero_le _, _, (List.nil_append _).symm⟩
  · exact (Bool.and_true _).symm
  · rw [app.layout.prepare.read_write]
    exact messageHashed
  · rw [app.layout.prepare.read_write]
    exact prefixedHashed

/-- What copying a chunk changes. -/
theorem copyPrintableMessage_inversion
    (result : (copyPrintableMessage chunk msg : Run ε _) = .ok next) :
    ∃ printableMessage printableAscii,
      next = { msg with
        printableMessage
        isPrintableAscii := printableAscii } ∧
      if msg.messageLength.toNat ≤ maxPrintableMessageLength then
        (msg.printableMessage.store msg.processedMessageLength.toNat chunk :
          Run ε _) = .ok printableMessage ∧
        printableAscii = (msg.isPrintableAscii && isPrintableAscii chunk)
      else printableAscii = msg.isPrintableAscii := by
  unfold copyPrintableMessage at result
  by_cases short : msg.messageLength.toNat ≤ maxPrintableMessageLength
  · rw [if_pos short] at result
    obtain ⟨printableMessage, stored, result⟩ := Run.bind_eq_ok.mp result
    cases result
    refine ⟨_, _, rfl, ?_⟩
    rw [if_pos short]
    exact ⟨stored, rfl⟩
  · rw [if_neg short] at result
    cases result
    refine ⟨_, _, rfl, ?_⟩
    rw [if_neg short]

/-- Hashing a chunk updates both contexts. -/
theorem App.hashMessage_inversion
    (result : app.hashMessage chunk msg = .ok next) :
    ∃ messageContext prefixedContext,
      app.hashUpdate (app.layout.prepare.read msg.shared).messageHashContext
        chunk = some messageContext ∧
      app.hashUpdate
        (app.layout.prepare.read msg.shared).prefixedMessageHashContext
        chunk = some prefixedContext ∧
      next = { msg with
        shared := app.layout.prepare.write msg.shared
          ⟨messageContext, prefixedContext⟩ } := by
  unfold App.hashMessage at result
  obtain ⟨messageContext, updated, result⟩ := Run.bind_eq_ok.mp result
  obtain ⟨prefixedContext, prefixedUpdated, result⟩ :=
    Run.bind_eq_ok.mp result
  cases result
  exact ⟨_, _, cryptography_eq_ok.mp updated,
    cryptography_eq_ok.mp prefixedUpdated, rfl⟩

/-- What processing a chunk that is not empty changes, and what it checks
before. -/
theorem App.processMessage_inversion
    (covers : Covers buffer data chunk)
    (nonempty : chunk ≠ [])
    (result : app.processMessage buffer data msg = .ok next) :
    ¬msg.processedMessageLength + UInt32.ofNat chunk.length >
        msg.messageLength ∧
      ∃ copied hashed,
        (copyPrintableMessage chunk msg : Run StatusWord _) = .ok copied ∧
        app.hashMessage chunk copied = .ok hashed ∧
        next = { hashed with
          processedMessageLength :=
            msg.processedMessageLength + UInt32.ofNat chunk.length } := by
  have lengths := covers.length_eq
  unfold App.processMessage at result
  rw [if_pos (by rw [lengths]; simpa using nonempty), lengths] at result
  obtain ⟨_, checked, result⟩ := Run.bind_eq_ok.mp result
  rw [covers.load_eq, Run.bind_ok] at result
  obtain ⟨copied, copy, result⟩ := Run.bind_eq_ok.mp result
  obtain ⟨hashed, hash, result⟩ := Run.bind_eq_ok.mp result
  cases result
  exact ⟨Run.returnOn_eq_ok.mp checked, copied, hashed, copy, hash, rfl⟩

/-- An empty chunk changes nothing. -/
theorem App.processMessage_empty
    (covers : Covers buffer data []) :
    app.processMessage buffer data msg = .ok msg := by
  have noData : data.length = 0 := covers.length_eq
  unfold App.processMessage
  rw [if_neg (not_not.mpr noData)]
  rfl

/-- The lengths after a chunk. -/
theorem App.processMessage_lengths
    (covers : Covers buffer data chunk)
    (result : app.processMessage buffer data msg = .ok next) :
    next.messageLength = msg.messageLength ∧
      next.processedMessageLength =
        msg.processedMessageLength + UInt32.ofNat chunk.length ∧
      (chunk ≠ [] → next.processedMessageLength ≤ next.messageLength) := by
  by_cases empty : chunk = []
  · subst empty
    rw [App.processMessage_empty covers] at result
    cases result
    exact ⟨rfl, (UInt32.add_zero _).symm, fun other => absurd rfl other⟩
  · obtain ⟨checked, copied, hashed, copy, hash, rfl⟩ :=
      App.processMessage_inversion covers empty result
    obtain ⟨_, _, rfl, _⟩ := copyPrintableMessage_inversion copy
    obtain ⟨_, _, _, _, rfl⟩ := App.hashMessage_inversion hash
    exact ⟨rfl, rfl, fun _ => UInt32.not_lt.mp checked⟩

/-- A review opens when as many bytes were processed as were declared. -/
theorem App.reviewMessage_whole
    (result : app.reviewMessage msg = .ok next) :
    msg.processedMessageLength = msg.messageLength := by
  unfold App.reviewMessage at result
  obtain ⟨_, checked, _⟩ := Run.bind_eq_ok.mp result
  exact not_not.mp (Run.returnOn_eq_ok.mp checked)

/-- The length of a message that can be printed is not exceeded. -/
theorem App.Hashes.short
    (hashes : app.Hashes path flags messageLength bytes msg)
    (printable : messageLength.toNat ≤ maxPrintableMessageLength)
    (partShort : chunk.length < 256)
    (checked : ¬msg.processedMessageLength + UInt32.ofNat chunk.length >
      msg.messageLength) :
    (bytes ++ chunk).length ≤ messageLength.toNat ∧
      msg.processedMessageLength.toNat = bytes.length := by
  have within := (hashes.printable printable).1
  unfold maxPrintableMessageLength at printable
  have count : (UInt32.ofNat bytes.length).toNat = bytes.length :=
    UInt32.toNat_ofNat_of_lt' (by unfold UInt32.size; omega)
  have partCount : (UInt32.ofNat chunk.length).toNat = chunk.length :=
    UInt32.toNat_ofNat_of_lt' (by unfold UInt32.size; omega)
  rw [hashes.processed, hashes.lengthEq, gt_iff_lt, UInt32.lt_iff_toNat_lt,
    UInt32.toNat_add, count, partCount, Nat.mod_eq_of_lt (by omega)]
    at checked
  rw [List.length_append, hashes.processed, count]
  exact ⟨by omega, rfl⟩

/-- The copy of a message that can be printed is extended. -/
theorem App.Hashes.copied
    (hashes : app.Hashes path flags messageLength bytes msg)
    (partShort : chunk.length < 256)
    (checked : ¬msg.processedMessageLength + UInt32.ofNat chunk.length >
      msg.messageLength)
    (result : (copyPrintableMessage chunk msg : Run ε _) = .ok next) :
    ∃ printableMessage,
      next = { msg with
        printableMessage
        isPrintableAscii :=
          decide (messageLength.toNat ≤ maxPrintableMessageLength) &&
            isPrintableAscii (bytes ++ chunk) } ∧
      (messageLength.toNat ≤ maxPrintableMessageLength →
        (bytes ++ chunk).length ≤ messageLength.toNat ∧
          ∃ behind, printableMessage.val = bytes ++ chunk ++ behind) := by
  obtain ⟨printableMessage, printableAscii, rfl, copy⟩ :=
    copyPrintableMessage_inversion result
  rw [hashes.lengthEq] at copy
  by_cases printable : messageLength.toNat ≤ maxPrintableMessageLength
  · obtain ⟨within, place⟩ := hashes.short printable partShort checked
    obtain ⟨_, behind, front⟩ := hashes.printable printable
    obtain ⟨other, rest, stored, otherEq⟩ :=
      Bytes.store_append (ε := ε) front (Nat.le_trans within printable)
    rw [if_pos printable, place, stored] at copy
    obtain ⟨same, rfl⟩ := copy
    cases same
    refine ⟨printableMessage, ?_, fun _ => ⟨within, rest, otherEq⟩⟩
    rw [hashes.printableAscii, isPrintableAscii_append, Bool.and_assoc]
  · rw [if_neg printable] at copy
    subst copy
    refine ⟨printableMessage, ?_, fun other => absurd other printable⟩
    rw [hashes.printableAscii, decide_eq_false printable, Bool.false_and,
      Bool.false_and]

/-- A chunk that is accepted is added to what was received. -/
theorem App.Hashes.processMessage
    (hashes : app.Hashes path flags messageLength bytes msg)
    (covers : Covers buffer data chunk)
    (partShort : chunk.length < 256)
    (result : app.processMessage buffer data msg = .ok next) :
    app.Hashes path flags messageLength (bytes ++ chunk) next := by
  by_cases empty : chunk = []
  · subst empty
    rw [App.processMessage_empty covers] at result
    cases result
    rwa [List.append_nil]
  obtain ⟨checked, copied, hashed, copy, hash, rfl⟩ :=
    App.processMessage_inversion covers empty result
  obtain ⟨printableMessage, rfl, printable⟩ :=
    hashes.copied partShort checked copy
  obtain ⟨messageContext, prefixedContext, updated, prefixedUpdated, rfl⟩ :=
    App.hashMessage_inversion hash
  constructor
  · exact hashes.bip32Path
  · exact hashes.flagsEq
  · exact hashes.lengthEq
  · change msg.processedMessageLength + _ = _
    rw [hashes.processed, List.length_append, UInt32.ofNat_add]
  · exact printable
  · rfl
  · rw [app.layout.prepare.read_write]
    exact hashes.messageHashContext.update updated
  · rw [app.layout.prepare.read_write]
    have hashedNext := hashes.prefixedMessageHashContext.update
      prefixedUpdated
    unfold prefixedBytes at hashedNext ⊢
    rwa [← List.append_assoc]

end Messages

/-! ## Sequences of chunks -/

/-- A sequence of chunks is open: a first chunk was accepted with more to
come, and every command since then was a further chunk of the same
instruction that was accepted.  All their data, put together, was sent. -/
inductive OpenSequence (ins : UInt8) :
    List (Event × Output Shared) → List UInt8 → Prop
  | first {history : List (Event × Output Shared)} {command : Command}
      {part : List UInt8}
      (carries : command.Carries ins p1First p2More part) :
      OpenSequence ins (history ++ [(.command command, Output.accepted)]) part
  | more {history : List (Event × Output Shared)} {command : Command}
      {sent part : List UInt8}
      (before : OpenSequence ins history sent)
      (carries : command.Carries ins p1More p2More part) :
      OpenSequence ins (history ++ [(.command command, Output.accepted)])
        (sent ++ part)
  | other {history : List (Event × Output Shared)} {event : Event}
      {output : Output Shared} {sent : List UInt8}
      (before : OpenSequence ins history sent)
      (noCommand : ∀ command, event ≠ .command command)
      (noRestart : event ≠ .restart) :
      OpenSequence ins (history ++ [(event, output)]) sent

/-- A sequence of chunks of some instruction is open. -/
def SequenceOpen (history : List (Event × Output Shared)) : Prop :=
  ∃ ins sent, ChunkedInstruction ins ∧ OpenSequence ins history sent

/-- No sequence is open at start-up. -/
theorem OpenSequence.not_start :
    ¬OpenSequence ins ([] : List (Event × Output Shared)) sent := by
  generalize historyEq : ([] : List (Event × Output Shared)) = history
  intro isOpen
  cases isOpen with
  | first carries => exact absurd historyEq (by simp)
  | more before carries => exact absurd historyEq (by simp)
  | other before noCommand noRestart => exact absurd historyEq (by simp)

/-- How the last step continues a sequence. -/
theorem OpenSequence.last
    {history : List (Event × Output Shared)}
    (isOpen : OpenSequence ins (history ++ [(event, output)]) sent) :
    (∃ command p1 part before, event = .command command ∧
      output = Output.accepted ∧ command.Carries ins p1 p2More part ∧
      sent = before ++ part ∧
      (p1 = p1First ∧ before = [] ∨
        p1 = p1More ∧ OpenSequence ins history before)) ∨
    OpenSequence ins history sent ∧ (∀ command, event ≠ .command command) ∧
      event ≠ .restart := by
  generalize historyEq : history ++ [(event, output)] = whole at isOpen
  cases isOpen with
  | first carries =>
      obtain ⟨rfl, same⟩ := List.append_inj' historyEq rfl
      cases same
      exact Or.inl ⟨_, _, _, [], rfl, rfl, carries, rfl,
        Or.inl ⟨rfl, rfl⟩⟩
  | more before carries =>
      obtain ⟨rfl, same⟩ := List.append_inj' historyEq rfl
      cases same
      exact Or.inl ⟨_, _, _, _, rfl, rfl, carries, rfl,
        Or.inr ⟨rfl, before⟩⟩
  | other before noCommand noRestart =>
      obtain ⟨rfl, same⟩ := List.append_inj' historyEq rfl
      cases same
      exact Or.inr ⟨before, noCommand, noRestart⟩

/-- The app is to fill in a proof of the transaction. -/
def TransactionContext.HasEmptyProof (tx : TransactionContext) : Prop :=
  ∃ proof, (tx.emptyStakerProof : Run Interruption _) = .ok (some proof)

section Approval

variable {tx : TransactionContext}

/-- An approval that ends early leaves the context as it was. -/
def Stop.Leaves (tx : TransactionContext) : Stop Interruption → Prop
  | .error interruption => interruption.tx = tx
  | .fault _ => True

theorem TransactionContext.orInterrupt_leaves
    (tx : TransactionContext)
    (call : Option α) :
    Ends (fun _ => True) (Stop.Leaves tx) (tx.orInterrupt call) := by
  cases call with
  | none => exact .threw rfl
  | some value => exact .returned trivial

/-- Looking for a proof to fill in at most faults. -/
theorem TransactionContext.emptyStakerProof_ends
    {throws : Stop ε → Prop}
    (faults : ∀ reason, throws (.fault reason))
    (tx : TransactionContext) :
    Ends (fun _ => True) throws tx.emptyStakerProof := by
  have isEmpty : ∀ proof, Ends (fun _ => True) throws
      (isEmptyDefaultSignatureProof tx.rawTx.val proof) := by
    intro proof
    unfold isEmptyDefaultSignatureProof
    apply Ends.ite
    · exact fun _ => .returned trivial
    · intro _
      apply Ends.bind (load_ends faults _ _ _)
      intro publicKey _
      apply Ends.ite
      · exact fun _ => .returned trivial
      · intro _
        apply Ends.bind (load_ends faults _ _ _)
        intro signature _
        exact .returned trivial
  have member : Ends (fun _ => True) throws tx.parsed.stakingIncomingTx := by
    unfold ParsedTx.stakingIncomingTx
    split
    · exact .returned trivial
    · exact .threw (faults _)
  unfold TransactionContext.emptyStakerProof
  apply Ends.ite
  · intro _
    apply Ends.bind member
    intro staking _
    apply Ends.ite
    · intro _
      apply Ends.bind (isEmpty _)
      intro empty _
      exact .returned trivial
    · exact fun _ => .returned trivial
  · exact fun _ => .returned trivial

/-- Without a proof to fill in, signing leaves the context as it is. -/
theorem Sdk.signApprovedTransaction_leaves
    (sdk : Sdk)
    (noProof : ¬tx.HasEmptyProof)
    (buffer : ApduBuffer) :
    Ends (fun signed => signed.1 = tx) (Stop.Leaves tx)
      (sdk.signApprovedTransaction tx buffer) := by
  unfold Sdk.signApprovedTransaction
  apply Ends.bind (tx.orInterrupt_leaves _)
  intro privateKey _
  apply Ends.bind (tx.emptyStakerProof_ends (fun _ => trivial)).self
  intro proof found
  cases proof with
  | some proof => exact absurd ⟨proof, found⟩ noProof
  | none =>
      unfold Sdk.signAsSender Sdk.signTransaction
      have sign : Ends (fun _ => True) (Stop.Leaves tx) (do
          let bytes ← tx.signedBytes
          let signature ← tx.orInterrupt (sdk.eddsaSign privateKey bytes)
          buffer.store 0 signature.val) := by
        apply Ends.bind (load_ends (fun _ => trivial) _ _ _)
        intro bytes _
        apply Ends.bind (tx.orInterrupt_leaves _)
        intro signature _
        exact buffer.store_ends (fun _ => trivial) _ _
      apply Ends.bind sign
      intro signed _
      exact .returned rfl

/-- Without a proof to fill in, an approval writes nothing. -/
theorem App.approveTransaction_frame
    {app : App}
    {req next : app.layout.Memory}
    (noProof : ¬(app.layout.tx.read req).HasEmptyProof)
    (result : app.approveTransaction buffer req = .ok (next, reply)) :
    next = req := by
  obtain ⟨⟨tx, replied⟩, approved, result⟩ := Run.bind_eq_ok.mp result
  cases result
  have same : tx = app.layout.tx.read req := by
    have leaves := app.toSdk.signApprovedTransaction_leaves noProof buffer
    unfold Sdk.onTransactionApproved at approved
    rcases signed : app.signApprovedTransaction (app.layout.tx.read req)
      buffer with (interruption | reason) | ⟨after, data⟩
    · rw [signed] at leaves approved
      cases approved
      cases leaves with
      | threw holds => exact holds
    · rw [signed] at approved
      cases approved
    · rw [signed] at leaves approved
      cases approved
      cases leaves with
      | returned holds => exact holds
  rw [same, if_pos rfl]

end Approval

/-- The event writes to the memory of requests although no command is
processed: a step of the review of a message is prepared, or the proof of a
staker is filled in. -/
def State.Rewrites {app : App} (state : State app) : Event → Prop
  | .messageStep _ => True
  | .approve => (∃ tx, state.review = some (.transaction tx)) ∧
      (app.layout.tx.read state.ctx.req).HasEmptyProof
  | _ => False

/-- As long as a sequence is open, only its chunks write to memory. -/
def Uninterrupted {app : App}
    (history : List (Event × Output app.layout.Shared)) (state : State app)
    (event : Event) : Prop :=
  SequenceOpen history → ¬state.Rewrites event

/-- Nothing is open before the first event. -/
theorem Uninterrupted.start
    {app : App}
    {state : State app}
    {event : Event} :
    Uninterrupted [] state event := by
  rintro ⟨_, _, _, isOpen⟩
  exact absurd isOpen OpenSequence.not_start

section Memory

variable {app : App} {history : List (Event × Output app.layout.Shared)}
  {state next : State app} {output : Output app.layout.Shared}

/-- Without a command or a restart, only such events write to memory. -/
theorem State.Reacts.memory_frame
    (reacts : state.Reacts event next output)
    (noCommand : ∀ command, event ≠ .command command)
    (noRestart : event ≠ .restart)
    (keeps : ¬state.Rewrites event) :
    next.ctx.req = state.ctx.req := by
  cases reacts with
  | handled idle handles => exact absurd rfl (noCommand _)
  | refused idle refuses => exact absurd rfl (noCommand _)
  | heartbeat due => rfl
  | tick timer early => rfl
  | reject onScreen => rfl
  | messageStep onScreen displayed => exact absurd trivial keeps
  | restart => exact absurd rfl noRestart
  | approve onScreen approved =>
      rename_i review reply req
      cases review with
      | publicKey pk =>
          obtain ⟨replied, _, approved⟩ := Run.bind_eq_ok.mp approved
          cases approved
          rfl
      | transaction tx =>
          exact App.approveTransaction_frame
            (fun proof => keeps ⟨⟨tx, onScreen⟩, proof⟩) approved
      | message msg =>
          obtain ⟨replied, _, approved⟩ := Run.bind_eq_ok.mp approved
          cases approved
          rfl

/-- What the chunks of an instruction write to memory is there as long as
their sequence is open. -/
theorem OpenSequence.holds
    {holds : List UInt8 → app.layout.Memory → Prop}
    (chunked : ChunkedInstruction ins)
    (first : ∀ {command part handled},
      command.Carries ins p1First p2More part →
      app.Handles command state.ctx.req handled →
      holds part handled.req)
    (more : ∀ {command sent part handled},
      event = .command command →
      OpenSequence ins history sent →
      holds sent state.ctx.req →
      command.Carries ins p1More p2More part →
      app.Handles command state.ctx.req handled →
      holds (sent ++ part) handled.req)
    (before : ∀ sent, OpenSequence ins history sent →
      holds sent state.ctx.req)
    (reacts : state.Reacts event next output)
    (uninterrupted : Uninterrupted history state event)
    (isOpen : OpenSequence ins (history ++ [(event, output)]) sent) :
    holds sent next.ctx.req := by
  rcases isOpen.last with
    ⟨command, p1, part, earlier, eventEq, accepted, carries, rfl, begins⟩ |
    ⟨wasOpen, noCommand, noRestart⟩
  · subst eventEq
    obtain ⟨handled, handles, memory, _⟩ :=
      reacts.chunk_handled carries chunked (Or.inl accepted)
    rw [memory]
    rcases begins with ⟨rfl, rfl⟩ | ⟨rfl, wasOpen⟩
    · exact first carries handles
    · exact more rfl wasOpen (before _ wasOpen) carries handles
  · rw [reacts.memory_frame noCommand noRestart
      (uninterrupted ⟨ins, sent, chunked, wasOpen⟩)]
    exact before _ wasOpen

/-- A chunk of a transaction that is handled is collected. -/
theorem App.Handles.transaction_inversion
    {req : app.layout.Memory}
    {handled : Handled app}
    (handles : app.Handles command req handled)
    (carries : command.Carries insSignTx p1 p2 part) :
    ∃ tx, (app.layout.tx.read req).chunk p1 command.buffer.val
        command.data = .ok tx ∧
      (p2 = p2More → handled.req = app.layout.tx.write req tx) := by
  cases handles with
  | publicKey other => exact other.conflict carries (by decide)
  | publicKeyReview other _ =>
      exact other.conflict carries (by decide)
  | transactionMore other _ chunk =>
      obtain ⟨_, rfl, _⟩ := other.unique carries
      exact ⟨_, chunk, fun _ => rfl⟩
  | transactionLast other _ chunk _ =>
      obtain ⟨_, rfl, rfl, _⟩ := other.unique carries
      exact ⟨_, chunk, fun isMore => absurd isMore (by decide)⟩
  | messageMore other _ _ => exact other.conflict carries (by decide)
  | messageLast other _ _ _ =>
      exact other.conflict carries (by decide)
  | keepAlive other => exact other.conflict carries (by decide)

/-- A chunk of a message that is handled is hashed, and the last one leads to
the review. -/
theorem App.Handles.message_inversion
    {req : app.layout.Memory}
    {handled : Handled app}
    (handles : app.Handles command req handled)
    (carries : command.Carries insSignMessage p1 p2 part) :
    ∃ msg, app.messageChunk p1 command.buffer.val command.data
        (app.layout.msg.read req) = .ok msg ∧
      (p2 = p2More ∧ handled.req = app.layout.msg.write req msg ∨
        p2 = p2Last ∧ ∃ shown, app.reviewMessage msg = .ok shown) := by
  cases handles with
  | publicKey other => exact other.conflict carries (by decide)
  | publicKeyReview other _ =>
      exact other.conflict carries (by decide)
  | transactionMore other _ _ =>
      exact other.conflict carries (by decide)
  | transactionLast other _ _ _ =>
      exact other.conflict carries (by decide)
  | messageMore other _ chunk =>
      obtain ⟨_, rfl, rfl, _⟩ := other.unique carries
      exact ⟨_, chunk, Or.inl ⟨rfl, rfl⟩⟩
  | messageLast other _ chunk review =>
      obtain ⟨_, rfl, rfl, _⟩ := other.unique carries
      exact ⟨_, chunk, Or.inr ⟨rfl, _, review⟩⟩
  | keepAlive other => exact other.conflict carries (by decide)

/-- The memory holds the transaction whose chunks were sent. -/
def App.HoldsTransaction (app : App) (sent : List UInt8)
    (req : app.layout.Memory) : Prop :=
  ∃ path version bytes, CarriesTransaction path version bytes sent ∧
    (app.layout.tx.read req).Collected path version bytes

/-- The memory holds the message whose chunks were sent. -/
def App.HoldsMessage (app : App) (sent : List UInt8)
    (req : app.layout.Memory) : Prop :=
  ∃ path flags messageLength message,
    CarriesMessage path flags messageLength message sent ∧
    app.Hashes path flags messageLength message (app.layout.msg.read req)

/-- A first chunk of a transaction. -/
theorem App.Handles.holds_firstTransaction
    {req : app.layout.Memory}
    {handled : Handled app}
    (handles : app.Handles command req handled)
    (carries : command.Carries insSignTx p1First p2More part) :
    app.HoldsTransaction part handled.req := by
  obtain ⟨tx, chunk, memory⟩ := handles.transaction_inversion carries
  obtain ⟨path, version, bytes, carried, collected⟩ :=
    TransactionContext.first_inversion carries.covers chunk
  refine ⟨path, version, bytes, carried, ?_⟩
  rw [memory rfl, app.layout.tx.read_write]
  exact collected

/-- A further chunk of a transaction. -/
theorem App.HoldsTransaction.more
    {req : app.layout.Memory}
    {handled : Handled app}
    (holds : app.HoldsTransaction sent req)
    (handles : app.Handles command req handled)
    (carries : command.Carries insSignTx p1More p2More part) :
    app.HoldsTransaction (sent ++ part) handled.req := by
  obtain ⟨path, version, bytes, carried, collected⟩ := holds
  obtain ⟨tx, chunk, memory⟩ := handles.transaction_inversion carries
  refine ⟨path, version, bytes ++ part, carried.append part, ?_⟩
  rw [memory rfl, app.layout.tx.read_write]
  exact collected.more_inversion carries.covers carries.header.1 chunk

/-- What a first chunk of a message leads to. -/
theorem App.messageChunk_first
    {command : Command}
    {msg next : MessageSigningContext app.layout.Shared}
    (carries : command.Carries insSignMessage p1First p2 part)
    (result : app.messageChunk p1First command.buffer.val command.data msg =
      .ok next) :
    ∃ path flags messageLength message,
      CarriesMessage path flags messageLength message part ∧
      app.Hashes path flags messageLength message next := by
  unfold App.messageChunk at result
  rw [if_pos rfl] at result
  obtain ⟨⟨started, rest⟩, start, processed⟩ := Run.bind_eq_ok.mp result
  obtain ⟨path, flags, messageLength, message, carried, covers, hashes⟩ :=
    App.startMessage_inversion carries.covers start
  exact ⟨path, flags, messageLength, message, carried,
    hashes.processMessage covers
      (Nat.lt_of_le_of_lt carried.length_le carries.header.1) processed⟩

/-- A first chunk of a message. -/
theorem App.Handles.holds_firstMessage
    {req : app.layout.Memory}
    {handled : Handled app}
    (handles : app.Handles command req handled)
    (carries : command.Carries insSignMessage p1First p2More part) :
    app.HoldsMessage part handled.req := by
  obtain ⟨msg, chunk, ⟨_, memory⟩ | ⟨isLast, _⟩⟩ :=
    handles.message_inversion carries
  · obtain ⟨path, flags, messageLength, message, carried, hashes⟩ :=
      App.messageChunk_first carries chunk
    refine ⟨path, flags, messageLength, message, carried, ?_⟩
    rw [memory, app.layout.msg.read_write]
    exact hashes
  · exact absurd isLast (by decide)

/-- A further chunk of a message. -/
theorem App.HoldsMessage.more
    {req : app.layout.Memory}
    {handled : Handled app}
    (holds : app.HoldsMessage sent req)
    (handles : app.Handles command req handled)
    (carries : command.Carries insSignMessage p1More p2More part) :
    app.HoldsMessage (sent ++ part) handled.req := by
  obtain ⟨path, flags, messageLength, message, carried, hashes⟩ := holds
  obtain ⟨msg, chunk, ⟨_, memory⟩ | ⟨isLast, _⟩⟩ :=
    handles.message_inversion carries
  · refine ⟨path, flags, messageLength, message ++ part,
      carried.append part, ?_⟩
    rw [memory, app.layout.msg.read_write]
    exact hashes.processMessage carries.covers carries.header.1 chunk
  · exact absurd isLast (by decide)

/-- The memory holds the requests of all open sequences. -/
structure HoldsSequences (history : List (Event × Output app.layout.Shared))
    (state : State app) : Prop where
  transaction : ∀ sent, OpenSequence insSignTx history sent →
    app.HoldsTransaction sent state.ctx.req
  message : ∀ sent, OpenSequence insSignMessage history sent →
    app.HoldsMessage sent state.ctx.req

/-- One step keeps the requests of open sequences. -/
theorem HoldsSequences.step
    (holds : HoldsSequences history state)
    (reacts : state.Reacts event next output)
    (uninterrupted : Uninterrupted history state event) :
    HoldsSequences (history ++ [(event, output)]) next where
  transaction _ isOpen :=
    isOpen.holds (Or.inl rfl)
      (fun carries handles => handles.holds_firstTransaction carries)
      (fun _ _ before carries handles => before.more handles carries)
      holds.transaction reacts uninterrupted
  message _ isOpen :=
    isOpen.holds (Or.inr rfl)
      (fun carries handles => handles.holds_firstMessage carries)
      (fun _ _ before carries handles => before.more handles carries)
      holds.message reacts uninterrupted

/-- The requests of open sequences are kept in every run without
interruptions. -/
theorem HoldsSequences.of_run
    (run : app.system.Run Uninterrupted history state) :
    HoldsSequences history state := by
  refine run.invariant ?_ ?_
  · exact ⟨fun _ isOpen => absurd isOpen OpenSequence.not_start,
      fun _ isOpen => absurd isOpen OpenSequence.not_start⟩
  · intro history state event next output holds uninterrupted stepped
    exact holds.step (State.step_reacts stepped) uninterrupted

end Memory

/-! ## Chunks out of sequence -/

/-- A chunk is too long for the message in memory, or it is the last one and
too short. -/
def MessageSigningContext.RefusesLength (msg : MessageSigningContext Shared)
    (p2 : UInt8) (part : List UInt8) : Prop :=
  part ≠ [] ∧ msg.messageLength <
      msg.processedMessageLength + UInt32.ofNat part.length ∨
    p2 = p2Last ∧
      msg.processedMessageLength + UInt32.ofNat part.length ≠
        msg.messageLength

section Refused

variable {app : App} {command : Command} {req : app.layout.Memory}
  {handled : Handled app}

/-- A chunk that is too long for the transaction in memory is not handled. -/
theorem TransactionContext.RefusesLength.not_handles
    (refuses : (app.layout.tx.read req).RefusesLength part)
    (carries : command.Carries insSignTx p1More p2 part) :
    ¬app.Handles command req handled := by
  intro handles
  obtain ⟨tx, chunk, _⟩ := handles.transaction_inversion carries
  have refused := refuses.more carries.covers
  change (app.layout.tx.read req).more _ _ = _ at chunk
  rw [refused] at chunk
  cases chunk

/-- A chunk that does not fit the message in memory is not handled. -/
theorem MessageSigningContext.RefusesLength.not_handles
    (refuses : (app.layout.msg.read req).RefusesLength p2 part)
    (carries : command.Carries insSignMessage p1More p2 part) :
    ¬app.Handles command req handled := by
  intro handles
  obtain ⟨msg, chunk, outcome⟩ := handles.message_inversion carries
  obtain ⟨lengthEq, processed, within⟩ :=
    App.processMessage_lengths carries.covers chunk
  rcases refuses with ⟨nonempty, exceeds⟩ | ⟨isLast, differs⟩
  · have fits := within nonempty
    rw [lengthEq, processed] at fits
    exact absurd exceeds (UInt32.not_lt.mpr fits)
  · rcases outcome with ⟨isMore, _⟩ | ⟨_, shown, review⟩
    · exact absurd (isLast.symm.trans isMore) (by decide)
    · have whole := App.reviewMessage_whole review
      rw [lengthEq, processed] at whole
      exact differs whole

end Refused

section Expected

variable {app : App} {history : List (Event × Output app.layout.Shared)}
  {state next : State app} {output : Output app.layout.Shared}

/-- Nothing else writes to memory while a sequence of chunks is open, and a
further chunk that does not continue one is refused for the lengths that are
in memory. -/
structure ChunksExpected (history : List (Event × Output app.layout.Shared))
    (state : State app) (event : Event) : Prop where
  uninterrupted : Uninterrupted history state event
  transaction : ∀ command p2 part, event = .command command →
    command.Carries insSignTx p1More p2 part →
    (∀ sent, ¬OpenSequence insSignTx history sent) →
      (app.layout.tx.read state.ctx.req).RefusesLength part
  message : ∀ command p2 part, event = .command command →
    command.Carries insSignMessage p1More p2 part →
    (∀ sent, ¬OpenSequence insSignMessage history sent) →
      (app.layout.msg.read state.ctx.req).RefusesLength p2 part

/-- A further chunk that is accepted continues an open sequence, and the
memory holds what the chunks of this sequence have sent. -/
theorem chunk_continues
    (run : app.system.Run ChunksExpected history state)
    (expected : ChunksExpected history state (.command command))
    (carries : command.Carries ins p1More p2 part)
    (chunked : ChunkedInstruction ins)
    (stepped : app.system.step state (.command command) =
      some (next, output))
    (accepted : output = Output.accepted ∨ output.launched ≠ none) :
    ∃ sent, OpenSequence ins history sent ∧
      (ins = insSignTx → app.HoldsTransaction sent state.ctx.req) ∧
      (ins = insSignMessage → app.HoldsMessage sent state.ctx.req) := by
  have holds := HoldsSequences.of_run
    (run.mono fun _ _ _ expected => expected.uninterrupted)
  have reacts : state.Reacts (.command command) next output :=
    State.step_reacts stepped
  obtain ⟨handled, handles, _⟩ :=
    reacts.chunk_handled carries chunked accepted
  obtain ⟨sent, isOpen⟩ : ∃ sent, OpenSequence ins history sent := by
    by_contra notOpen
    rcases chunked with rfl | rfl
    · exact (expected.transaction _ _ _ rfl carries
        (not_exists.mp notOpen)).not_handles carries handles
    · exact (expected.message _ _ _ rfl carries
        (not_exists.mp notOpen)).not_handles carries handles
  refine ⟨sent, isOpen, ?_, ?_⟩
  · rintro rfl
    exact holds.transaction sent isOpen
  · rintro rfl
    exact holds.message sent isOpen

end Expected

/-- The first of the chunks with `Hello`. -/
def helloFirstChunk : Command :=
  .carrying insSignMessage p1First p2More helloFirst helloFirst_length

/-- A further chunk without data. -/
def emptyChunk : Command :=
  .carrying insSignMessage p1More p2More [] Command.noData_length

theorem helloFirstChunk_carries :
    helloFirstChunk.Carries insSignMessage p1First p2More helloFirst :=
  Command.carrying_carries _

theorem emptyChunk_carries :
    emptyChunk.Carries insSignMessage p1More p2More [] :=
  Command.carrying_carries _

theorem helloFirstChunk_notMore
    {conclusion : Prop}
    (carries : helloFirstChunk.Carries ins p1More p2 part) :
    conclusion :=
  absurd (carries.unique helloFirstChunk_carries).2.1 (by decide)

/-- The first chunk of `Hello` is accepted after start-up. -/
theorem helloFirstChunk_received :
    ∃ state, (State.start helloApp).receive helloFirstChunk =
        .ok (state, Output.accepted) ∧
      state.AbsorbsMessage Eq samplePath 0
        (UInt32.ofNat helloParts.flatten.length) (ascii "He") :=
  (State.start helloApp).receive_messageFirst helloApp_streams
    helloFirstChunk_carries (by decide) (by decide)

/-- Its sequence is open then. -/
theorem helloFirstChunk_opens :
    OpenSequence insSignMessage
      (([] : List (Event × Output helloApp.layout.Shared)) ++
        [(.command helloFirstChunk, Output.accepted)]) helloFirst :=
  .first helloFirstChunk_carries

/-- The empty chunk in the middle of `Hello` continues the sequence. -/
theorem chunk_continues_hello :
    ∃ history state sent,
      helloApp.system.Run ChunksExpected history state ∧
      OpenSequence insSignMessage history sent ∧
      helloApp.HoldsMessage sent state.ctx.req := by
  obtain ⟨state, received, stateAbsorbs⟩ := helloFirstChunk_received
  obtain ⟨next, continued, _⟩ :=
    stateAbsorbs.accepts helloApp_streams emptyChunk_carries (by decide)
  have idle := State.receive_unanswered received
  have firstExpected : ChunksExpected [] (State.start helloApp)
      (.command helloFirstChunk) := by
    refine ⟨Uninterrupted.start, ?_, ?_⟩
    · rintro command p2 part ⟨⟩ carries
      exact helloFirstChunk_notMore carries
    · rintro command p2 part ⟨⟩ carries
      exact helloFirstChunk_notMore carries
  have run : helloApp.system.Run ChunksExpected
      [(.command helloFirstChunk, Output.accepted)] state :=
    .step .start firstExpected (State.step_of_receive rfl received)
  have expected : ChunksExpected
      [(.command helloFirstChunk, Output.accepted)] state
      (.command emptyChunk) := by
    refine ⟨fun _ => id, ?_, ?_⟩
    · rintro command p2 part ⟨⟩ carries
      exact carries.conflict emptyChunk_carries (by decide)
    · rintro command p2 part ⟨⟩ carries notOpen
      exact absurd helloFirstChunk_opens (notOpen _)
  obtain ⟨sent, continues, _, holds⟩ := chunk_continues run expected
    emptyChunk_carries (Or.inr rfl) (State.step_of_receive idle continued)
    (Or.inl rfl)
  exact ⟨_, state, sent, run, continues, holds rfl⟩

/-- After start-up, a further chunk with a legacy transaction is reviewed as
a transaction to be signed for the empty path. -/
theorem stray_reviewed
    {app : App}
    {command : Command}
    (accepted : AcceptedTransaction .legacy)
    (isBagl : app.ui = .bagl)
    (hashable : accepted.content.Hashable app.toDevice)
    (carries : command.Carries insSignTx p1More p2Last accepted.tx.encode) :
    ∃ next tx,
      app.system.step (State.start app) (.command command) =
        some (next, ⟨none, some (.transaction tx)⟩) ∧
      tx.Collected [] 0 accepted.tx.encode := by
  have nothing : (State.start app).CollectsTransaction [] 0 [] := by
    unfold State.CollectsTransaction State.start
    simp only
    rw [app.layout.tx_zeroed]
    exact ⟨rfl, rfl, rfl, _, rfl⟩
  have short : ([] ++ accepted.tx.encode).length ≤ maxRawTx := by
    rw [List.nil_append]
    exact accepted.encode_length_bounds.2
  obtain ⟨tx, collects, collected⟩ := nothing.collects carries short
  have outcome := State.receive_transactionLast carries (Or.inr rfl) collects
    collected
  have parsed := App.parseForReview_accepted accepted isBagl hashable
  unfold App.TransactionOutcome at outcome
  rw [List.nil_append, show (0 : UInt8) = TransactionVersion.legacy.code from
    rfl, parsed] at outcome
  obtain ⟨next, reviewed, received, _, _, complete, _⟩ := outcome
  exact ⟨next, reviewed, State.step_of_receive rfl received, complete⟩

theorem strayTransaction_short :
    acceptedVestingCreation.tx.encode.length ≤ 255 :=
  Nat.le_trans acceptedVestingCreation.encode_length_bounds.2 (by decide)

/-- A legacy transaction in a further chunk, although there is no first
one. -/
def strayCommand : Command :=
  .carrying insSignTx p1More p2Last _ strayTransaction_short

/-- The chunk leads to a review, although it continues nothing. -/
theorem strayChunk_reviewed :
    ∃ next tx,
      helloApp.system.Run Foundation.System.anyEvent []
        (State.start helloApp) ∧
      strayCommand.Carries insSignTx p1More p2Last
        acceptedVestingCreation.tx.encode ∧
      helloApp.system.step (State.start helloApp) (.command strayCommand) =
        some (next, ⟨none, some (.transaction tx)⟩) ∧
      tx.Collected [] 0 acceptedVestingCreation.tx.encode ∧
      ∀ sent, ¬OpenSequence insSignTx
        ([] : List (Event × Output helloApp.layout.Shared)) sent := by
  have carries : strayCommand.Carries insSignTx p1More p2Last
      acceptedVestingCreation.tx.encode :=
    Command.carrying_carries strayTransaction_short
  obtain ⟨next, tx, stepped, collected⟩ := stray_reviewed
    acceptedVestingCreation (rfl : helloApp.ui = .bagl) trivial carries
  exact ⟨next, tx, .start, carries, stepped, collected,
    fun _ isOpen => OpenSequence.not_start isOpen⟩

end NimiqApp
