import NimiqApp.Foundation.Ends
import NimiqApp.ReviewAgreement
import NimiqApp.Steps

/-!
# Requests in chunks that are refused

The main loop wipes all of `ctx` when a handler returns another status word
than `SW_OK`.  A chunk that is refused is never answered with `SW_OK`, so the
answer tells whether it was.
-/

namespace NimiqApp

open Foundation (Ends)

/-- A load at most faults. -/
theorem load_ends
    {throws : Stop ε → Prop}
    (faults : ∀ reason, throws (.fault reason))
    (memory : List UInt8)
    (pointer : Pointer)
    (count : Nat) :
    Ends (fun _ => True) throws (load memory pointer count) := by
  unfold load
  split
  · exact .returned trivial
  · split
    · exact .threw (faults _)
    · split
      · exact .returned trivial
      · exact .threw (faults _)

/-- A store at most faults. -/
theorem Bytes.store_ends
    {throws : Stop ε → Prop}
    (faults : ∀ reason, throws (.fault reason))
    (array : Bytes size)
    (offset : Nat)
    (bytes : List UInt8) :
    Ends (fun _ => True) throws (array.store offset bytes) := by
  unfold store
  split
  · exact .returned trivial
  · exact .threw (faults _)

/-- The main loop does not take the failure for a success. -/
def Stop.Refuses : Stop StatusWord → Prop
  | .error sw => sw ≠ .ok
  | .fault _ => True

/-- The run succeeds, refuses with another status word than `SW_OK`, or ends
the app. -/
abbrev Refusing (run : Run StatusWord α) : Prop :=
  Ends (fun _ => True) Stop.Refuses run

namespace Refusing

theorem bind
    {first : Run StatusWord α}
    {next : α → Run StatusWord β}
    (firstRefusing : Refusing first)
    (nextRefusing : ∀ value, Refusing (next value)) :
    Refusing (first >>= next) :=
  Ends.bind firstRefusing fun value _ => nextRefusing value

theorem pure (value : α) : Refusing (Pure.pure value) :=
  .returned trivial

theorem returnOn
    {condition : Prop} [Decidable condition]
    (refusal : code ≠ .ok) :
    Refusing (Run.returnOn condition code) := by
  unfold Run.returnOn
  split
  · exact .threw refusal
  · exact pure ()

theorem orReturn
    {run : Run ε α}
    (refusal : code ≠ .ok) :
    Refusing (Run.orReturn code run) := by
  rcases run with (_ | _) | value
  · exact .threw refusal
  · exact .threw trivial
  · exact pure value

theorem cryptography (call : Option α) :
    Refusing (NimiqApp.cryptography call) := by
  cases call with
  | none => exact .threw (nofun : StatusWord.cryptographyFail ≠ .ok)
  | some value => exact pure value

/-- The error codes are translated into refusals. -/
theorem orErrorToSw (run : Run ErrorCode α) :
    Ends (fun value => run = .ok value) Stop.Refuses
      (Run.orErrorToSw run) := by
  rcases run with (code | _) | value
  · cases code with
    | errorTrue => exact .threw trivial
    | unexpected => exact .threw trivial
    | read => exact .threw (nofun : StatusWord.wrongDataLength ≠ .ok)
    | invalidLength =>
        exact .threw (nofun : StatusWord.wrongDataLength ≠ .ok)
    | incorrectData => exact .threw (nofun : StatusWord.incorrectData ≠ .ok)
    | notSupported => exact .threw (nofun : StatusWord.notSupported ≠ .ok)
    | cryptography =>
        exact .threw (nofun : StatusWord.cryptographyFail ≠ .ok)
  · exact .threw trivial
  · exact .returned rfl

theorem orAssert (run : Run ErrorCode α) : Refusing (Run.orAssert run) := by
  rcases run with (_ | _) | value
  · exact .threw trivial
  · exact .threw trivial
  · exact pure value

theorem load (memory : List UInt8) (pointer : Pointer) (count : Nat) :
    Refusing (NimiqApp.load memory pointer count) :=
  load_ends (fun _ => trivial) memory pointer count

theorem store (array : Bytes size) (offset : Nat) (bytes : List UInt8) :
    Refusing (array.store offset bytes) :=
  array.store_ends (fun _ => trivial) offset bytes

/-- The status word of a refusal. -/
theorem sw_ne_ok
    {run : Run StatusWord α}
    (refusing : Refusing run)
    (refuses : run = .error (.error sw)) : sw ≠ .ok := by
  subst refuses
  cases refusing with
  | threw holds => exact holds

end Refusing

theorem checkChunkParameters_refusing (p1 p2 : UInt8) :
    Refusing (checkChunkParameters p1 p2) :=
  Refusing.returnOn (by decide)

theorem TransactionContext.chunk_refusing
    (p1 : UInt8)
    (tx : TransactionContext)
    (buffer : List UInt8)
    (data : Slice) :
    Refusing (tx.chunk p1 buffer data) := by
  unfold TransactionContext.chunk
  split
  · apply Refusing.bind (Refusing.orReturn (by decide))
    intro path
    apply Refusing.bind (Refusing.orReturn (by decide))
    intro version
    apply Refusing.bind (Refusing.returnOn (by decide))
    intro _
    apply Refusing.bind (Refusing.load _ _ _)
    intro chunk
    apply Refusing.bind (Refusing.store _ _ _)
    intro rawTx
    exact Refusing.pure _
  · apply Refusing.bind (Refusing.returnOn (by decide))
    intro _
    apply Refusing.bind (Refusing.load _ _ _)
    intro chunk
    apply Refusing.bind (Refusing.store _ _ _)
    intro rawTx
    exact Refusing.pure _

/-- The start of the review of an accepted transaction at most fails an
assertion. -/
theorem AcceptedTransaction.uiTransactionSigning_refusing
    (ui : UserInterface)
    (device : Device)
    (accepted : AcceptedTransaction version) :
    Refusing (ui.uiTransactionSigning (accepted.shown device)) := by
  cases ui with
  | bagl =>
      unfold UserInterface.uiTransactionSigning
      rw [Bagl.uiTransactionSigning_eq]
      exact Refusing.pure ()
  | nbgl =>
      unfold UserInterface.uiTransactionSigning
      by_cases contract : accepted.content.IsContractCreation
      · rw [Nbgl.uiTransactionSigning_contract device accepted contract]
        exact .threw trivial
      · rw [Nbgl.uiTransactionSigning_eq device accepted contract]
        exact Refusing.pure ()

theorem App.reviewTransaction_refusing
    (app : App)
    (tx : TransactionContext) :
    Refusing (app.reviewTransaction tx) := by
  unfold App.reviewTransaction
  apply Refusing.bind (Refusing.load _ _ _)
  intro buffer
  apply Ends.bind (Refusing.orErrorToSw _)
  intro parsed parse
  obtain ⟨known, _, accepted, rfl, _, rfl⟩ :=
    (parseTx_eq_ok_iff app.toDevice).mp parse
  apply Refusing.bind
    (accepted.uiTransactionSigning_refusing app.ui app.toDevice)
  intro _
  exact Refusing.pure _

theorem App.handleSignTransaction_refusing
    (app : App)
    (p1 p2 : UInt8)
    (buffer : List UInt8)
    (data : Slice)
    (req : app.layout.Memory) :
    Refusing (app.handleSignTransaction p1 p2 buffer data req) := by
  unfold App.handleSignTransaction App.finishTransactionChunk
  apply Refusing.bind (checkChunkParameters_refusing p1 p2)
  intro _
  apply Refusing.bind (TransactionContext.chunk_refusing _ _ _ _)
  intro tx
  split
  · exact Refusing.pure _
  · apply Refusing.bind (app.reviewTransaction_refusing tx)
    intro shown
    exact Refusing.pure _

section Messages

variable (app : App)

theorem App.prepareHashes_refusing (messageLength : UInt32) :
    Refusing (app.prepareHashes messageLength) := by
  unfold App.prepareHashes
  apply Refusing.bind (Refusing.cryptography _)
  intro context
  apply Refusing.bind (Refusing.cryptography _)
  intro next
  exact Refusing.pure _

theorem App.processMessage_refusing
    (buffer : List UInt8)
    (data : Slice)
    (msg : MessageSigningContext app.layout.Shared) :
    Refusing (app.processMessage buffer data msg) := by
  unfold App.processMessage
  split
  · apply Refusing.bind (Refusing.returnOn (by decide))
    intro _
    apply Refusing.bind (Refusing.load _ _ _)
    intro chunk
    have copy : Refusing (copyPrintableMessage chunk msg) := by
      unfold copyPrintableMessage
      split
      · apply Refusing.bind (Refusing.store _ _ _)
        intro printableMessage
        exact Refusing.pure _
      · exact Refusing.pure _
    apply Refusing.bind copy
    intro msg
    have hash : Refusing (app.hashMessage chunk msg) := by
      unfold App.hashMessage
      apply Refusing.bind (Refusing.cryptography _)
      intro context
      apply Refusing.bind (Refusing.cryptography _)
      intro prefixedContext
      exact Refusing.pure _
    apply Refusing.bind hash
    intro msg
    exact Refusing.pure _
  · exact Refusing.pure _

theorem App.messageChunk_refusing
    (p1 : UInt8)
    (buffer : List UInt8)
    (data : Slice)
    (msg : MessageSigningContext app.layout.Shared) :
    Refusing (app.messageChunk p1 buffer data msg) := by
  unfold App.messageChunk
  split
  · have start : Refusing (app.startMessage buffer data msg) := by
      unfold App.startMessage
      apply Refusing.bind (Refusing.orReturn (by decide))
      intro path
      apply Refusing.bind (Refusing.orReturn (by decide))
      intro flags
      apply Refusing.bind (Refusing.orReturn (by decide))
      intro messageLength
      apply Refusing.bind (app.prepareHashes_refusing _)
      intro prepare
      exact Refusing.pure _
    apply Refusing.bind start
    intro started
    exact app.processMessage_refusing _ _ _
  · exact app.processMessage_refusing _ _ _

theorem Layout.printMessage_refusing
    {HashContext : Type}
    (layout : Layout HashContext)
    {print : Bytes printedMessageBufferLength →
      Run StatusWord (Bytes printedMessageBufferLength)}
    (msg : MessageSigningContext layout.Shared)
    (prints : ∀ out, Refusing (print out)) :
    Refusing (layout.printMessage print msg) := by
  unfold Layout.printMessage
  apply Refusing.bind (prints _)
  intro printedMessage
  exact Refusing.pure _

theorem App.uiMessageSigning_refusing
    (displayType : MessageDisplayType)
    (startAtMessageDisplay : Bool)
    (msg : MessageSigningContext app.layout.Shared) :
    Refusing (app.uiMessageSigning displayType startAtMessageDisplay msg) := by
  unfold App.uiMessageSigning
  simp only
  split
  · unfold Layout.uxMessageSigningPreparePrintedMessage
    split
    · apply app.layout.printMessage_refusing
      intro out
      unfold printMessageText
      apply Refusing.bind (Refusing.load _ _ _)
      intro message
      apply Refusing.bind (Refusing.store _ _ _)
      intro copied
      exact Refusing.store _ _ _
    · exact app.layout.printMessage_refusing _ fun _ => Refusing.orAssert _
    · exact app.layout.printMessage_refusing _ fun _ => Refusing.orAssert _
  · exact Refusing.pure _

theorem App.reviewMessage_refusing
    (msg : MessageSigningContext app.layout.Shared) :
    Refusing (app.reviewMessage msg) := by
  unfold App.reviewMessage
  apply Refusing.bind (Refusing.returnOn (by decide))
  intro _
  have finalize : Refusing (app.finalizeHashes msg) := by
    unfold App.finalizeHashes
    apply Refusing.bind (Refusing.cryptography _)
    intro messageHash
    apply Refusing.bind (Refusing.cryptography _)
    intro prefixedMessageHash
    exact Refusing.pure _
  apply Refusing.bind finalize
  intro msg
  exact app.uiMessageSigning_refusing _ _ _

theorem App.handleSignMessage_refusing
    (p1 p2 : UInt8)
    (buffer : List UInt8)
    (data : Slice)
    (req : app.layout.Memory) :
    Refusing (app.handleSignMessage p1 p2 buffer data req) := by
  unfold App.handleSignMessage App.finishMessageChunk
  apply Refusing.bind (checkChunkParameters_refusing p1 p2)
  intro _
  apply Refusing.bind (app.messageChunk_refusing _ _ _ _)
  intro msg
  split
  · exact Refusing.pure _
  · apply Refusing.bind (app.reviewMessage_refusing msg)
    intro shown
    exact Refusing.pure _

end Messages

/-- The instructions of requests that come in chunks. -/
def ChunkedInstruction (ins : UInt8) : Prop :=
  ins = insSignTx ∨ ins = insSignMessage

/-- A chunk that is answered with `SW_OK` or leads to a review was
handled. -/
theorem State.Reacts.chunk_handled
    {app : App}
    {state next : State app}
    {output : Output app.layout.Shared}
    (reacts : state.Reacts (.command command) next output)
    (carries : command.Carries ins p1 p2 bytes)
    (chunked : ChunkedInstruction ins)
    (accepted : output = Output.accepted ∨ output.launched ≠ none) :
    ∃ handled : Handled app, app.Handles command state.ctx.req handled ∧
      next.ctx.req = handled.req ∧ output = handled.answer.output := by
  cases reacts with
  | handled idle handles => exact ⟨_, handles, rfl, rfl⟩
  | refused idle refuses =>
      have refusal : ∀ {sw},
          app.handleCommand command state.ctx.req = .error (.error sw) →
            sw ≠ .ok := by
        rcases chunked with rfl | rfl
        · rw [carries.handleSignTransaction]
          exact (app.handleSignTransaction_refusing _ _ _ _ _).sw_ne_ok
        · rw [carries.handleSignMessage]
          exact (app.handleSignMessage_refusing _ _ _ _ _).sw_ne_ok
      rcases accepted with isAccepted | launched
      · cases isAccepted
        exact absurd rfl (refusal refuses)
      · exact absurd rfl launched

end NimiqApp
