import NimiqApp.PublicKeyRequest

/-!
# Signing without being shown

The verification message is the only data that is signed without a review.
The command is in the front of a buffer with whatever earlier commands and
replies left behind it; the message should be judged by itself.
-/

namespace NimiqApp

/-- A command that asks for a public key with a signature. -/
structure VerificationCommand where
  p2 : UInt8
  data : List UInt8
  length_lt : data.length < 256

namespace VerificationCommand

/-- The bytes of the command. -/
def bytes (command : VerificationCommand) : List UInt8 :=
  [cla, insGetPublicKey, p1Signature, command.p2,
    UInt8.ofNat command.data.length] ++ command.data

/-- Handle the command with some bytes left behind it. -/
def handle (command : VerificationCommand) (app : App)
    (leftover : List UInt8) (req : app.layout.Memory) :
    Run StatusWord (Handled app) :=
  app.handleGetPublicKey p1Signature command.p2 (command.bytes ++ leftover)
    ⟨some offsetCdata, command.data.length⟩ req

/-- The message behind a path in the data of the command. -/
def Carries (command : VerificationCommand) (path : List UInt32)
    (message : List UInt8) : Prop :=
  ValidPath path ∧ command.data = bip32PathBytes path ++ message

/-- What is signed for the command is dummy data, and only the command
decides on it. -/
structure Confined (app : App) (command : VerificationCommand)
    (req : app.layout.Memory) : Prop where
  /-- Nothing is read but the bytes of the command. -/
  ownBytes : Run.NoFault (command.handle app [] req)
  /-- What is left behind the command does not matter. -/
  leftover : ∀ leftover,
    command.handle app leftover req = command.handle app [] req
  /-- Only dummy data is signed. -/
  signed : ∀ leftover handled,
    command.handle app leftover req = .ok handled →
      ∃ path message privateKey, command.Carries path message ∧
        IsDummyData message ∧ app.derivePrivateKey path = some privateKey ∧
        app.eddsaSign privateKey message =
          some (app.layout.pk.read handled.req).signature
  /-- Other messages are answered with an error. -/
  refused : ∀ leftover path message, command.Carries path message →
    ¬IsDummyData message →
      ∃ sw, command.handle app leftover req = .error (.error sw)

/-- The data of the command is covered, whatever is left behind it. -/
theorem covers (command : VerificationCommand) (leftover : List UInt8) :
    Covers (command.bytes ++ leftover)
      ⟨some offsetCdata, command.data.length⟩ command.data :=
  Covers.behind [cla, insGetPublicKey, p1Signature, command.p2,
    UInt8.ofNat command.data.length] command.data leftover

section Handling

variable {app : App} {command : VerificationCommand}
  (leftover : List UInt8) (req : app.layout.Memory)

/-- A message that is long enough decides by itself. -/
theorem handle_message
    (carries : command.Carries path message)
    (valid : ConfirmationParameter command.p2)
    (long : dummyDataPrefix.length ≤ message.length) :
    command.handle app leftover req =
      if IsDummyData message then
        app.signedPublicKey command.p2 path message req
      else .error (.error .incorrectData) :=
  app.handleGetPublicKey_message req (carries.2 ▸ command.covers leftover)
    valid carries.1 long

/-- Without a path, or with other parameters, no message is looked at. -/
theorem handle_noMessage
    (absent : ConfirmationParameter command.p2 →
      ∀ path message, ¬command.Carries path message) :
    ∃ sw, ∀ leftover, command.handle app leftover req =
      .error (.error sw) := by
  by_cases valid : ConfirmationParameter command.p2
  · refine ⟨.wrongDataLength, ?_⟩
    intro leftover
    apply app.handleGetPublicKey_noPath req (command.covers leftover) valid
    intro path message validPath split
    exact absent valid path message ⟨validPath, split⟩
  · exact ⟨.wrongP1P2, fun leftover =>
      app.handleGetPublicKey_wrongP2 req valid⟩

/-- A message that is too short is not compared by itself. -/
theorem handle_short
    (carries : command.Carries path message)
    (valid : ConfirmationParameter command.p2)
    (short : message.length < dummyDataPrefix.length) :
    ∃ reason, command.handle app [] req = .error (.fault reason) := by
  apply app.handleGetPublicKey_short req (carries.2 ▸ command.covers [])
    valid carries.1 ?_ short
  intro offset start
  cases start
  simp only [bytes, offsetCdata, List.append_nil, List.length_append,
    List.length_cons, List.length_nil]

end Handling

/-- Signing is confined to dummy data exactly for the commands whose message,
if they get as far as to a message, is not shorter than the prefix. -/
theorem confined_iff
    (app : App)
    (command : VerificationCommand)
    (req : app.layout.Memory) :
    command.Confined app req ↔
      (ConfirmationParameter command.p2 →
        ∀ path message, command.Carries path message →
          dummyDataPrefix.length ≤ message.length) := by
  constructor
  · intro confined valid path message carries
    by_contra short
    obtain ⟨reason, faults⟩ :=
      handle_short req carries valid (Nat.lt_of_not_le short)
    exact confined.ownBytes reason faults
  · intro long
    by_cases present : ConfirmationParameter command.p2 ∧
        ∃ path message, command.Carries path message
    · obtain ⟨valid, path, message, carries⟩ := present
      have handled := fun leftover => handle_message leftover req carries
        valid (long valid path message carries)
      constructor
      · rw [handled []]
        split
        · exact app.signedPublicKey_noFault _ _ _ _
        · exact Run.NoFault.error _
      · intro leftover
        rw [handled leftover, handled []]
      · intro leftover result accepted
        rw [handled leftover] at accepted
        split at accepted
        · rename_i dummy
          obtain ⟨privateKey, derived, signed⟩ :=
            App.signedPublicKey_inversion accepted
          exact ⟨path, message, privateKey, carries, dummy, derived, signed⟩
        · cases accepted
      · intro leftover other content otherCarries noDummy
        rw [handle_message leftover req otherCarries valid
          (long valid other content otherCarries), if_neg noDummy]
        exact ⟨_, rfl⟩
    · obtain ⟨sw, refused⟩ : ∃ sw, ∀ leftover,
          command.handle app leftover req = .error (.error sw) :=
        handle_noMessage req fun valid path message carries =>
          present ⟨valid, path, message, carries⟩
      constructor
      · rw [refused []]
        exact Run.NoFault.error _
      · intro leftover
        rw [refused leftover, refused []]
      · intro leftover result accepted
        rw [refused leftover] at accepted
        cases accepted
      · intro leftover _ _ _ _
        exact ⟨sw, refused leftover⟩

end VerificationCommand

open Foundation.Positional (bytesOf bytesOf_length)

/-- A command with the message `d`. -/
def shortCommand : VerificationCommand where
  p2 := p2NoConfirm
  data := bip32PathBytes samplePath ++ ascii "d"
  length_lt := by decide

/-- The signature of the message `d`. -/
def shortSignature : Bytes 64 :=
  ⟨bytesOf 32
      0x3d3ae26ea3a04e904e002be7cce06320122f4ca0074f771b7a605dc6e29a9ca9 ++
    bytesOf 32
      0x798069e0a3b019cf18d198ba923a12d8c956fe8e39d6166ef57cfb2204fab802,
    by simp⟩

/-- An app that signs the message `d`. -/
def shortApp : App :=
  sampleApp .bagl (fun _ => shortSignature) fun _ => Bytes.zero

set_option maxRecDepth 4000 in
/-- The message of one character is refused or signed, depending on what is
left behind the command. -/
theorem shortCommand_not_confined :
    shortCommand.handle shortApp (zeroBytes 237) shortApp.layout.zeroed =
        .error (.error .incorrectData) ∧
      (∃ handled, shortCommand.handle shortApp
          (ascii "ummy-data:" ++ zeroBytes 227)
          shortApp.layout.zeroed = .ok handled ∧
        handled.answer =
          .response (samplePublicKey.val ++ shortSignature.val)) ∧
      ¬shortCommand.Confined shortApp shortApp.layout.zeroed := by
  have signed : ∃ handled, shortCommand.handle shortApp
      (ascii "ummy-data:" ++ zeroBytes 227)
      shortApp.layout.zeroed = .ok handled ∧
    handled.answer =
      .response (samplePublicKey.val ++ shortSignature.val) := ⟨_, rfl, rfl⟩
  have refused : shortCommand.handle shortApp (zeroBytes 237)
      shortApp.layout.zeroed = .error (.error .incorrectData) := rfl
  refine ⟨refused, signed, ?_⟩
  intro confined
  obtain ⟨handled, accepted, _⟩ := signed
  rw [confined.leftover, ← confined.leftover (zeroBytes 237),
    refused] at accepted
  cases accepted

end NimiqApp
