import NimiqApp.MessageReview

/-!
# Requests and replies

What handling a command leads to: a response that is sent at once, or a reply
that is sent later.  A review remembers the request it was launched for.
-/

namespace NimiqApp

/-- A response APDU: its data and its status word. -/
structure Reply where
  data : List UInt8
  sw : StatusWord
  deriving DecidableEq, Repr

/-- The bytes that are sent: the data with the status word behind it. -/
def Reply.bytes (reply : Reply) : List UInt8 :=
  reply.data ++ u16Bytes reply.sw.code

/-- `io_finalize_async_reply`. -/
def ioFinalizeAsyncReply (data : List UInt8) (sw : StatusWord) : Reply :=
  let sw := if data.length > 260 - 2 then .wrongDataLength else sw
  ⟨if sw = .ok then data else [], sw⟩

/-- Data that fits the APDU buffer is sent off. -/
theorem ioFinalizeAsyncReply_ok (fits : data.length ≤ 258) :
    ioFinalizeAsyncReply data .ok = ⟨data, .ok⟩ := by
  have short : ¬data.length > 260 - 2 := by omega
  simp only [ioFinalizeAsyncReply, if_neg short, if_true]

/-- Without data, a status word is sent off. -/
theorem ioFinalizeAsyncReply_nil (sw : StatusWord) :
    ioFinalizeAsyncReply [] sw = ⟨[], sw⟩ := by
  simp [ioFinalizeAsyncReply]

/-- A review on the screen, with the context it was launched for.  The app
itself only knows which of the three reviews it is. -/
inductive OpenReview (Shared : Type)
  | publicKey (pk : PublicKeyContext)
  | transaction (tx : TransactionContext)
  | message (msg : MessageSigningContext Shared)

/-- How a command is answered. -/
inductive Answer (Shared : Type)
  /-- The data in front of `SW_OK`, sent at once. -/
  | response (data : List UInt8)
  /-- An asynchronous reply, for a review that was launched. -/
  | review (review : OpenReview Shared)
  /-- An asynchronous reply, for whatever is on the screen. -/
  | asyncReply

/-- What a handler that returns `SW_OK` leaves behind. -/
structure Handled (app : App) where
  req : app.layout.Memory
  answer : Answer app.layout.Shared

namespace Run

/-- The computation stays within the defined behaviour. -/
def NoFault (run : Run ε α) : Prop :=
  ∀ reason, run ≠ .error (.fault reason)

theorem NoFault.ok (value : α) : NoFault (.ok value : Run ε α) := by
  intro reason equal
  cases equal

theorem NoFault.error (code : ε) :
    NoFault (.error (.error code) : Run ε α) := by
  intro reason equal
  cases equal

/-- A sequence of computations without faults has none. -/
theorem NoFault.bind
    {first : Run ε α} {next : α → Run ε β}
    (firstNoFault : NoFault first)
    (nextNoFault : ∀ value, first = .ok value → NoFault (next value)) :
    NoFault (first >>= next) := by
  cases first with
  | ok value => exact nextNoFault value rfl
  | error stop =>
      intro reason equal
      exact firstNoFault reason (by simpa using equal)

theorem NoFault.cryptography (call : Option α) :
    NoFault (cryptography call) := by
  cases call with
  | none => exact NoFault.error _
  | some value => exact NoFault.ok value

end Run
end NimiqApp
