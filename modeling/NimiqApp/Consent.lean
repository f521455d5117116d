import NimiqApp.ApprovalReplies
import NimiqApp.Foundation.Agreement

/-!
# Consent

What the app signs, and when, is seen by exchanging the signatures of the
device.  As long as the other signatures are the same for dummy messages and
for what the user approves, the app does the same with the same replies.  No
other signature was part of them.
-/

namespace NimiqApp

open Foundation (Agree)
open Foundation.System (anyEvent)

/-- The same device with other signatures. -/
def Sdk.withSign (sdk : Sdk)
    (sign : sdk.PrivateKey → List UInt8 → Option (Bytes 64)) : Sdk :=
  { sdk with eddsaSign := sign }

/-- The same app on a device with other signatures. -/
def App.withSign (app : App)
    (sign : app.PrivateKey → List UInt8 → Option (Bytes 64)) : App where
  toSdk := app.toSdk.withSign sign
  ui := app.ui
  layout := app.layout

/-- The same state of the app with other signatures. -/
def State.withSign {app : App} (state : State app)
    (sign : app.PrivateKey → List UInt8 → Option (Bytes 64)) :
    State (app.withSign sign) where
  ctx := state.ctx
  apduBuffer := state.apduBuffer
  review := state.review
  unanswered := state.unanswered

section Signatures

variable {sdk : Sdk} {tx : TransactionContext}
  {privateKey : sdk.PrivateKey}
  {sign : sdk.PrivateKey → List UInt8 → Option (Bytes 64)}

end Signatures

section App

variable {app : App} {state next : State app} {req : app.layout.Memory}
  {output : Output app.layout.Shared}
  {review : OpenReview app.layout.Shared}
  {sign : app.PrivateKey → List UInt8 → Option (Bytes 64)}

/-- The same result for the app with other signatures. -/
def Handled.withSign (handled : Handled app)
    (sign : app.PrivateKey → List UInt8 → Option (Bytes 64)) :
    Handled (app.withSign sign) :=
  ⟨handled.req, handled.answer⟩

end App

end NimiqApp
