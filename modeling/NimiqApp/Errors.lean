import NimiqApp.Constants

/-!
# Errors, status words and undefined behaviour

The functions of the app return error codes, `false` or status words.  All of
them are modelled in one monad, which also keeps apart what no return code
can express: a dereferenced null pointer, an access outside a buffer, a
failed assertion or a read of the wrong union member.
-/

namespace NimiqApp

/-- `error_t` without `ERROR_NONE`, which is the successful outcome. -/
inductive ErrorCode
  | errorTrue
  | unexpected
  | read
  | invalidLength
  | incorrectData
  | notSupported
  | cryptography
  deriving DecidableEq, Repr

/-- `sw_t`. -/
inductive StatusWord
  | ok
  | deny
  | incorrectData
  | notSupported
  | wrongP1P2
  | wrongDataLength
  | insNotSupported
  | claNotSupported
  | keepAlive
  | badState
  | cryptographyFail
  deriving DecidableEq, Repr

/-- The two bytes of a status word. -/
def StatusWord.code : StatusWord → UInt16
  | .ok => 0x9000
  | .deny => 0x6985
  | .incorrectData => 0x6A80
  | .notSupported => 0x6A82
  | .wrongP1P2 => 0x6A86
  | .wrongDataLength => 0x6A87
  | .insNotSupported => 0x6D00
  | .claNotSupported => 0x6E00
  | .keepAlive => 0x6E02
  | .badState => 0xB007
  | .cryptographyFail => 0xB008

/-- What ends the app or leaves the language's defined behaviour. -/
inductive Fault
  | nullPointer
  | outOfBounds
  | assertion
  | wrongMember
  deriving DecidableEq, Repr

/-- Why a function does not return its result. -/
inductive Stop (ε : Type)
  | error (code : ε)
  | fault (fault : Fault)
  deriving DecidableEq, Repr

/-- A computation that may return an error of type `ε` or fault.  Functions
returning `bool` use `Unit` for `false`. -/
abbrev Run (ε : Type) := Except (Stop ε)

namespace Run

/-- Return an error. -/
def fail (code : ε) : Run ε α := .error (.error code)

/-- Leave the defined behaviour. -/
def fault (fault : Fault) : Run ε α := .error (.fault fault)

/-- `LEDGER_ASSERT`: a failed assertion exits the app. -/
def ledgerAssert (condition : Prop) [Decidable condition] : Run ε Unit :=
  if condition then pure () else fault .assertion

/-- `RETURN_ON_ERROR(condition, error)` on a condition. -/
def returnOn (condition : Prop) [Decidable condition] (code : ε) :
    Run ε Unit :=
  if condition then fail code else pure ()

/-- Replace a received error, keeping faults. -/
def mapError (change : ε → Run ε' α) : Run ε α → Run ε' α
  | .ok value => .ok value
  | .error (.error code) => change code
  | .error (.fault fault) => .error (.fault fault)

/-- `RETURN_ON_ERROR(expression, error)` with a custom error. -/
def orReturn (code : ε') : Run ε α → Run ε' α :=
  mapError fun _ => fail code

@[simp] theorem bind_ok (value : α) (next : α → Run ε β) :
    ((Except.ok value : Run ε α) >>= next) = next value := rfl

@[simp] theorem bind_error (stop : Stop ε) (next : α → Run ε β) :
    ((Except.error stop : Run ε α) >>= next) = .error stop := rfl

@[simp] theorem pure_eq (value : α) : (pure value : Run ε α) = .ok value := rfl

@[simp] theorem fail_bind (code : ε) (next : α → Run ε β) :
    ((fail code : Run ε α) >>= next) = fail code := rfl

@[simp] theorem fault_bind (reason : Fault) (next : α → Run ε β) :
    ((fault reason : Run ε α) >>= next) = fault reason := rfl

/-- A sequence succeeds when both of its parts do. -/
theorem bind_eq_ok {first : Run ε α} {next : α → Run ε β} {result : β} :
    first >>= next = .ok result ↔
      ∃ value, first = .ok value ∧ next value = .ok result := by
  cases first with
  | ok value => simp
  | error stop => simp

@[simp] theorem fail_ne_ok {code : ε} {value : α} :
    (fail code : Run ε α) ≠ .ok value := by
  simp [fail]

@[simp] theorem fault_ne_ok {reason : Fault} {value : α} :
    (fault reason : Run ε α) ≠ .ok value := by
  simp [fault]

@[simp] theorem ledgerAssert_eq_ok {condition : Prop} [Decidable condition] :
    (ledgerAssert condition : Run ε Unit) = .ok () ↔ condition := by
  unfold ledgerAssert
  split <;> simp_all

theorem ledgerAssert_of {condition : Prop} [Decidable condition]
    (holds : condition) : (ledgerAssert condition : Run ε Unit) = .ok () :=
  ledgerAssert_eq_ok.mpr holds

@[simp] theorem returnOn_eq_ok {condition : Prop} [Decidable condition]
    {code : ε} : returnOn condition code = .ok () ↔ ¬condition := by
  unfold returnOn
  split <;> simp_all

theorem returnOn_of_not {condition : Prop} [Decidable condition] {code : ε}
    (absent : ¬condition) : returnOn condition code = .ok () :=
  returnOn_eq_ok.mpr absent

@[simp] theorem orReturn_eq_ok {run : Run ε α} {code : ε'} {value : α} :
    orReturn code run = .ok value ↔ run = .ok value := by
  rcases run with (_ | _) | _ <;> simp [orReturn, mapError]

@[simp] theorem orReturn_ok (code : ε') (value : α) :
    orReturn code (.ok value : Run ε α) = .ok value := rfl

@[simp] theorem orReturn_error (code : ε') (received : ε) :
    orReturn code (.error (.error received) : Run ε α) =
      .error (.error code) := rfl

@[simp] theorem orReturn_fault (code : ε') (reason : Fault) :
    orReturn code (.error (.fault reason) : Run ε α) =
      .error (.fault reason) := rfl

end Run

/-- `error_to_sw`, exiting the app on the errors it does not know. -/
def errorToSw : ErrorCode → Run ε StatusWord
  | .read => pure .wrongDataLength
  | .invalidLength => pure .wrongDataLength
  | .incorrectData => pure .incorrectData
  | .notSupported => pure .notSupported
  | .cryptography => pure .cryptographyFail
  | .errorTrue => Run.fault .assertion
  | .unexpected => Run.fault .assertion

/-- `RETURN_ON_ERROR(expression, ERROR_TO_SW())`. -/
def Run.orErrorToSw : Run ErrorCode α → Run StatusWord α :=
  Run.mapError fun code => errorToSw code >>= Run.fail

@[simp] theorem Run.orErrorToSw_eq_ok {run : Run ErrorCode α} {value : α} :
    Run.orErrorToSw run = .ok value ↔ run = .ok value := by
  rcases run with (code | _) | _
  · cases code <;> simp [Run.orErrorToSw, Run.mapError, errorToSw]
  · simp [Run.orErrorToSw, Run.mapError]
  · simp [Run.orErrorToSw, Run.mapError]

end NimiqApp
