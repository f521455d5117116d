import NimiqApp.Device
import NimiqApp.Foundation.Logged

/-!
# The arrays of `iban_check`

`iban_check` with a log of its assertions and of the accesses to its local
arrays; without the log it is the function that computes the check digits.
All of the accesses are inside the arrays but for the last one of ten copies,
which reads one byte more than `total_number` has.
-/

namespace NimiqApp

open Foundation (Logged)

/-- The local arrays of `iban_check`. -/
inductive IbanArray
  | address
  | totalNumber
  | partialNumber
  deriving DecidableEq, Repr

/-- The sizes of the arrays. -/
def IbanArray.size : IbanArray → Nat
  | address => 36
  | totalNumber => 71
  | partialNumber => 10

/-- What is logged of `iban_check`. -/
inductive IbanEvent
  /-- `LEDGER_ASSERT(counter < 70)`. -/
  | asserted (counter : Nat)
  | read (array : IbanArray) (start count : Nat)
  | written (array : IbanArray) (start count : Nat)
  /-- A round adds the digit copied from `total_number[index]` to the number
  it reduces. -/
  | consumed (round index : Nat)
  deriving DecidableEq, Repr

/-- An access is inside its array, an assertion holds. -/
def IbanEvent.Inside : IbanEvent → Prop
  | asserted counter => counter < 70
  | read array start count => start + count ≤ array.size
  | written array start count => start + count ≤ array.size
  | consumed _ _ => True

/-- Computations of `iban_check` with their log. -/
abbrev IbanLogged := Logged IbanEvent (Stop ErrorCode)

/-- Store bytes in an array. -/
def ibanStore (array : IbanArray) (memory : List UInt8) (offset : Nat)
    (bytes : List UInt8) : IbanLogged (List UInt8) := do
  Logged.log (.written array offset bytes.length)
  Logged.lift (writeAt memory offset bytes)

/-- The array with the address and `NQ00` behind it. -/
def ibanAddressLogged (base32 : List UInt8) : IbanLogged (List UInt8) := do
  let address ← ibanStore .address (List.replicate 36 0) 0 (base32.take 32)
  let address ← ibanStore .address address 32 (ascii "N")
  let address ← ibanStore .address address 33 (ascii "Q")
  let address ← ibanStore .address address 34 (ascii "0")
  ibanStore .address address 35 (ascii "0")

/-- The loop that turns characters into digits, from the one at `index` on. -/
def ibanTotalNumberLogged :
    List UInt8 → Nat → Nat → List UInt8 → IbanLogged (List UInt8)
  | [], _, _, totalNumber => pure totalNumber
  | char :: address, index, counter, totalNumber => do
      Logged.log (.asserted counter)
      Logged.lift (Run.ledgerAssert (counter < 70))
      Logged.log (.read .address index 1)
      if char ≥ 48 ∧ char ≤ 57 then
        let totalNumber ← ibanStore .totalNumber totalNumber counter [char]
        ibanTotalNumberLogged address (index + 1) (counter + 1) totalNumber
      else if char ≥ 65 ∧ char ≤ 90 then
        let totalNumber ← ibanStore .totalNumber totalNumber counter
          (snprintf 3 (printUnsigned (char.toNat - 55)))
        ibanTotalNumberLogged address (index + 1) (counter + 2) totalNumber
      else if char ≥ 97 ∧ char ≤ 122 then
        let totalNumber ← ibanStore .totalNumber totalNumber counter
          (snprintf 3 (printUnsigned (char.toNat - 87)))
        ibanTotalNumberLogged address (index + 1) (counter + 2) totalNumber
      else Logged.lift (Run.fail .incorrectData)

/-- The loop that reads `partial_number`, from a place on.  What lies behind
`offset` was copied from `total_number[counter]` on. -/
def ibanPartialUintLogged (round counter offset : Nat) :
    List UInt8 → Nat → Nat → IbanLogged Nat
  | [], _, partialUint => pure partialUint
  | char :: chars, place, partialUint => do
      Logged.log (.read .partialNumber place 1)
      if char ≠ 0 then
        if offset ≤ place then
          Logged.log (.consumed round (counter + (place - offset)))
        ibanPartialUintLogged round counter offset chars (place + 1)
          (10 * partialUint + (char.toNat - 48))
      else pure partialUint

/-- The rounds that reduce the number modulo 97, from the given one on. -/
def ibanModuloLogged (memory : List UInt8) :
    Nat → Nat → Nat → Nat → Nat → List UInt8 → IbanLogged Nat
  | _, 0, _, _, modulo, _ => pure modulo
  | round, rounds + 1, counter, offset, _, partialNumber => do
      Logged.log (.read .totalNumber counter (9 - offset))
      let piece ← Logged.lift (load memory (some counter) (9 - offset))
      let partialNumber ←
        ibanStore .partialNumber partialNumber offset piece
      let partialUint ← ibanPartialUintLogged round counter offset
        (partialNumber.take 9) 0 0
      let modulo := partialUint % 97
      let partialNumber ← ibanStore .partialNumber partialNumber 0
        (snprintf 3 (printPadded2 modulo))
      ibanModuloLogged memory (round + 1) rounds (counter + (9 - offset)) 2
        modulo partialNumber

/-- `iban_check` with its log. -/
def ibanCheckLogged (pastTotalNumber : UInt8) (base32 : List UInt8) :
    IbanLogged CString := do
  let address ← ibanAddressLogged base32
  let totalNumber ←
    ibanTotalNumberLogged address 0 0 (List.replicate 71 0)
  let modulo ← ibanModuloLogged (totalNumber ++ [pastTotalNumber]) 0 10 0 0 0
    (List.replicate 10 0)
  pure (cString (snprintf 3 (printPadded2 (98 - modulo))))

@[simp] theorem ibanStore_outcome
    (array : IbanArray)
    (memory : List UInt8)
    (offset : Nat)
    (bytes : List UInt8) :
    (ibanStore array memory offset bytes).outcome =
      writeAt memory offset bytes := by
  unfold ibanStore
  rw [Logged.outcome_bind]
  rfl

@[simp] theorem ibanStore_events
    (array : IbanArray)
    (memory : List UInt8)
    (offset : Nat)
    (bytes : List UInt8) :
    (ibanStore array memory offset bytes).events =
      [.written array offset bytes.length] := by
  unfold ibanStore
  rw [Logged.events_bind Logged.outcome_log]
  rfl

@[simp] theorem ibanTotalNumberLogged_outcome
    (address : List UInt8)
    (index counter : Nat)
    (totalNumber : List UInt8) :
    (ibanTotalNumberLogged address index counter totalNumber).outcome =
      ibanTotalNumber address counter totalNumber := by
  induction address generalizing index counter totalNumber with
  | nil => rfl
  | cons char address inductionHypothesis =>
      rw [ibanTotalNumberLogged, ibanTotalNumber]
      simp only [Logged.outcome_bind, Logged.outcome_log,
        Logged.outcome_lift, Run.bind_ok]
      congr 1
      funext _
      split_ifs
      · simp only [Logged.outcome_bind, ibanStore_outcome,
          inductionHypothesis]
      · simp only [Logged.outcome_bind, ibanStore_outcome,
          inductionHypothesis]
      · simp only [Logged.outcome_bind, ibanStore_outcome,
          inductionHypothesis]
      · rfl

@[simp] theorem ibanPartialUintLogged_outcome
    (round counter offset : Nat)
    (chars : List UInt8)
    (place partialUint : Nat) :
    (ibanPartialUintLogged round counter offset chars place
      partialUint).outcome = .ok (ibanPartialUint chars partialUint) := by
  induction chars generalizing place partialUint with
  | nil => rfl
  | cons char chars inductionHypothesis =>
      rw [ibanPartialUintLogged, ibanPartialUint]
      simp only [Logged.outcome_bind, Logged.outcome_log, Run.bind_ok]
      split_ifs
      · simp only [Logged.outcome_bind, Logged.outcome_log, Run.bind_ok,
          inductionHypothesis]
      · exact inductionHypothesis _ _
      · rfl

@[simp] theorem ibanModuloLogged_outcome
    (memory : List UInt8)
    (round rounds counter offset modulo : Nat)
    (partialNumber : List UInt8) :
    (ibanModuloLogged memory round rounds counter offset modulo
        partialNumber).outcome =
      ibanModulo memory rounds counter offset modulo partialNumber := by
  induction rounds generalizing round counter offset modulo partialNumber with
  | zero => rfl
  | succ rounds inductionHypothesis =>
      rw [ibanModuloLogged, ibanModulo]
      simp only [Logged.outcome_bind, Logged.outcome_log,
        Logged.outcome_lift, Run.bind_ok, ibanStore_outcome,
        ibanPartialUintLogged_outcome, inductionHypothesis]

theorem ibanAddressLogged_outcome (base32 : Bytes 32) :
    (ibanAddressLogged base32.val).outcome =
      .ok (base32.val ++ ascii "NQ00") := by
  have size := base32.property
  have copied : (writeAt (List.replicate 36 0) 0 (base32.val.take 32) :
      Run ErrorCode _) = .ok (base32.val ++ [0, 0, 0, 0]) := by
    rw [List.take_of_length_le (by omega), writeAt_eq (by simp; omega),
      overwrite, Nat.zero_add, size]
    rfl
  have next : ∀ (letters letter rest : List UInt8), letter.length = 1 →
      (writeAt (base32.val ++ (letters ++ 0 :: rest)) (32 + letters.length)
        letter : Run ErrorCode _) =
        .ok (base32.val ++ (letters ++ (letter ++ rest))) := by
    intro letters letter rest one
    have written := writeAt_replace (ε := ErrorCode) (base32.val ++ letters)
      [0] letter rest (by rw [List.length_append, size]) one.symm
    rw [List.append_assoc, List.append_assoc] at written
    exact written
  unfold ibanAddressLogged
  simp only [Logged.outcome_bind, ibanStore_outcome]
  rw [copied, Run.bind_ok]
  have letterN := next [] (ascii "N") [0, 0, 0] rfl
  have letterQ := next (ascii "N") (ascii "Q") [0, 0] rfl
  have firstZero := next (ascii "NQ") (ascii "0") [0] rfl
  have secondZero := next (ascii "NQ0") (ascii "0") [] rfl
  refine Eq.trans (congrArg (· >>= _) letterN) ?_
  rw [Run.bind_ok]
  refine Eq.trans (congrArg (· >>= _) letterQ) ?_
  rw [Run.bind_ok]
  refine Eq.trans (congrArg (· >>= _) firstZero) ?_
  rw [Run.bind_ok]
  exact secondZero

/-- Without the log, the function is `iban_check`. -/
theorem ibanCheckLogged_outcome
    (pastTotalNumber : UInt8)
    (base32 : Bytes 32) :
    (ibanCheckLogged pastTotalNumber base32.val).outcome =
      ibanCheck pastTotalNumber base32.val := by
  unfold ibanCheckLogged ibanCheck
  rw [List.take_of_length_le (by rw [base32.property])]
  simp only [Logged.outcome_bind, ibanAddressLogged_outcome, Run.bind_ok,
    ibanTotalNumberLogged_outcome, ibanModuloLogged_outcome,
    Logged.outcome_pure]
  rfl

/-- Nothing is consumed before the rounds. -/
def IbanEvent.Consumes : IbanEvent → Prop
  | consumed _ _ => True
  | _ => False

/-- An event of the first loop. -/
def IbanEvent.BeforeRounds (event : IbanEvent) : Prop :=
  event.Inside ∧ ¬event.Consumes

theorem ibanStore_every
    (memory : List UInt8)
    (inside : offset + bytes.length ≤ array.size) :
    Logged.Every IbanEvent.BeforeRounds
      (ibanStore array memory offset bytes) := by
  refine Logged.Every.bind (Logged.Every.log ⟨inside, id⟩) ?_
  intro _ _
  exact Logged.Every.lift _

theorem ibanAddressLogged_every (base32 : List UInt8) :
    Logged.Every IbanEvent.BeforeRounds (ibanAddressLogged base32) := by
  have front : 0 + (base32.take 32).length ≤ IbanArray.address.size := by
    rw [List.length_take]
    exact Nat.le_trans (Nat.zero_add _).le
      (Nat.le_trans (Nat.min_le_left _ _) (by decide))
  unfold ibanAddressLogged
  refine Logged.Every.bind (ibanStore_every _ front) ?_
  intro _ _
  refine Logged.Every.bind (ibanStore_every _ (by decide)) ?_
  intro _ _
  refine Logged.Every.bind (ibanStore_every _ (by decide)) ?_
  intro _ _
  refine Logged.Every.bind (ibanStore_every _ (by decide)) ?_
  intro _ _
  exact ibanStore_every _ (by decide)

/-- The counter leaves room for the digits of the characters to come and a
terminator. -/
theorem ibanTotalNumberLogged_every
    (accepted : ∀ char ∈ address, IbanAccepts char)
    (inAddress : index + address.length ≤ 36)
    (inTotalNumber : counter + (ibanNumber address).length ≤ 70) :
    Logged.Every IbanEvent.BeforeRounds
      (ibanTotalNumberLogged address index counter totalNumber) := by
  induction address generalizing index counter totalNumber with
  | nil => exact Logged.Every.pure _
  | cons char address inductionHypothesis =>
      have charAccepted := accepted char List.mem_cons_self
      have digitCount := ibanDigits_length charAccepted
      rw [ibanNumber_cons, List.length_append] at inTotalNumber
      rw [List.length_cons] at inAddress
      have others : ∀ other ∈ address, IbanAccepts other :=
        fun other member => accepted other (List.mem_cons_of_mem _ member)
      have letter : ∀ text, (ibanDigits char).length = 2 →
          Logged.Every IbanEvent.BeforeRounds (do
            let totalNumber ← ibanStore .totalNumber totalNumber counter
              (snprintf 3 text)
            ibanTotalNumberLogged address (index + 1) (counter + 2)
              totalNumber) := by
        intro text two
        have inside : counter + (snprintf 3 text).length ≤ 71 := by
          have stored : (snprintf 3 text).length ≤ 3 :=
            snprintf_length_le (by decide)
          omega
        refine Logged.Every.bind (ibanStore_every _ inside) ?_
        intro _ _
        exact inductionHypothesis others (by omega) (by omega)
      have assertion : counter < 70 := by omega
      have place : index + 1 ≤ 36 := by omega
      rw [ibanTotalNumberLogged]
      refine Logged.Every.bind (Logged.Every.log ⟨assertion, id⟩) ?_
      intro _ _
      refine Logged.Every.bind (Logged.Every.lift _) ?_
      intro _ _
      refine Logged.Every.bind (Logged.Every.log ⟨place, id⟩) ?_
      intro _ _
      rcases ibanDigits_cases charAccepted with
        ⟨isDigit, digits⟩ | ⟨noDigit, isUpper, _, two⟩ |
        ⟨noDigit, noUpper, isLower, _, two⟩
      · rw [if_pos isDigit]
        have inside : counter + [char].length ≤ 71 := by
          rw [List.length_singleton]
          omega
        refine Logged.Every.bind (ibanStore_every _ inside) ?_
        intro _ _
        exact inductionHypothesis others (by omega) (by omega)
      · rw [if_neg noDigit, if_pos isUpper]
        exact letter _ two
      · rw [if_neg noDigit, if_neg noUpper, if_pos isLower]
        exact letter _ two

/-! ## The rounds -/

/-- A character that is no terminator is read, and the next one after it. -/
theorem ibanPartialUintLogged_cons
    (round counter offset place partialUint : Nat)
    (chars : List UInt8)
    (isDigit : char ≠ 0) :
    (ibanPartialUintLogged round counter offset (char :: chars) place
        partialUint).events =
      .read .partialNumber place 1 ::
        ((if offset ≤ place then
            [.consumed round (counter + (place - offset))] else []) ++
          (ibanPartialUintLogged round counter offset chars (place + 1)
            (10 * partialUint + (char.toNat - 48))).events) := by
  rw [ibanPartialUintLogged, Logged.events_bind Logged.outcome_log,
    if_pos isDigit]
  by_cases copied : offset ≤ place
  · rw [if_pos copied, if_pos copied,
      Logged.events_bind Logged.outcome_log]
    rfl
  · rw [if_neg copied, if_neg copied]
    rfl

/-- A terminator is read, and nothing behind it. -/
theorem ibanPartialUintLogged_terminator
    (round counter offset place partialUint : Nat)
    (chars : List UInt8) :
    (ibanPartialUintLogged round counter offset (0 :: chars) place
      partialUint).events = [.read .partialNumber place 1] := by
  rw [ibanPartialUintLogged, Logged.events_bind Logged.outcome_log,
    if_neg (not_not.mpr rfl)]
  rfl

theorem ibanPartialUintLogged_every
    {round counter offset place partialUint : Nat}
    {chars : List UInt8}
    (inside : place + chars.length ≤ 10) :
    Logged.Every IbanEvent.Inside
      (ibanPartialUintLogged round counter offset chars place
        partialUint) := by
  induction chars generalizing place partialUint with
  | nil => exact Logged.Every.pure _
  | cons char chars inductionHypothesis =>
      rw [List.length_cons] at inside
      have within : place + 1 ≤ 10 := by omega
      rw [ibanPartialUintLogged]
      refine Logged.Every.bind (Logged.Every.log within) ?_
      intro _ _
      split
      · split
        · refine Logged.Every.bind (Logged.Every.log trivial) ?_
          intro _ _
          exact inductionHypothesis (by omega)
        · exact inductionHypothesis (by omega)
      · exact Logged.Every.pure _

/-- The digits that are consumed are those before the terminator that were
copied. -/
theorem consumed_mem_ibanPartialUintLogged
    {round other index counter offset place partialUint : Nat}
    {chars : List UInt8} :
    .consumed other index ∈ (ibanPartialUintLogged round counter offset chars
        place partialUint).events ↔
      other = round ∧ ∃ step < (cString chars).length,
        offset ≤ place + step ∧
        index = counter + (place + step - offset) := by
  induction chars generalizing place partialUint with
  | nil => simp [ibanPartialUintLogged, cString]
  | cons char chars inductionHypothesis =>
      by_cases terminator : char = 0
      · subst terminator
        rw [ibanPartialUintLogged_terminator]
        simp
      · rw [ibanPartialUintLogged_cons _ _ _ _ _ _ terminator,
          List.mem_cons, List.mem_append, inductionHypothesis,
          cString_cons terminator, List.length_cons]
        constructor
        · rintro (read | now | ⟨same, step, before, copied, place⟩)
          · cases read
          · split at now
            · rename_i copied
              obtain ⟨rfl, rfl⟩ : other = round ∧
                  index = counter + (place - offset) := by
                simpa using now
              exact ⟨rfl, 0, Nat.succ_pos _, copied, rfl⟩
            · cases now
          · exact ⟨same, step + 1, by omega, by omega, by omega⟩
        · rintro ⟨rfl, step, before, copied, rfl⟩
          cases step with
          | zero =>
              rw [Nat.add_zero] at copied
              refine Or.inr (Or.inl ?_)
              rw [if_pos copied]
              exact List.mem_singleton_self _
          | succ step =>
              exact Or.inr (Or.inr ⟨rfl, step, by omega, by omega, by omega⟩)

/-- The start of the piece a round copies. -/
def pieceStart : Nat → Nat
  | 0 => 0
  | round + 1 => 9 + 7 * round

/-- The place a round copies its piece to. -/
def pieceOffset : Nat → Nat
  | 0 => 0
  | _ + 1 => 2

/-- The pieces follow one another. -/
theorem pieceStart_succ (round : Nat) :
    pieceStart round + (9 - pieceOffset round) = pieceStart (round + 1) := by
  cases round with
  | zero => rfl
  | succ round =>
      change 9 + 7 * round + (9 - 2) = 9 + 7 * (round + 1)
      omega

section Rounds

variable {pastTotalNumber : UInt8} {number : CString}

/-- The events of a round and of those after it. -/
theorem IbanRound.mem_events
    (step : IbanRound pastTotalNumber number counter offset partialNumber
      piece filled next)
    (round rounds modulo : Nat) :
    event ∈ (ibanModuloLogged (number ++
        List.replicate (71 - number.length) 0 ++ [pastTotalNumber]) round
        (rounds + 1) counter offset modulo partialNumber).events ↔
      event = .read .totalNumber counter (9 - offset) ∨
      event = .written .partialNumber offset (9 - offset) ∨
      event ∈ (ibanPartialUintLogged round counter offset (filled.take 9) 0
        0).events ∨
      event = .written .partialNumber 0 3 ∨
      event ∈ (ibanModuloLogged (number ++
        List.replicate (71 - number.length) 0 ++ [pastTotalNumber])
        (round + 1) rounds (counter + (9 - offset)) 2
        (decimalValue (number.take (counter + (9 - offset))) % 97)
        next).events := by
  have stored : (snprintf 3 (printPadded2 (decimalValue
      (number.take (counter + (9 - offset))) % 97))).length = 3 := by
    rw [snprintf, printPadded2_eq (by omega)]
    rfl
  rw [ibanModuloLogged, Logged.events_bind Logged.outcome_log,
    Logged.events_bind ((Logged.outcome_lift _).trans step.loaded),
    Logged.events_bind ((ibanStore_outcome _ _ _ _).trans step.copied),
    Logged.events_bind (ibanPartialUintLogged_outcome _ _ _ _ _ _)]
  simp only [step.value]
  rw [Logged.events_bind ((ibanStore_outcome _ _ _ _).trans step.stored)]
  simp only [Logged.events_log, Logged.events_lift, ibanStore_events, stored,
    step.pieceLength, List.mem_append, List.mem_singleton, List.nil_append]

variable {partialNumber : List UInt8} {round rounds : Nat}

/-- A round copies its piece, and the next round goes on behind it. -/
theorem Reduced.pieceRound
    (reduced : Reduced number (pieceStart round) (pieceOffset round)
      partialNumber)
    (pastTotalNumber : UInt8)
    (digits : ∀ digit ∈ number, 48 ≤ digit.toNat ∧ digit.toNat < 58)
    (short : number.length ≤ 70)
    (inTime : round < 10) :
    ∃ piece filled next, IbanRound pastTotalNumber number (pieceStart round)
        (pieceOffset round) partialNumber piece filled next ∧
      Reduced number (pieceStart (round + 1)) (pieceOffset (round + 1))
        next := by
  have next := pieceStart_succ round
  have inside : pieceStart (round + 1) ≤ 72 := by
    change 9 + 7 * round ≤ 72
    omega
  obtain ⟨piece, filled, after, step⟩ :=
    reduced.round pastTotalNumber digits short (by omega)
  have nextReduced := step.reduced
  rw [next] at nextReduced
  exact ⟨piece, filled, after, step, nextReduced⟩

/-- Only the last round reads behind `total_number`. -/
theorem Reduced.rounds_inside
    (reduced : Reduced number (pieceStart round) (pieceOffset round)
      partialNumber)
    (pastTotalNumber : UInt8)
    (digits : ∀ digit ∈ number, 48 ≤ digit.toNat ∧ digit.toNat < 58)
    (short : number.length ≤ 70)
    (few : round + rounds ≤ 10)
    (modulo : Nat) :
    Logged.Every
      (fun event => event.Inside ∨ event = .read .totalNumber 65 7)
      (ibanModuloLogged (number ++ List.replicate (71 - number.length) 0 ++
        [pastTotalNumber]) round rounds (pieceStart round) (pieceOffset round)
        modulo partialNumber) := by
  induction rounds generalizing round modulo partialNumber with
  | zero => exact Logged.Every.pure _
  | succ rounds inductionHypothesis =>
      have next := pieceStart_succ round
      have size := reduced.size
      have offsetLe := reduced.offsetLe
      obtain ⟨piece, filled, after, step, nextReduced⟩ :=
        reduced.pieceRound pastTotalNumber digits short (by omega)
      intro event member
      rcases (step.mem_events _ _ _).mp member with
        rfl | rfl | read | rfl | later
      · by_cases isLast : round = 9
        · subst isLast
          exact Or.inr rfl
        · refine Or.inl (show pieceStart round + (9 - pieceOffset round) ≤ 71
            from ?_)
          rw [next]
          change 9 + 7 * round ≤ 71
          omega
      · refine Or.inl (show pieceOffset round + (9 - pieceOffset round) ≤ 10
          from ?_)
        omega
      · refine Or.inl (ibanPartialUintLogged_every ?_ event read)
        rw [List.length_take]
        omega
      · exact Or.inl (show 0 + 3 ≤ 10 by decide)
      · rw [next] at later
        exact inductionHypothesis nextReduced (by omega) _ event later

/-- Every round copies its piece. -/
theorem Reduced.rounds_copy
    (reduced : Reduced number (pieceStart round) (pieceOffset round)
      partialNumber)
    (pastTotalNumber : UInt8)
    (digits : ∀ digit ∈ number, 48 ≤ digit.toNat ∧ digit.toNat < 58)
    (short : number.length ≤ 70)
    (few : round + rounds ≤ 10)
    (modulo copying : Nat)
    (first : round ≤ copying)
    (last : copying < round + rounds) :
    .read .totalNumber (pieceStart copying) (9 - pieceOffset copying) ∈
      (ibanModuloLogged (number ++ List.replicate (71 - number.length) 0 ++
        [pastTotalNumber]) round rounds (pieceStart round) (pieceOffset round)
        modulo partialNumber).events := by
  induction rounds generalizing round modulo partialNumber with
  | zero => omega
  | succ rounds inductionHypothesis =>
      have next := pieceStart_succ round
      obtain ⟨piece, filled, after, step, nextReduced⟩ :=
        reduced.pieceRound pastTotalNumber digits short (by omega)
      rw [step.mem_events]
      by_cases now : copying = round
      · subst now
        exact Or.inl rfl
      · rw [next]
        exact Or.inr (Or.inr (Or.inr (Or.inr (inductionHypothesis nextReduced
          (by omega) _ (by omega) (by omega)))))

/-- A round consumes the digits of its piece. -/
theorem Reduced.rounds_consume
    (reduced : Reduced number (pieceStart round) (pieceOffset round)
      partialNumber)
    (pastTotalNumber : UInt8)
    (digits : ∀ digit ∈ number, 48 ≤ digit.toNat ∧ digit.toNat < 58)
    (short : number.length ≤ 70)
    (few : round + rounds ≤ 10)
    (modulo other index : Nat) :
    .consumed other index ∈
        (ibanModuloLogged (number ++ List.replicate (71 - number.length) 0 ++
          [pastTotalNumber]) round rounds (pieceStart round)
          (pieceOffset round) modulo partialNumber).events ↔
      (round ≤ other ∧ other < round + rounds) ∧
        (pieceStart other ≤ index ∧ index < pieceStart (other + 1)) ∧
        index < number.length := by
  induction rounds generalizing round modulo partialNumber with
  | zero =>
      constructor
      · intro member
        cases member
      · omega
  | succ rounds inductionHypothesis =>
      have next := pieceStart_succ round
      have offsetLe := reduced.offsetLe
      obtain ⟨piece, filled, after, step, nextReduced⟩ :=
        reduced.pieceRound pastTotalNumber digits short (by omega)
      have textLength : (cString (filled.take 9)).length = pieceOffset round +
          min (9 - pieceOffset round) (number.length - pieceStart round) := by
        rw [step.text, List.length_append, List.length_take, List.length_take,
          List.length_drop, reduced.size]
        omega
      rw [step.mem_events, consumed_mem_ibanPartialUintLogged, textLength,
        next]
      have later := inductionHypothesis nextReduced (by omega)
        (decimalValue (number.take (pieceStart (round + 1))) % 97)
      constructor
      · rintro (copy | copy | ⟨rfl, place, before, copied, rfl⟩ | remainder |
          member)
        · cases copy
        · cases copy
        · exact ⟨by omega, by omega, by omega⟩
        · cases remainder
        · obtain ⟨bounds, rest⟩ := later.mp member
          exact ⟨by omega, rest⟩
      · rintro ⟨bounds, ⟨least, most⟩, inNumber⟩
        by_cases now : other = round
        · subst now
          refine Or.inr (Or.inr (Or.inl ⟨rfl,
            pieceOffset other + (index - pieceStart other), ?_, ?_, ?_⟩))
          · omega
          · omega
          · omega
        · exact Or.inr (Or.inr (Or.inr (Or.inr
            (later.mpr ⟨by omega, ⟨least, most⟩, inNumber⟩))))

end Rounds

/-! ## The whole function -/

section Whole

variable {base32 : Bytes 32}

/-- The events of the two loops and of what is before them. -/
theorem ibanCheckLogged_mem
    (pastTotalNumber : UInt8)
    (accepted : ∀ char ∈ base32.val, IbanAccepts char) :
    event ∈ (ibanCheckLogged pastTotalNumber base32.val).events ↔
      (event ∈ (ibanAddressLogged base32.val).events ∨
        event ∈ (ibanTotalNumberLogged (base32.val ++ ascii "NQ00") 0 0
          (List.replicate 71 0)).events) ∨
      event ∈ (ibanModuloLogged (ibanNumber (base32.val ++ ascii "NQ00") ++
        List.replicate (71 - (ibanNumber (base32.val ++ ascii "NQ00")).length)
          0 ++ [pastTotalNumber]) 0 10 (pieceStart 0) (pieceOffset 0) 0
        (List.replicate 10 0)).events := by
  have total := ibanTotalNumber_base32 base32.property accepted
  unfold ibanCheckLogged
  rw [Logged.events_bind (ibanAddressLogged_outcome base32),
    Logged.events_bind ((ibanTotalNumberLogged_outcome _ _ _ _).trans total),
    List.mem_append, List.mem_append, Logged.mem_bind, or_assoc]
  simp only [Logged.events_pure, List.not_mem_nil, and_false, exists_false,
    or_false]
  rfl

/-- Before the rounds all accesses are inside. -/
theorem ibanCheckLogged_beforeRounds
    (accepted : ∀ char ∈ base32.val, IbanAccepts char)
    (early : event ∈ (ibanAddressLogged base32.val).events ∨
      event ∈ (ibanTotalNumberLogged (base32.val ++ ascii "NQ00") 0 0
        (List.replicate 71 0)).events) :
    event.BeforeRounds := by
  obtain ⟨valid, short⟩ := ibanNumber_base32 base32.property accepted
  rcases early with address | number
  · exact ibanAddressLogged_every _ event address
  · refine ibanTotalNumberLogged_every valid ?_ (by omega) event number
    rw [List.length_append, base32.property]
    decide

/-- All accesses are inside the arrays, but for the copy of the last round. -/
theorem ibanCheckLogged_inside
    (pastTotalNumber : UInt8)
    (accepted : ∀ char ∈ base32.val, IbanAccepts char)
    (member : event ∈ (ibanCheckLogged pastTotalNumber base32.val).events) :
    event.Inside ∨ event = .read .totalNumber 65 7 := by
  obtain ⟨valid, short⟩ := ibanNumber_base32 base32.property accepted
  rcases (ibanCheckLogged_mem pastTotalNumber accepted).mp member with
    early | rounds
  · exact Or.inl (ibanCheckLogged_beforeRounds accepted early).1
  · exact Reduced.rounds_inside (Reduced.start _) pastTotalNumber
      (fun _ => digit_of_mem_ibanNumber valid) short (by decide) 0 event
      rounds

/-- The last round copies from the last five digits, the terminator and one
byte more. -/
theorem ibanCheckLogged_lastCopy
    (pastTotalNumber : UInt8)
    (accepted : ∀ char ∈ base32.val, IbanAccepts char) :
    .read .totalNumber 65 7 ∈
      (ibanCheckLogged pastTotalNumber base32.val).events := by
  obtain ⟨valid, short⟩ := ibanNumber_base32 base32.property accepted
  rw [ibanCheckLogged_mem pastTotalNumber accepted]
  exact Or.inr (Reduced.rounds_copy (Reduced.start _) pastTotalNumber
    (fun _ => digit_of_mem_ibanNumber valid) short (by decide) 0 9 (by decide)
    (by decide))

/-- Every digit is consumed by one round. -/
theorem ibanCheckLogged_consumes
    (pastTotalNumber : UInt8)
    (accepted : ∀ char ∈ base32.val, IbanAccepts char)
    (inNumber : index < (ibanNumber (base32.val ++ ascii "NQ00")).length) :
    ∃! round, .consumed round index ∈
      (ibanCheckLogged pastTotalNumber base32.val).events := by
  obtain ⟨valid, short⟩ := ibanNumber_base32 base32.property accepted
  have consumed : ∀ round, .consumed round index ∈
      (ibanCheckLogged pastTotalNumber base32.val).events ↔
        round < 10 ∧ pieceStart round ≤ index ∧
          index < pieceStart (round + 1) := by
    intro round
    have rounds := Reduced.rounds_consume
      (show Reduced (ibanNumber (base32.val ++ ascii "NQ00")) (pieceStart 0)
        (pieceOffset 0) (List.replicate 10 0) from Reduced.start _)
      pastTotalNumber (fun _ => digit_of_mem_ibanNumber valid) short
      (show 0 + 10 ≤ 10 by decide) 0 round index
    rw [ibanCheckLogged_mem pastTotalNumber accepted, rounds]
    constructor
    · rintro (early | ⟨bounds, piece, _⟩)
      · exact absurd trivial (ibanCheckLogged_beforeRounds accepted early).2
      · exact ⟨bounds.2, piece⟩
    · rintro ⟨bound, piece⟩
      exact Or.inr ⟨⟨Nat.zero_le _, by omega⟩, piece, inNumber⟩
  simp only [consumed]
  have starts : ∀ round, pieceStart (round + 1) = 9 + 7 * round :=
    fun _ => rfl
  by_cases first : index < 9
  · refine ⟨0, ⟨by decide, Nat.zero_le _, first⟩, ?_⟩
    rintro round ⟨_, least, _⟩
    cases round with
    | zero => rfl
    | succ round =>
        rw [starts] at least
        omega
  · refine ⟨(index - 9) / 7 + 1, ⟨?_, ?_, ?_⟩, ?_⟩
    · omega
    · rw [starts]
      omega
    · rw [starts]
      omega
    · rintro round ⟨_, least, most⟩
      rw [starts] at most
      cases round with
      | zero => omega
      | succ round =>
          rw [starts] at least
          omega

/-- A log is as it should be: the accesses are inside the arrays, the
assertions hold, and every digit is consumed by one round. -/
structure IndexesInside (digits : Nat) (log : List IbanEvent) : Prop where
  inside : ∀ event ∈ log, event.Inside
  consumed : ∀ index < digits, ∃! round, .consumed round index ∈ log

/-- The copy of the last round is not inside. -/
theorem IbanEvent.not_inside_copy :
    ¬(IbanEvent.read .totalNumber 65 7).Inside := by
  intro inside
  change 65 + 7 ≤ 71 at inside
  omega

/-- The last round reads one byte behind `total_number`, whatever is checked.
All else is as it should be. -/
theorem ibanCheckLogged_readsPast
    (pastTotalNumber : UInt8)
    (accepted : ∀ char ∈ base32.val, IbanAccepts char) :
    (ibanCheckLogged pastTotalNumber base32.val).outcome =
        .ok (checkDigits base32.val) ∧
      ¬IndexesInside (ibanNumber (base32.val ++ ascii "NQ00")).length
        (ibanCheckLogged pastTotalNumber base32.val).events ∧
      (∀ event ∈ (ibanCheckLogged pastTotalNumber base32.val).events,
        ¬event.Inside ↔ event = .read .totalNumber 65 7) ∧
      ∀ index < (ibanNumber (base32.val ++ ascii "NQ00")).length,
        ∃! round, .consumed round index ∈
          (ibanCheckLogged pastTotalNumber base32.val).events := by
  have lastCopy := ibanCheckLogged_lastCopy pastTotalNumber accepted
  refine ⟨?_, ?_, ?_, ?_⟩
  · rw [ibanCheckLogged_outcome]
    exact ibanCheck_eq base32.property accepted
  · intro indexes
    exact IbanEvent.not_inside_copy (indexes.inside _ lastCopy)
  · intro event member
    constructor
    · intro outside
      rcases ibanCheckLogged_inside pastTotalNumber accepted member with
        inside | copy
      · exact absurd inside outside
      · exact copy
    · rintro rfl
      exact IbanEvent.not_inside_copy
  · intro index inNumber
    exact ibanCheckLogged_consumes pastTotalNumber accepted inNumber

/-- The first address, in base 32. -/
def zeroBase32 : Bytes 32 :=
  ⟨List.replicate 32 48, by decide⟩

theorem zeroBase32_accepted :
    ∀ char ∈ zeroBase32.val, IbanAccepts char := by
  intro char member
  rw [List.eq_of_mem_replicate member]
  exact Or.inl (Or.inl (by decide))

/-- The check of the first address reads behind `total_number`. -/
theorem ibanCheckLogged_readsPast_zero :
    (∀ event ∈ (ibanCheckLogged 0 zeroBase32.val).events,
      ¬event.Inside ↔ event = .read .totalNumber 65 7) ∧
    ∀ index < (ibanNumber (zeroBase32.val ++ ascii "NQ00")).length,
      ∃! round, .consumed round index ∈
        (ibanCheckLogged 0 zeroBase32.val).events :=
  (ibanCheckLogged_readsPast 0 zeroBase32_accepted).2.2

/-- It does not index inside its arrays only. -/
theorem zeroBase32_readsPast :
    (∀ char ∈ zeroBase32.val, IbanAccepts char) ∧
      ¬IndexesInside (ibanNumber (zeroBase32.val ++ ascii "NQ00")).length
        (ibanCheckLogged 0 zeroBase32.val).events := by
  refine ⟨zeroBase32_accepted, ?_⟩
  intro indexes
  exact IbanEvent.not_inside_copy
    (indexes.inside _ (ibanCheckLogged_lastCopy 0 zeroBase32_accepted))

end Whole

end NimiqApp
