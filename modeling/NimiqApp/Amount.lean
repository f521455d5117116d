import NimiqApp.Text
import Mathlib.Data.List.DropRight

/-!
# Amounts

`parse_amount` prints an amount of Luna in NIM.  It accepts exactly the
amounts JavaScript represents safely, and what it prints determines the
amount.
-/

namespace NimiqApp

open Foundation

/-- The decimal separator. -/
def decimalSeparator : UInt8 := 46

/-- Store a character behind those `parse_amount` stored before. -/
def putAmountChar (buffer : List UInt8) (char : UInt8) :
    Run ErrorCode (List UInt8) :=
  if buffer.length < stringLengthNimAmount then pure (buffer ++ [char])
  else Run.fault .outOfBounds

/-- The digit loop of `parse_amount`; the counter `i` is the number of
characters in the buffer.  Every round stores one, so the rounds of a run
that stays in the buffer are at most its cells. -/
def parseAmountLoop :
    Nat → UInt64 → List UInt8 → Run ErrorCode (List UInt8)
  | 0, _, _ => Run.fault .outOfBounds
  | rounds + 1, dVal, buffer =>
      if dVal > 0 ∨ buffer.length < 7 then do
        let i := buffer.length
        let buffer ← putAmountChar buffer
          (if dVal > 0 then (dVal % 10).toUInt8 + 48 else 48)
        let buffer ←
          if i = 4 then putAmountChar buffer decimalSeparator else pure buffer
        Run.ledgerAssert (buffer.length - 1 < stringLengthNimAmount)
        parseAmountLoop rounds (if dVal > 0 then dVal / 10 else dVal) buffer
      else pure buffer

/-- `parse_amount`. -/
def parseAmount (amount : UInt64) (ticker : Option CString) :
    Run ErrorCode CString := do
  Run.returnOn (amount > maxSafeLunaAmount) .incorrectData
  let buffer ← parseAmountLoop (stringLengthNimAmount + 1) amount []
  let out := buffer.reverse.rdropWhile (· == 48)
  let out :=
    if out.getLast? = some decimalSeparator then out.dropLast else out
  match ticker with
  | some ticker => do
      Run.returnOn
        (out.length + 1 + ticker.length + 1 > stringLengthNimAmountWithTicker)
        .incorrectData
      pure (out ++ 32 :: ticker)
  | none => pure out

/-- How many of the first characters are left without trailing zeros. -/
def withoutZeros (out : List UInt8) : Nat → Nat
  | 0 => 0
  | j + 1 => if out.getD j 0 ≠ 48 then j + 1 else withoutZeros out j

/-- `parse_amount` as it stores into a buffer. -/
def parseAmountInto (amount : UInt64) (ticker : Option CString)
    (out : List UInt8) : Run ErrorCode (List UInt8) := do
  Run.returnOn (amount > maxSafeLunaAmount) .incorrectData
  let buffer ← parseAmountLoop (stringLengthNimAmount + 1) amount []
  let out ← writeAt out 0 buffer.reverse
  let j := withoutZeros out buffer.length
  let j := if j > 0 ∧ out.getD (j - 1) 0 = decimalSeparator then j - 1 else j
  match ticker with
  | some ticker => do
      Run.returnOn
        (j + 1 + ticker.length + 1 > stringLengthNimAmountWithTicker)
        .incorrectData
      let out ← writeAt out j [32]
      let out ← writeAt out (j + 1) ticker
      writeAt out (j + 1 + ticker.length) [0]
  | none => writeAt out j [0]

/-- The five digits behind the decimal separator. -/
def fractionDigits (amount : Nat) : CString :=
  (Positional.digits 10 5 amount).map digitByte

/-- An amount of Luna in NIM: a whole number and, unless it is zero, a
fraction without trailing zeros. -/
def amountText (amount : Nat) : CString :=
  let fraction := (fractionDigits amount).rdropWhile (· == 48)
  printUnsigned (amount / 100000) ++
    if fraction = [] then [] else decimalSeparator :: fraction

/-- The amount with its ticker. -/
def amountWithTicker (amount : Nat) : CString :=
  amountText amount ++ ascii " NIM"

theorem fractionDigits_length (amount : Nat) :
    (fractionDigits amount).length = 5 := by
  simp [fractionDigits]

theorem digit_of_mem_fractionDigits
    (member : byte ∈ fractionDigits amount) :
    48 ≤ byte.toNat ∧ byte.toNat < 58 := by
  obtain ⟨digit, inDigits, rfl⟩ := List.mem_map.mp member
  have isDigit := Positional.lt_of_mem_digits (by decide) inDigits
  rw [toNat_digitByte isDigit]
  omega

/-- Five digits denote a fraction. -/
theorem decimalValue_fractionDigits (amount : Nat) :
    decimalValue (fractionDigits amount) = amount % 100000 := by
  have back : (fractionDigits amount).map (fun digit => digit.toNat - 48) =
      Positional.digits 10 5 amount := by
    rw [fractionDigits, List.map_map]
    conv_rhs => rw [← List.map_id (Positional.digits 10 5 amount)]
    apply List.map_congr_left
    intro digit member
    have isDigit := Positional.lt_of_mem_digits (by decide) member
    simp only [Function.comp_apply, toNat_digitByte isDigit, id_eq]
    omega
  rw [decimalValue, back, Positional.value_digits]
  rfl

/-- Stripped trailing zeros are restored by padding. -/
theorem rdropWhile_zeros_append (text : CString) :
    text.rdropWhile (· == 48) ++
        List.replicate
          (text.length - (text.rdropWhile (· == 48)).length) 48 =
      text := by
  have parts : text.rdropWhile (· == 48) ++ text.rtakeWhile (· == 48) =
      text := List.rdropWhile_append_rtakeWhile
  have zeros : text.rtakeWhile (· == 48) =
      List.replicate
        (text.length - (text.rdropWhile (· == 48)).length) 48 := by
    rw [List.eq_replicate_iff]
    constructor
    · have lengths := congrArg List.length parts
      rw [List.length_append] at lengths
      omega
    · intro byte member
      exact beq_iff_eq.mp
        (List.mem_rtakeWhile_imp (p := fun byte => byte == 48) member)
  rw [← zeros, parts]

/-- Digits are not the decimal separator. -/
theorem ne_decimalSeparator
    (isDigit : 48 ≤ byte.toNat ∧ byte.toNat < 58) :
    byte ≠ decimalSeparator := by
  rintro rfl
  exact absurd isDigit.1 (by decide)

/-- The whole part and the rest of a printed amount are told apart by the
decimal separator. -/
theorem whole_fraction_unique
    {left right : Nat} {leftFraction rightFraction : CString}
    (equal : printUnsigned left ++
        (if leftFraction = [] then []
          else decimalSeparator :: leftFraction) =
      printUnsigned right ++
        (if rightFraction = [] then []
          else decimalSeparator :: rightFraction)) :
    left = right ∧ leftFraction = rightFraction := by
  have front : ∀ (number : Nat) (fraction : CString),
      (printUnsigned number ++
          (if fraction = [] then []
            else decimalSeparator :: fraction)).takeWhile
        (· != decimalSeparator) = printUnsigned number := by
    intro number fraction
    rw [List.takeWhile_append_of_pos]
    · split <;> simp
    · intro byte member
      exact bne_iff_ne.mpr
        (ne_decimalSeparator (digit_of_mem_printUnsigned member))
  have wholes := congrArg (List.takeWhile (· != decimalSeparator)) equal
  rw [front, front] at wholes
  have numbers := printUnsigned_injective wholes
  subst numbers
  have fractions := List.append_cancel_left equal
  refine ⟨rfl, ?_⟩
  by_cases leftEmpty : leftFraction = [] <;>
    by_cases rightEmpty : rightFraction = [] <;>
    simp_all

/-- Different amounts print differently. -/
theorem amountText_injective
    (equal : amountText left = amountText right) : left = right := by
  obtain ⟨wholes, fractions⟩ := whole_fraction_unique equal
  have padded := rdropWhile_zeros_append (fractionDigits left)
  rw [fractions, fractionDigits_length, ← fractionDigits_length right,
    rdropWhile_zeros_append] at padded
  have values := congrArg decimalValue padded
  rw [decimalValue_fractionDigits, decimalValue_fractionDigits] at values
  omega

theorem amountWithTicker_injective
    (equal : amountWithTicker left = amountWithTicker right) :
    left = right :=
  amountText_injective (List.append_cancel_right equal)

/-- Only the amount zero is printed as `0 NIM`. -/
theorem amountWithTicker_eq_zero_iff :
    amountWithTicker amount = ascii "0 NIM" ↔ amount = 0 := by
  have zero : amountWithTicker 0 = ascii "0 NIM" := by decide
  rw [← zero]
  constructor
  · exact amountWithTicker_injective
  · rintro rfl
    rfl

/-- The digits of the whole part that are left, none for zero. -/
def remainingDigits (dVal : Nat) : CString :=
  if dVal = 0 then [] else printUnsigned dVal

theorem printUnsigned_eq_remainingDigits (number : Nat) :
    printUnsigned number =
      remainingDigits (number / 10) ++ [digitByte (number % 10)] := by
  rw [printUnsigned_eq, remainingDigits]
  congr 1
  by_cases small : number < 10
  · rw [if_pos small, if_pos (Nat.div_eq_of_lt small)]
  · rw [if_neg small, if_neg (by omega)]

/-- The digit a round stores. -/
theorem parseAmount_digit (dVal : UInt64) :
    (if dVal > 0 then (dVal % 10).toUInt8 + 48 else 48) =
      digitByte (dVal.toNat % 10) := by
  have isDigit : dVal.toNat % 10 < 10 := Nat.mod_lt _ (by decide)
  by_cases positive : dVal > 0
  · rw [if_pos positive]
    apply UInt8.toNat_inj.mp
    rw [toNat_digitByte isDigit, UInt8.toNat_add, UInt64.toNat_toUInt8,
      UInt64.toNat_mod]
    change (dVal.toNat % 10 % 2 ^ 8 + 48) % 2 ^ 8 = _
    omega
  · have zero : dVal.toNat = 0 := by
      rw [gt_iff_lt, UInt64.lt_iff_toNat_lt] at positive
      change ¬0 < dVal.toNat at positive
      omega
    rw [if_neg positive, zero]
    rfl

theorem toNat_div_ten (dVal : UInt64) :
    (if dVal > 0 then dVal / 10 else dVal).toNat = dVal.toNat / 10 := by
  by_cases positive : dVal > 0
  · rw [if_pos positive, UInt64.toNat_div]
    rfl
  · rw [if_neg positive]
    rw [gt_iff_lt, UInt64.lt_iff_toNat_lt] at positive
    change ¬0 < dVal.toNat at positive
    omega

/-- A round that stores one digit. -/
theorem parseAmountLoop_digit
    (rounds : Nat)
    (dVal : UInt64)
    (buffer : List UInt8)
    (continues : dVal.toNat ≠ 0 ∨ buffer.length < 7)
    (fits : buffer.length < stringLengthNimAmount)
    (notFourth : buffer.length ≠ 4) :
    ∃ next : UInt64, next.toNat = dVal.toNat / 10 ∧
      parseAmountLoop (rounds + 1) dVal buffer =
        parseAmountLoop rounds next
          (buffer ++ [digitByte (dVal.toNat % 10)]) := by
  refine ⟨_, toNat_div_ten dVal, ?_⟩
  have enters : dVal > 0 ∨ buffer.length < 7 := by
    rw [gt_iff_lt, UInt64.lt_iff_toNat_lt]
    change 0 < dVal.toNat ∨ buffer.length < 7
    omega
  rw [parseAmountLoop, if_pos enters]
  simp only [parseAmount_digit, putAmountChar, if_pos fits,
    if_neg notFourth, Run.pure_eq, Run.bind_ok]
  rw [Run.ledgerAssert_of, Run.bind_ok]
  rw [List.length_append, List.length_singleton]
  omega

/-- The round that also stores the decimal separator. -/
theorem parseAmountLoop_separator
    (rounds : Nat)
    (dVal : UInt64)
    (buffer : List UInt8)
    (fourth : buffer.length = 4) :
    ∃ next : UInt64, next.toNat = dVal.toNat / 10 ∧
      parseAmountLoop (rounds + 1) dVal buffer =
        parseAmountLoop rounds next
          (buffer ++ [digitByte (dVal.toNat % 10), decimalSeparator]) := by
  refine ⟨_, toNat_div_ten dVal, ?_⟩
  have limit : stringLengthNimAmount = 18 := rfl
  rw [parseAmountLoop, if_pos (Or.inr (by omega))]
  simp only [parseAmount_digit, putAmountChar, if_pos fourth,
    if_pos (show buffer.length < stringLengthNimAmount by omega),
    Run.pure_eq, Run.bind_ok]
  rw [if_pos (by simp; omega), Run.bind_ok, Run.ledgerAssert_of, Run.bind_ok,
    List.append_assoc]
  · rfl
  · simp
    omega

/-- Behind the first whole digit the loop stores the digits that are left,
in reverse order. -/
theorem parseAmountLoop_remaining
    (behind : 7 ≤ buffer.length)
    (fits : buffer.length + (remainingDigits dVal.toNat).length ≤
      stringLengthNimAmount)
    (enough : (remainingDigits dVal.toNat).length < rounds) :
    parseAmountLoop rounds dVal buffer =
      .ok (buffer ++ (remainingDigits dVal.toNat).reverse) := by
  induction rounds generalizing dVal buffer with
  | zero => omega
  | succ rounds inductionHypothesis =>
      by_cases finished : dVal.toNat = 0
      · have stops : ¬(dVal > 0 ∨ buffer.length < 7) := by
          rw [gt_iff_lt, UInt64.lt_iff_toNat_lt]
          change ¬(0 < dVal.toNat ∨ buffer.length < 7)
          omega
        rw [parseAmountLoop, if_neg stops, remainingDigits, if_pos finished]
        simp
      · have digits : remainingDigits dVal.toNat =
            remainingDigits (dVal.toNat / 10) ++
              [digitByte (dVal.toNat % 10)] := by
          rw [← printUnsigned_eq_remainingDigits, remainingDigits,
            if_neg finished]
        rw [digits, List.length_append, List.length_singleton] at fits enough
        obtain ⟨next, nextEq, stepEq⟩ := parseAmountLoop_digit rounds dVal
          buffer (Or.inl finished) (by omega) (by omega)
        rw [stepEq, inductionHypothesis (by simp; omega)
          (by rw [nextEq, List.length_append, List.length_singleton]; omega)
          (by rw [nextEq]; omega)]
        rw [digits, nextEq, List.reverse_append, List.append_assoc]
        rfl

/-- In front of the separator the loop stores digits of the fraction. -/
theorem parseAmountLoop_fraction
    (rounds count : Nat)
    (dVal : UInt64)
    (buffer : List UInt8)
    (before : buffer.length + count ≤ 4) :
    ∃ next : UInt64, next.toNat = dVal.toNat / 10 ^ count ∧
      parseAmountLoop (rounds + count) dVal buffer =
        parseAmountLoop rounds next
          (buffer ++ ((Positional.digits 10 count dVal.toNat).map
            digitByte).reverse) := by
  induction count generalizing dVal buffer with
  | zero => exact ⟨dVal, by simp, by simp⟩
  | succ count inductionHypothesis =>
      have limit : stringLengthNimAmount = 18 := rfl
      obtain ⟨middle, middleEq, step⟩ := parseAmountLoop_digit
        (rounds + count) dVal buffer (Or.inr (by omega)) (by omega) (by omega)
      obtain ⟨next, nextEq, steps⟩ := inductionHypothesis middle
        (buffer ++ [digitByte (dVal.toNat % 10)])
        (by rw [List.length_append, List.length_singleton]; omega)
      refine ⟨next, ?_, ?_⟩
      · rw [nextEq, middleEq, Nat.div_div_eq_div_mul, Nat.pow_succ']
      · rw [← Nat.add_assoc, step, steps, middleEq, Positional.digits_succ,
          List.map_append, List.reverse_append, List.append_assoc]
        rfl

/-- The loop stores the digits of the fraction, the separator and the digits
of the whole part, in reverse order. -/
theorem parseAmountLoop_eq
    (bounded : amount ≤ maxSafeLunaAmount) :
    parseAmountLoop (stringLengthNimAmount + 1) amount [] =
      .ok (printUnsigned (amount.toNat / 100000) ++
        decimalSeparator :: fractionDigits amount.toNat).reverse := by
  have limit : stringLengthNimAmount = 18 := rfl
  obtain ⟨fourth, fourthEq, low⟩ :=
    parseAmountLoop_fraction 15 4 amount [] (by decide)
  obtain ⟨fifth, fifthEq, separated⟩ := parseAmountLoop_separator 14 fourth
    ([] ++ ((Positional.digits 10 4 amount.toNat).map digitByte).reverse)
    (by simp)
  obtain ⟨sixth, sixthEq, units⟩ := parseAmountLoop_digit 13 fifth
    ([] ++ ((Positional.digits 10 4 amount.toNat).map digitByte).reverse ++ [digitByte (fourth.toNat % 10), decimalSeparator])
    (Or.inr (by simp)) (by simp; omega) (by simp)
  have whole : fifth.toNat = amount.toNat / 100000 := by omega
  have wholeLength : (remainingDigits sixth.toNat).length ≤ 10 := by
    have most : maxSafeLunaAmount.toNat = 9007199254740991 := rfl
    have bound : amount.toNat ≤ maxSafeLunaAmount.toNat :=
      UInt64.le_iff_toNat_le.mp bounded
    unfold remainingDigits
    split
    · decide
    · rw [printUnsigned_length_le_iff (by decide)]
      omega
  have fraction : fractionDigits amount.toNat =
      digitByte (fourth.toNat % 10) ::
        (Positional.digits 10 4 amount.toNat).map digitByte := by
    have quotient : fourth.toNat = amount.toNat / 10 / 10 / 10 / 10 := by
      omega
    rw [quotient]
    rfl
  change parseAmountLoop (15 + 4) amount [] = _
  rw [low, separated, units,
    parseAmountLoop_remaining (by simp) (by simp; omega) (by omega)]
  rw [← whole, printUnsigned_eq_remainingDigits, ← sixthEq, fraction]
  simp

/-- Stripping zeros and a trailing separator leaves the printed amount. -/
theorem strip_eq (amount : Nat) :
    (let out := (printUnsigned (amount / 100000) ++
        decimalSeparator :: fractionDigits amount).rdropWhile (· == 48)
      if out.getLast? = some decimalSeparator then out.dropLast else out) =
      amountText amount := by
  have split : (printUnsigned (amount / 100000) ++
        decimalSeparator :: fractionDigits amount).rdropWhile (· == 48) =
      printUnsigned (amount / 100000) ++
        decimalSeparator :: (fractionDigits amount).rdropWhile (· == 48) := by
    unfold List.rdropWhile
    rw [List.reverse_append, List.reverse_cons, List.append_assoc,
      List.dropWhile_append]
    split
    · rename_i empty
      rw [List.isEmpty_iff.mp empty]
      simp [decimalSeparator]
    · simp
  simp only [split, amountText]
  by_cases empty : (fractionDigits amount).rdropWhile (· == 48) = []
  · simp [empty]
  · have last : (printUnsigned (amount / 100000) ++ decimalSeparator ::
          (fractionDigits amount).rdropWhile (· == 48)).getLast? ≠
        some decimalSeparator := by
      intro isSeparator
      rw [List.getLast?_append, List.getLast?_cons,
        List.getLast?_eq_some_getLast empty] at isSeparator
      have inFraction : ((fractionDigits amount).rdropWhile
          (· == 48)).getLast empty ∈ fractionDigits amount :=
        (List.rdropWhile_prefix _ _).subset (List.getLast_mem empty)
      exact ne_decimalSeparator (digit_of_mem_fractionDigits inFraction)
        (by simpa using isSeparator)
    rw [if_neg last, if_neg empty]

/-- Safe amounts have at most eleven digits before the separator. -/
theorem whole_length_le (bounded : amount ≤ maxSafeLunaAmount) :
    (printUnsigned (amount.toNat / 100000)).length ≤ 11 := by
  have limit : maxSafeLunaAmount.toNat = 9007199254740991 := rfl
  have bound : amount.toNat ≤ maxSafeLunaAmount.toNat :=
    UInt64.le_iff_toNat_le.mp bounded
  exact (printUnsigned_length_le_iff (by decide)).mpr (by omega)

theorem amountText_length_le (bounded : amount ≤ maxSafeLunaAmount) :
    (amountText amount.toNat).length ≤ 17 := by
  have whole := whole_length_le bounded
  have fraction : ((fractionDigits amount.toNat).rdropWhile
      (· == 48)).length ≤ 5 := by
    have shorter := (List.rdropWhile_prefix (p := (· == 48))
      (l := fractionDigits amount.toNat)).length_le
    rwa [fractionDigits_length] at shorter
  unfold amountText
  simp only [List.length_append]
  split
  · simp
    omega
  · rw [List.length_cons]
    omega

/-- Safe amounts are printed exactly. -/
theorem parseAmount_eq (bounded : amount ≤ maxSafeLunaAmount) :
    parseAmount amount (some (ascii "NIM")) =
      .ok (amountWithTicker amount.toNat) := by
  have short := amountText_length_le bounded
  have unlimited : ¬amount > maxSafeLunaAmount := UInt64.not_lt.mpr bounded
  unfold parseAmount
  rw [Run.returnOn_of_not unlimited, Run.bind_ok, parseAmountLoop_eq bounded,
    Run.bind_ok, List.reverse_reverse]
  simp only
  rw [strip_eq amount.toNat, Run.returnOn_of_not, Run.bind_ok]
  · rfl
  · have tickerLength : (ascii "NIM").length = 3 := by decide
    have limit : stringLengthNimAmountWithTicker = 22 := rfl
    omega

/-- Other amounts are refused. -/
theorem parseAmount_reject
    (unsafeAmount : ¬amount ≤ maxSafeLunaAmount) :
    parseAmount amount ticker = .error (.error .incorrectData) := by
  unfold parseAmount
  rw [Run.returnOn, if_pos (UInt64.not_le.mp unsafeAmount)]
  rfl

/-- An amount that is printed is not too large. -/
theorem le_of_parseAmount_eq_ok
    (printed : parseAmount amount ticker = .ok text) :
    amount ≤ maxSafeLunaAmount := by
  by_contra tooLarge
  rw [parseAmount_reject tooLarge] at printed
  cases printed

end NimiqApp
