import NimiqApp.Amount
import NimiqApp.Device

/-!
# Printed amounts

An amount is stored as a decimal number in canonical form, with its ticker
and a terminator.
-/

namespace NimiqApp

open Foundation

/-- Trailing zeros are counted off from the end. -/
theorem withoutZeros_eq (text rest : List UInt8) :
    withoutZeros (text ++ rest) text.length =
      (text.rdropWhile (· == 48)).length := by
  induction text using List.reverseRecOn generalizing rest with
  | nil => rfl
  | append_singleton text char inductionHypothesis =>
      have last : (text ++ [char] ++ rest).getD text.length 0 = char := by
        simp
      rw [List.length_append, List.length_singleton, withoutZeros, last]
      by_cases zero : char = 48
      · rw [if_neg (not_not.mpr zero), List.append_assoc,
          inductionHypothesis, List.rdropWhile_concat_pos _ _ _ (by simp [zero])]
      · rw [if_pos zero, List.rdropWhile_concat_neg _ _ _ (by simp [zero]),
          List.length_append, List.length_singleton]

/-- What is left of a text without trailing zeros and separator. -/
def strip (text : CString) : CString :=
  let out := text.rdropWhile (· == 48)
  if out.getLast? = some decimalSeparator then out.dropLast else out

theorem strip_prefix (text : CString) : strip text <+: text := by
  have front := List.rdropWhile_prefix (p := (· == 48)) (l := text)
  unfold strip
  simp only
  split
  · exact (List.dropLast_prefix _).trans front
  · exact front

/-- The length is found by looking at the last characters. -/
theorem strip_length (text rest : List UInt8) :
    (let j := withoutZeros (text ++ rest) text.length
      if j > 0 ∧ (text ++ rest).getD (j - 1) 0 = decimalSeparator then j - 1
      else j) = (strip text).length := by
  obtain ⟨tail, textEq⟩ :=
    List.rdropWhile_prefix (p := (· == 48)) (l := text)
  unfold strip
  simp only [withoutZeros_eq]
  generalize text.rdropWhile (· == 48) = kept at textEq ⊢
  rw [← textEq, List.append_assoc]
  cases keptEq : kept with
  | nil => simp
  | cons first others =>
      rw [← keptEq]
      have positive : 0 < kept.length := by simp [keptEq]
      have last : kept.getLast? =
          some ((kept ++ (tail ++ rest)).getD (kept.length - 1) 0) := by
        rw [List.getLast?_eq_getElem?, List.getD_eq_getElem?_getD,
          List.getElem?_append_left (by omega),
          List.getElem?_eq_getElem (by omega)]
        rfl
      rw [last]
      simp only [Option.some.injEq, positive, true_and]
      split
      · rw [List.length_dropLast]
      · rfl

/-- The text behind the number. -/
def tickerText : Option CString → CString
  | some ticker => 32 :: ticker
  | none => []

/-- An amount is stored with its ticker and a terminator. -/
theorem parseAmountInto_eq
    (bounded : amount ≤ maxSafeLunaAmount)
    (fits : (tickerText ticker).length ≤ 4)
    (out : Bytes 22) :
    ∃ rest, parseAmountInto amount ticker out.val =
        .ok (amountText amount.toNat ++ tickerText ticker ++ 0 :: rest) ∧
      (amountText amount.toNat ++ tickerText ticker ++
        0 :: rest).length = 22 := by
  generalize fullEq : printUnsigned (amount.toNat / 100000) ++
    decimalSeparator :: fractionDigits amount.toNat = full
  have fullLength : full.length ≤ 17 := by
    have whole := whole_length_le bounded
    rw [← fullEq, List.length_append, List.length_cons,
      fractionDigits_length]
    omega
  have stripped : strip full = amountText amount.toNat := by
    rw [← fullEq]
    exact strip_eq amount.toNat
  obtain ⟨tail, tailEq⟩ := strip_prefix full
  have lengths := congrArg List.length tailEq
  rw [stripped] at tailEq lengths
  rw [List.length_append] at lengths
  have copy : writeAt out.val 0 full =
      (.ok (full ++ out.val.drop full.length) : Run ErrorCode _) :=
    writeAt_append [] out.val full (by rw [out.property]; omega)
  have position := strip_length full (out.val.drop full.length)
  rw [stripped] at position
  have parts : full ++ out.val.drop full.length =
      amountText amount.toNat ++ (tail ++ out.val.drop full.length) := by
    rw [← List.append_assoc, tailEq]
  generalize backEq : tail ++ out.val.drop full.length = back at parts
  have room : back.length + (amountText amount.toNat).length = 22 := by
    rw [← backEq, List.length_append, List.length_drop, out.property]
    omega
  have unlimited : ¬amount > maxSafeLunaAmount := UInt64.not_lt.mpr bounded
  have short := amountText_length_le bounded
  unfold parseAmountInto
  rw [Run.returnOn_of_not unlimited, Run.bind_ok, parseAmountLoop_eq bounded,
    Run.bind_ok, fullEq, List.reverse_reverse, copy, Run.bind_ok]
  simp only [List.length_reverse]
  simp only at position
  rw [position, parts]
  generalize amountText amount.toNat = number at room short ⊢
  cases ticker with
  | none =>
      have terminate := writeAt_append (ε := ErrorCode) number back [0]
        (by rw [List.length_singleton]; omega)
      refine ⟨back.drop 1, ?_, ?_⟩
      · rw [tickerText, List.append_nil]
        exact terminate
      · simp only [tickerText, List.append_nil, List.length_append,
          List.length_cons, List.length_drop]
        omega
  | some ticker =>
      have tickerLength : ticker.length < 4 := by
        simpa [tickerText] using fits
      have separate := writeAt_append (ε := ErrorCode) number back [32]
        (by rw [List.length_singleton]; omega)
      have append := writeAt_append (ε := ErrorCode) (number ++ [32])
        (back.drop 1) ticker (by rw [List.length_drop]; omega)
      have terminate := writeAt_append (ε := ErrorCode)
        (number ++ [32] ++ ticker) (back.drop (1 + ticker.length)) [0]
        (by rw [List.length_singleton, List.length_drop]; omega)
      simp only [List.length_append, List.length_singleton, List.drop_drop]
        at separate append terminate
      refine ⟨back.drop (1 + ticker.length + 1), ?_, ?_⟩
      · have limit : stringLengthNimAmountWithTicker = 22 := rfl
        dsimp only
        rw [Run.returnOn_of_not (by omega), Run.bind_ok, separate,
          Run.bind_ok, ← List.append_assoc, append, Run.bind_ok,
          ← List.append_assoc, terminate]
        simp [tickerText]
      · simp only [tickerText, List.length_append, List.length_cons,
          List.length_drop]
        omega

/-- Other amounts are refused. -/
theorem parseAmountInto_reject
    (unsafeAmount : ¬amount ≤ maxSafeLunaAmount) :
    parseAmountInto amount ticker out = .error (.error .incorrectData) := by
  unfold parseAmountInto
  rw [Run.returnOn, if_pos (UInt64.not_le.mp unsafeAmount)]
  rfl

/-- The characters `0` to `9`. -/
def IsDigit (char : UInt8) : Prop :=
  48 ≤ char.toNat ∧ char.toNat < 58

/-- A decimal number with no digit too many, in its two parts. -/
structure Canonical (whole fraction : CString) : Prop where
  digits : ∀ char ∈ whole ++ fraction, IsDigit char
  hasWhole : whole ≠ []
  noLeadingZero : whole.head? = some 48 → whole = [48]
  noTrailingZero : fraction.getLast? ≠ some 48

/-- A text is the canonical decimal number of an amount in NIM, which is the
amount divided by 100000. -/
def DenotesAmount (amount : Nat) (number : CString) : Prop :=
  ∃ whole fraction, Canonical whole fraction ∧
    number = whole ++
      (if fraction = [] then [] else decimalSeparator :: fraction) ∧
    decimalValue (whole ++ fraction) * 100000 =
      amount * 10 ^ fraction.length

/-- Printed numbers other than zero do not start with a zero. -/
theorem printUnsigned_head
    (leadingZero : (printUnsigned number).head? = some 48) :
    printUnsigned number = [48] := by
  induction number using printUnsigned_induction with
  | small digit isDigit =>
      rw [printUnsigned_of_lt isDigit] at leadingZero ⊢
      simpa using leadingZero
  | large number isLarge inductionHypothesis =>
      have nonempty : printUnsigned (number / 10) ≠ [] :=
        List.length_pos_iff.mp (printUnsigned_length_pos _)
      rw [printUnsigned_of_le isLarge, List.head?_append_of_ne_nil _ nonempty]
        at leadingZero
      have zero := congrArg decimalValue (inductionHypothesis leadingZero)
      rw [decimalValue_printUnsigned] at zero
      have noDigit : decimalValue [48] = 0 := by decide
      omega

theorem decimalValue_zeros (count : Nat) :
    decimalValue (List.replicate count 48) = 0 := by
  induction count with
  | zero => rfl
  | succ count inductionHypothesis =>
      have zero : decimalValue [48] = 0 := by decide
      rw [List.replicate_succ', decimalValue_append, inductionHypothesis, zero,
        Nat.zero_mul]

/-- An amount is printed as it is. -/
theorem amountText_denotes (amount : Nat) :
    DenotesAmount amount (amountText amount) := by
  generalize fractionEq : (fractionDigits amount).rdropWhile (· == 48) =
    fraction
  have front : fraction <+: fractionDigits amount := by
    rw [← fractionEq]
    exact List.rdropWhile_prefix _ _
  have size := front.length_le
  rw [fractionDigits_length] at size
  refine ⟨printUnsigned (amount / 100000), fraction, ⟨?_, ?_, ?_, ?_⟩, ?_,
    ?_⟩
  · intro char member
    rcases List.mem_append.mp member with inWhole | inFraction
    · exact digit_of_mem_printUnsigned inWhole
    · exact digit_of_mem_fractionDigits (front.subset inFraction)
  · exact List.length_pos_iff.mp (printUnsigned_length_pos _)
  · exact printUnsigned_head
  · intro last
    have nonempty : (fractionDigits amount).rdropWhile (· == 48) ≠ [] := by
      rw [fractionEq]
      rintro rfl
      cases last
    have notZero := List.rdropWhile_last_not _ _ nonempty
    rw [← fractionEq, List.getLast?_eq_some_getLast nonempty] at last
    exact notZero (by simpa using last)
  · rw [amountText, fractionEq]
  · have padded := rdropWhile_zeros_append (fractionDigits amount)
    rw [fractionEq, fractionDigits_length] at padded
    have whole : decimalValue (printUnsigned (amount / 100000) ++
        fractionDigits amount) = amount := by
      rw [decimalValue_append, decimalValue_printUnsigned,
        fractionDigits_length, decimalValue_fractionDigits]
      omega
    rw [← padded, ← List.append_assoc, decimalValue_append,
      decimalValue_zeros, List.length_replicate, Nat.add_zero] at whole
    calc decimalValue (printUnsigned (amount / 100000) ++ fraction) * 100000
        = decimalValue (printUnsigned (amount / 100000) ++ fraction) *
            (10 ^ (5 - fraction.length) * 10 ^ fraction.length) := by
          rw [← Nat.pow_add, Nat.sub_add_cancel size]
      _ = amount * 10 ^ fraction.length := by
          rw [← Nat.mul_assoc, whole]

theorem amountText_noTerminator (amount : Nat) :
    (0 : UInt8) ∉ amountText amount := by
  intro member
  obtain ⟨whole, fraction, canonical, textEq, _⟩ := amountText_denotes amount
  have noDigit : ¬IsDigit 0 := by
    unfold IsDigit
    decide
  rw [textEq] at member
  rcases List.mem_append.mp member with inWhole | behind
  · exact noDigit (canonical.digits 0 (List.mem_append_left _ inWhole))
  · split at behind
    · cases behind
    · rcases List.mem_cons.mp behind with separator | inFraction
      · cases separator
      · exact noDigit (canonical.digits 0 (List.mem_append_right _ inFraction))

/-- The ticker the app prints, or none. -/
def nimTicker (withTicker : Bool) : Option CString :=
  if withTicker then some (ascii "NIM") else none

/-- An amount stands in a buffer as it is printed exactly. -/
structure Printed (amount : UInt64) (withTicker : Bool)
    (result : Run ErrorCode (List UInt8)) : Prop where
  /-- Amounts that are too large are refused, and only they are. -/
  refused : result = .error (.error .incorrectData) ↔
    maxSafeLunaAmount < amount
  /-- Other amounts are stored with a terminator, inside the buffer. -/
  stored : amount ≤ maxSafeLunaAmount → ∃ number rest,
    result = .ok (number ++ tickerText (nimTicker withTicker) ++ 0 :: rest) ∧
      (number ++ tickerText (nimTicker withTicker) ++ 0 :: rest).length =
        stringLengthNimAmountWithTicker ∧
      (0 : UInt8) ∉ number ++ tickerText (nimTicker withTicker) ∧
      DenotesAmount amount.toNat number

section Tickers

variable {amount : UInt64} {withTicker : Bool}

theorem nimTicker_text (withTicker : Bool) :
    (tickerText (nimTicker withTicker)).length ≤ 4 ∧
      (0 : UInt8) ∉ tickerText (nimTicker withTicker) := by
  cases withTicker with
  | true => decide
  | false => decide

theorem printed_noTerminator (amount : Nat) (withTicker : Bool) :
    (0 : UInt8) ∉ amountText amount ++ tickerText (nimTicker withTicker) := by
  intro member
  rcases List.mem_append.mp member with inNumber | inTicker
  · exact amountText_noTerminator amount inNumber
  · exact (nimTicker_text withTicker).2 inTicker

/-- What is stored is the amount with its ticker. -/
theorem parseAmountInto_inversion
    {out : Bytes 22}
    (printed : parseAmountInto amount (nimTicker withTicker) out.val =
      .ok stored) :
    cString stored =
      amountText amount.toNat ++ tickerText (nimTicker withTicker) := by
  by_cases bounded : amount ≤ maxSafeLunaAmount
  · obtain ⟨rest, storedEq, _⟩ :=
      parseAmountInto_eq bounded (nimTicker_text withTicker).1 out
    rw [storedEq, Except.ok.injEq] at printed
    rw [← printed, cString_append_zero (printed_noTerminator _ _)]
  · rw [parseAmountInto_reject bounded] at printed
    cases printed

theorem parseAmountInto_printed
    (amount : UInt64)
    (withTicker : Bool)
    (out : Bytes 22) :
    Printed amount withTicker
      (parseAmountInto amount (nimTicker withTicker) out.val) := by
  constructor
  · by_cases bounded : amount ≤ maxSafeLunaAmount
    · obtain ⟨rest, storedEq, _⟩ :=
        parseAmountInto_eq bounded (nimTicker_text withTicker).1 out
      rw [storedEq]
      constructor
      · intro refused
        cases refused
      · intro large
        exact absurd large (UInt64.not_lt.mpr bounded)
    · constructor
      · intro _
        exact UInt64.not_le.mp bounded
      · intro _
        exact parseAmountInto_reject bounded
  · intro bounded
    obtain ⟨rest, storedEq, length⟩ :=
      parseAmountInto_eq bounded (nimTicker_text withTicker).1 out
    exact ⟨amountText amount.toNat, rest, storedEq, length,
      printed_noTerminator _ _, amountText_denotes _⟩

end Tickers

/-- Amounts are printed exactly, no two of them alike, and only zero is
printed as `0 NIM`. -/
theorem parseAmountInto_exact
    (amount : UInt64)
    (withTicker : Bool)
    (out : Bytes 22) :
    Printed amount withTicker
        (parseAmountInto amount (nimTicker withTicker) out.val) ∧
      (∀ (other : UInt64) (otherOut : Bytes 22) (stored otherStored),
        parseAmountInto amount (nimTicker withTicker) out.val = .ok stored →
        parseAmountInto other (nimTicker withTicker) otherOut.val =
          .ok otherStored →
        cString stored = cString otherStored → amount = other) ∧
      ∀ stored, parseAmountInto amount (some (ascii "NIM")) out.val =
        .ok stored → cString stored = ascii "0 NIM" → amount = 0 := by
  refine ⟨parseAmountInto_printed amount withTicker out, ?_, ?_⟩
  · intro other otherOut stored otherStored printed otherPrinted same
    rw [parseAmountInto_inversion printed,
      parseAmountInto_inversion otherPrinted] at same
    exact UInt64.toNat_inj.mp
      (amountText_injective (List.append_cancel_right same))
  · intro stored printed zero
    have withTicker : parseAmountInto amount (nimTicker true) out.val =
        .ok stored := printed
    rw [parseAmountInto_inversion withTicker] at zero
    exact UInt64.toNat_inj.mp (amountWithTicker_eq_zero_iff.mp zero)

end NimiqApp
