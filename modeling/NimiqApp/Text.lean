import NimiqApp.Errors
import NimiqApp.Foundation.Positional
import Mathlib.Data.Nat.Digits.Lemmas

/-!
# Printed text

C strings in their buffers, the formats `%u`, `%02d` and `%02X` of `snprintf`,
and `print_hex`.  A printed number determines the number, and printed bytes
determine the bytes.
-/

namespace NimiqApp

open Foundation

/-- The string a buffer holds: the characters before its terminator. -/
def cString (buffer : List UInt8) : CString :=
  buffer.takeWhile (· ≠ 0)

@[simp] theorem cString_terminator (rest : List UInt8) :
    cString (0 :: rest) = [] := by
  simp [cString]

theorem cString_cons (noTerminator : char ≠ 0) :
    cString (char :: rest) = char :: cString rest := by
  simp [cString, noTerminator]

/-- A string goes on behind characters that do not terminate it. -/
theorem cString_append
    (noTerminator : (0 : UInt8) ∉ front) :
    cString (front ++ back) = front ++ cString back := by
  unfold cString
  refine List.takeWhile_append_of_pos ?_
  intro byte member
  simp only [ne_eq, decide_not, Bool.not_eq_eq_eq_not, Bool.not_true,
    decide_eq_false_iff_not]
  intro isZero
  exact noTerminator (isZero ▸ member)

/-- A string without terminator characters is read back as it was stored. -/
theorem cString_append_zero
    (noTerminator : (0 : UInt8) ∉ text) :
    cString (text ++ 0 :: rest) = text := by
  rw [cString_append noTerminator, cString_terminator, List.append_nil]

/-- The string in the front of a buffer is the front of the string. -/
theorem cString_take (buffer : List UInt8) (count : Nat) :
    cString (buffer.take count) = (cString buffer).take count := by
  induction buffer generalizing count with
  | nil => simp [cString]
  | cons byte buffer inductionHypothesis =>
      cases count with
      | zero => rfl
      | succ count =>
          by_cases terminator : byte = 0
          · rw [terminator, List.take_succ_cons, cString_terminator,
              cString_terminator, List.take_nil]
          · rw [List.take_succ_cons, cString_cons terminator,
              cString_cons terminator, inductionHypothesis,
              List.take_succ_cons]

/-- Overwrite a buffer from an offset on. -/
def overwrite (buffer : List UInt8) (offset : Nat) (bytes : List UInt8) :
    List UInt8 :=
  buffer.take offset ++ bytes ++ buffer.drop (offset + bytes.length)

/-- `memcpy` into an array. -/
def writeAt (buffer : List UInt8) (offset : Nat) (bytes : List UInt8) :
    Run ε (List UInt8) :=
  if offset + bytes.length ≤ buffer.length then
    pure (overwrite buffer offset bytes)
  else Run.fault .outOfBounds

theorem writeAt_eq
    (fits : offset + bytes.length ≤ buffer.length) :
    (writeAt buffer offset bytes : Run ε _) =
      .ok (overwrite buffer offset bytes) := by
  simp [writeAt, fits]

@[simp] theorem overwrite_length
    (fits : offset + bytes.length ≤ buffer.length) :
    (overwrite buffer offset bytes).length = buffer.length := by
  simp only [overwrite, List.length_append, List.length_take,
    List.length_drop]
  omega

/-- Writing right behind a prefix extends the prefix. -/
theorem overwrite_append
    (front bytes old rest : List UInt8)
    (lengths : old.length = bytes.length) :
    overwrite (front ++ (old ++ rest)) front.length bytes =
      front ++ (bytes ++ rest) := by
  unfold overwrite
  rw [List.take_left, ← lengths, ← List.drop_drop, List.drop_left,
    List.drop_left, List.append_assoc]

/-- Writing replaces as many bytes as are written. -/
theorem writeAt_replace
    (front old bytes rest : List UInt8)
    (place : front.length = offset)
    (lengths : old.length = bytes.length) :
    (writeAt (front ++ (old ++ rest)) offset bytes : Run ε _) =
      .ok (front ++ (bytes ++ rest)) := by
  subst place
  rw [writeAt_eq, overwrite_append front bytes old rest lengths]
  simp only [List.length_append]
  omega

/-- Writing right behind a prefix replaces what comes next. -/
theorem writeAt_append
    (front back bytes : List UInt8)
    (fits : bytes.length ≤ back.length) :
    (writeAt (front ++ back) front.length bytes : Run ε _) =
      .ok (front ++ (bytes ++ back.drop bytes.length)) := by
  have written := writeAt_replace (ε := ε) front (back.take bytes.length)
    bytes (back.drop bytes.length) rfl (List.length_take_of_le fits)
  rwa [List.take_append_drop] at written

/-- What `snprintf` stores for a text: as much of it as the size leaves room
for, and a terminator. -/
def snprintf (size : Nat) (text : CString) : List UInt8 :=
  text.take (size - 1) ++ [0]

theorem snprintf_length_le
    (positive : 0 < size) :
    (snprintf size text).length ≤ size := by
  rw [snprintf, List.length_append, List.length_take, List.length_singleton]
  omega

/-- A text with room for its terminator is stored as it is. -/
theorem cString_snprintf
    (noTerminator : (0 : UInt8) ∉ text)
    (fits : text.length < size) :
    cString (snprintf size text) = text := by
  rw [snprintf, List.take_of_length_le (by omega),
    cString_append_zero noTerminator]

/-- The character of a decimal digit. -/
def digitByte (digit : Nat) : UInt8 :=
  UInt8.ofNat (digit + 48)

/-- Format `%u`. -/
def printUnsigned (number : Nat) : CString :=
  (Nat.toDigits 10 number).map fun digit => digit.toNat.toUInt8

/-- The number a string of decimal digits denotes. -/
def decimalValue (text : CString) : Nat :=
  Positional.value 10 (text.map fun digit => digit.toNat - 48)

/-- Format `%02d`, for numbers that are not negative. -/
def printPadded2 (number : Nat) : CString :=
  if number < 10 then 48 :: printUnsigned number else printUnsigned number

theorem decimalValue_append (front back : CString) :
    decimalValue (front ++ back) =
      decimalValue front * 10 ^ back.length + decimalValue back := by
  unfold decimalValue
  rw [List.map_append, Positional.value_append, List.length_map]

theorem toNat_digitByte (isDigit : digit < 10) :
    (digitByte digit).toNat = digit + 48 :=
  UInt8.toNat_ofNat_of_lt' (by
    have size : UInt8.size = 256 := rfl
    omega)

/-- The character of a digit is that digit's byte. -/
theorem toUInt8_digitChar (isDigit : digit < 10) :
    (Nat.digitChar digit).toNat.toUInt8 = digitByte digit := by
  rw [Nat.toNat_digitChar_of_lt_ten isDigit, Nat.add_comm]
  rfl

/-- The last digit comes off the end. -/
theorem printUnsigned_eq (number : Nat) :
    printUnsigned number =
      (if number < 10 then [] else printUnsigned (number / 10)) ++
        [digitByte (number % 10)] := by
  have isDigit : number % 10 < 10 := Nat.mod_lt _ (by decide)
  unfold printUnsigned
  by_cases small : number < 10
  · rw [if_pos small, Nat.toDigits_of_lt_base small, List.nil_append,
      List.map_singleton, toUInt8_digitChar small, Nat.mod_eq_of_lt small]
  · rw [if_neg small, Nat.toDigits_of_base_le (by decide) (by omega),
      List.map_append, List.map_singleton, toUInt8_digitChar isDigit]

theorem printUnsigned_of_lt (isDigit : digit < 10) :
    printUnsigned digit = [digitByte digit] := by
  rw [printUnsigned_eq, if_pos isDigit, List.nil_append,
    Nat.mod_eq_of_lt isDigit]

theorem printUnsigned_of_le (large : 10 ≤ number) :
    printUnsigned number =
      printUnsigned (number / 10) ++ [digitByte (number % 10)] := by
  rw [printUnsigned_eq, if_neg (by omega)]

/-- Numbers lose a digit when divided by ten. -/
theorem printUnsigned_induction
    {holds : Nat → Prop}
    (small : ∀ digit, digit < 10 → holds digit)
    (large : ∀ number, 10 ≤ number → holds (number / 10) → holds number) :
    ∀ number, holds number := by
  intro number
  induction number using Nat.strongRecOn with
  | ind number inductionHypothesis =>
      by_cases isSmall : number < 10
      · exact small number isSmall
      · exact large number (by omega) (inductionHypothesis _ (by omega))

/-- A printed number denotes the number. -/
@[simp] theorem decimalValue_printUnsigned (number : Nat) :
    decimalValue (printUnsigned number) = number := by
  induction number using printUnsigned_induction with
  | small digit isDigit =>
      rw [printUnsigned_of_lt isDigit]
      simp [decimalValue, Positional.value, toNat_digitByte isDigit]
  | large number isLarge inductionHypothesis =>
      have isDigit : number % 10 < 10 := Nat.mod_lt _ (by decide)
      rw [printUnsigned_of_le isLarge]
      unfold decimalValue at inductionHypothesis ⊢
      rw [List.map_append, List.map_singleton,
        Positional.value_append_singleton, inductionHypothesis,
        toNat_digitByte isDigit]
      omega

/-- Different numbers print differently. -/
theorem printUnsigned_injective
    (equal : printUnsigned left = printUnsigned right) : left = right := by
  rw [← decimalValue_printUnsigned left, equal, decimalValue_printUnsigned]

/-- Only digits are printed. -/
theorem digit_of_mem_printUnsigned :
    ∀ {byte : UInt8}, byte ∈ printUnsigned number →
      48 ≤ byte.toNat ∧ byte.toNat < 58 := by
  induction number using printUnsigned_induction with
  | small digit isDigit =>
      intro byte member
      rw [printUnsigned_of_lt isDigit, List.mem_singleton] at member
      rw [member, toNat_digitByte isDigit]
      omega
  | large number isLarge inductionHypothesis =>
      intro byte member
      have isDigit : number % 10 < 10 := Nat.mod_lt _ (by decide)
      rw [printUnsigned_of_le isLarge, List.mem_append,
        List.mem_singleton] at member
      rcases member with early | last
      · exact inductionHypothesis early
      · rw [last, toNat_digitByte isDigit]
        omega

/-- A printed number fits `count` characters when it is below the power. -/
theorem printUnsigned_length_le_iff (positive : 0 < count) :
    (printUnsigned number).length ≤ count ↔ number < 10 ^ count := by
  unfold printUnsigned
  rw [List.length_map]
  exact Nat.length_toDigits_le_iff (by decide) positive

theorem printUnsigned_length_pos (number : Nat) :
    0 < (printUnsigned number).length := by
  rw [printUnsigned_eq, List.length_append, List.length_singleton]
  omega

/-- Larger numbers print no shorter. -/
theorem printUnsigned_length_mono (le : left ≤ right) :
    (printUnsigned left).length ≤ (printUnsigned right).length := by
  rw [printUnsigned_length_le_iff (printUnsigned_length_pos right)]
  have bound := (printUnsigned_length_le_iff
    (printUnsigned_length_pos right)).mp (Nat.le_refl _)
  omega

/-- Two digits print numbers below one hundred. -/
theorem printPadded2_eq (bound : number < 100) :
    printPadded2 number = [digitByte (number / 10), digitByte (number % 10)] := by
  unfold printPadded2
  by_cases small : number < 10
  · rw [if_pos small, printUnsigned_of_lt small, Nat.div_eq_of_lt small,
      Nat.mod_eq_of_lt small]
    rfl
  · rw [if_neg small, printUnsigned_of_le (by omega),
      printUnsigned_of_lt (by omega)]
    rfl

/-- Printed numbers do not contain a terminator. -/
theorem printUnsigned_no_terminator (number : Nat) :
    (0 : UInt8) ∉ printUnsigned number := by
  intro member
  exact absurd (digit_of_mem_printUnsigned member).1 (by decide)

theorem printPadded2_no_terminator (number : Nat) :
    (0 : UInt8) ∉ printPadded2 number := by
  have absent := printUnsigned_no_terminator number
  unfold printPadded2
  split
  · simpa using absent
  · exact absent

/-- Bytes and words fit the fields they are printed into. -/
theorem cString_printUint8 (number : UInt8) :
    cString (snprintf stringLengthUint8 (printUnsigned number.toNat)) =
      printUnsigned number.toNat := by
  have bound := number.toNat_lt
  refine cString_snprintf (printUnsigned_no_terminator _) ?_
  have short := (printUnsigned_length_le_iff (show 0 < 3 by decide)).mpr
    (show number.toNat < 10 ^ 3 by omega)
  have size : stringLengthUint8 = 4 := rfl
  omega

theorem cString_printUint32 (number : UInt32) :
    cString (snprintf stringLengthUint32 (printUnsigned number.toNat)) =
      printUnsigned number.toNat := by
  have bound := number.toNat_lt
  refine cString_snprintf (printUnsigned_no_terminator _) ?_
  have short := (printUnsigned_length_le_iff (show 0 < 10 by decide)).mpr
    (show number.toNat < 10 ^ 10 by omega)
  have size : stringLengthUint32 = 11 := rfl
  omega

/-- The digits of format `%X`. -/
def hexDigits : CString := ascii "0123456789ABCDEF"

/-- Format `%02X`. -/
def hexByte (byte : UInt8) : CString :=
  [hexDigits.getD (byte.toNat / 16) 0, hexDigits.getD (byte.toNat % 16) 0]

/-- Bytes in upper case hexadecimal. -/
def hexText (data : List UInt8) : CString :=
  data.flatMap hexByte

/-- The loop of `print_hex`. -/
def printHexLoop : List UInt8 → Nat → List UInt8 → Run ErrorCode (List UInt8)
  | [], _, out => pure out
  | byte :: data, offset, out => do
      let out ← writeAt out offset (hexByte byte ++ [0])
      printHexLoop data (offset + 2) out

/-- `print_hex` into a buffer. -/
def printHex (data out : List UInt8) : Run ErrorCode (List UInt8) := do
  Run.returnOn (out.length < data.length * 2 + 1) .invalidLength
  printHexLoop data 0 out

/-- The position of a hexadecimal digit. -/
def hexDigitValue (digit : UInt8) : Nat :=
  hexDigits.idxOf digit

theorem hexDigitValue_getD (isDigit : digit < 16) :
    hexDigitValue (hexDigits.getD digit 0) = digit := by
  have all : ∀ digit < 16, hexDigitValue (hexDigits.getD digit 0) = digit := by
    decide
  exact all digit isDigit

@[simp] theorem hexByte_length (byte : UInt8) : (hexByte byte).length = 2 :=
  rfl

/-- Different bytes print differently. -/
theorem hexByte_injective (equal : hexByte left = hexByte right) :
    left = right := by
  have leftLt := left.toNat_lt
  have rightLt := right.toNat_lt
  unfold hexByte at equal
  simp only [List.cons.injEq, and_true] at equal
  have high := congrArg hexDigitValue equal.1
  have low := congrArg hexDigitValue equal.2
  rw [hexDigitValue_getD (by omega), hexDigitValue_getD (by omega)] at high
  rw [hexDigitValue_getD (by omega), hexDigitValue_getD (by omega)] at low
  exact UInt8.toNat_inj.mp (by omega)

/-- Different byte strings print differently. -/
theorem hexText_injective :
    ∀ {left right : List UInt8}, hexText left = hexText right → left = right
  | [], [], _ => rfl
  | [], _ :: _, equal => by simp [hexText, hexByte] at equal
  | _ :: _, [], equal => by simp [hexText, hexByte] at equal
  | first :: left, second :: right, equal => by
      unfold hexText at equal
      rw [List.flatMap_cons, List.flatMap_cons] at equal
      obtain ⟨head, tail⟩ := List.append_inj equal rfl
      rw [hexByte_injective head, hexText_injective tail]

@[simp] theorem hexText_length (data : List UInt8) :
    (hexText data).length = 2 * data.length := by
  induction data with
  | nil => rfl
  | cons byte data inductionHypothesis =>
      unfold hexText at inductionHypothesis ⊢
      rw [List.flatMap_cons, List.length_append, inductionHypothesis,
        hexByte_length, List.length_cons]
      omega

theorem hexByte_no_terminator : ∀ byte : UInt8, (0 : UInt8) ∉ hexByte byte := by
  have all : ∀ high < 16, hexDigits.getD high 0 ≠ 0 := by decide
  intro byte member
  have byteLt := byte.toNat_lt
  unfold hexByte at member
  rcases List.mem_cons.mp member with high | low
  · exact all _ (by omega) high.symm
  · exact all _ (by omega) (List.mem_singleton.mp low).symm

theorem hexText_no_terminator (data : List UInt8) :
    (0 : UInt8) ∉ hexText data := by
  intro member
  obtain ⟨byte, _, inByte⟩ := List.mem_flatMap.mp member
  exact hexByte_no_terminator byte inByte

/-- The loop writes the digits behind what it wrote before, and a terminator
behind the last of them. -/
theorem printHexLoop_eq :
    ∀ (data front old rest : List UInt8),
      data ≠ [] →
      old.length = 2 * data.length + 1 →
      printHexLoop data front.length (front ++ (old ++ rest)) =
        .ok (front ++ (hexText data ++ 0 :: rest))
  | [], _, _, _, nonempty, _ => absurd rfl nonempty
  | byte :: data, front, old, rest, _, lengths => by
      rw [List.length_cons] at lengths
      obtain ⟨high, low, terminator, old, rfl⟩ : ∃ high low terminator more,
          old = high :: low :: terminator :: more := by
        match old, lengths with
        | high :: low :: terminator :: more, _ =>
            exact ⟨high, low, terminator, more, rfl⟩
      simp only [List.length_cons] at lengths
      unfold printHexLoop
      rw [writeAt_eq (by simp), Run.bind_ok]
      have written : overwrite
            (front ++ (high :: low :: terminator :: old ++ rest))
            front.length (hexByte byte ++ [0]) =
          (front ++ hexByte byte) ++ (([0] ++ old) ++ rest) := by
        have moved := overwrite_append front (hexByte byte ++ [0])
          [high, low, terminator] (old ++ rest) rfl
        simpa using moved
      rw [written, show front.length + 2 = (front ++ hexByte byte).length from
        by simp]
      by_cases last : data = []
      · subst last
        obtain rfl : old = [] := List.length_eq_zero_iff.mp (by simpa using lengths)
        simp [printHexLoop, hexText]
      · rw [printHexLoop_eq data _ ([0] ++ old) rest last (by simp; omega)]
        simp [hexText]

/-- Printing data that is not empty fills the front of the buffer. -/
theorem printHex_eq
    (nonempty : data ≠ [])
    (fits : 2 * data.length + 1 ≤ out.length) :
    printHex data out =
      .ok (hexText data ++ 0 :: out.drop (2 * data.length + 1)) := by
  unfold printHex
  rw [Run.returnOn_of_not (by omega), Run.bind_ok]
  have loop := printHexLoop_eq data [] (out.take (2 * data.length + 1))
    (out.drop (2 * data.length + 1)) nonempty (by simp; omega)
  simpa [List.take_append_drop] using loop

/-- The printed string is the hexadecimal text of the data. -/
theorem cString_printHex
    (nonempty : data ≠ [])
    (fits : 2 * data.length + 1 ≤ out.length) :
    ∃ printed, printHex data out = .ok printed ∧
      cString printed = hexText data :=
  ⟨_, printHex_eq nonempty fits,
    cString_append_zero (hexText_no_terminator data)⟩

end NimiqApp
