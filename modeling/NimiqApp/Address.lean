import NimiqApp.Base32
import NimiqApp.BufferUtils

/-!
# User friendly addresses

`print_address` prints the base 32 encoding of an address with check digits
like those of an IBAN.  `iban_check` reduces a number of up to 70 digits in
pieces of at most nine; the pieces have the remainder of the whole number, so
the check digits are the ones the standard asks for.
-/

namespace NimiqApp

open Foundation

/-- The loop of `iban_check` that turns characters into digits. -/
def ibanTotalNumber :
    List UInt8 → Nat → List UInt8 → Run ErrorCode (List UInt8)
  | [], _, totalNumber => pure totalNumber
  | char :: address, counter, totalNumber => do
      Run.ledgerAssert (counter < 70)
      if char ≥ 48 ∧ char ≤ 57 then
        let totalNumber ← writeAt totalNumber counter [char]
        ibanTotalNumber address (counter + 1) totalNumber
      else if char ≥ 65 ∧ char ≤ 90 then
        let totalNumber ← writeAt totalNumber counter
          (snprintf 3 (printUnsigned (char.toNat - 55)))
        ibanTotalNumber address (counter + 2) totalNumber
      else if char ≥ 97 ∧ char ≤ 122 then
        let totalNumber ← writeAt totalNumber counter
          (snprintf 3 (printUnsigned (char.toNat - 87)))
        ibanTotalNumber address (counter + 2) totalNumber
      else Run.fail .incorrectData

/-- The loop that reads `partial_number` up to a terminator; all other
characters are digits. -/
def ibanPartialUint : List UInt8 → Nat → Nat
  | [], partialUint => partialUint
  | char :: chars, partialUint =>
      if char ≠ 0 then
        ibanPartialUint chars (10 * partialUint + (char.toNat - 48))
      else partialUint

/-- The rounds that reduce the number modulo 97.  They read `total_number`
and what lies behind it. -/
def ibanModulo (memory : List UInt8) :
    Nat → Nat → Nat → Nat → List UInt8 → Run ErrorCode Nat
  | 0, _, _, modulo, _ => pure modulo
  | rounds + 1, counter, offset, _, partialNumber => do
      let piece ← load memory (some counter) (9 - offset)
      let partialNumber ← writeAt partialNumber offset piece
      let modulo := ibanPartialUint (partialNumber.take 9) 0 % 97
      let partialNumber ← writeAt partialNumber 0
        (snprintf 3 (printPadded2 modulo))
      ibanModulo memory rounds (counter + (9 - offset)) 2 modulo partialNumber

/-- `iban_check`.  The last round copies one byte more than `total_number`
has; `pastTotalNumber` is the byte the memory has there. -/
def ibanCheck (pastTotalNumber : UInt8) (base32 : List UInt8) :
    Run ErrorCode CString := do
  let address := base32.take 32 ++ ascii "NQ00"
  let totalNumber ← ibanTotalNumber address 0 (List.replicate 71 0)
  let modulo ← ibanModulo (totalNumber ++ [pastTotalNumber]) 10 0 0 0
    (List.replicate 10 0)
  pure (cString (snprintf 3 (printPadded2 (98 - modulo))))

/-- The loop of `print_address` that inserts spaces. -/
def spacedGroups : Nat → CString → CString
  | 0, _ => []
  | groups + 1, base32 =>
      32 :: (base32.take 4 ++ spacedGroups groups (base32.drop 4))

/-- `print_address`. -/
def printAddress (pastTotalNumber : UInt8) (address : List UInt8) :
    Run ErrorCode CString := do
  let afterBase32 ← base32Encode address 33
  let check ← ibanCheck pastTotalNumber afterBase32
  pure (ascii "NQ" ++ check ++ spacedGroups 8 afterBase32)

/-- The loop of `print_address` as it stores into a buffer, from a counter
on. -/
def printGroups :
    Nat → CString → Nat → List UInt8 → Run ErrorCode (List UInt8)
  | 0, _, _, out => pure out
  | groups + 1, base32, counter, out => do
      let out ← writeAt out counter [32]
      let out ← writeAt out (counter + 1) (base32.take 4)
      printGroups groups (base32.drop 4) (counter + 5) out

/-- `print_address` as it stores into a buffer. -/
def printAddressInto (pastTotalNumber : UInt8) (address out : List UInt8) :
    Run ErrorCode (List UInt8) := do
  let afterBase32 ← base32Encode address 33
  let check ← ibanCheck pastTotalNumber afterBase32
  let out ← writeAt out 2 (check ++ [0])
  let out ← writeAt out 0 (ascii "N")
  let out ← writeAt out 1 (ascii "Q")
  let out ← printGroups 8 afterBase32 4 out
  writeAt out 44 [0]

/-- The digits of a character: letters count from ten. -/
def ibanDigits (char : UInt8) : CString :=
  if char ≥ 48 ∧ char ≤ 57 then [char]
  else if char ≥ 65 ∧ char ≤ 90 then printUnsigned (char.toNat - 55)
  else printUnsigned (char.toNat - 87)

/-- The digits of a string. -/
def ibanNumber (text : CString) : CString :=
  text.flatMap ibanDigits

/-- The check digits of a base 32 string. -/
def checkDigits (base32 : CString) : CString :=
  printPadded2 (98 - decimalValue (ibanNumber (base32 ++ ascii "NQ00")) % 97)

/-- The address as the user sees it. -/
def userFriendlyAddress (address : List UInt8) : CString :=
  ascii "NQ" ++ checkDigits (base32Text address) ++
    spacedGroups 8 (base32Text address)

/-- The characters an address consists of: digits and upper case letters. -/
def IbanChar (char : UInt8) : Prop :=
  (48 ≤ char.toNat ∧ char.toNat < 58) ∨ (65 ≤ char.toNat ∧ char.toNat < 91)

/-- The characters `iban_check` accepts: lower case letters as well. -/
def IbanAccepts (char : UInt8) : Prop :=
  IbanChar char ∨ (97 ≤ char.toNat ∧ char.toNat < 123)

theorem ibanChar_of_mem_alphabet :
    ∀ char ∈ base32Alphabet ++ ascii "NQ00", IbanChar char := by
  unfold IbanChar
  decide +kernel

/-- A digit stands for itself, a letter for two digits. -/
theorem ibanDigits_cases (valid : IbanAccepts char) :
    ((char ≥ 48 ∧ char ≤ 57) ∧ ibanDigits char = [char]) ∨
      (¬(char ≥ 48 ∧ char ≤ 57) ∧ (char ≥ 65 ∧ char ≤ 90) ∧
        ibanDigits char = printUnsigned (char.toNat - 55) ∧
        (ibanDigits char).length = 2) ∨
      (¬(char ≥ 48 ∧ char ≤ 57) ∧ ¬(char ≥ 65 ∧ char ≤ 90) ∧
        (char ≥ 97 ∧ char ≤ 122) ∧
        ibanDigits char = printUnsigned (char.toNat - 87) ∧
        (ibanDigits char).length = 2) := by
  have bounds : ∀ low high : UInt8, (char ≥ low ∧ char ≤ high) ↔
      low.toNat ≤ char.toNat ∧ char.toNat ≤ high.toNat := by
    intro low high
    rw [ge_iff_le, UInt8.le_iff_toNat_le, UInt8.le_iff_toNat_le]
  have numbers : (48 : UInt8).toNat = 48 ∧ (57 : UInt8).toNat = 57 ∧
      (65 : UInt8).toNat = 65 ∧ (90 : UInt8).toNat = 90 ∧
      (97 : UInt8).toNat = 97 ∧ (122 : UInt8).toNat = 122 := by decide
  have printed : ∀ number, 10 ≤ number → number < 100 →
      (printUnsigned number).length = 2 := by
    intro number least most
    rw [printUnsigned_of_le least, printUnsigned_of_lt (by omega)]
    rfl
  unfold ibanDigits
  rcases valid with (isDigit | isUpper) | isLower
  · have accepted := (bounds 48 57).mpr (by omega)
    exact Or.inl ⟨accepted, if_pos accepted⟩
  · have noDigit : ¬(char ≥ 48 ∧ char ≤ 57) :=
      fun inside => absurd ((bounds 48 57).mp inside) (by omega)
    have accepted := (bounds 65 90).mpr (by omega)
    rw [if_neg noDigit, if_pos accepted]
    exact Or.inr (Or.inl ⟨noDigit, accepted, rfl,
      printed _ (by omega) (by omega)⟩)
  · have noDigit : ¬(char ≥ 48 ∧ char ≤ 57) :=
      fun inside => absurd ((bounds 48 57).mp inside) (by omega)
    have noUpper : ¬(char ≥ 65 ∧ char ≤ 90) :=
      fun inside => absurd ((bounds 65 90).mp inside) (by omega)
    rw [if_neg noDigit, if_neg noUpper]
    exact Or.inr (Or.inr ⟨noDigit, noUpper, (bounds 97 122).mpr (by omega),
      rfl, printed _ (by omega) (by omega)⟩)

/-- The digits of a character are one or two. -/
theorem ibanDigits_length (valid : IbanAccepts char) :
    1 ≤ (ibanDigits char).length ∧ (ibanDigits char).length ≤ 2 := by
  rcases ibanDigits_cases valid with
    ⟨_, digits⟩ | ⟨_, _, _, two⟩ | ⟨_, _, _, _, two⟩
  · rw [digits, List.length_singleton]
    omega
  · omega
  · omega

/-- The digits of a string are digits. -/
theorem digit_of_mem_ibanNumber
    (valid : ∀ char ∈ text, IbanAccepts char)
    (member : digit ∈ ibanNumber text) :
    48 ≤ digit.toNat ∧ digit.toNat < 58 := by
  obtain ⟨char, inText, inDigits⟩ := List.mem_flatMap.mp member
  rcases ibanDigits_cases (valid char inText) with
    ⟨inRange, digits⟩ | ⟨_, _, digits, _⟩ | ⟨_, _, _, digits, _⟩
  · rw [digits, List.mem_singleton] at inDigits
    subst inDigits
    have least := UInt8.le_iff_toNat_le.mp inRange.1
    have most := UInt8.le_iff_toNat_le.mp inRange.2
    have numbers : (48 : UInt8).toNat = 48 ∧ (57 : UInt8).toNat = 57 := by
      decide
    omega
  · rw [digits] at inDigits
    exact digit_of_mem_printUnsigned inDigits
  · rw [digits] at inDigits
    exact digit_of_mem_printUnsigned inDigits

/-- Writing over zeros, with zeros behind what is written. -/
theorem overwrite_zeros
    (front bytes : List UInt8)
    (terminators room : Nat)
    (fits : bytes.length + terminators ≤ room) :
    overwrite (front ++ List.replicate room 0) front.length
        (bytes ++ List.replicate terminators 0) =
      front ++ bytes ++ List.replicate (room - bytes.length) 0 := by
  obtain ⟨behind, rfl⟩ : ∃ behind, room = bytes.length + terminators + behind :=
    ⟨room - (bytes.length + terminators), by omega⟩
  have moved := overwrite_append front (bytes ++ List.replicate terminators 0)
    (List.replicate (bytes.length + terminators) 0)
    (List.replicate behind 0) (by simp)
  rw [List.replicate_append_replicate] at moved
  rw [moved, List.append_assoc, List.append_assoc,
    List.replicate_append_replicate]
  congr 3
  omega

theorem ibanNumber_cons (char : UInt8) (text : CString) :
    ibanNumber (char :: text) = ibanDigits char ++ ibanNumber text :=
  List.flatMap_cons

/-- One round writes the digits of its character behind those before. -/
theorem ibanTotalNumber_cons
    (valid : IbanAccepts char)
    (early : front.length < 70)
    (fits : front.length + (ibanDigits char).length ≤ 70) :
    ibanTotalNumber (char :: address) front.length
        (front ++ List.replicate (71 - front.length) 0) =
      ibanTotalNumber address (front ++ ibanDigits char).length
        (front ++ ibanDigits char ++
          List.replicate (71 - (front ++ ibanDigits char).length) 0) := by
  have length : (front ++ ibanDigits char).length =
      front.length + (ibanDigits char).length := List.length_append
  have letter : (ibanDigits char).length = 2 →
      writeAt (front ++ List.replicate (71 - front.length) 0) front.length
          (snprintf 3 (ibanDigits char)) =
        (.ok (front ++ ibanDigits char ++
          List.replicate (71 - front.length - 2) 0) : Run ErrorCode _) := by
    intro two
    have stored : snprintf 3 (ibanDigits char) =
        ibanDigits char ++ List.replicate 1 0 := by
      rw [snprintf, List.take_of_length_le (by omega)]
      rfl
    rw [stored, writeAt_eq (by simp; omega),
      overwrite_zeros _ _ _ _ (by omega), two]
  rw [length, Nat.sub_add_eq]
  rw [ibanTotalNumber, Run.ledgerAssert_of early, Run.bind_ok]
  rcases ibanDigits_cases valid with
    ⟨isDigit, digits⟩ | ⟨noDigit, isUpper, digits, two⟩ |
    ⟨noDigit, noUpper, isLower, digits, two⟩
  · rw [if_pos isDigit, digits]
    have written := overwrite_zeros front [char] 0 (71 - front.length)
      (by simp; omega)
    rw [List.replicate_zero, List.append_nil] at written
    rw [writeAt_eq (by simp; omega), Run.bind_ok, written]
    rfl
  · rw [if_neg noDigit, if_pos isUpper, ← digits, letter two, Run.bind_ok, two]
  · rw [if_neg noDigit, if_neg noUpper, if_pos isLower, ← digits, letter two,
      Run.bind_ok, two]

/-- The loop writes the digits of the whole string. -/
theorem ibanTotalNumber_eq
    (front : List UInt8)
    (valid : ∀ char ∈ address, IbanAccepts char)
    (fits : front.length + (ibanNumber address).length ≤ 70) :
    ibanTotalNumber address front.length
        (front ++ List.replicate (71 - front.length) 0) =
      .ok (front ++ ibanNumber address ++
        List.replicate (71 - (front ++ ibanNumber address).length) 0) := by
  induction address generalizing front with
  | nil => simp [ibanTotalNumber, ibanNumber]
  | cons char address inductionHypothesis =>
      have charValid := valid char List.mem_cons_self
      have digitCount := ibanDigits_length charValid
      rw [ibanNumber_cons, List.length_append] at fits
      rw [ibanTotalNumber_cons charValid (by omega) (by omega),
        inductionHypothesis _
          (fun other member => valid other (List.mem_cons_of_mem _ member))
          (by rw [List.length_append]; omega),
        ibanNumber_cons, List.append_assoc front]

/-! ## The remainder -/

/-- The loop reads a decimal number up to its terminator. -/
theorem ibanPartialUint_eq (chars : List UInt8) (partialUint : Nat) :
    ibanPartialUint chars partialUint =
      partialUint * 10 ^ (cString chars).length +
        decimalValue (cString chars) := by
  induction chars generalizing partialUint with
  | nil => simp [ibanPartialUint, cString, decimalValue]
  | cons char chars inductionHypothesis =>
      rw [ibanPartialUint]
      by_cases terminator : char = 0
      · rw [if_neg (not_not.mpr terminator), terminator]
        simp [decimalValue]
      · have prefixed : cString (char :: chars) = [char] ++ cString chars :=
          cString_cons terminator
        have single : decimalValue [char] = char.toNat - 48 := by
          simp [decimalValue, Positional.value]
        rw [if_pos terminator, inductionHypothesis, prefixed,
          decimalValue_append, single, List.length_append,
          List.length_singleton, Nat.pow_add, ← Nat.add_assoc]
        congr 1
        rw [Nat.add_mul, Nat.mul_comm 10, Nat.mul_assoc, Nat.pow_one]

/-- Reducing the digits in front leaves the remainder as it is. -/
theorem decimalValue_reduce (reduced front back : CString)
    (same : decimalValue reduced = decimalValue front % 97) :
    decimalValue (reduced ++ back) % 97 =
      decimalValue (front ++ back) % 97 := by
  rw [decimalValue_append, decimalValue_append, same, Nat.add_mod,
    Nat.mod_mul_mod, ← Nat.add_mod]

theorem decimalValue_printPadded2 (number : Nat) :
    decimalValue (printPadded2 number) = number := by
  unfold printPadded2
  split
  · rw [← List.singleton_append, decimalValue_append,
      decimalValue_printUnsigned]
    simp [decimalValue, Positional.value]
  · rw [decimalValue_printUnsigned]

section Modulo

variable {number : CString}

/-- Behind its digits, `total_number` has a terminator in every place a round
starts reading at. -/
theorem totalNumber_drop
    (pastTotalNumber : UInt8)
    (short : number.length ≤ 70)
    (early : counter ≤ 70) :
    ∃ rest, (number ++ List.replicate (71 - number.length) 0 ++
        [pastTotalNumber]).drop counter =
      number.drop counter ++ 0 :: rest := by
  by_cases inside : counter ≤ number.length
  · refine ⟨List.replicate (70 - number.length) 0 ++ [pastTotalNumber], ?_⟩
    rw [List.append_assoc, List.drop_append_of_le_length inside,
      show 71 - number.length = 70 - number.length + 1 by omega,
      List.replicate_succ]
    rfl
  · refine ⟨List.replicate (70 - counter) 0 ++ [pastTotalNumber], ?_⟩
    rw [List.drop_eq_nil_of_le (show number.length ≤ counter by omega),
      List.append_assoc, List.drop_append,
      List.drop_eq_nil_of_le (show number.length ≤ counter by omega),
      List.drop_append, List.drop_replicate, List.length_replicate,
      show counter - number.length - (71 - number.length) = 0 by omega,
      show 71 - number.length - (counter - number.length) =
        70 - counter + 1 by omega, List.replicate_succ]
    rfl

/-- The piece a round copies holds the digits that are next. -/
theorem load_totalNumber
    (pastTotalNumber : UInt8)
    (digits : ∀ digit ∈ number, 48 ≤ digit.toNat ∧ digit.toNat < 58)
    (short : number.length ≤ 70)
    (early : counter ≤ 70)
    (inside : counter + count ≤ 72) :
    ∃ piece : List UInt8,
      (load (number ++ List.replicate (71 - number.length) 0 ++
          [pastTotalNumber]) (some counter) count : Run ErrorCode _) =
        .ok piece ∧
      piece.length = count ∧
      cString piece = (number.drop counter).take count := by
  have size : (number ++ List.replicate (71 - number.length) 0 ++
      [pastTotalNumber]).length = 72 := by
    simp only [List.length_append, List.length_replicate,
      List.length_singleton]
    omega
  refine ⟨((number ++ List.replicate (71 - number.length) 0 ++
    [pastTotalNumber]).drop counter).take count, ?_, ?_, ?_⟩
  · unfold load
    by_cases empty : count = 0
    · rw [if_pos empty, empty]
      rfl
    · rw [if_neg empty]
      simp only [size]
      rw [if_pos inside]
      rfl
  · rw [List.length_take, List.length_drop, size]
    omega
  · obtain ⟨rest, dropEq⟩ := totalNumber_drop pastTotalNumber short early
    have noTerminator : (0 : UInt8) ∉ number.drop counter := by
      intro member
      have isDigit := digits 0 (List.mem_of_mem_drop member)
      exact absurd isDigit.1 (by decide)
    rw [dropEq, cString_take, cString_append_zero noTerminator]

/-- Between the rounds, `partial_number` starts with the remainder of the
digits read so far. -/
structure Reduced (number : CString) (counter offset : Nat)
    (partialNumber : List UInt8) : Prop where
  size : partialNumber.length = 10
  offsetLe : offset ≤ 2
  noTerminator : (0 : UInt8) ∉ partialNumber.take offset
  remainder : decimalValue (partialNumber.take offset) =
    decimalValue (number.take counter) % 97

/-- One round: the digits that are next are copied behind the remainder, and
the remainder of all of them is stored. -/
structure IbanRound (pastTotalNumber : UInt8) (number : CString)
    (counter offset : Nat) (partialNumber piece filled next : List UInt8) :
    Prop where
  loaded : (load (number ++ List.replicate (71 - number.length) 0 ++
    [pastTotalNumber]) (some counter) (9 - offset) : Run ErrorCode _) =
      .ok piece
  pieceLength : piece.length = 9 - offset
  copied : (writeAt partialNumber offset piece : Run ErrorCode _) =
    .ok filled
  text : cString (filled.take 9) =
    partialNumber.take offset ++ (number.drop counter).take (9 - offset)
  value : ibanPartialUint (filled.take 9) 0 % 97 =
    decimalValue (number.take (counter + (9 - offset))) % 97
  stored : (writeAt filled 0 (snprintf 3 (printPadded2
    (decimalValue (number.take (counter + (9 - offset))) % 97))) :
      Run ErrorCode _) = .ok next
  reduced : Reduced number (counter + (9 - offset)) 2 next

/-- A round leaves the remainder of the digits read so far. -/
theorem Reduced.round
    (reduced : Reduced number counter offset partialNumber)
    (pastTotalNumber : UInt8)
    (digits : ∀ digit ∈ number, 48 ≤ digit.toNat ∧ digit.toNat < 58)
    (short : number.length ≤ 70)
    (inside : counter + (9 - offset) ≤ 72) :
    ∃ piece filled next, IbanRound pastTotalNumber number counter offset
      partialNumber piece filled next := by
  have size := reduced.size
  have offsetLe := reduced.offsetLe
  obtain ⟨piece, loaded, pieceLength, pieceText⟩ := load_totalNumber
    pastTotalNumber digits short (show counter ≤ 70 by omega) inside
  generalize remainderEq :
    decimalValue (number.take (counter + (9 - offset))) % 97 = remainder
  have front : (overwrite partialNumber offset piece).take 9 =
      partialNumber.take offset ++ piece := by
    have total : (partialNumber.take offset ++ piece).length = 9 := by
      rw [List.length_append, List.length_take, size, pieceLength]
      omega
    rw [overwrite, ← total, List.take_left]
  have text : cString ((overwrite partialNumber offset piece).take 9) =
      partialNumber.take offset ++
        (number.drop counter).take (9 - offset) := by
    rw [front, cString_append reduced.noTerminator, pieceText]
  have value : ibanPartialUint
      ((overwrite partialNumber offset piece).take 9) 0 % 97 = remainder := by
    rw [ibanPartialUint_eq, text, Nat.zero_mul, Nat.zero_add,
      decimalValue_reduce _ _ _ reduced.remainder, ← List.take_add,
      remainderEq]
  have two : (printPadded2 remainder).length = 2 := by
    rw [printPadded2_eq (by omega)]
    rfl
  have stored : snprintf 3 (printPadded2 remainder) =
      printPadded2 remainder ++ [0] := by
    rw [snprintf, List.take_of_length_le (by omega)]
  have filled : (overwrite partialNumber offset piece).length = 10 := by
    rw [overwrite_length (by omega), size]
  have nextFront : (overwrite (overwrite partialNumber offset piece) 0
      (printPadded2 remainder ++ [0])).take 2 = printPadded2 remainder := by
    rw [overwrite, List.take_zero, List.nil_append, List.append_assoc,
      ← two, List.take_left]
  refine ⟨piece, overwrite partialNumber offset piece,
    overwrite (overwrite partialNumber offset piece) 0
      (printPadded2 remainder ++ [0]), ?_⟩
  subst remainderEq
  constructor
  · exact loaded
  · exact pieceLength
  · exact writeAt_eq (by omega)
  · exact text
  · exact value
  · rw [stored]
    exact writeAt_eq (by simp; omega)
  · constructor
    · rw [overwrite_length (by simp; omega), filled]
    · exact Nat.le_refl 2
    · rw [nextFront]
      exact printPadded2_no_terminator _
    · rw [nextFront, decimalValue_printPadded2]

/-- The other rounds go on with the remainder. -/
theorem IbanRound.ibanModulo_eq
    (round : IbanRound pastTotalNumber number counter offset partialNumber
      piece filled next)
    (rounds modulo : Nat) :
    ibanModulo (number ++ List.replicate (71 - number.length) 0 ++
        [pastTotalNumber]) (rounds + 1) counter offset modulo
        partialNumber =
      ibanModulo (number ++ List.replicate (71 - number.length) 0 ++
        [pastTotalNumber]) rounds (counter + (9 - offset)) 2
        (decimalValue (number.take (counter + (9 - offset))) % 97) next := by
  conv_lhs => rw [ibanModulo]
  rw [round.loaded, Run.bind_ok, round.copied, Run.bind_ok]
  simp only [round.value]
  rw [round.stored, Run.bind_ok]

/-- The rounds leave the remainder of all the digits they read. -/
theorem Reduced.ibanModulo_eq
    (reduced : Reduced number counter offset partialNumber)
    (pastTotalNumber : UInt8)
    (rounds modulo : Nat)
    (digits : ∀ digit ∈ number, 48 ≤ digit.toNat ∧ digit.toNat < 58)
    (short : number.length ≤ 70)
    (inside : counter + (9 - offset) + 7 * rounds ≤ 72) :
    ibanModulo (number ++ List.replicate (71 - number.length) 0 ++
        [pastTotalNumber]) (rounds + 1) counter offset modulo
        partialNumber =
      .ok (decimalValue
        (number.take (counter + (9 - offset) + 7 * rounds)) % 97) := by
  induction rounds generalizing counter offset modulo partialNumber with
  | zero =>
      obtain ⟨piece, filled, next, round⟩ :=
        reduced.round pastTotalNumber digits short (by omega)
      rw [round.ibanModulo_eq]
      rfl
  | succ rounds inductionHypothesis =>
      obtain ⟨piece, filled, next, round⟩ :=
        reduced.round pastTotalNumber digits short (by omega)
      rw [round.ibanModulo_eq,
        inductionHypothesis round.reduced _ (by omega)]
      congr 4
      omega

/-- Before the first round nothing was read. -/
theorem Reduced.start (number : CString) :
    Reduced number 0 0 (List.replicate 10 0) where
  size := List.length_replicate
  offsetLe := by decide
  noTerminator := by simp
  remainder := by simp [decimalValue]

end Modulo

theorem ibanNumber_append (front back : CString) :
    ibanNumber (front ++ back) = ibanNumber front ++ ibanNumber back :=
  List.flatMap_append

theorem ibanNumber_length_le (valid : ∀ char ∈ text, IbanAccepts char) :
    (ibanNumber text).length ≤ 2 * text.length := by
  induction text with
  | nil => exact Nat.le_refl 0
  | cons char text inductionHypothesis =>
      have head := ibanDigits_length (valid char List.mem_cons_self)
      have tail := inductionHypothesis fun other member =>
        valid other (List.mem_cons_of_mem _ member)
      rw [ibanNumber_cons, List.length_append, List.length_cons]
      omega

section Check

variable {base32 : CString}

/-- The digits of a base 32 string with the letters behind it fit. -/
theorem ibanNumber_base32
    (size : base32.length = 32)
    (accepted : ∀ char ∈ base32, IbanAccepts char) :
    (∀ char ∈ base32 ++ ascii "NQ00", IbanAccepts char) ∧
      (ibanNumber (base32 ++ ascii "NQ00")).length ≤ 70 := by
  have valid : ∀ char ∈ base32 ++ ascii "NQ00", IbanAccepts char := by
    intro char member
    rcases List.mem_append.mp member with front | back
    · exact accepted char front
    · exact Or.inl (ibanChar_of_mem_alphabet char
        (List.mem_append_right _ back))
  refine ⟨valid, ?_⟩
  have front := ibanNumber_length_le fun char member =>
    valid char (List.mem_append_left _ member)
  have back : (ibanNumber (ascii "NQ00")).length = 6 := by decide
  rw [ibanNumber_append, List.length_append, back]
  omega

/-- The whole number is stored in front of zeros. -/
theorem ibanTotalNumber_base32
    (size : base32.length = 32)
    (accepted : ∀ char ∈ base32, IbanAccepts char) :
    ibanTotalNumber (base32 ++ ascii "NQ00") 0 (List.replicate 71 0) =
      .ok (ibanNumber (base32 ++ ascii "NQ00") ++ List.replicate
        (71 - (ibanNumber (base32 ++ ascii "NQ00")).length) 0) := by
  obtain ⟨valid, short⟩ := ibanNumber_base32 size accepted
  simpa using ibanTotalNumber_eq [] valid (by simpa using short)

/-- The pieces leave the remainder of the whole number. -/
theorem ibanModulo_base32
    (size : base32.length = 32)
    (accepted : ∀ char ∈ base32, IbanAccepts char) :
    ibanModulo (ibanNumber (base32 ++ ascii "NQ00") ++ List.replicate
        (71 - (ibanNumber (base32 ++ ascii "NQ00")).length) 0 ++
          [pastTotalNumber]) 10 0 0 0 (List.replicate 10 0) =
      .ok (decimalValue (ibanNumber (base32 ++ ascii "NQ00")) % 97) := by
  obtain ⟨valid, short⟩ := ibanNumber_base32 size accepted
  have rounds := (Reduced.start _).ibanModulo_eq pastTotalNumber 9 0
    (fun digit => digit_of_mem_ibanNumber valid) short (by decide)
  rwa [List.take_of_length_le (by omega)] at rounds

/-- The check digits are the ones of the standard, whatever lies behind
`total_number`. -/
theorem ibanCheck_eq
    (size : base32.length = 32)
    (accepted : ∀ char ∈ base32, IbanAccepts char) :
    ibanCheck pastTotalNumber base32 = .ok (checkDigits base32) := by
  unfold ibanCheck
  rw [List.take_of_length_le (by omega)]
  simp only [ibanTotalNumber_base32 size accepted,
    ibanModulo_base32 size accepted, Run.bind_ok]
  rw [snprintf, List.take_of_length_le, cString_append_zero
    (printPadded2_no_terminator _)]
  · rfl
  · rw [printPadded2_eq (by omega)]
    exact Nat.le_refl 2

end Check

/-- The characters of a base 32 string are accepted. -/
theorem ibanAccepts_of_mem_base32Text
    (member : char ∈ base32Text data) : IbanAccepts char :=
  Or.inl (ibanChar_of_mem_alphabet char
    (List.mem_append_left _ (mem_alphabet_of_mem_base32Text member)))

/-- The encoding of an address fills its buffer. -/
theorem base32Encode_address (size : address.length = 20) :
    base32Encode address 33 = .ok (base32Text address) := by
  have textLength : (base32Text address).length = 32 := by
    rw [base32Text_length, size]
  have padded : base32Padded address = base32Text address := by
    unfold base32Padded
    rw [textLength]
    exact List.append_nil _
  have encoded := base32Encode_eq address 33
    (by rw [size]; decide) (by rw [padded, textLength]; decide)
  rwa [padded] at encoded

/-- The check digits of an address are computed. -/
theorem ibanCheck_address (size : address.length = 20) :
    ibanCheck pastTotalNumber (base32Text address) =
      .ok (checkDigits (base32Text address)) :=
  ibanCheck_eq (by rw [base32Text_length, size])
    fun _ => ibanAccepts_of_mem_base32Text

/-- Every address is printed. -/
theorem printAddress_eq (size : address.length = 20) :
    printAddress pastTotalNumber address =
      .ok (userFriendlyAddress address) := by
  unfold printAddress
  rw [base32Encode_address size, Run.bind_ok, ibanCheck_address size,
    Run.bind_ok]
  rfl

/-- The groups determine the characters. -/
theorem spacedGroups_injective
    (leftSize : left.length = 4 * groups)
    (rightSize : right.length = 4 * groups)
    (equal : spacedGroups groups left = spacedGroups groups right) :
    left = right := by
  induction groups generalizing left right with
  | zero =>
      rw [List.length_eq_zero_iff.mp leftSize,
        List.length_eq_zero_iff.mp rightSize]
  | succ groups inductionHypothesis =>
      rw [spacedGroups, spacedGroups, List.cons.injEq] at equal
      obtain ⟨heads, tails⟩ := List.append_inj equal.2 (by simp; omega)
      have rests := inductionHypothesis (by simp; omega) (by simp; omega) tails
      rw [← List.take_append_drop 4 left, heads, rests,
        List.take_append_drop]

/-- Different addresses are printed differently. -/
theorem userFriendlyAddress_injective
    (leftSize : left.length = 20)
    (rightSize : right.length = 20)
    (equal : userFriendlyAddress left = userFriendlyAddress right) :
    left = right := by
  have checkLength : ∀ base32, (checkDigits base32).length = 2 := by
    intro base32
    unfold checkDigits
    rw [printPadded2_eq (by omega)]
    rfl
  have groups := (List.append_inj equal (by simp [checkLength])).2
  refine base32Text_injective (leftSize.trans rightSize.symm)
    (spacedGroups_injective ?_ ?_ groups)
  · rw [base32Text_length, leftSize]
  · rw [base32Text_length, rightSize]

theorem userFriendlyAddress_ne_nil (address : List UInt8) :
    userFriendlyAddress address ≠ [] := by
  have prefixed : ascii "NQ" = [78, 81] := by decide
  simp [userFriendlyAddress, prefixed]

theorem spacedGroups_length (size : text.length = 4 * groups) :
    (spacedGroups groups text).length = 5 * groups := by
  induction groups generalizing text with
  | zero => rfl
  | succ groups inductionHypothesis =>
      rw [spacedGroups, List.length_cons, List.length_append,
        inductionHypothesis (by simp; omega), List.length_take]
      omega

/-- The groups are stored one behind the other. -/
theorem printGroups_eq
    (base32 : CString)
    (front back : List UInt8)
    (size : base32.length = 4 * groups)
    (room : 5 * groups ≤ back.length) :
    printGroups groups base32 front.length (front ++ back) =
      .ok (front ++ (spacedGroups groups base32 ++
        back.drop (5 * groups))) := by
  induction groups generalizing base32 front back with
  | zero => rfl
  | succ groups inductionHypothesis =>
      have group : (base32.take 4).length = 4 := by
        rw [List.length_take]
        omega
      have space := writeAt_append (ε := ErrorCode) front back [32]
        (by rw [List.length_singleton]; omega)
      have chars := writeAt_append (ε := ErrorCode) (front ++ [32])
        (back.drop 1) (base32.take 4) (by rw [group, List.length_drop]; omega)
      have rest := inductionHypothesis (base32.drop 4)
        (front ++ [32] ++ base32.take 4) (back.drop 5)
        (by rw [List.length_drop]; omega) (by rw [List.length_drop]; omega)
      rw [List.length_append, List.length_singleton, group, List.drop_drop,
        ← List.append_assoc] at chars
      rw [List.length_append, List.length_append, List.length_singleton,
        group, List.drop_drop] at rest
      rw [printGroups, space, Run.bind_ok, List.length_singleton,
        ← List.append_assoc, chars, Run.bind_ok, rest, spacedGroups,
        Nat.mul_succ, Nat.add_comm (5 * groups) 5]
      simp only [List.append_assoc, List.cons_append, List.nil_append]

/-- The check digits are two digits. -/
theorem checkDigits_length (base32 : CString) :
    (checkDigits base32).length = 2 := by
  unfold checkDigits
  rw [printPadded2_eq (by omega)]
  rfl

theorem userFriendlyAddress_length (size : address.length = 20) :
    (userFriendlyAddress address).length = 44 := by
  have textLength : (base32Text address).length = 4 * 8 := by
    rw [base32Text_length, size]
  unfold userFriendlyAddress
  rw [List.length_append, List.length_append, checkDigits_length,
    spacedGroups_length textLength]
  rfl

/-- The address is stored with a terminator. -/
theorem printAddressInto_eq
    (size : address.length = 20)
    (room : out.length = 45) :
    printAddressInto pastTotalNumber address out =
      .ok (userFriendlyAddress address ++ [0]) := by
  obtain ⟨first, second, rest, rfl⟩ :
      ∃ first second rest, out = first :: second :: rest := by
    match out, room with
    | first :: second :: rest, _ => exact ⟨first, second, rest, rfl⟩
  have textLength : (base32Text address).length = 4 * 8 := by
    rw [base32Text_length, size]
  have digits := checkDigits_length (base32Text address)
  have restLength : rest.length = 43 := by simpa using room
  generalize behindEq : [0] ++ rest.drop 3 = behind
  have behindLength : behind.length = 41 := by
    rw [← behindEq, List.length_append, List.length_drop, restLength]
    rfl
  have check : writeAt (first :: second :: rest) 2
      (checkDigits (base32Text address) ++ [0]) =
    (.ok (first :: second ::
      (checkDigits (base32Text address) ++ behind)) :
        Run ErrorCode _) := by
    have written := writeAt_append (ε := ErrorCode) [first, second] rest
      (checkDigits (base32Text address) ++ [0])
      (by rw [List.length_append, digits, restLength]; decide)
    rw [List.length_append, digits, List.append_assoc] at written
    rw [← behindEq]
    exact written
  have letterN : writeAt (first :: second ::
      (checkDigits (base32Text address) ++ behind)) 0 (ascii "N") =
    (.ok (ascii "N" ++ ([second] ++
      (checkDigits (base32Text address) ++ behind))) : Run ErrorCode _) :=
    writeAt_replace [] [first] _ _ rfl rfl
  have letterQ : writeAt (ascii "N" ++ ([second] ++
      (checkDigits (base32Text address) ++ behind))) 1 (ascii "Q") =
    (.ok (ascii "NQ" ++ checkDigits (base32Text address) ++ behind) :
      Run ErrorCode _) :=
    writeAt_replace _ [second] _ _ rfl rfl
  have groups := printGroups_eq (base32Text address)
    (ascii "NQ" ++ checkDigits (base32Text address)) behind textLength
    (by omega)
  have frontLength :
      (ascii "NQ" ++ checkDigits (base32Text address)).length = 4 := by
    rw [List.length_append, digits]
    rfl
  rw [frontLength, ← List.append_assoc] at groups
  obtain ⟨last, lastEq⟩ : ∃ last, behind.drop (5 * 8) = [last] := by
    rw [← List.length_eq_one_iff, List.length_drop, behindLength]
  have terminator : writeAt (userFriendlyAddress address ++ [last]) 44 [0] =
      (.ok (userFriendlyAddress address ++ [0]) : Run ErrorCode _) := by
    have written := writeAt_replace (ε := ErrorCode) _ [last] [0] []
      (userFriendlyAddress_length size) rfl
    rwa [List.append_nil, List.append_nil] at written
  rw [lastEq] at groups
  unfold printAddressInto
  rw [base32Encode_address size, Run.bind_ok, ibanCheck_address size,
    Run.bind_ok, check, Run.bind_ok, letterN, Run.bind_ok, letterQ,
    Run.bind_ok, groups, Run.bind_ok]
  exact terminator

end NimiqApp
