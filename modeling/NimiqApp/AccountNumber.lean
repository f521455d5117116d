import NimiqApp.Device

/-!
# Addresses as account numbers

A printed address is an account number that passes its check, and the address
can be read back from it.
-/

namespace NimiqApp

open Foundation

/-- The groups of a string, four characters each. -/
def fours : Nat → CString → List CString
  | 0, _ => []
  | groups + 1, text => text.take 4 :: fours groups (text.drop 4)

/-- The groups of a string make up the string. -/
theorem fours_spec
    (text : CString)
    (size : text.length = 4 * groups) :
    (fours groups text).length = groups ∧
      (∀ four ∈ fours groups text, four.length = 4) ∧
      (fours groups text).flatten = text := by
  induction groups generalizing text with
  | zero =>
      rw [List.length_eq_zero_iff.mp size]
      simp [fours]
  | succ groups inductionHypothesis =>
      obtain ⟨count, sizes, whole⟩ :=
        inductionHypothesis (text.drop 4) (by simp; omega)
      refine ⟨by rw [fours, List.length_cons, count], ?_, ?_⟩
      · intro four member
        rcases List.mem_cons.mp member with rfl | later
        · rw [List.length_take]
          omega
        · exact sizes four later
      · rw [fours, List.flatten_cons, whole, List.take_append_drop]

theorem spacedGroups_eq (groups : Nat) (text : CString) :
    spacedGroups groups text = (fours groups text).flatMap (32 :: ·) := by
  induction groups generalizing text with
  | zero => rfl
  | succ groups inductionHypothesis =>
      rw [spacedGroups, fours, List.flatMap_cons, inductionHypothesis]
      rfl

/-- A text without spaces keeps all of its characters. -/
theorem filter_noSpace
    {text : CString}
    (noSpace : (32 : UInt8) ∉ text) :
    text.filter (· ≠ 32) = text := by
  apply List.filter_eq_self.mpr
  intro char member
  simp only [ne_eq, decide_not, Bool.not_eq_eq_eq_not, Bool.not_true,
    decide_eq_false_iff_not]
  rintro rfl
  exact noSpace member

/-- Without the spaces, the groups are left. -/
theorem filter_spacedGroups
    (text : CString)
    (size : text.length = 4 * groups)
    (noSpace : (32 : UInt8) ∉ text) :
    (spacedGroups groups text).filter (· ≠ 32) = text := by
  induction groups generalizing text with
  | zero =>
      rw [List.length_eq_zero_iff.mp size]
      rfl
  | succ groups inductionHypothesis =>
      have group : (text.take 4).filter (· ≠ 32) = text.take 4 := by
        apply filter_noSpace
        intro member
        exact noSpace (List.mem_of_mem_take member)
      have rest := inductionHypothesis (text.drop 4) (by simp; omega)
        (fun member => noSpace (List.mem_of_mem_drop member))
      rw [spacedGroups, List.filter_cons_of_neg (by decide),
        List.filter_append, group, rest, List.take_append_drop]

/-- The number an account number is checked by: without spaces, with the
first four characters moved to the end, and with digits for the letters. -/
def ibanValue (text : CString) : Nat :=
  let compact := text.filter (· ≠ 32)
  decimalValue (ibanNumber (compact.drop 4 ++ compact.take 4))

/-- Digits stand for themselves. -/
theorem ibanNumber_digits
    (digits : ∀ digit ∈ text, 48 ≤ digit.toNat ∧ digit.toNat < 58) :
    ibanNumber text = text := by
  induction text with
  | nil => rfl
  | cons digit text inductionHypothesis =>
      have isDigit := digits digit List.mem_cons_self
      have single : ibanDigits digit = [digit] := by
        unfold ibanDigits
        rw [if_pos]
        constructor
        · exact UInt8.le_iff_toNat_le.mpr isDigit.1
        · exact UInt8.le_iff_toNat_le.mpr (Nat.le_of_lt_succ isDigit.2)
      have rest := inductionHypothesis fun other member =>
        digits other (List.mem_cons_of_mem _ member)
      unfold ibanNumber at rest ⊢
      rw [List.flatMap_cons, single, rest]
      rfl

theorem digit_of_mem_checkDigits
    (base32 : CString)
    (member : digit ∈ checkDigits base32) :
    48 ≤ digit.toNat ∧ digit.toNat < 58 := by
  unfold checkDigits at member
  rw [printPadded2_eq (by omega), List.mem_pair] at member
  rcases member with rfl | rfl
  · rw [toNat_digitByte (by omega)]
    omega
  · rw [toNat_digitByte (by omega)]
    omega

/-- The check digits complete the number to one with remainder one. -/
theorem checkDigits_remainder (base32 : CString) :
    decimalValue (ibanNumber (base32 ++ (ascii "NQ" ++ checkDigits base32))) %
      97 = 1 := by
  generalize frontEq : ibanNumber (base32 ++ ascii "NQ") = front
  have zeros : decimalValue (ibanNumber (base32 ++ ascii "NQ00")) =
      decimalValue front * 100 := by
    have split : base32 ++ ascii "NQ00" =
        base32 ++ ascii "NQ" ++ ascii "00" := by
      rw [List.append_assoc]
      rfl
    rw [split, ibanNumber_append, frontEq, decimalValue_append]
    have zeroDigits : (ibanNumber (ascii "00")).length = 2 ∧
        decimalValue (ibanNumber (ascii "00")) = 0 := by decide
    rw [zeroDigits.1, zeroDigits.2]
    rfl
  have check : decimalValue (checkDigits base32) =
      98 - decimalValue front * 100 % 97 := by
    rw [checkDigits, decimalValue_printPadded2, zeros]
  rw [← List.append_assoc, ibanNumber_append, frontEq,
    ibanNumber_digits fun _ => digit_of_mem_checkDigits base32,
    decimalValue_append, checkDigits_length, check]
  omega

/-- What is printed for an address. -/
structure UserFriendly (address : Bytes 20) (text : CString) : Prop where
  length : text.length = 44
  noTerminator : (0 : UInt8) ∉ text
  /-- Behind two check digits there are eight groups, which are the address
  in groups of five bits. -/
  groups : ∃ (check : CString) (fours : List CString),
    text = ascii "NQ" ++ check ++ fours.flatMap (32 :: ·) ∧
      check.length = 2 ∧
      (∀ digit ∈ check, 48 ≤ digit.toNat ∧ digit.toNat < 58) ∧
      fours.length = 8 ∧
      (∀ four ∈ fours, four.length = 4 ∧
        ∀ char ∈ four, char ∈ base32Alphabet) ∧
      Positional.value 32 (base32Groups fours.flatten) =
        Positional.bytesValue address.val
  /-- The text is an account number that passes its check. -/
  valid : ibanValue text % 97 = 1

/-- The groups of an address have its value. -/
theorem value_base32Groups (address : Bytes 20) :
    Positional.value 32 (base32Groups (base32Text address.val)) =
      Positional.bytesValue address.val := by
  have bound := Positional.bytesValue_lt address.val
  rw [base32Groups_base32Text, address.property]
  rw [address.property] at bound
  rw [value_fiveBitGroups (by simpa [Nat.pow_mul] using bound)]
  exact Nat.mul_one _

/-- The characters of the groups. -/
theorem mem_spacedGroups
    (member : char ∈ spacedGroups groups text) : char = 32 ∨ char ∈ text := by
  induction groups generalizing text with
  | zero => cases member
  | succ groups inductionHypothesis =>
      rw [spacedGroups, List.mem_cons, List.mem_append] at member
      rcases member with space | group | rest
      · exact Or.inl space
      · exact Or.inr (List.mem_of_mem_take group)
      · exact (inductionHypothesis rest).imp_right List.mem_of_mem_drop

theorem userFriendlyAddress_noTerminator (address : List UInt8) :
    (0 : UInt8) ∉ userFriendlyAddress address := by
  have alphabet : (0 : UInt8) ∉ base32Alphabet := by decide
  intro member
  rw [userFriendlyAddress, List.mem_append, List.mem_append] at member
  rcases member with (letters | check) | groups
  · revert letters
    decide
  · have bounds := digit_of_mem_checkDigits _ check
    revert bounds
    decide
  · rcases mem_spacedGroups groups with space | char
    · cases space
    · exact alphabet (mem_alphabet_of_mem_base32Text char)

/-- The account number passes its check. -/
theorem userFriendlyAddress_valid (address : Bytes 20) :
    ibanValue (userFriendlyAddress address.val) % 97 = 1 := by
  have textLength : (base32Text address.val).length = 4 * 8 := by
    rw [base32Text_length, address.property]
  have noSpace : (32 : UInt8) ∉ base32Text address.val := by
    intro member
    have noSpaces : (32 : UInt8) ∉ base32Alphabet := by decide
    exact noSpaces (mem_alphabet_of_mem_base32Text member)
  have noSpaceInFront : (32 : UInt8) ∉
      ascii "NQ" ++ checkDigits (base32Text address.val) := by
    intro member
    rcases List.mem_append.mp member with letters | check
    · revert letters
      decide
    · have bounds := digit_of_mem_checkDigits _ check
      revert bounds
      decide
  have front : (ascii "NQ" ++
      checkDigits (base32Text address.val)).length = 4 := by
    rw [List.length_append, checkDigits_length]
    rfl
  have compact : (userFriendlyAddress address.val).filter (· ≠ 32) =
      ascii "NQ" ++ checkDigits (base32Text address.val) ++
        base32Text address.val := by
    rw [userFriendlyAddress, List.filter_append,
      filter_noSpace noSpaceInFront, filter_spacedGroups _ textLength noSpace]
  unfold ibanValue
  simp only [compact]
  rw [List.drop_left' front, List.take_left' front]
  exact checkDigits_remainder _

theorem userFriendlyAddress_spec (address : Bytes 20) :
    UserFriendly address (userFriendlyAddress address.val) := by
  have textLength : (base32Text address.val).length = 4 * 8 := by
    rw [base32Text_length, address.property]
  obtain ⟨count, sizes, whole⟩ := fours_spec _ textLength
  refine ⟨userFriendlyAddress_length address.property,
    userFriendlyAddress_noTerminator _,
    ⟨checkDigits (base32Text address.val), fours 8 (base32Text address.val),
      ?_, checkDigits_length _, fun _ => digit_of_mem_checkDigits _, count,
      ?_, ?_⟩, userFriendlyAddress_valid address⟩
  · rw [userFriendlyAddress, spacedGroups_eq]
  · intro four member
    refine ⟨sizes four member, ?_⟩
    intro char inFour
    have inText : char ∈ base32Text address.val := by
      rw [← whole]
      exact List.mem_flatten.mpr ⟨four, member, inFour⟩
    exact mem_alphabet_of_mem_base32Text inText
  · rw [whole, value_base32Groups]

/-- The check of an address is the remainder of the whole number, which is
computed in pieces. -/
structure ChecksWhole (pastTotalNumber : UInt8) (address : Bytes 20)
    (totalNumber : List UInt8) : Prop where
  total : ibanTotalNumber (base32Text address.val ++ ascii "NQ00") 0
    (List.replicate 71 0) = .ok totalNumber
  short : (cString totalNumber).length ≤ 70
  pieces : ibanModulo (totalNumber ++ [pastTotalNumber]) 10 0 0 0
    (List.replicate 10 0) = .ok (decimalValue (cString totalNumber) % 97)

theorem checksWhole (pastTotalNumber : UInt8) (address : Bytes 20) :
    ∃ totalNumber, ChecksWhole pastTotalNumber address totalNumber := by
  have textLength : (base32Text address.val).length = 32 := by
    rw [base32Text_length, address.property]
  have accepted : ∀ char ∈ base32Text address.val, IbanAccepts char :=
    fun _ => ibanAccepts_of_mem_base32Text
  obtain ⟨valid, short⟩ := ibanNumber_base32 textLength accepted
  have noTerminator : (0 : UInt8) ∉
      ibanNumber (base32Text address.val ++ ascii "NQ00") := by
    intro member
    have bounds := digit_of_mem_ibanNumber valid member
    revert bounds
    decide
  obtain ⟨rest, restEq⟩ : ∃ rest, List.replicate (71 - (ibanNumber
      (base32Text address.val ++ ascii "NQ00")).length) (0 : UInt8) =
        0 :: rest := by
    rw [show 71 - (ibanNumber
      (base32Text address.val ++ ascii "NQ00")).length = 70 - (ibanNumber
      (base32Text address.val ++ ascii "NQ00")).length + 1 by omega]
    exact ⟨_, List.replicate_succ⟩
  refine ⟨_, ibanTotalNumber_base32 textLength accepted, ?_, ?_⟩
  · rw [restEq, cString_append_zero noTerminator]
    exact short
  · rw [ibanModulo_base32 textLength accepted, restEq,
      cString_append_zero noTerminator]

/-- Every address is printed as an account number of its own. -/
theorem printAddressInto_userFriendly
    (pastTotalNumber : UInt8)
    (address : Bytes 20)
    (out : Bytes 45) :
    ∃ text, printAddressInto pastTotalNumber address.val out.val =
        .ok (text ++ [0]) ∧
      UserFriendly address text ∧
      (∀ other : Bytes 20, ∀ otherOut : Bytes 45,
        printAddressInto pastTotalNumber other.val otherOut.val =
          .ok (text ++ [0]) → other = address) ∧
      ∃ totalNumber, ChecksWhole pastTotalNumber address totalNumber := by
  refine ⟨userFriendlyAddress address.val,
    printAddressInto_eq address.property out.property,
    userFriendlyAddress_spec address, ?_, checksWhole pastTotalNumber address⟩
  intro other otherOut same
  rw [printAddressInto_eq other.property otherOut.property,
    Except.ok.injEq] at same
  exact Subtype.ext (userFriendlyAddress_injective other.property
    address.property (List.append_cancel_right same))

end NimiqApp
