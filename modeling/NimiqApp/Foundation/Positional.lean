import Mathlib.Data.List.Induction
import Mathlib.Data.Nat.Digits.Defs

/-!
# Positional notation, most significant digit first

Digit lists of a fixed length over an arbitrary base, and their instance on
bytes.  Big-endian integers and regrouped bit strings are values of the same
number in different bases.
-/

namespace NimiqApp
namespace Foundation
namespace Positional

/-- Value of a digit list, most significant digit first. -/
def value (base : Nat) (list : List Nat) : Nat :=
  Nat.ofDigits base list.reverse

/-- The `count` least significant digits of a number, most significant
digit first. -/
def digits (base : Nat) : Nat → Nat → List Nat
  | 0, _ => []
  | count + 1, number => digits base count (number / base) ++ [number % base]

@[simp] theorem value_nil (base : Nat) : value base [] = 0 := rfl

@[simp] theorem digits_zero (base number : Nat) :
    digits base 0 number = [] := rfl

theorem digits_succ (base count number : Nat) :
    digits base (count + 1) number =
      digits base count (number / base) ++ [number % base] := rfl

/-- Appending digits shifts the value by their number of positions. -/
theorem value_append (base : Nat) (front back : List Nat) :
    value base (front ++ back) =
      value base front * base ^ back.length + value base back := by
  rw [value, List.reverse_append, Nat.ofDigits_append, List.length_reverse,
    Nat.add_comm, Nat.mul_comm]
  rfl

/-- Appending one digit shifts the value by one position. -/
theorem value_append_singleton (base digit : Nat) (front : List Nat) :
    value base (front ++ [digit]) = value base front * base + digit := by
  rw [value_append]
  simp [value]

@[simp] theorem digits_length (base count number : Nat) :
    (digits base count number).length = count := by
  induction count generalizing number with
  | zero => rfl
  | succ count inductionHypothesis =>
      rw [digits_succ, List.length_append, inductionHypothesis]
      rfl

/-- The most significant digit comes first. -/
theorem digits_succ_left (base count number : Nat) :
    digits base (count + 1) number =
      number / base ^ count % base :: digits base count number := by
  induction count generalizing number with
  | zero => simp [digits]
  | succ count inductionHypothesis =>
      rw [digits_succ, inductionHypothesis, digits_succ base count number,
        List.cons_append, Nat.div_div_eq_div_mul, Nat.pow_succ']

/-- Digits do not depend on the multiples of the power they cover. -/
theorem digits_mul_pow_add (base count multiple number : Nat)
    (basePositive : 0 < base) :
    digits base count (multiple * base ^ count + number) =
      digits base count number := by
  induction count generalizing number with
  | zero => rfl
  | succ count inductionHypothesis =>
      rw [digits_succ, digits_succ, Nat.pow_succ, ← Nat.mul_assoc,
        Nat.mul_comm (multiple * base ^ count) base,
        Nat.mul_add_div basePositive, Nat.mul_add_mod, inductionHypothesis]

/-- Every digit is below the base. -/
theorem lt_of_mem_digits
    (basePositive : 0 < base)
    (member : digit ∈ digits base count number) : digit < base := by
  induction count generalizing number with
  | zero => simp at member
  | succ count inductionHypothesis =>
      rw [digits_succ, List.mem_append, List.mem_singleton] at member
      rcases member with early | last
      · exact inductionHypothesis early
      · rw [last]
        exact Nat.mod_lt _ basePositive

/-- Reading the digits of a number back gives the number, truncated. -/
theorem value_digits (base count number : Nat) :
    value base (digits base count number) = number % base ^ count := by
  induction count generalizing number with
  | zero => simp [Nat.mod_one]
  | succ count inductionHypothesis =>
      rw [digits_succ, value_append_singleton, inductionHypothesis,
        Nat.pow_succ', Nat.mod_mul, Nat.mul_comm, Nat.add_comm]

/-- A digit list has a value below the power given by its length. -/
theorem value_lt
    (baseLarge : 1 < base)
    (bounded : ∀ digit ∈ list, digit < base) :
    value base list < base ^ list.length := by
  rw [value, ← @List.length_reverse _ list]
  exact Nat.ofDigits_lt_base_pow_length baseLarge fun digit member =>
    bounded digit (List.mem_reverse.mp member)

/-- A bounded digit list is recovered from its value and length. -/
theorem digits_value
    (bounded : ∀ digit ∈ list, digit < base) :
    digits base list.length (value base list) = list := by
  induction list using List.reverseRecOn with
  | nil => rfl
  | append_singleton front digit inductionHypothesis =>
      have digitLt : digit < base := bounded digit (by simp)
      have basePositive : 0 < base := by omega
      rw [value_append_singleton, List.length_append, List.length_singleton,
        digits_succ, Nat.mul_comm, Nat.mul_add_div basePositive,
        Nat.div_eq_of_lt digitLt, Nat.add_zero, Nat.mul_add_mod,
        Nat.mod_eq_of_lt digitLt]
      rw [inductionHypothesis fun digit member =>
        bounded digit (List.mem_append_left _ member)]

/-- The digits of zero are zeros. -/
theorem digits_zero_right (base count : Nat) :
    digits base count 0 = List.replicate count 0 := by
  induction count with
  | zero => rfl
  | succ count inductionHypothesis =>
      rw [digits_succ, Nat.zero_div, Nat.zero_mod, inductionHypothesis,
        List.replicate_succ']

/-- The last digits come off the end. -/
theorem digits_add (base front back number : Nat) :
    digits base (front + back) number =
      digits base front (number / base ^ back) ++
        digits base back number := by
  induction back generalizing number with
  | zero => simp
  | succ back inductionHypothesis =>
      rw [← Nat.add_assoc, digits_succ, inductionHypothesis, digits_succ,
        Nat.div_div_eq_div_mul, ← Nat.pow_succ', List.append_assoc]

/-- Digits over a power of the base are groups of digits over the base. -/
theorem digits_value_pow
    (basePositive : 0 < base)
    (bounded : ∀ digit ∈ list, digit < base ^ count) :
    digits base (count * list.length) (value (base ^ count) list) =
      list.flatMap (digits base count) := by
  induction list using List.reverseRecOn with
  | nil => rfl
  | append_singleton front digit inductionHypothesis =>
      have digitLt : digit < base ^ count := bounded digit (by simp)
      have frontEq := inductionHypothesis fun other member =>
        bounded other (List.mem_append_left _ member)
      rw [value_append_singleton, List.length_append, List.length_singleton,
        Nat.mul_add, Nat.mul_one, digits_add,
        Nat.mul_comm (value (base ^ count) front),
        Nat.mul_add_div (Nat.pow_pos basePositive), Nat.div_eq_of_lt digitLt,
        Nat.add_zero, frontEq, Nat.mul_comm,
        digits_mul_pow_add _ _ _ _ basePositive, List.flatMap_append,
        List.flatMap_singleton]

/-- Big-endian value of a byte string. -/
def bytesValue (bytes : List UInt8) : Nat :=
  value 256 (bytes.map UInt8.toNat)

/-- Big-endian representation of a number in `count` bytes. -/
def bytesOf (count number : Nat) : List UInt8 :=
  (digits 256 count number).map UInt8.ofNat

@[simp] theorem bytesOf_length (count number : Nat) :
    (bytesOf count number).length = count := by
  simp [bytesOf]

/-- The bytes of a string are digits in base 256. -/
theorem toNat_digits_bounded (bytes : List UInt8) :
    ∀ digit ∈ bytes.map UInt8.toNat, digit < 256 := by
  intro digit member
  obtain ⟨byte, _, rfl⟩ := List.mem_map.mp member
  exact byte.toNat_lt

/-- The big-endian value of a string is below the power of its length. -/
theorem bytesValue_lt (bytes : List UInt8) :
    bytesValue bytes < 256 ^ bytes.length := by
  have bound := value_lt (by decide) (toNat_digits_bounded bytes)
  rwa [List.length_map] at bound

@[simp] theorem bytesOf_bytesValue (bytes : List UInt8) :
    bytesOf bytes.length (bytesValue bytes) = bytes := by
  have back := digits_value (toNat_digits_bounded bytes)
  rw [List.length_map] at back
  rw [bytesOf, bytesValue, back, List.map_map]
  conv_rhs => rw [← List.map_id bytes]
  apply List.map_congr_left
  intro byte _
  simp

/-- Byte strings of equal length and value are equal. -/
theorem bytesValue_injective
    (lengths : left.length = right.length)
    (values : bytesValue left = bytesValue right) : left = right := by
  rw [← bytesOf_bytesValue left, ← bytesOf_bytesValue right, lengths, values]

end Positional
end Foundation
end NimiqApp
