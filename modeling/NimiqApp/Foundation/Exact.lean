import Mathlib.Algebra.Group.Nat.Defs

/-!
# Exact arithmetic of machine words

Operations on machine words that have a result only where it stands for the
number the operation has on numbers: no sum, difference, product or
conversion wraps, and nothing is divided by zero.
-/

namespace NimiqApp
namespace Foundation
namespace Exact

/-- The word, if it stands for the number. -/
def exactly (value : W → Nat) (word : W) (number : Int) : Option W :=
  if (value word : Int) = number then some word else none

theorem exactly_eq
    {value : W → Nat}
    (stands : (value word : Int) = number) :
    exactly value word number = some word :=
  if_pos stands

def add (left right : UInt64) : Option UInt64 :=
  exactly UInt64.toNat (left + right) (left.toNat + right.toNat)

def sub (left right : UInt64) : Option UInt64 :=
  exactly UInt64.toNat (left - right) (left.toNat - right.toNat)

def mul (left right : UInt64) : Option UInt64 :=
  exactly UInt64.toNat (left * right) (left.toNat * right.toNat)

def div (left right : UInt64) : Option UInt64 :=
  if right = 0 then none else some (left / right)

def mod (left right : UInt64) : Option UInt64 :=
  if right = 0 then none else some (left % right)

/-- The conversion to 32 bits. -/
def narrow (word : UInt64) : Option UInt32 :=
  exactly UInt32.toNat word.toUInt32 word.toNat

/-- The sum of words of 32 bits. -/
def add32 (left right : UInt32) : Option UInt32 :=
  exactly UInt32.toNat (left + right) (left.toNat + right.toNat)

theorem add_eq
    (sum : (left + right).toNat = left.toNat + right.toNat) :
    add left right = some (left + right) := by
  apply exactly_eq
  omega

theorem sub_eq
    (ordered : right ≤ left) : sub left right = some (left - right) := by
  have difference := UInt64.toNat_sub_of_le _ _ ordered
  have le := UInt64.le_iff_toNat_le.mp ordered
  apply exactly_eq
  omega

theorem mul_eq
    (product : (left * right).toNat = left.toNat * right.toNat) :
    mul left right = some (left * right) := by
  apply exactly_eq
  rw [product, Int.natCast_mul]

theorem div_eq (nonzero : right ≠ 0) :
    div left right = some (left / right) :=
  if_neg nonzero

theorem mod_eq (nonzero : right ≠ 0) :
    mod left right = some (left % right) :=
  if_neg nonzero

theorem narrow_eq
    (fits : word.toNat < 2 ^ 32) : narrow word = some word.toUInt32 := by
  apply exactly_eq
  rw [UInt64.toNat_toUInt32, Nat.mod_eq_of_lt fits]

theorem narrow_eq_none
    (large : ¬word.toNat < 2 ^ 32) : narrow word = none := by
  apply if_neg
  have bound := word.toUInt32.toNat_lt
  omega

theorem add32_eq
    (fits : left.toNat + right.toNat < 2 ^ 32) :
    add32 left right = some (left + right) := by
  apply exactly_eq
  rw [UInt32.toNat_add, Nat.mod_eq_of_lt fits]
  rfl

theorem add32_eq_none
    (large : ¬left.toNat + right.toNat < 2 ^ 32) :
    add32 left right = none := by
  apply if_neg
  have bound := (left + right).toNat_lt
  omega

end Exact
end Foundation
end NimiqApp
