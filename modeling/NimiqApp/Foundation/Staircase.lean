/-!
# Staircases

A total is worked off stair by stair, and an amount is reached by the last of
it.  If the total is the larger one, the first stairs reach nothing and one
stair reaches a part; if the amount is the larger one, the rest of it is the
ground the staircase starts from.
-/

namespace NimiqApp
namespace Foundation
namespace Staircase

/-- What is reached after some stairs. -/
def reached (amount total stair stairs : Nat) : Nat :=
  amount - min amount (total - stairs * stair)

/-- The stairs of the total, rounded up. -/
def stairs (total stair : Nat) : Nat :=
  total / stair + if total % stair = 0 then 0 else 1

/-- The stairs that reach nothing. -/
def skipped (amount total stair : Nat) : Nat :=
  (total - amount) / stair

/-- The stairs that reach something. -/
def count (amount total stair : Nat) : Nat :=
  stairs total stair - skipped amount total stair

/-- What is reached before the first stair. -/
def ground (amount total : Nat) : Nat :=
  amount - total

/-- What the first stair reaches, if it is not the last one. -/
def first (amount total stair : Nat) : Nat :=
  stair - (total - amount) % stair

/-- What the last stair reaches, if it is not the first one. -/
def last (total stair : Nat) : Nat :=
  if total % stair = 0 then stair else total % stair

section Stairs

variable {amount total stair : Nat}

/-- The total is worked off by the last of all stairs. -/
theorem stairs_bounds
    (total : Nat)
    (positive : 0 < stair) :
    total ≤ stairs total stair * stair ∧
      stairs total stair * stair < total + stair ∧
      (total = 0 ∨ stairs total stair * stair + last total stair =
        total + stair) := by
  have parts := Nat.div_add_mod total stair
  have remainder := Nat.mod_lt total positive
  rw [Nat.mul_comm] at parts
  unfold stairs last
  by_cases divides : total % stair = 0
  · rw [if_pos divides, if_pos divides, Nat.add_zero]
    omega
  · rw [if_neg divides, if_neg divides, Nat.add_mul, Nat.one_mul]
    omega

/-- The skipped stairs are worked off first. -/
theorem skipped_bounds (amount total stair : Nat) :
    skipped amount total stair * stair + (total - amount) % stair =
      total - amount := by
  rw [Nat.mul_comm]
  exact Nat.div_add_mod _ _

/-- Nothing is reached by the skipped stairs. -/
theorem reached_ground (skip : climbed ≤ skipped amount total stair) :
    reached amount total stair climbed = ground amount total := by
  have bounds := skipped_bounds amount total stair
  have steps := Nat.mul_le_mul_right stair skip
  unfold reached ground
  omega

/-- The first stair and some further ones. -/
theorem reached_middle
    (positive : 0 < stair)
    (below : further + 1 < count amount total stair) :
    reached amount total stair
        (skipped amount total stair + 1 + further) =
      ground amount total + first amount total stair +
        further * stair := by
  have skip := skipped_bounds amount total stair
  have remainder := Nat.mod_lt (total - amount) positive
  have bounds := stairs_bounds total positive
  have notLast : (skipped amount total stair + 1 + further + 1) * stair ≤
      stairs total stair * stair := by
    apply Nat.mul_le_mul_right
    unfold count at below
    omega
  rw [Nat.add_mul, Nat.add_mul, Nat.add_mul, Nat.one_mul] at notLast
  unfold reached ground first
  rw [Nat.add_mul, Nat.add_mul, Nat.one_mul]
  omega

/-- Everything is reached by the last stair. -/
theorem reached_top
    (positive : 0 < stair)
    (above : count amount total stair ≤ further + 1) :
    reached amount total stair
      (skipped amount total stair + 1 + further) = amount := by
  have bounds := stairs_bounds total positive
  have all : stairs total stair * stair ≤
      (skipped amount total stair + 1 + further) * stair := by
    apply Nat.mul_le_mul_right
    unfold count at above
    omega
  unfold reached
  omega

/-- If no stair reaches anything, everything is reached from the ground. -/
theorem reached_of_count_eq_zero
    (positive : 0 < stair)
    (none : count amount total stair = 0)
    (climbed : Nat) :
    reached amount total stair climbed = amount ∧
      ground amount total = amount := by
  have skip := skipped_bounds amount total stair
  have bounds := stairs_bounds total positive
  have all : stairs total stair * stair ≤
      skipped amount total stair * stair := by
    apply Nat.mul_le_mul_right
    unfold count at none
    omega
  unfold reached ground
  omega

/-- The stairs make up the amount. -/
theorem parts_eq
    (positive : 0 < stair)
    (several : 2 ≤ count amount total stair) :
    ground amount total + first amount total stair +
        (count amount total stair - 2) * stair + last total stair =
      amount := by
  have skip := skipped_bounds amount total stair
  have remainder := Nat.mod_lt (total - amount) positive
  have bounds := stairs_bounds total positive
  have parts : stairs total stair = skipped amount total stair +
      (count amount total stair - 2) + 2 := by
    unfold count at several ⊢
    omega
  have product := congrArg (· * stair) parts
  simp only [Nat.add_mul] at product
  have some : total ≠ 0 := by
    rintro rfl
    have none : stairs 0 stair = 0 := by simp [stairs]
    unfold count at several
    omega
  unfold ground first
  omega

/-- Less than everything is reached before the last stair. -/
theorem reached_lt
    (positive : 0 < stair)
    (several : 2 ≤ count amount total stair)
    (below : climbed < stairs total stair) :
    reached amount total stair climbed < amount := by
  have skip := skipped_bounds amount total stair
  have remainder := Nat.mod_lt (total - amount) positive
  have bounds := stairs_bounds total positive
  have notLast : (climbed + 1) * stair ≤ stairs total stair * stair :=
    Nat.mul_le_mul_right _ below
  have parts := parts_eq positive several
  rw [Nat.add_mul, Nat.one_mul] at notLast
  unfold ground first at parts
  unfold reached
  omega

end Stairs
end Staircase
end Foundation
end NimiqApp
