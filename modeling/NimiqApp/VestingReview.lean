import NimiqApp.Foundation.Staircase
import NimiqApp.ReviewInjectivity
import NimiqApp.VestingArithmetic

/-!
# The review of vesting contracts

A vesting contract releases its funds in steps: it holds back the locked
amount, which shrinks by the step amount with each step.  The values of the
review describe the funds that are released, and what is not shown can be
concluded from what is.
-/

namespace NimiqApp

open Foundation

namespace VestingParameters

/-- The funds that are vested after some whole steps. -/
def vestedAfter (parameters : VestingParameters) (txAmount steps : Nat) :
    Nat :=
  if parameters.Immediate then txAmount
  else Staircase.reached txAmount parameters.totalLockedAmount.toNat
    parameters.stepAmount.toNat steps

/-- The funds that are vested at a block, from the start block on. -/
def vestedAt (parameters : VestingParameters) (txAmount height : Nat) : Nat :=
  parameters.vestedAfter txAmount
    ((height - parameters.startBlock.toNat) /
      parameters.stepBlockCount.toNat)

end VestingParameters

/-- Values describe a contract that vests in several steps. -/
structure VestingPlan.DescribesSteps (plan : VestingPlan)
    (parameters : VestingParameters) (txAmount : Nat) : Prop where
  /-- The values that the steps are counted from. -/
  startBlock : plan.startBlock = parameters.startBlock.toNat
  stepBlockCount : plan.stepBlockCount = parameters.stepBlockCount.toNat
  stepAmount : plan.stepAmount = parameters.stepAmount.toNat
  /-- The first step is some whole steps behind the start. -/
  firstStep : 0 < plan.firstStepBlockCount ∧
    parameters.stepBlockCount.toNat ∣ plan.firstStepBlockCount
  /-- The steps but the last one. -/
  steps : ∀ j, j < plan.stepCount - 1 →
    parameters.vestedAfter txAmount
        (plan.firstStepBlockCount / parameters.stepBlockCount.toNat + j) =
      plan.preVestedAmount + plan.firstStepAmount + j * plan.stepAmount
  /-- The last step. -/
  lastStep : ∀ j, plan.stepCount - 1 ≤ j →
    parameters.vestedAfter txAmount
        (plan.firstStepBlockCount / parameters.stepBlockCount.toNat + j) =
      txAmount
  /-- All steps make up the amount. -/
  amounts : plan.preVestedAmount + plan.firstStepAmount +
    (plan.stepCount - 2) * plan.stepAmount + plan.lastStepAmount = txAmount
  /-- The period ends with the last step. -/
  period : plan.firstStepBlockCount +
    (plan.stepCount - 1) * parameters.stepBlockCount.toNat = plan.period
  /-- All funds are vested from the end of the period on, and not before. -/
  ending : ∀ k, parameters.vestedAfter txAmount k = txAmount ↔
    plan.period ≤ k * parameters.stepBlockCount.toNat

/-- Values describe a contract. -/
structure VestingPlan.Describes (plan : VestingPlan)
    (parameters : VestingParameters) (txAmount : Nat) : Prop where
  /-- Before the first step, the pre-vested funds are vested. -/
  before : ∀ k,
    k * parameters.stepBlockCount.toNat < plan.firstStepBlockCount →
      parameters.vestedAfter txAmount k = plan.preVestedAmount
  /-- A single step vests everything. -/
  single : plan.stepCount ≤ 1 → ∀ k,
    plan.firstStepBlockCount ≤ k * parameters.stepBlockCount.toNat →
      parameters.vestedAfter txAmount k = txAmount
  /-- The block that is shown for a single step is the one from which on
  everything is vested. -/
  vestedAtBlock : plan.stepCount ≤ 1 → ∀ height,
    parameters.startBlock.toNat ≤ height →
      parameters.vestedAt txAmount height =
        if height < plan.firstStepBlock then plan.preVestedAmount
        else txAmount
  /-- The first step is counted from the start. -/
  firstStepBlock : 1 ≤ plan.stepCount →
    plan.firstStepBlock =
      parameters.startBlock.toNat + plan.firstStepBlockCount
  immediate : parameters.Immediate →
    plan.stepCount ≤ 1 ∧ plan.preVestedAmount = txAmount
  several : 2 ≤ plan.stepCount → plan.DescribesSteps parameters txAmount

namespace VestingParameters

variable {parameters : VestingParameters} {txAmount height : Nat}

/-- The values that are not immediate are those of a staircase. -/
structure PlanEq (parameters : VestingParameters) (txAmount : Nat) :
    Prop where
  start : (parameters.plan txAmount).startBlock = parameters.startBlock.toNat
  blocks : (parameters.plan txAmount).stepBlockCount =
    parameters.stepBlockCount.toNat
  count : (parameters.plan txAmount).stepCount = Staircase.count txAmount
    parameters.totalLockedAmount.toNat parameters.stepAmount.toNat
  period : (parameters.plan txAmount).period = Staircase.stairs
    parameters.totalLockedAmount.toNat parameters.stepAmount.toNat *
      parameters.stepBlockCount.toNat
  firstBlocks : (parameters.plan txAmount).firstStepBlockCount =
    ((Staircase.skipped txAmount parameters.totalLockedAmount.toNat
      parameters.stepAmount.toNat + 1) * parameters.stepBlockCount.toNat) %
        2 ^ 32
  firstBlock : (parameters.plan txAmount).firstStepBlock =
    (parameters.startBlock.toNat +
      (parameters.plan txAmount).firstStepBlockCount) % 2 ^ 32
  amount : (parameters.plan txAmount).stepAmount = parameters.stepAmount.toNat
  first : (parameters.plan txAmount).firstStepAmount = Staircase.first
    txAmount parameters.totalLockedAmount.toNat parameters.stepAmount.toNat
  last : (parameters.plan txAmount).lastStepAmount = Staircase.last
    parameters.totalLockedAmount.toNat parameters.stepAmount.toNat
  preVested : (parameters.plan txAmount).preVestedAmount =
    Staircase.ground txAmount parameters.totalLockedAmount.toNat

theorem planEq
    (txAmount : Nat)
    (notImmediate : ¬parameters.Immediate) :
    parameters.PlanEq txAmount := by
  refine ⟨?_, ?_, ?_, ?_, ?_, ?_, ?_, ?_, ?_, ?_⟩ <;>
    simp only [plan, if_neg notImmediate]
  · rfl
  · rfl
  · rw [Nat.add_mul, Nat.one_mul, Nat.add_comm]
    rfl
  · rfl
  · rfl
  · rfl

theorem vestedAfter_eq
    (notImmediate : ¬parameters.Immediate)
    (passed : Nat) :
    parameters.vestedAfter txAmount passed = Staircase.reached txAmount
      parameters.totalLockedAmount.toNat parameters.stepAmount.toNat passed :=
  if_neg notImmediate

theorem positive_of_not_immediate
    (notImmediate : ¬parameters.Immediate) :
    0 < parameters.stepAmount.toNat ∧ 0 < parameters.stepBlockCount.toNat := by
  refine ⟨Nat.pos_of_ne_zero fun zero => ?_, Nat.pos_of_ne_zero fun zero => ?_⟩
  · exact notImmediate (Or.inr (UInt64.toNat_inj.mp zero))
  · exact notImmediate (Or.inl (UInt32.toNat_inj.mp zero))

/-- The blocks of the first step are possible ones if there is one. -/
theorem firstBlocks_eq
    (notImmediate : ¬parameters.Immediate)
    (bounded : parameters.Bounded)
    (some : 1 ≤ (parameters.plan txAmount).stepCount) :
    (parameters.plan txAmount).firstStepBlockCount =
        (Staircase.skipped txAmount parameters.totalLockedAmount.toNat
          parameters.stepAmount.toNat + 1) *
            parameters.stepBlockCount.toNat ∧
      (parameters.plan txAmount).firstStepBlock =
        parameters.startBlock.toNat +
          (parameters.plan txAmount).firstStepBlockCount := by
  have limit : uint32Max.toNat = 4294967295 := rfl
  have values := planEq txAmount notImmediate
  have ending : Staircase.stairs parameters.totalLockedAmount.toNat
        parameters.stepAmount.toNat * parameters.stepBlockCount.toNat +
      parameters.startBlock.toNat ≤ uint32Max.toNat := bounded.2
  rw [values.count] at some
  unfold Staircase.count at some
  have early : (Staircase.skipped txAmount
        parameters.totalLockedAmount.toNat parameters.stepAmount.toNat + 1) *
      parameters.stepBlockCount.toNat ≤
        Staircase.stairs parameters.totalLockedAmount.toNat
          parameters.stepAmount.toNat * parameters.stepBlockCount.toNat :=
    Nat.mul_le_mul_right _ (by omega)
  have blocks := values.firstBlocks
  rw [Nat.mod_eq_of_lt (by omega)] at blocks
  refine ⟨blocks, ?_⟩
  rw [values.firstBlock, blocks, Nat.mod_eq_of_lt (by omega)]

/-- Before the first step, whether its blocks are possible ones or not. -/
theorem vestedAfter_before
    (notImmediate : ¬parameters.Immediate)
    (before : passed * parameters.stepBlockCount.toNat <
      (parameters.plan txAmount).firstStepBlockCount) :
    parameters.vestedAfter txAmount passed =
      (parameters.plan txAmount).preVestedAmount := by
  have values := planEq txAmount notImmediate
  rw [vestedAfter_eq notImmediate, values.preVested]
  apply Staircase.reached_ground
  rw [values.firstBlocks] at before
  have below := Nat.lt_of_lt_of_le before (Nat.mod_le _ _)
  exact Nat.le_of_lt_succ (Nat.lt_of_mul_lt_mul_right below)

/-- Without a step, everything is vested from the start. -/
theorem vestedAfter_none
    (notImmediate : ¬parameters.Immediate)
    (none : (parameters.plan txAmount).stepCount = 0)
    (passed : Nat) :
    parameters.vestedAfter txAmount passed = txAmount ∧
      (parameters.plan txAmount).preVestedAmount = txAmount := by
  have values := planEq txAmount notImmediate
  rw [values.count] at none
  rw [vestedAfter_eq notImmediate, values.preVested]
  exact Staircase.reached_of_count_eq_zero
    (positive_of_not_immediate notImmediate).1 none passed

/-- The steps from the first one on. -/
theorem steps_behind_first
    (notImmediate : ¬parameters.Immediate)
    (bounded : parameters.Bounded)
    (some : 1 ≤ (parameters.plan txAmount).stepCount)
    (behind : (parameters.plan txAmount).firstStepBlockCount ≤
      passed * parameters.stepBlockCount.toNat) :
    ∃ j, passed = Staircase.skipped txAmount
      parameters.totalLockedAmount.toNat parameters.stepAmount.toNat +
        1 + j := by
  rw [(firstBlocks_eq notImmediate bounded some).1] at behind
  have le := Nat.le_of_mul_le_mul_right behind
    (positive_of_not_immediate notImmediate).2
  exact ⟨passed - _, (Nat.add_sub_cancel' le).symm⟩

/-- A single step vests everything. -/
theorem vestedAfter_single
    (notImmediate : ¬parameters.Immediate)
    (bounded : parameters.Bounded)
    (single : (parameters.plan txAmount).stepCount ≤ 1)
    (behind : (parameters.plan txAmount).firstStepBlockCount ≤
      passed * parameters.stepBlockCount.toNat) :
    parameters.vestedAfter txAmount passed = txAmount := by
  by_cases none : (parameters.plan txAmount).stepCount = 0
  · exact (vestedAfter_none notImmediate none passed).1
  · obtain ⟨j, rfl⟩ := steps_behind_first notImmediate bounded (by omega)
      behind
    rw [(planEq txAmount notImmediate).count] at single
    rw [vestedAfter_eq notImmediate]
    apply Staircase.reached_top (positive_of_not_immediate notImmediate).1
    omega

/-- Funds that vest at once are vested from the start. -/
theorem plan_immediate
    (txAmount : Nat)
    (immediate : parameters.Immediate) :
    (parameters.plan txAmount).firstStepBlockCount = 0 ∧
      (parameters.plan txAmount).stepCount = 0 ∧
      (parameters.plan txAmount).preVestedAmount = txAmount := by
  unfold plan
  rw [if_pos immediate]
  exact ⟨rfl, rfl, rfl⟩

/-- With one step at most, the funds vest at the block that is shown. -/
theorem vestedAt_single
    (accepted : Immediate parameters ∨ Bounded parameters)
    (single : (parameters.plan txAmount).stepCount ≤ 1)
    (started : parameters.startBlock.toNat ≤ height) :
    parameters.vestedAt txAmount height =
      if height < (parameters.plan txAmount).firstStepBlock then
        (parameters.plan txAmount).preVestedAmount
      else txAmount := by
  by_cases immediate : parameters.Immediate
  · rw [(plan_immediate txAmount immediate).2.2, ite_self]
    exact if_pos immediate
  by_cases none : (parameters.plan txAmount).stepCount = 0
  · obtain ⟨vested, preVested⟩ := vestedAfter_none immediate none
      ((height - parameters.startBlock.toNat) /
        parameters.stepBlockCount.toNat)
    rw [preVested, ite_self]
    exact vested
  · have bounded := accepted.resolve_left immediate
    have positive := (positive_of_not_immediate immediate).2
    obtain ⟨blocks, firstBlock⟩ := firstBlocks_eq immediate bounded
      (show 1 ≤ (parameters.plan txAmount).stepCount by omega)
    have before : (height - parameters.startBlock.toNat) /
          parameters.stepBlockCount.toNat *
            parameters.stepBlockCount.toNat <
          (parameters.plan txAmount).firstStepBlockCount ↔
        height < (parameters.plan txAmount).firstStepBlock := by
      rw [firstBlock, blocks, Nat.mul_lt_mul_right positive,
        Nat.div_lt_iff_lt_mul positive]
      exact Nat.sub_lt_iff_lt_add' started
    by_cases early : height < (parameters.plan txAmount).firstStepBlock
    · rw [if_pos early]
      exact vestedAfter_before immediate (before.mpr early)
    · rw [if_neg early]
      exact vestedAfter_single immediate bounded single
        (Nat.le_of_not_lt (mt before.mp early))

/-- Several steps are described by their values. -/
theorem describesSteps
    (notImmediate : ¬parameters.Immediate)
    (bounded : parameters.Bounded)
    (several : 2 ≤ (parameters.plan txAmount).stepCount) :
    (parameters.plan txAmount).DescribesSteps parameters txAmount := by
  obtain ⟨stepPositive, blocksPositive⟩ :=
    positive_of_not_immediate notImmediate
  have values := planEq txAmount notImmediate
  have blocks := (firstBlocks_eq notImmediate bounded
    (Nat.le_of_succ_le several)).1
  have quotient : (parameters.plan txAmount).firstStepBlockCount /
      parameters.stepBlockCount.toNat = Staircase.skipped txAmount
        parameters.totalLockedAmount.toNat parameters.stepAmount.toNat +
          1 := by
    rw [blocks, Nat.mul_div_cancel _ blocksPositive]
  rw [values.count] at several
  refine ⟨values.start, values.blocks, values.amount, ⟨?_, ?_⟩, ?_, ?_, ?_,
    ?_, ?_⟩
  · rw [blocks]
    exact Nat.mul_pos (Nat.succ_pos _) blocksPositive
  · rw [blocks]
    exact Nat.dvd_mul_left _ _
  · intro j below
    rw [values.count] at below
    rw [vestedAfter_eq notImmediate, quotient, values.preVested, values.first,
      values.amount]
    exact Staircase.reached_middle stepPositive (by omega)
  · intro j above
    rw [values.count] at above
    rw [vestedAfter_eq notImmediate, quotient]
    exact Staircase.reached_top stepPositive (by omega)
  · rw [values.preVested, values.first, values.count, values.amount,
      values.last]
    exact Staircase.parts_eq stepPositive several
  · rw [blocks, values.count, values.period, ← Nat.add_mul]
    congr 1
    unfold Staircase.count at several ⊢
    omega
  · intro k
    rw [vestedAfter_eq notImmediate, values.period]
    constructor
    · intro all
      apply Nat.mul_le_mul_right
      by_contra less
      have below := Staircase.reached_lt stepPositive several
        (Nat.lt_of_not_le less)
      omega
    · intro late
      have le := Nat.le_of_mul_le_mul_right late blocksPositive
      unfold Staircase.count at several
      obtain ⟨j, rfl⟩ : ∃ j, k = Staircase.skipped txAmount
          parameters.totalLockedAmount.toNat parameters.stepAmount.toNat +
            1 + j := ⟨k - _, (Nat.add_sub_cancel' (by omega)).symm⟩
      apply Staircase.reached_top stepPositive
      unfold Staircase.count
      omega

/-- The values of accepted parameters describe the contract. -/
theorem describes
    (txAmount : Nat)
    (accepted : Immediate parameters ∨ Bounded parameters) :
    (parameters.plan txAmount).Describes parameters txAmount := by
  by_cases immediate : parameters.Immediate
  · obtain ⟨blocks, count, preVested⟩ := plan_immediate txAmount immediate
    refine ⟨?_, ?_, ?_, ?_, ?_, ?_⟩
    · intro k before
      omega
    · intro _ k _
      exact if_pos immediate
    · exact fun single _ => vestedAt_single accepted single
    · intro some
      omega
    · intro _
      exact ⟨by omega, preVested⟩
    · intro several
      omega
  · have bounded := accepted.resolve_left immediate
    exact ⟨fun _ => vestedAfter_before immediate,
      fun single _ => vestedAfter_single immediate bounded single,
      fun single _ => vestedAt_single accepted single,
      fun some => (firstBlocks_eq immediate bounded some).2,
      fun absurdly => absurd absurdly immediate,
      describesSteps immediate bounded⟩

end VestingParameters

/-! ## What the entries tell -/

namespace TxDataVestingCreation

section Entries

variable (tx : TxDataVestingCreation)

/-- The regular step amount is not shown, as neither of two steps has it. -/
def skipsStepAmount : Bool :=
  tx.stepCount = ascii "2" && tx.firstStepAmount ≠ tx.stepAmount &&
    tx.lastStepAmount ≠ tx.stepAmount

theorem valuesOf_owner :
    valuesOf (ascii "Vesting Owner") tx.entries =
      if !tx.isOwnerAddressSenderAddress then [tx.ownerAddress] else [] := by
  simp +decide only [entries, valuesOf_append, valuesOf_optionalEntry,
    if_true, if_false, List.append_nil]

theorem valuesOf_vestedAtBlock :
    valuesOf (ascii "Vested at Block") tx.entries =
      if !tx.isMultiStep then [tx.firstStepBlock] else [] := by
  simp +decide only [entries, valuesOf_append, valuesOf_optionalEntry,
    if_true, if_false, List.nil_append, List.append_nil]

theorem valuesOf_startBlock :
    valuesOf (ascii "Vesting Start Block") tx.entries =
      if tx.isMultiStep then [tx.startBlock] else [] := by
  simp +decide only [entries, valuesOf_append, valuesOf_optionalEntry,
    if_true, if_false, List.nil_append, List.append_nil]

theorem valuesOf_period :
    valuesOf (ascii "Vesting Period") tx.entries =
      if tx.isMultiStep then [tx.period] else [] := by
  simp +decide only [entries, valuesOf_append, valuesOf_optionalEntry,
    if_true, if_false, List.nil_append, List.append_nil]

theorem valuesOf_stepCount :
    valuesOf (ascii "Vesting Steps") tx.entries =
      if tx.isMultiStep then [tx.stepCount] else [] := by
  simp +decide only [entries, valuesOf_append, valuesOf_optionalEntry,
    if_true, if_false, List.nil_append, List.append_nil]

theorem valuesOf_stepBlockCount :
    valuesOf (ascii "Blocks Per Step") tx.entries =
      if tx.isMultiStep then [tx.stepBlockCount] else [] := by
  simp +decide only [entries, valuesOf_append, valuesOf_optionalEntry,
    if_true, if_false, List.nil_append, List.append_nil]

/-- The duration of the first step and its amount share a label. -/
theorem valuesOf_firstStep :
    valuesOf (ascii "First Step") tx.entries =
      (if tx.isMultiStep && tx.firstStepBlockCount ≠ tx.stepBlockCount then
        [tx.firstStepBlockCount] else []) ++
      if tx.isMultiStep && tx.firstStepAmount ≠ tx.stepAmount then
        [tx.firstStepAmount] else [] := by
  simp +decide only [entries, valuesOf_append, valuesOf_optionalEntry,
    if_true, if_false, List.nil_append, List.append_nil]

theorem valuesOf_stepAmount :
    valuesOf (ascii "Vested per Step") tx.entries =
      if tx.isMultiStep && !tx.skipsStepAmount then [tx.stepAmount]
      else [] := by
  simp +decide only [entries, valuesOf_append, valuesOf_optionalEntry,
    if_true, if_false, List.nil_append, List.append_nil]
  rfl

theorem valuesOf_lastStep :
    valuesOf (ascii "Last Step") tx.entries =
      if tx.isMultiStep && tx.lastStepAmount ≠ tx.stepAmount then
        [tx.lastStepAmount] else [] := by
  simp +decide only [entries, valuesOf_append, valuesOf_optionalEntry,
    if_true, if_false, List.nil_append, List.append_nil]

theorem valuesOf_preVested :
    valuesOf (ascii "Pre-Vested") tx.entries =
      if decide (tx.preVestedAmount ≠ ascii "0 NIM") then
        [tx.preVestedAmount] else [] := by
  simp +decide only [entries, valuesOf_append, valuesOf_optionalEntry,
    if_true, if_false, List.nil_append]

end Entries
end TxDataVestingCreation

/-- The values of several steps are shown, or are the regular ones, or a
regular amount that no step has. -/
structure VestingPlan.StepsShownIn (plan : VestingPlan)
    (entries : List Entry) : Prop where
  startBlock : ⟨ascii "Vesting Start Block", printUnsigned plan.startBlock⟩ ∈
    entries
  period : ⟨ascii "Vesting Period", blocksText plan.period⟩ ∈ entries
  stepCount : ⟨ascii "Vesting Steps", printUnsigned plan.stepCount⟩ ∈ entries
  stepBlockCount : ⟨ascii "Blocks Per Step", blocksText plan.stepBlockCount⟩ ∈
    entries
  firstStepBlockCount :
    ⟨ascii "First Step", blocksText plan.firstStepBlockCount⟩ ∈ entries ∨
      plan.firstStepBlockCount = plan.stepBlockCount
  stepAmount :
    ⟨ascii "Vested per Step", amountWithTicker plan.stepAmount⟩ ∈ entries ∨
      (plan.stepCount = 2 ∧ plan.firstStepAmount ≠ plan.stepAmount ∧
        plan.lastStepAmount ≠ plan.stepAmount)
  firstStepAmount :
    ⟨ascii "First Step", amountWithTicker plan.firstStepAmount⟩ ∈ entries ∨
      plan.firstStepAmount = plan.stepAmount
  lastStepAmount :
    ⟨ascii "Last Step", amountWithTicker plan.lastStepAmount⟩ ∈ entries ∨
      plan.lastStepAmount = plan.stepAmount

/-- The owner and the values of a plan are shown, or have the value that they
have when nothing is shown. -/
structure VestingPlan.ShownIn (plan : VestingPlan)
    (ownerAddress sender : Bytes 20) (entries : List Entry) : Prop where
  ownerAddress :
    ⟨ascii "Vesting Owner", userFriendlyAddress ownerAddress.val⟩ ∈ entries ∨
      ownerAddress = sender
  preVestedAmount :
    ⟨ascii "Pre-Vested", amountWithTicker plan.preVestedAmount⟩ ∈ entries ∨
      plan.preVestedAmount = 0
  single : plan.stepCount ≤ 1 →
    ⟨ascii "Vested at Block", printUnsigned plan.firstStepBlock⟩ ∈ entries
  several : 2 ≤ plan.stepCount → plan.StepsShownIn entries

/-- A text that ends like an amount. -/
def endsLikeAmount (text : CString) : Bool :=
  text.getLast? = some 77

theorem endsLikeAmount_amountWithTicker (amount : Nat) :
    endsLikeAmount (amountWithTicker amount) = true := by
  have ending : (ascii " NIM").getLast? = some 77 := by decide
  unfold endsLikeAmount amountWithTicker
  rw [List.getLast?_append, ending]
  rfl

theorem endsLikeAmount_blocksText (count : Nat) :
    endsLikeAmount (blocksText count) = false := by
  have singular : (ascii " block").getLast? = some 107 := by decide
  have plural : (ascii "s").getLast? = some 115 := by decide
  unfold endsLikeAmount blocksText
  by_cases one : count = 1
  · rw [if_pos one, List.append_nil, List.getLast?_append, singular]
    rfl
  · rw [if_neg one, List.getLast?_append, plural]
    rfl

/-- The amount among a duration and an amount that may be shown. -/
theorem filter_amounts (durationShown amountShown : Bool) (count amount : Nat) :
    ((if durationShown then [blocksText count] else []) ++
      if amountShown then [amountWithTicker amount] else []).filter
        endsLikeAmount =
      if amountShown then [amountWithTicker amount] else [] := by
  cases durationShown <;> cases amountShown <;>
    simp [endsLikeAmount_amountWithTicker, endsLikeAmount_blocksText]

/-- The duration among both. -/
theorem filter_durations
    (durationShown amountShown : Bool)
    (count amount : Nat) :
    ((if durationShown then [blocksText count] else []) ++
      if amountShown then [amountWithTicker amount] else []).filter
        (!endsLikeAmount ·) =
      if durationShown then [blocksText count] else [] := by
  cases durationShown <;> cases amountShown <;>
    simp [endsLikeAmount_amountWithTicker, endsLikeAmount_blocksText]

/-- The letters behind a number of blocks do not hide the number. -/
theorem blocksText_injective
    (equal : blocksText left = blocksText right) : left = right := by
  have endings : (ascii " block").getLast? ≠ (ascii "s").getLast? := by decide
  have last : ∀ count, (blocksText count).getLast? =
      if count = 1 then (ascii " block").getLast?
      else (ascii "s").getLast? := by
    intro count
    unfold blocksText
    by_cases one : count = 1
    · rw [if_pos one, if_pos one, List.append_nil, List.getLast?_append]
      rfl
    · rw [if_neg one, if_neg one, List.getLast?_append]
      rfl
  have lasts := congrArg List.getLast? equal
  rw [last, last] at lasts
  unfold blocksText at equal
  by_cases leftOne : left = 1 <;> by_cases rightOne : right = 1
  · rw [leftOne, rightOne]
  · rw [if_pos leftOne, if_neg rightOne] at lasts
    exact absurd lasts endings
  · rw [if_neg leftOne, if_pos rightOne] at lasts
    exact absurd lasts.symm endings
  · rw [if_neg leftOne, if_neg rightOne] at equal
    exact printUnsigned_injective
      (List.append_cancel_right (List.append_cancel_right equal))

/-- Plans with several steps agree, up to an amount that no step has. -/
structure VestingPlan.SameSteps (left right : VestingPlan) : Prop where
  startBlock : left.startBlock = right.startBlock
  period : left.period = right.period
  stepCount : left.stepCount = right.stepCount
  stepBlockCount : left.stepBlockCount = right.stepBlockCount
  firstStepBlockCount :
    left.firstStepBlockCount = right.firstStepBlockCount
  firstStepAmount : left.firstStepAmount = right.firstStepAmount
  lastStepAmount : left.lastStepAmount = right.lastStepAmount
  stepAmount : left.stepAmount = right.stepAmount ∨
    (left.stepCount = 2 ∧ left.firstStepAmount ≠ left.stepAmount ∧
      left.lastStepAmount ≠ left.stepAmount)

/-- Plans agree in what matters for the number of their steps. -/
structure VestingPlan.SameReview (left right : VestingPlan) : Prop where
  preVestedAmount : left.preVestedAmount = right.preVestedAmount
  several : 2 ≤ left.stepCount ↔ 2 ≤ right.stepCount
  single : left.stepCount ≤ 1 → left.firstStepBlock = right.firstStepBlock
  steps : 2 ≤ left.stepCount → left.SameSteps right

namespace VestingPlan

section Shown

variable {left right : VestingPlan} {leftOwner rightOwner sender : Bytes 20}

/-- The entries tell whether there are several steps. -/
theorem several_of_entries
    (equal : (left.shown leftOwner sender).entries =
      (right.shown rightOwner sender).entries) :
    2 ≤ left.stepCount ↔ 2 ≤ right.stepCount := by
  have values := congrArg (valuesOf (ascii "Vested at Block")) equal
  rw [TxDataVestingCreation.valuesOf_vestedAtBlock,
    TxDataVestingCreation.valuesOf_vestedAtBlock] at values
  simp only [shown] at values
  by_cases leftSeveral : 1 < left.stepCount <;>
    by_cases rightSeveral : 1 < right.stepCount
  · exact iff_of_true leftSeveral rightSeveral
  · simp [leftSeveral, rightSeveral] at values
  · simp [leftSeveral, rightSeveral] at values
  · exact iff_of_false leftSeveral rightSeveral

theorem preVestedAmount_of_entries
    (equal : (left.shown leftOwner sender).entries =
      (right.shown rightOwner sender).entries) :
    left.preVestedAmount = right.preVestedAmount := by
  have values := congrArg (valuesOf (ascii "Pre-Vested")) equal
  rw [TxDataVestingCreation.valuesOf_preVested,
    TxDataVestingCreation.valuesOf_preVested] at values
  exact amountWithTicker_injective (optionalAmount_injective values)

/-- The owner is shown unless it is the sender. -/
theorem owner_of_entries
    (equal : (left.shown leftOwner sender).entries =
      (right.shown rightOwner sender).entries) :
    leftOwner = rightOwner := by
  have values := congrArg (valuesOf (ascii "Vesting Owner")) equal
  rw [TxDataVestingCreation.valuesOf_owner,
    TxDataVestingCreation.valuesOf_owner] at values
  exact shownUnlessSender_injective values

theorem single_of_entries
    (equal : (left.shown leftOwner sender).entries =
      (right.shown rightOwner sender).entries)
    (single : left.stepCount ≤ 1) :
    left.firstStepBlock = right.firstStepBlock := by
  have several := several_of_entries equal
  have values := congrArg (valuesOf (ascii "Vested at Block")) equal
  rw [TxDataVestingCreation.valuesOf_vestedAtBlock,
    TxDataVestingCreation.valuesOf_vestedAtBlock] at values
  have leftSingle : ¬1 < left.stepCount := by omega
  have rightSingle : ¬1 < right.stepCount := by omega
  simp only [shown, leftSingle, rightSingle, decide_false, Bool.not_false,
    if_true] at values
  exact printUnsigned_injective (List.singleton_injective values)

theorem isMultiStep_shown
    {plan : VestingPlan}
    {owner : Bytes 20}
    (several : 1 < plan.stepCount) :
    (plan.shown owner sender).isMultiStep = true :=
  decide_eq_true several

/-- A value that is shown for several steps is told by the entries. -/
theorem multiStepValue_of_entries
    {label : CString}
    {value : TxDataVestingCreation → CString}
    (values : ∀ tx : TxDataVestingCreation, valuesOf label tx.entries =
      if tx.isMultiStep then [value tx] else [])
    (equal : (left.shown leftOwner sender).entries =
      (right.shown rightOwner sender).entries)
    (leftSeveral : 1 < left.stepCount)
    (rightSeveral : 1 < right.stepCount) :
    value (left.shown leftOwner sender) =
      value (right.shown rightOwner sender) := by
  have shown := congrArg (valuesOf label) equal
  rw [values, values, isMultiStep_shown leftSeveral,
    isMultiStep_shown rightSeveral, if_pos rfl, if_pos rfl] at shown
  exact List.singleton_injective shown

/-- The two entries for the first step are told apart by their texts. -/
theorem firstStep_of_entries
    (equal : (left.shown leftOwner sender).entries =
      (right.shown rightOwner sender).entries)
    (leftSeveral : 1 < left.stepCount)
    (rightSeveral : 1 < right.stepCount)
    (stepBlockCount : left.stepBlockCount = right.stepBlockCount) :
    left.firstStepBlockCount = right.firstStepBlockCount ∧
      (if decide (amountWithTicker left.firstStepAmount ≠
          amountWithTicker left.stepAmount) then
        [amountWithTicker left.firstStepAmount] else []) =
      if decide (amountWithTicker right.firstStepAmount ≠
          amountWithTicker right.stepAmount) then
        [amountWithTicker right.firstStepAmount] else [] := by
  have values := congrArg (valuesOf (ascii "First Step")) equal
  rw [TxDataVestingCreation.valuesOf_firstStep,
    TxDataVestingCreation.valuesOf_firstStep] at values
  simp only [shown, leftSeveral, rightSeveral, decide_true, Bool.true_and]
    at values
  constructor
  · have durations := congrArg (List.filter (!endsLikeAmount ·)) values
    rw [filter_durations, filter_durations, stepBlockCount] at durations
    exact blocksText_injective (omitted_injective durations)
  · have amounts := congrArg (List.filter endsLikeAmount) values
    rw [filter_amounts, filter_amounts] at amounts
    exact amounts

/-- The regular amount is skipped if there are two steps with other
amounts. -/
theorem skipsStepAmount_shown
    (plan : VestingPlan)
    (owner sender : Bytes 20) :
    (plan.shown owner sender).skipsStepAmount = true ↔
      plan.stepCount = 2 ∧ plan.firstStepAmount ≠ plan.stepAmount ∧
        plan.lastStepAmount ≠ plan.stepAmount := by
  have two : printUnsigned 2 = ascii "2" :=
    printUnsigned_of_lt (show 2 < 10 by decide)
  have count : printUnsigned plan.stepCount = ascii "2" ↔
      plan.stepCount = 2 := by
    rw [← two]
    exact ⟨printUnsigned_injective, congrArg printUnsigned⟩
  have amounts : ∀ left right, amountWithTicker left =
      amountWithTicker right ↔ left = right := fun _ _ =>
    ⟨amountWithTicker_injective, congrArg amountWithTicker⟩
  unfold TxDataVestingCreation.skipsStepAmount shown
  simp only [Bool.and_eq_true, decide_eq_true_eq, count, ne_eq, amounts,
    and_assoc]

/-- The amounts of several steps are shown, unless no step has them. -/
theorem amounts_of_entries
    (equal : (left.shown leftOwner sender).entries =
      (right.shown rightOwner sender).entries)
    (leftSeveral : 1 < left.stepCount)
    (rightSeveral : 1 < right.stepCount)
    (stepBlockCount : left.stepBlockCount = right.stepBlockCount) :
    left.firstStepAmount = right.firstStepAmount ∧
      left.lastStepAmount = right.lastStepAmount ∧
      (left.stepAmount = right.stepAmount ∨
        (left.stepCount = 2 ∧ left.firstStepAmount ≠ left.stepAmount ∧
          left.lastStepAmount ≠ left.stepAmount)) := by
  have firsts := (firstStep_of_entries equal leftSeveral rightSeveral
    stepBlockCount).2
  have lasts := congrArg (valuesOf (ascii "Last Step")) equal
  rw [TxDataVestingCreation.valuesOf_lastStep,
    TxDataVestingCreation.valuesOf_lastStep] at lasts
  have steps := congrArg (valuesOf (ascii "Vested per Step")) equal
  rw [TxDataVestingCreation.valuesOf_stepAmount,
    TxDataVestingCreation.valuesOf_stepAmount] at steps
  rw [isMultiStep_shown leftSeveral, isMultiStep_shown rightSeveral,
    Bool.true_and, Bool.true_and] at steps lasts
  have different : ∀ {amount usual : Nat}, amount ≠ usual →
      decide (amountWithTicker amount ≠ amountWithTicker usual) = true := by
    intro amount usual differs
    exact decide_eq_true fun same => differs (amountWithTicker_injective same)
  change (if decide (amountWithTicker left.lastStepAmount ≠
      amountWithTicker left.stepAmount) then
        [amountWithTicker left.lastStepAmount] else []) =
    if decide (amountWithTicker right.lastStepAmount ≠
      amountWithTicker right.stepAmount) then
        [amountWithTicker right.lastStepAmount] else [] at lasts
  cases leftSkips : (left.shown leftOwner sender).skipsStepAmount <;>
    cases rightSkips : (right.shown rightOwner sender).skipsStepAmount
  · rw [leftSkips, rightSkips, Bool.not_false, if_pos rfl, if_pos rfl]
      at steps
    have stepAmount : left.stepAmount = right.stepAmount :=
      amountWithTicker_injective (List.singleton_injective steps)
    rw [stepAmount] at firsts lasts
    exact ⟨amountWithTicker_injective (omitted_injective firsts),
      amountWithTicker_injective (omitted_injective lasts),
      Or.inl stepAmount⟩
  · simp [leftSkips, rightSkips] at steps
  · simp [leftSkips, rightSkips] at steps
  · have leftDiffers :=
      (skipsStepAmount_shown left leftOwner sender).mp leftSkips
    have rightDiffers :=
      (skipsStepAmount_shown right rightOwner sender).mp rightSkips
    rw [if_pos (different leftDiffers.2.1), if_pos (different rightDiffers.2.1)]
      at firsts
    rw [if_pos (different leftDiffers.2.2), if_pos (different rightDiffers.2.2)]
      at lasts
    exact ⟨amountWithTicker_injective (List.singleton_injective firsts),
      amountWithTicker_injective (List.singleton_injective lasts),
      Or.inr leftDiffers⟩

/-- The values of several steps are shown or implied. -/
theorem stepsShownIn
    (plan : VestingPlan)
    (owner sender : Bytes 20)
    (several : 1 < plan.stepCount) :
    plan.StepsShownIn (plan.shown owner sender).entries := by
  have isMultiStep : (plan.shown owner sender).isMultiStep = true :=
    isMultiStep_shown several
  constructor
  · rw [← mem_valuesOf, TxDataVestingCreation.valuesOf_startBlock, isMultiStep]
    exact List.mem_singleton.mpr rfl
  · rw [← mem_valuesOf, TxDataVestingCreation.valuesOf_period, isMultiStep]
    exact List.mem_singleton.mpr rfl
  · rw [← mem_valuesOf, TxDataVestingCreation.valuesOf_stepCount, isMultiStep]
    exact List.mem_singleton.mpr rfl
  · rw [← mem_valuesOf, TxDataVestingCreation.valuesOf_stepBlockCount,
      isMultiStep]
    exact List.mem_singleton.mpr rfl
  · by_cases regular : plan.firstStepBlockCount = plan.stepBlockCount
    · exact Or.inr regular
    · left
      have differs := mt blocksText_injective regular
      rw [← mem_valuesOf, TxDataVestingCreation.valuesOf_firstStep,
        isMultiStep]
      simp [shown, differs]
  · cases skips : (plan.shown owner sender).skipsStepAmount with
    | true =>
        exact Or.inr ((skipsStepAmount_shown plan owner sender).mp skips)
    | false =>
        left
        rw [← mem_valuesOf, TxDataVestingCreation.valuesOf_stepAmount,
          isMultiStep, skips]
        exact List.mem_singleton.mpr rfl
  · by_cases regular : plan.firstStepAmount = plan.stepAmount
    · exact Or.inr regular
    · left
      have differs := mt amountWithTicker_injective regular
      rw [← mem_valuesOf, TxDataVestingCreation.valuesOf_firstStep,
        isMultiStep]
      simp [shown, differs]
  · by_cases regular : plan.lastStepAmount = plan.stepAmount
    · exact Or.inr regular
    · left
      have differs := mt amountWithTicker_injective regular
      rw [← mem_valuesOf, TxDataVestingCreation.valuesOf_lastStep,
        isMultiStep]
      simp [shown, differs]

/-- What is not shown of a plan is implied. -/
theorem shownIn
    (plan : VestingPlan)
    (owner sender : Bytes 20) :
    plan.ShownIn owner sender (plan.shown owner sender).entries where
  ownerAddress := by
    by_cases own : owner = sender
    · exact Or.inr own
    · left
      rw [← mem_valuesOf, TxDataVestingCreation.valuesOf_owner]
      simp [shown, own]
  preVestedAmount := by
    by_cases none : plan.preVestedAmount = 0
    · exact Or.inr none
    · left
      have differs := mt amountWithTicker_eq_zero_iff.mp none
      rw [← mem_valuesOf, TxDataVestingCreation.valuesOf_preVested]
      simp [shown, differs]
  single single := by
    have notSeveral : ¬1 < plan.stepCount := by omega
    rw [← mem_valuesOf, TxDataVestingCreation.valuesOf_vestedAtBlock]
    simp [shown, notSeveral]
  several several := stepsShownIn plan owner sender several

/-- More entries show more. -/
theorem ShownIn.mono
    {plan : VestingPlan}
    {owner : Bytes 20}
    (shown : plan.ShownIn owner sender middle)
    (among : ∀ entry ∈ middle, entry ∈ entries) :
    plan.ShownIn owner sender entries where
  ownerAddress := shown.ownerAddress.imp_left (among _)
  preVestedAmount := shown.preVestedAmount.imp_left (among _)
  single single := among _ (shown.single single)
  several several :=
    have steps := shown.several several
    { startBlock := among _ steps.startBlock
      period := among _ steps.period
      stepCount := among _ steps.stepCount
      stepBlockCount := among _ steps.stepBlockCount
      firstStepBlockCount := steps.firstStepBlockCount.imp_left (among _)
      stepAmount := steps.stepAmount.imp_left (among _)
      firstStepAmount := steps.firstStepAmount.imp_left (among _)
      lastStepAmount := steps.lastStepAmount.imp_left (among _) }

/-- The entries of several steps tell their values. -/
theorem sameSteps_of_entries
    (equal : (left.shown leftOwner sender).entries =
      (right.shown rightOwner sender).entries)
    (leftSeveral : 1 < left.stepCount)
    (rightSeveral : 1 < right.stepCount) :
    left.SameSteps right := by
  have start := multiStepValue_of_entries
    TxDataVestingCreation.valuesOf_startBlock equal leftSeveral rightSeveral
  have period := multiStepValue_of_entries
    TxDataVestingCreation.valuesOf_period equal leftSeveral rightSeveral
  have count := multiStepValue_of_entries
    TxDataVestingCreation.valuesOf_stepCount equal leftSeveral rightSeveral
  have blocks := multiStepValue_of_entries
    TxDataVestingCreation.valuesOf_stepBlockCount equal leftSeveral
    rightSeveral
  have stepBlockCount : left.stepBlockCount = right.stepBlockCount :=
    blocksText_injective blocks
  obtain ⟨first, last, regular⟩ :=
    amounts_of_entries equal leftSeveral rightSeveral stepBlockCount
  exact {
    startBlock := printUnsigned_injective start
    period := blocksText_injective period
    stepCount := printUnsigned_injective count
    stepBlockCount
    firstStepBlockCount := (firstStep_of_entries equal leftSeveral
      rightSeveral stepBlockCount).1
    firstStepAmount := first
    lastStepAmount := last
    stepAmount := regular }

/-- What is skipped can be concluded from what is shown. -/
theorem sameReview_of_entries
    (equal : (left.shown leftOwner sender).entries =
      (right.shown rightOwner sender).entries) :
    left.SameReview right where
  preVestedAmount := preVestedAmount_of_entries equal
  several := several_of_entries equal
  single := single_of_entries equal
  steps several :=
    sameSteps_of_entries equal several ((several_of_entries equal).mp several)

end Shown
end VestingPlan

/-! ## The funds that are vested at a block -/

namespace VestingParameters

variable {parameters : VestingParameters} {txAmount height : Nat}

/-- Funds that vest at once vest in one step. -/
theorem not_immediate_of_several
    (accepted : Immediate parameters ∨ Bounded parameters)
    (several : 2 ≤ (parameters.plan txAmount).stepCount) :
    ¬parameters.Immediate := by
  intro immediate
  have single := ((describes txAmount accepted).immediate immediate).1
  omega

/-- With several steps, the funds are those of the values. -/
theorem vestedAfter_several
    (accepted : Immediate parameters ∨ Bounded parameters)
    (several : 2 ≤ (parameters.plan txAmount).stepCount)
    (passed : Nat) :
    parameters.vestedAfter txAmount passed =
      let plan := parameters.plan txAmount
      let j := passed - plan.firstStepBlockCount / plan.stepBlockCount
      if passed * plan.stepBlockCount < plan.firstStepBlockCount then
        plan.preVestedAmount
      else if j < plan.stepCount - 1 then
        plan.preVestedAmount + plan.firstStepAmount + j * plan.stepAmount
      else txAmount := by
  have describes := describes txAmount accepted
  have steps := describes.several several
  have notImmediate := not_immediate_of_several accepted several
  have positive := (positive_of_not_immediate notImmediate).2
  simp only [(planEq txAmount notImmediate).blocks]
  split
  · rename_i before
    exact describes.before _ before
  · rename_i behind
    have le : (parameters.plan txAmount).firstStepBlockCount /
        parameters.stepBlockCount.toNat ≤ passed :=
      Nat.div_le_of_le_mul (by
        rw [Nat.mul_comm]
        exact Nat.le_of_not_lt behind)
    generalize jEq : passed - (parameters.plan txAmount).firstStepBlockCount /
      parameters.stepBlockCount.toNat = j
    obtain rfl : passed = (parameters.plan txAmount).firstStepBlockCount /
        parameters.stepBlockCount.toNat + j := by omega
    split
    · rename_i below
      exact steps.steps j below
    · rename_i above
      exact steps.lastStep j (Nat.le_of_not_lt above)

/-- Contracts with the same review release the same funds. -/
theorem vestedAt_eq_of_sameReview
    {left right : VestingParameters}
    (leftAccepted : Immediate left ∨ Bounded left)
    (rightAccepted : Immediate right ∨ Bounded right)
    (same : (left.plan txAmount).SameReview (right.plan txAmount))
    (leftStarted : left.startBlock.toNat ≤ height)
    (rightStarted : right.startBlock.toNat ≤ height) :
    left.vestedAt txAmount height = right.vestedAt txAmount height := by
  by_cases several : 2 ≤ (left.plan txAmount).stepCount
  · have rightSeveral := same.several.mp several
    have steps := same.steps several
    have values : ∀ {parameters : VestingParameters},
        Immediate parameters ∨ Bounded parameters →
        2 ≤ (parameters.plan txAmount).stepCount →
        parameters.startBlock.toNat = (parameters.plan txAmount).startBlock ∧
          parameters.stepBlockCount.toNat =
            (parameters.plan txAmount).stepBlockCount := by
      intro parameters accepted several
      have notImmediate := not_immediate_of_several accepted several
      exact ⟨(planEq txAmount notImmediate).start.symm,
        (planEq txAmount notImmediate).blocks.symm⟩
    unfold vestedAt
    rw [vestedAfter_several leftAccepted several,
      vestedAfter_several rightAccepted rightSeveral,
      (values leftAccepted several).1, (values leftAccepted several).2,
      (values rightAccepted rightSeveral).1,
      (values rightAccepted rightSeveral).2]
    simp only [steps.startBlock, steps.stepBlockCount, steps.stepCount,
      steps.firstStepBlockCount, steps.firstStepAmount, same.preVestedAmount]
    rcases steps.stepAmount with regular | ⟨two, _, _⟩
    · rw [regular]
    · rw [steps.stepCount] at two
      rw [two]
      split
      · rfl
      · split
        · rename_i first
          rw [Nat.lt_one_iff.mp first, Nat.zero_mul, Nat.zero_mul]
        · rfl
  · have rightSingle : ¬2 ≤ (right.plan txAmount).stepCount :=
      mt same.several.mpr several
    rw [vestedAt_single leftAccepted (by omega) leftStarted,
      vestedAt_single rightAccepted (by omega) rightStarted,
      same.single (by omega), same.preVestedAmount]

end VestingParameters

/-! ## Accepted data -/

/-- Vesting contract creation data that is accepted for a sender and an
amount, with the memory it is in. -/
structure AcceptedVestingData (sender : Bytes 20) (txAmount : UInt64) where
  device : Device
  version : TransactionVersion
  memory : List UInt8
  data : Slice
  bytes : List UInt8
  senderPointer : Pointer
  senderType : UInt8
  parsed : TxDataVestingCreation
  covers : Covers memory data bytes
  senderCovers : Covers memory ⟨senderPointer, 20⟩ sender.val
  accepted : parseVestingCreationData device version memory data
    senderPointer senderType txAmount = .ok parsed

/-- The parameters of accepted data, and the plan that is shown. -/
theorem AcceptedVestingData.inversion
    (bounded : txAmount ≤ maxSafeLunaAmount)
    (created : AcceptedVestingData sender txAmount) :
    ∃ vesting : VestingData, created.bytes = vesting.encode ∧
      created.parsed = vesting.shown sender txAmount ∧
      ((vesting.parameters txAmount).Immediate ∨
        (vesting.parameters txAmount).Bounded) := by
  obtain ⟨device, version, memory, data, bytes, pointer, type, parsed, covers,
    senderCovers, accepted⟩ := created
  obtain ⟨rfl, vesting, rfl, ownable, payable⟩ :=
    VestingData.parse_inversion covers senderCovers accepted
  have shown :=
    vesting.parse_eq device covers senderCovers ownable bounded payable
  rw [accepted] at shown
  cases shown
  exact ⟨vesting, rfl, rfl, payable.imp id And.right⟩

/-- A parsed transaction creates the contract of parsed data. -/
structure ParsedTx.Creates (parsed : ParsedTx)
    (vesting : TxDataVestingCreation) (txAmount : UInt64) : Prop where
  typeSpecific : parsed.typeSpecific = .vestingCreationTx vesting
  transactionType : parsed.transactionType = .vestingCreation
  value : parsed.value = amountWithTicker txAmount.toNat

/-- The transactions that are parsed as such creations are such. -/
theorem AcceptedTransaction.creates
    {accepted : AcceptedTransaction version}
    (device : Device)
    (content : accepted.content = .vestingCreation vesting) :
    (accepted.shown device).Creates
      (vesting.shown accepted.tx.sender accepted.tx.value)
      accepted.tx.value := by
  unfold AcceptedTransaction.shown
  rw [content]
  exact ⟨rfl, rfl, rfl⟩

/-- A user interface reviews a transaction with accepted data, with any fee
and network, with some entries. -/
def AcceptedVestingData.ReviewedWith
    (created : AcceptedVestingData sender txAmount) (ui : UserInterface)
    (entries : List Entry) : Prop :=
  ∃ parsed heading, parsed.Creates created.parsed txAmount ∧
    ui.Reviews parsed heading entries

/-- The entries of a review are those of the contract, with those that all
transactions have around them. -/
theorem UserInterface.reviews_creates
    {ui : UserInterface}
    (creates : parsed.Creates vesting txAmount)
    (review : ui.Reviews parsed heading entries) :
    entries = parsed.surround vesting.entries := by
  cases ui with
  | bagl =>
      unfold Reviews Bagl.uiTransactionSigning Bagl.transactionFlow at review
      rw [creates.transactionType] at review
      simp only at review
      rw [Bagl.vestingCreationFlow_eq _ creates.typeSpecific,
        Except.ok.injEq] at review
      exact (reviewScreens_injective review).2.symm
  | nbgl =>
      obtain ⟨_, _, started⟩ := review
      unfold Nbgl.uiTransactionSigning Nbgl.prepareReviewEntries at started
      rw [creates.transactionType] at started
      cases started

/-- The entries leave fee and network alone, and none is an amount. -/
theorem TxDataVestingCreation.entries_unlabelled
    (tx : TxDataVestingCreation) :
    Unlabelled tx.entries ∧ valuesOf (ascii "Amount") tx.entries = [] := by
  refine ⟨⟨?_, ?_⟩, ?_⟩ <;>
    simp +decide only [entries, valuesOf_append, valuesOf_optionalEntry,
      if_false, List.append_nil]

/-- Reviews with the same entries are about the same amount, and show the same
of the contracts. -/
theorem AcceptedVestingData.entries_of_reviews
    {created : AcceptedVestingData sender txAmount}
    {other : AcceptedVestingData sender otherAmount}
    (review : created.ReviewedWith ui entries)
    (otherReview : other.ReviewedWith ui entries) :
    otherAmount = txAmount ∧ other.parsed.entries = created.parsed.entries := by
  obtain ⟨parsed, _, creates, reviewed⟩ := review
  obtain ⟨otherParsed, _, otherCreates, otherReviewed⟩ := otherReview
  have equal := (UserInterface.reviews_creates otherCreates
    otherReviewed).symm.trans (UserInterface.reviews_creates creates reviewed)
  obtain ⟨unlabelled, none⟩ := created.parsed.entries_unlabelled
  obtain ⟨otherUnlabelled, otherNone⟩ := other.parsed.entries_unlabelled
  obtain ⟨values, _, _, middles⟩ := surround_injective otherUnlabelled
    unlabelled (by rw [none, otherNone]) equal
  rw [creates.value, otherCreates.value] at values
  exact ⟨UInt64.toNat_inj.mp (amountWithTicker_injective values), middles⟩

/-- Two contracts agree in what their reviews are about: their owners, the
values of their plans and the funds that are vested at each block. -/
structure VestingData.SameContract (left right : VestingData)
    (txAmount : UInt64) : Prop where
  ownerAddress : left.ownerAddress = right.ownerAddress
  plan : ((left.parameters txAmount).plan txAmount.toNat).SameReview
    ((right.parameters txAmount).plan txAmount.toNat)
  funds : ∀ height,
    (left.parameters txAmount).startBlock.toNat ≤ height →
    (right.parameters txAmount).startBlock.toNat ≤ height →
    (left.parameters txAmount).vestedAt txAmount.toNat height =
      (right.parameters txAmount).vestedAt txAmount.toNat height

/-- The values of accepted data describe the contract.  A review of it shows
them, but for what is implied, and no other contract of the same sender has a
review with the same entries. -/
theorem vestingReview_describes
    (bounded : txAmount ≤ maxSafeLunaAmount)
    (created : AcceptedVestingData sender txAmount) :
    ∃ (vesting : VestingData) (plan : VestingPlan),
      created.bytes = vesting.encode ∧
      created.parsed = plan.shown vesting.ownerAddress sender ∧
      plan.Describes (vesting.parameters txAmount) txAmount.toNat ∧
      ∀ ui entries, created.ReviewedWith ui entries →
        plan.ShownIn vesting.ownerAddress sender entries ∧
        ∀ otherAmount ≤ maxSafeLunaAmount,
        ∀ other : AcceptedVestingData sender otherAmount,
          other.ReviewedWith ui entries →
          otherAmount = txAmount ∧
          ∃ otherVesting : VestingData, other.bytes = otherVesting.encode ∧
            vesting.SameContract otherVesting txAmount := by
  obtain ⟨vesting, encoded, shown, accepted⟩ := created.inversion bounded
  refine ⟨vesting, _, encoded, shown,
    VestingParameters.describes txAmount.toNat accepted, ?_⟩
  intro ui entries review
  constructor
  · obtain ⟨parsed, _, creates, reviewed⟩ := review
    apply (VestingPlan.shownIn _ vesting.ownerAddress sender).mono
    intro entry member
    rw [UserInterface.reviews_creates creates reviewed, shown]
    exact List.mem_append_right _ (List.mem_append_left _ member)
  · intro otherAmount otherBounded other otherReview
    obtain ⟨otherVesting, otherEncoded, otherShown, otherAccepted⟩ :=
      other.inversion otherBounded
    obtain ⟨rfl, equal⟩ :=
      AcceptedVestingData.entries_of_reviews review otherReview
    rw [shown, otherShown] at equal
    have same := VestingPlan.sameReview_of_entries equal.symm
    refine ⟨rfl, otherVesting, otherEncoded,
      VestingPlan.owner_of_entries equal.symm, same, ?_⟩
    intro height started otherStarted
    exact VestingParameters.vestedAt_eq_of_sameReview accepted otherAccepted
      same started otherStarted

/-- A contract of 100 NIM in steps of 30 NIM each ten blocks, with 20 NIM more
locked than there are. -/
def steppedVesting : VestingData where
  ownerAddress := (unlockedVesting 0).ownerAddress
  terms := .full 1234 10 3000000 12000000

theorem steppedVesting_payable :
    (steppedVesting.parameters 10000000).Payable :=
  Or.inr ⟨by decide, by decide, by decide⟩

theorem steppedVesting_accepted :
    parseVestingCreationData ⟨0, fun _ => none⟩ .legacy
        (steppedVesting.encode ++ vestingSender.val)
        ⟨some 0, steppedVesting.encode.length⟩
        (some steppedVesting.encode.length) AccountType.basic.code 10000000 =
      .ok (steppedVesting.shown vestingSender 10000000) := by
  have accepted := steppedVesting.parse_inFront ⟨0, fun _ => none⟩
    vestingSender (fun _ => rfl)
    (by decide : (10000000 : UInt64) ≤ maxSafeLunaAmount)
    steppedVesting_payable
  exact accepted

/-- The contract is created. -/
def acceptedSteppedVesting :
    AcceptedVestingData vestingSender 10000000 where
  device := ⟨0, fun _ => none⟩
  version := .legacy
  memory := steppedVesting.encode ++ vestingSender.val
  data := ⟨some 0, steppedVesting.encode.length⟩
  bytes := steppedVesting.encode
  senderPointer := some steppedVesting.encode.length
  senderType := AccountType.basic.code
  parsed := steppedVesting.shown vestingSender 10000000
  covers := Covers.behind [] _ _
  senderCovers := by
    have covers := Covers.behind steppedVesting.encode
      (vestingSender.val) []
    rw [List.append_nil] at covers
    exact covers
  accepted := steppedVesting_accepted

/-- A legacy transaction that creates the contract. -/
def steppedCreation : AcceptedTransaction .legacy where
  tx := { sampleCreation AccountType.vesting.code steppedVesting.encode
      (by decide) with sender := vestingSender }
  network := .test
  content := .vestingCreation steppedVesting
  payable := by decide
  networkId_eq := rfl
  admitted := ⟨by decide, rfl, rfl, rfl, rfl, rfl, fun _ => rfl,
    steppedVesting_payable⟩

/-- The values of the contract describe it, and its review shows them. -/
theorem vestingReview_describes_stepped :
    ∃ (vesting : VestingData) (plan : VestingPlan),
      acceptedSteppedVesting.bytes = vesting.encode ∧
      acceptedSteppedVesting.parsed =
        plan.shown vesting.ownerAddress vestingSender ∧
      plan.Describes (vesting.parameters 10000000)
        (10000000 : UInt64).toNat ∧
      UserInterface.Reviews (steppedCreation.shown sampleDevice)
        (ascii "Vesting") (steppedCreation.entries sampleDevice) .bagl ∧
      plan.ShownIn vesting.ownerAddress vestingSender
        (steppedCreation.entries sampleDevice) := by
  have reviews : UserInterface.Reviews (steppedCreation.shown sampleDevice)
      (ascii "Vesting") (steppedCreation.entries sampleDevice) .bagl :=
    Bagl.uiTransactionSigning_eq sampleDevice steppedCreation
  obtain ⟨vesting, plan, encoded, shown, describes, reviewed⟩ :=
    vestingReview_describes (by decide) acceptedSteppedVesting
  have creates : (steppedCreation.shown sampleDevice).Creates
      acceptedSteppedVesting.parsed 10000000 :=
    steppedCreation.creates sampleDevice rfl
  exact ⟨vesting, plan, encoded, shown, describes, reviews,
    (reviewed .bagl _ ⟨_, _, creates, reviews⟩).1⟩

end NimiqApp
