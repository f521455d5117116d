import NimiqApp.Foundation.Exact
import NimiqApp.VestingCreation

/-!
# The arithmetic of vesting contracts

`exactVestingSchedule` is the computation of `parse_vesting_creation_data`
with each of its operations exact or without a result.  The comments of the
source rule out that one wraps, since the period was checked; this holds
unless no step vests anything.
-/

namespace NimiqApp

open Foundation

/-- The number of vesting steps. -/
def exactSteps (totalLockedAmount stepAmount : UInt64) : Option UInt64 := do
  let quotient ← Exact.div totalLockedAmount stepAmount
  let remainder ← Exact.mod totalLockedAmount stepAmount
  Exact.add quotient (if remainder ≠ 0 then 1 else 0)

/-- The steps that entirely vest virtual funds. -/
def exactExcessSteps (txAmount totalLockedAmount stepAmount : UInt64) :
    Option UInt64 := do
  let excess ← Exact.sub totalLockedAmount txAmount
  Exact.div excess stepAmount

/-- The number of steps that are counted. -/
def exactStepCount (txAmount totalLockedAmount stepAmount steps : UInt64) :
    Option UInt32 :=
  if totalLockedAmount ≤ txAmount then Exact.narrow steps
  else do
    let low ← Exact.narrow steps
    let excessSteps ← exactExcessSteps txAmount totalLockedAmount stepAmount
    let count ← Exact.sub low.toUInt64 excessSteps
    Exact.narrow count

/-- The blocks that have to pass for the first step. -/
def exactFirstStepBlockCount (txAmount totalLockedAmount stepAmount : UInt64)
    (stepBlockCount : UInt32) : Option UInt32 :=
  if txAmount < totalLockedAmount then do
    let excessSteps ← exactExcessSteps txAmount totalLockedAmount stepAmount
    let excessBlocks ← Exact.mul excessSteps stepBlockCount.toUInt64
    let count ← Exact.add stepBlockCount.toUInt64 excessBlocks
    Exact.narrow count
  else some stepBlockCount

/-- The funds the first step vests. -/
def exactFirstStepAmount (txAmount totalLockedAmount stepAmount : UInt64) :
    Option UInt64 :=
  if txAmount < totalLockedAmount then do
    let excess ← Exact.sub totalLockedAmount txAmount
    let remainder ← Exact.mod excess stepAmount
    Exact.sub stepAmount remainder
  else some stepAmount

/-- The funds the last step vests. -/
def exactLastStepAmount (totalLockedAmount stepAmount : UInt64) :
    Option UInt64 := do
  let remainder ← Exact.mod totalLockedAmount stepAmount
  some (if remainder ≠ 0 then remainder else stepAmount)

/-- The funds that are vested from the start. -/
def exactPreVestedAmount (txAmount totalLockedAmount : UInt64) :
    Option UInt64 :=
  if txAmount > totalLockedAmount then Exact.sub txAmount totalLockedAmount
  else some 0

/-- The schedule of steps and the block of the first one, behind the checks
of the steps and of the period. -/
def exactStepwiseSchedule (txAmount : UInt64)
    (parameters : VestingParameters) (steps period : UInt64) :
    Option (VestingSchedule × UInt32) := do
  let { startBlock, stepBlockCount, stepAmount, totalLockedAmount } :=
    parameters
  let stepCount ← exactStepCount txAmount totalLockedAmount stepAmount steps
  let period ← Exact.narrow period
  let lastStepAmount ← exactLastStepAmount totalLockedAmount stepAmount
  let preVestedAmount ← exactPreVestedAmount txAmount totalLockedAmount
  let firstStepBlockCount ← exactFirstStepBlockCount txAmount
    totalLockedAmount stepAmount stepBlockCount
  let firstStepAmount ←
    exactFirstStepAmount txAmount totalLockedAmount stepAmount
  let firstStepBlock ← Exact.add32 startBlock firstStepBlockCount
  some ({ startBlock, stepBlockCount, stepCount, period, firstStepBlockCount,
          stepAmount, firstStepAmount, lastStepAmount, preVestedAmount },
    firstStepBlock)

/-- The schedule and the block of its first step, where all of the arithmetic
is exact. -/
def exactVestingSchedule (txAmount : UInt64)
    (parameters : VestingParameters) :
    Option (Run ErrorCode (VestingSchedule × UInt32)) :=
  let { startBlock, stepBlockCount, stepAmount, totalLockedAmount } :=
    parameters
  if stepBlockCount = 0 ∨ stepAmount = 0 then do
    let firstStepBlock ← Exact.add32 0 0
    some (pure (immediateSchedule txAmount, firstStepBlock))
  else do
    let steps ← exactSteps totalLockedAmount stepAmount
    if steps > uint32Max then some (Run.fail .incorrectData)
    else do
      let period ← Exact.mul steps stepBlockCount.toUInt64
      let lastBlock ← Exact.add period startBlock.toUInt64
      if lastBlock > uint32Max then some (Run.fail .incorrectData)
      else do
        let exact ← exactStepwiseSchedule txAmount parameters steps period
        some (pure exact)

/-- The schedule and the block of its first step, as the code computes
them. -/
def vestingScheduleAndFirstBlock (txAmount : UInt64)
    (parameters : VestingParameters) :
    Run ErrorCode (VestingSchedule × UInt32) := do
  let schedule ← vestingSchedule txAmount parameters
  pure (schedule, schedule.startBlock + schedule.firstStepBlockCount)

namespace VestingParameters

/-- The arithmetic of the code is exact. -/
def ArithmeticExact (parameters : VestingParameters) (txAmount : UInt64) :
    Prop :=
  exactVestingSchedule txAmount parameters =
    some (vestingScheduleAndFirstBlock txAmount parameters)

/-- No step vests anything, as nothing is locked or the virtual funds end
with a step, and the block behind all steps is no possible block number. -/
def FirstBlockOverflows (parameters : VestingParameters)
    (txAmount : UInt64) : Prop :=
  ¬parameters.Immediate ∧
    (parameters.totalLockedAmount = 0 ∨
      (txAmount = 0 ∧ parameters.stepAmount.toNat ∣
        parameters.totalLockedAmount.toNat)) ∧
    uint32Max.toNat < parameters.startBlock.toNat +
      (1 + parameters.totalLockedAmount.toNat / parameters.stepAmount.toNat) *
        parameters.stepBlockCount.toNat

instance (parameters : VestingParameters) (txAmount : UInt64) :
    Decidable (parameters.FirstBlockOverflows txAmount) :=
  inferInstanceAs (Decidable (_ ∧ _))

end VestingParameters

section Parts

variable {txAmount total step : UInt64}

theorem exactSteps_eq (nonzero : step ≠ 0) :
    exactSteps total step = some (vestingSteps total step) := by
  have sum := toNat_vestingSteps total step
  have remainder : total % step ≠ 0 ↔ total.toNat % step.toNat ≠ 0 := by
    rw [ne_eq, ← UInt64.toNat_inj, UInt64.toNat_mod]
    rfl
  unfold exactSteps
  rw [Exact.div_eq nonzero, Exact.mod_eq nonzero]
  apply Exact.add_eq
  change (vestingSteps total step).toNat = _
  rw [sum, UInt64.toNat_div]
  by_cases exact : total.toNat % step.toNat = 0
  · rw [if_pos exact, if_neg (fun other => remainder.mp other exact)]
    rfl
  · rw [if_neg exact, if_pos (remainder.mpr exact)]
    rfl

theorem exactExcessSteps_eq
    (nonzero : step ≠ 0)
    (excess : txAmount < total) :
    exactExcessSteps txAmount total step =
      some ((total - txAmount) / step) := by
  unfold exactExcessSteps
  rw [Exact.sub_eq (UInt64.le_of_lt excess)]
  exact Exact.div_eq nonzero

/-- The steps of virtual funds are among all steps. -/
theorem excessSteps_le
    (txAmount total step : UInt64)
    (excess : txAmount < total) :
    ((total - txAmount) / step).toNat ≤ (vestingSteps total step).toNat := by
  rw [toNat_vestingSteps, UInt64.toNat_div, toNat_excess excess]
  exact Nat.le_trans (Nat.div_le_div_right (Nat.sub_le _ _))
    (Nat.le_add_right _ _)

theorem exactStepCount_eq
    (nonzero : step ≠ 0)
    (fits : (vestingSteps total step).toNat ≤ uint32Max.toNat) :
    exactStepCount txAmount total step (vestingSteps total step) =
      some (if total ≤ txAmount then (vestingSteps total step).toUInt32
        else ((vestingSteps total step).toUInt32.toUInt64 -
          (total - txAmount) / step).toUInt32) := by
  have limit : uint32Max.toNat = 4294967295 := rfl
  have narrow : Exact.narrow (vestingSteps total step) =
      some (vestingSteps total step).toUInt32 := Exact.narrow_eq (by omega)
  unfold exactStepCount
  by_cases locked : total ≤ txAmount
  · rw [if_pos locked, if_pos locked, narrow]
  · have excess := UInt64.not_le.mp locked
    have fewer := excessSteps_le txAmount total step excess
    have wide : (vestingSteps total step).toUInt32.toUInt64.toNat =
        (vestingSteps total step).toNat := by
      rw [UInt32.toNat_toUInt64, UInt64.toNat_toUInt32]
      omega
    have ordered : (total - txAmount) / step ≤
        (vestingSteps total step).toUInt32.toUInt64 := by
      rw [UInt64.le_iff_toNat_le, wide]
      exact fewer
    have difference := UInt64.toNat_sub_of_le _ _ ordered
    rw [if_neg locked, if_neg locked, narrow,
      exactExcessSteps_eq nonzero excess]
    simp only [Option.bind_eq_bind, Option.bind_some, Exact.sub_eq ordered]
    apply Exact.narrow_eq
    rw [difference, wide]
    omega

theorem exactFirstStepAmount_eq (nonzero : step ≠ 0) :
    exactFirstStepAmount txAmount total step =
      some (if txAmount < total then step - (total - txAmount) % step
        else step) := by
  have positive : 0 < step.toNat :=
    Nat.pos_of_ne_zero fun zero => nonzero (UInt64.toNat_inj.mp zero)
  unfold exactFirstStepAmount
  by_cases excess : txAmount < total
  · have ordered : (total - txAmount) % step ≤ step := by
      rw [UInt64.le_iff_toNat_le, UInt64.toNat_mod]
      exact Nat.le_of_lt (Nat.mod_lt _ positive)
    rw [if_pos excess, if_pos excess, Exact.sub_eq (UInt64.le_of_lt excess)]
    simp only [Option.bind_eq_bind, Option.bind_some, Exact.mod_eq nonzero]
    exact Exact.sub_eq ordered
  · rw [if_neg excess, if_neg excess]

theorem exactLastStepAmount_eq (nonzero : step ≠ 0) :
    exactLastStepAmount total step =
      some (if total % step ≠ 0 then total % step else step) := by
  unfold exactLastStepAmount
  rw [Exact.mod_eq nonzero]
  rfl

theorem exactPreVestedAmount_eq :
    exactPreVestedAmount txAmount total =
      some (if txAmount > total then txAmount - total else 0) := by
  unfold exactPreVestedAmount
  by_cases preVested : txAmount > total
  · rw [if_pos preVested, if_pos preVested,
      Exact.sub_eq (UInt64.le_of_lt preVested)]
  · rw [if_neg preVested, if_neg preVested]

/-- The blocks until the first step are exact when they fit into a word. -/
theorem exactFirstStepBlockCount_eq
    {blocks : UInt32}
    (nonzero : step ≠ 0)
    (fits : (vestingSteps total step).toNat ≤ uint32Max.toNat) :
    exactFirstStepBlockCount txAmount total step blocks =
      if blocks.toNat + (total.toNat - txAmount.toNat) / step.toNat *
          blocks.toNat < 2 ^ 32 then
        some (if txAmount < total then
            (blocks.toUInt64 +
              (total - txAmount) / step * blocks.toUInt64).toUInt32
          else blocks)
      else none := by
  have limit : uint32Max.toNat = 4294967295 := rfl
  have blocksLt := blocks.toNat_lt
  unfold exactFirstStepBlockCount
  by_cases excess : txAmount < total
  · have fewer := excessSteps_le txAmount total step excess
    have steps : ((total - txAmount) / step).toNat =
        (total.toNat - txAmount.toNat) / step.toNat := by
      rw [UInt64.toNat_div, toNat_excess excess]
    have small : ((total - txAmount) / step).toNat * blocks.toNat ≤
        4294967295 * 4294967295 :=
      Nat.mul_le_mul (by omega) (by omega)
    have product : ((total - txAmount) / step * blocks.toUInt64).toNat =
        ((total - txAmount) / step).toNat * blocks.toUInt64.toNat := by
      rw [UInt64.toNat_mul, UInt32.toNat_toUInt64]
      exact Nat.mod_eq_of_lt (by omega)
    have sum : (blocks.toUInt64 +
          (total - txAmount) / step * blocks.toUInt64).toNat =
        blocks.toUInt64.toNat +
          ((total - txAmount) / step * blocks.toUInt64).toNat := by
      rw [UInt64.toNat_add, product, UInt32.toNat_toUInt64]
      exact Nat.mod_eq_of_lt (by omega)
    rw [if_pos excess, if_pos excess, exactExcessSteps_eq nonzero excess]
    simp only [Option.bind_eq_bind, Option.bind_some, Exact.mul_eq product,
      Exact.add_eq sum]
    rw [← steps]
    rw [product, UInt32.toNat_toUInt64] at sum
    split
    · rename_i narrow
      exact Exact.narrow_eq (sum ▸ narrow)
    · rename_i large
      exact Exact.narrow_eq_none (sum ▸ large)
  · rw [if_neg excess, if_neg excess, excess_of_not excess, Nat.zero_div,
      Nat.zero_mul, Nat.add_zero, if_pos blocksLt]

end Parts

namespace VestingParameters

variable {parameters : VestingParameters} {txAmount : UInt64}

/-- The first block at which funds vest, if there is one. -/
def firstBlock (parameters : VestingParameters) (txAmount : UInt64) : Nat :=
  parameters.startBlock.toNat + (parameters.stepBlockCount.toNat +
    (parameters.totalLockedAmount.toNat - txAmount.toNat) /
      parameters.stepAmount.toNat * parameters.stepBlockCount.toNat)

/-- The stepwise schedule is exact if its first block is a word. -/
theorem exactStepwiseSchedule_eq
    (txAmount : UInt64)
    (notImmediate : ¬parameters.Immediate)
    (bounded : parameters.Bounded) :
    exactStepwiseSchedule txAmount parameters
        (vestingSteps parameters.totalLockedAmount parameters.stepAmount)
        (vestingSteps parameters.totalLockedAmount parameters.stepAmount *
          parameters.stepBlockCount.toUInt64) =
      if parameters.firstBlock txAmount < 2 ^ 32 then
        some (stepwiseSchedule txAmount parameters,
          (stepwiseSchedule txAmount parameters).startBlock +
            (stepwiseSchedule txAmount parameters).firstStepBlockCount)
      else none := by
  have limit : uint32Max.toNat = 4294967295 := rfl
  have nonzero : parameters.stepAmount ≠ 0 := fun zero =>
    notImmediate (Or.inr zero)
  obtain ⟨stepsFit, lastFits⟩ := bounded
  rw [← parameters.toNat_vestingSteps_eq] at stepsFit lastFits
  have period := (toNat_period parameters.startBlock
    parameters.stepBlockCount _ stepsFit).1
  have blockCount := toNat_firstStepBlockCount txAmount
    parameters.totalLockedAmount parameters.stepAmount
    parameters.stepBlockCount
  unfold exactStepwiseSchedule
  simp only [Option.bind_eq_bind, Option.bind_some,
    exactStepCount_eq nonzero stepsFit,
    exactFirstStepAmount_eq nonzero, exactLastStepAmount_eq nonzero,
    exactPreVestedAmount_eq, exactFirstStepBlockCount_eq nonzero stepsFit]
  rw [Exact.narrow_eq (by omega), Option.bind_some]
  unfold firstBlock
  by_cases narrow : parameters.stepBlockCount.toNat +
      (parameters.totalLockedAmount.toNat - txAmount.toNat) /
        parameters.stepAmount.toNat * parameters.stepBlockCount.toNat <
      2 ^ 32
  · rw [Nat.mod_eq_of_lt narrow] at blockCount
    rw [if_pos narrow, Option.bind_some, ← blockCount]
    by_cases fits : parameters.startBlock.toNat +
        (if txAmount < parameters.totalLockedAmount then
          (parameters.stepBlockCount.toUInt64 +
            (parameters.totalLockedAmount - txAmount) /
              parameters.stepAmount *
                parameters.stepBlockCount.toUInt64).toUInt32
        else parameters.stepBlockCount).toNat < 2 ^ 32
    · rw [if_pos fits, Exact.add32_eq fits, Option.bind_some]
      rfl
    · rw [if_neg fits, Exact.add32_eq_none fits, Option.bind_none]
  · rw [if_neg narrow, Option.bind_none, if_neg (by omega)]

/-- Whatever vests at once is exact. -/
theorem arithmeticExact_of_immediate
    (immediate : parameters.Immediate) :
    parameters.ArithmeticExact txAmount := by
  have cases : parameters.stepBlockCount = 0 ∨ parameters.stepAmount = 0 :=
    immediate
  unfold ArithmeticExact exactVestingSchedule vestingScheduleAndFirstBlock
    vestingSchedule
  simp only [if_pos cases]
  rfl

/-- The arithmetic is exact if the first block is a word. -/
theorem arithmeticExact_iff_firstBlock
    (notImmediate : ¬parameters.Immediate)
    (bounded : parameters.Bounded) :
    parameters.ArithmeticExact txAmount ↔
      parameters.firstBlock txAmount < 2 ^ 32 := by
  have nonzero : parameters.stepAmount ≠ 0 := fun zero =>
    notImmediate (Or.inr zero)
  have stepwise := exactStepwiseSchedule_eq txAmount notImmediate bounded
  have cases : ¬(parameters.stepBlockCount = 0 ∨
      parameters.stepAmount = 0) := notImmediate
  obtain ⟨stepsFit, lastFits⟩ := bounded
  rw [← parameters.toNat_vestingSteps_eq] at stepsFit lastFits
  obtain ⟨period, lastBlock⟩ := toNat_period parameters.startBlock
    parameters.stepBlockCount _ stepsFit
  have few : ¬vestingSteps parameters.totalLockedAmount
      parameters.stepAmount > uint32Max := by
    rw [gt_iff_lt, UInt64.lt_iff_toNat_lt]
    omega
  have early : ¬vestingSteps parameters.totalLockedAmount
        parameters.stepAmount * parameters.stepBlockCount.toUInt64 +
      parameters.startBlock.toUInt64 > uint32Max := by
    rw [gt_iff_lt, UInt64.lt_iff_toNat_lt, lastBlock]
    omega
  unfold ArithmeticExact exactVestingSchedule vestingScheduleAndFirstBlock
    vestingSchedule
  simp only [if_neg cases, exactSteps_eq nonzero, Option.bind_eq_bind,
    Option.bind_some, if_neg few, Run.returnOn_of_not few, Run.bind_ok]
  rw [Exact.mul_eq (by rw [period, UInt32.toNat_toUInt64]),
    Option.bind_some, Exact.add_eq (by
      rw [lastBlock, period, UInt32.toNat_toUInt64]), Option.bind_some,
    if_neg early, Run.returnOn_of_not early, stepwise]
  by_cases fits : parameters.firstBlock txAmount < 2 ^ 32
  · rw [if_pos fits]
    exact iff_of_true rfl fits
  · rw [if_neg fits]
    exact iff_of_false (fun equal => by cases equal) fits

/-- The first step that vests anything is one of the steps. -/
theorem excessSteps_lt_steps
    (vests : ¬(total = 0 ∨ (amount = 0 ∧ step ∣ total))) :
    (total - amount) / step + 1 ≤
      total / step + if total % step = 0 then 0 else 1 := by
  by_cases divides : total % step = 0
  · have hasAmount : amount ≠ 0 := fun none =>
      vests (Or.inr ⟨none, Nat.dvd_of_mod_eq_zero divides⟩)
    have hasTotal : total ≠ 0 := fun none => vests (Or.inl none)
    have whole : step * (total / step) = total :=
      Nat.mul_div_cancel' (Nat.dvd_of_mod_eq_zero divides)
    have fewer : (total - amount) / step < total / step := by
      apply Nat.div_lt_of_lt_mul
      omega
    rw [if_pos divides]
    omega
  · have fewer : (total - amount) / step ≤ total / step :=
      Nat.div_le_div_right (Nat.sub_le _ _)
    rw [if_neg divides]
    omega

/-- Among accepted parameters, the first block is no word only if no step
vests anything. -/
theorem firstBlock_lt_iff
    (notImmediate : ¬parameters.Immediate)
    (bounded : parameters.Bounded) :
    parameters.firstBlock txAmount < 2 ^ 32 ↔
      ¬parameters.FirstBlockOverflows txAmount := by
  have limit : uint32Max.toNat = 4294967295 := rfl
  have lastFits := bounded.2
  have noTotal : parameters.totalLockedAmount = 0 ↔
      parameters.totalLockedAmount.toNat = 0 := UInt64.toNat_inj.symm
  have noAmount : txAmount = 0 ↔ txAmount.toNat = 0 := UInt64.toNat_inj.symm
  unfold FirstBlockOverflows firstBlock
  rw [noTotal, noAmount, limit]
  rw [limit] at lastFits
  unfold steps at lastFits
  by_cases vests : parameters.totalLockedAmount.toNat = 0 ∨
      (txAmount.toNat = 0 ∧ parameters.stepAmount.toNat ∣
        parameters.totalLockedAmount.toNat)
  · have excess : parameters.totalLockedAmount.toNat - txAmount.toNat =
        parameters.totalLockedAmount.toNat := by omega
    rw [excess, Nat.add_mul, Nat.one_mul]
    constructor
    · rintro fits ⟨_, _, overflows⟩
      omega
    · intro fits
      by_contra large
      exact fits ⟨notImmediate, vests, by omega⟩
  · have product := Nat.mul_le_mul_right parameters.stepBlockCount.toNat
      (excessSteps_lt_steps vests)
    rw [Nat.add_mul _ 1, Nat.one_mul] at product
    constructor
    · rintro _ ⟨_, none, _⟩
      exact vests none
    · intro _
      omega

/-- The arithmetic of accepted parameters is exact unless the first block
overflows. -/
theorem arithmeticExact_iff
    (txAmount : UInt64)
    (accepted : Immediate parameters ∨ Bounded parameters) :
    parameters.ArithmeticExact txAmount ↔
      ¬parameters.FirstBlockOverflows txAmount := by
  by_cases immediate : parameters.Immediate
  · exact iff_of_true (arithmeticExact_of_immediate immediate)
      (fun overflows => overflows.1 immediate)
  · have bounded := accepted.resolve_left immediate
    rw [arithmeticExact_iff_firstBlock immediate bounded,
      firstBlock_lt_iff immediate bounded]

end VestingParameters

/-- The parameters in vesting contract creation data. -/
def specifiedVestingParameters (memory : List UInt8) (data : Slice)
    (txAmount : UInt64) : Run ErrorCode VestingParameters := do
  let (_, data) ← Run.orReturn .read (readSubBuffer 20 data)
  let (parameters, _) ← readVestingParameters memory data txAmount
  pure parameters

/-- Data that is accepted specifies parameters with a schedule. -/
theorem specifiedVestingParameters_eq
    (accepted : parseVestingCreationData device version memory data sender
      senderType txAmount = .ok parsed) :
    ∃ parameters schedule,
      specifiedVestingParameters memory data txAmount = .ok parameters ∧
        vestingSchedule txAmount parameters = .ok schedule ∧
        parsed.firstStepBlock = cString (snprintf stringLengthUint32
          (printUnsigned
            (schedule.startBlock + schedule.firstStepBlockCount).toNat)) := by
  unfold parseVestingCreationData at accepted
  obtain ⟨_, _, accepted⟩ := Run.bind_eq_ok.mp accepted
  obtain ⟨⟨owner, rest⟩, readOwner, accepted⟩ := Run.bind_eq_ok.mp accepted
  obtain ⟨_, _, accepted⟩ := Run.bind_eq_ok.mp accepted
  obtain ⟨_, _, accepted⟩ := Run.bind_eq_ok.mp accepted
  obtain ⟨_, _, accepted⟩ := Run.bind_eq_ok.mp accepted
  obtain ⟨_, _, accepted⟩ := Run.bind_eq_ok.mp accepted
  obtain ⟨⟨parameters, last⟩, readParameters, accepted⟩ :=
    Run.bind_eq_ok.mp accepted
  obtain ⟨_, _, accepted⟩ := Run.bind_eq_ok.mp accepted
  obtain ⟨schedule, scheduleEq, accepted⟩ := Run.bind_eq_ok.mp accepted
  obtain ⟨_, _, accepted⟩ := Run.bind_eq_ok.mp accepted
  obtain ⟨_, _, accepted⟩ := Run.bind_eq_ok.mp accepted
  obtain ⟨_, _, accepted⟩ := Run.bind_eq_ok.mp accepted
  obtain ⟨_, _, accepted⟩ := Run.bind_eq_ok.mp accepted
  cases accepted
  refine ⟨parameters, schedule, ?_, scheduleEq, rfl⟩
  unfold specifiedVestingParameters
  simp only [readOwner, Run.bind_ok, readParameters]
  rfl

/-- Everything is computed exactly, and so is the block that is printed. -/
structure VestingComputedExactly (txAmount : UInt64)
    (parameters : VestingParameters) (parsed : TxDataVestingCreation) :
    Prop where
  arithmetic : parameters.ArithmeticExact txAmount
  firstStepBlock : ∃ schedule,
    vestingSchedule txAmount parameters = .ok schedule ∧
      schedule.startBlock.toNat + schedule.firstStepBlockCount.toNat <
        2 ^ 32 ∧
      parsed.firstStepBlock = printUnsigned
        (schedule.startBlock.toNat + schedule.firstStepBlockCount.toNat)

/-- The first block of a schedule, unless it overflows. -/
theorem VestingParameters.toNat_firstBlock
    {parameters : VestingParameters}
    (result : vestingSchedule txAmount parameters = .ok schedule)
    (fits : ¬parameters.FirstBlockOverflows txAmount) :
    schedule.startBlock.toNat + schedule.firstStepBlockCount.toNat <
      2 ^ 32 := by
  have accepted := vestingSchedule_inversion result
  by_cases immediate : parameters.Immediate
  · have cases : parameters.stepBlockCount = 0 ∨ parameters.stepAmount = 0 :=
      immediate
    unfold vestingSchedule at result
    rw [if_pos cases] at result
    cases result
    exact Nat.two_pow_pos 32
  · have bounded := accepted.resolve_left immediate
    have small := (firstBlock_lt_iff immediate bounded).mpr fits
    obtain ⟨other, otherEq, planEq⟩ :=
      vestingSchedule_accept txAmount (Or.inr bounded)
    rw [result] at otherEq
    cases otherEq
    have start := congrArg VestingPlan.startBlock planEq
    have count := congrArg VestingPlan.firstStepBlockCount planEq
    unfold plan at start count
    rw [if_neg immediate] at start count
    change schedule.startBlock.toNat = _ at start
    change schedule.firstStepBlockCount.toNat = _ % 2 ^ 32 at count
    unfold firstBlock at small
    rw [start, count, Nat.mod_eq_of_lt (by omega)]
    exact small

/-- Accepted data is computed exactly unless the first block overflows. -/
theorem vestingCreation_computedExactly_iff
    (accepted : parseVestingCreationData device version memory data sender
      senderType txAmount = .ok parsed) :
    ∃ parameters,
      specifiedVestingParameters memory data txAmount = .ok parameters ∧
        (VestingComputedExactly txAmount parameters parsed ↔
          ¬parameters.FirstBlockOverflows txAmount) := by
  obtain ⟨parameters, schedule, specified, scheduleEq, firstStepBlock⟩ :=
    specifiedVestingParameters_eq accepted
  have arithmetic := VestingParameters.arithmeticExact_iff txAmount
    (VestingParameters.vestingSchedule_inversion scheduleEq)
  refine ⟨parameters, specified, ?_, ?_⟩
  · intro exact
    exact arithmetic.mp exact.arithmetic
  · intro fits
    have small := VestingParameters.toNat_firstBlock scheduleEq fits
    refine ⟨arithmetic.mpr fits, schedule, scheduleEq, small, ?_⟩
    rw [firstStepBlock, cString_printUint32, UInt32.toNat_add,
      Nat.mod_eq_of_lt small]

/-- Data in front of the sender of the funds. -/
theorem VestingData.parse_inFront
    (device : Device)
    (vesting : VestingData)
    (sender : Bytes 20)
    (ownable : vesting.Ownable sender senderType)
    (bounded : txAmount ≤ maxSafeLunaAmount)
    (payable : (vesting.parameters txAmount).Payable) :
    parseVestingCreationData device .legacy (vesting.encode ++ sender.val)
        ⟨some 0, vesting.encode.length⟩ (some vesting.encode.length)
        senderType txAmount =
      .ok (vesting.shown sender txAmount) := by
  have data := Covers.behind [] vesting.encode sender.val
  have behind := Covers.behind vesting.encode sender.val []
  rw [List.nil_append] at data
  rw [List.append_nil, sender.property] at behind
  exact vesting.parse_eq device data behind ownable bounded payable

/-- The data of a contract of which nothing is locked. -/
def unlockedVesting (startBlock : UInt32) : VestingData where
  ownerAddress := ⟨List.replicate 20 2, rfl⟩
  terms := .full startBlock 1 1 0

/-- The sender of the funds of a sample contract. -/
def vestingSender : Bytes 20 :=
  ⟨List.replicate 20 1, rfl⟩

/-- The data in front of the sender of the funds. -/
def unlockedVestingMemory (startBlock : UInt32) : List UInt8 :=
  (unlockedVesting startBlock).encode ++ vestingSender.val

/-- How the contract is shown when it is created with 100 NIM. -/
def shownUnlockedVesting (startBlock : UInt32) : TxDataVestingCreation :=
  (unlockedVesting startBlock).shown vestingSender 10000000

/-- The contract can start with every block. -/
theorem unlockedVesting_accepted (startBlock : UInt32) :
    parseVestingCreationData ⟨0, fun _ => none⟩ .legacy
        (unlockedVestingMemory startBlock) ⟨some 0, 44⟩ (some 44)
        AccountType.basic.code 10000000 =
      .ok (shownUnlockedVesting startBlock) := by
  have size : (unlockedVesting startBlock).encode.length = 44 := by
    simp [VestingData.encode, unlockedVesting, VestingTerms.encode]
  have accepted := (unlockedVesting startBlock).parse_inFront
    ⟨0, fun _ => none⟩ vestingSender (fun _ => rfl)
    (by decide : (10000000 : UInt64) ≤ maxSafeLunaAmount)
  rw [size] at accepted
  apply accepted
  have bound := startBlock.toNat_lt
  have steps : ((unlockedVesting startBlock).parameters 10000000).steps =
      0 := by
    simp [VestingParameters.steps, VestingData.parameters,
      VestingTerms.parameters, unlockedVesting]
  have limit : uint32Max.toNat = 4294967295 := rfl
  refine Or.inr ⟨(by decide : (1 : UInt64) ≤ maxSafeLunaAmount), ?_, ?_⟩
  · rw [steps]
    exact Nat.zero_le _
  · rw [steps, limit, Nat.zero_mul, Nat.zero_add]
    exact Nat.le_of_lt_succ bound

/-- A contract that starts with block 100 is computed exactly. -/
theorem unlockedVesting_computedExactly :
    ∃ parameters,
      specifiedVestingParameters (unlockedVestingMemory 100) ⟨some 0, 44⟩
          10000000 = .ok parameters ∧
        (VestingComputedExactly 10000000 parameters
            (shownUnlockedVesting 100) ↔
          ¬parameters.FirstBlockOverflows 10000000) :=
  vestingCreation_computedExactly_iff (unlockedVesting_accepted 100)

/-- A contract that starts with the last possible block is accepted, and is
shown to vest with block 0. -/
theorem unlockedVesting_overflows :
    parseVestingCreationData ⟨0, fun _ => none⟩ .legacy
        (unlockedVestingMemory 4294967295) ⟨some 0, 44⟩ (some 44)
        AccountType.basic.code 10000000 =
      .ok (shownUnlockedVesting 4294967295) ∧
    specifiedVestingParameters (unlockedVestingMemory 4294967295)
        ⟨some 0, 44⟩ 10000000 = .ok ⟨4294967295, 1, 1, 0⟩ ∧
    ¬VestingComputedExactly 10000000 ⟨4294967295, 1, 1, 0⟩
      (shownUnlockedVesting 4294967295) ∧
    (shownUnlockedVesting 4294967295).firstStepBlock = ascii "0" := by
  refine ⟨unlockedVesting_accepted _, rfl, ?_, ?_⟩
  · intro exact
    obtain ⟨schedule, scheduleEq, small, _⟩ := exact.firstStepBlock
    have computed : vestingSchedule 10000000 ⟨4294967295, 1, 1, 0⟩ =
        .ok (stepwiseSchedule 10000000 ⟨4294967295, 1, 1, 0⟩) := rfl
    rw [computed] at scheduleEq
    cases scheduleEq
    revert small
    decide
  · exact printUnsigned_of_lt (show 0 < 10 by decide)

end NimiqApp
