import NimiqApp.Amount
import NimiqApp.HtlcCreation

/-!
# Vesting contract creation data

`parse_vesting_creation_data` reads the parameters of a vesting contract and
translates them into the schedule it shows.  The schedule is computed with
machine words; `VestingPlan` is the same schedule in natural numbers.
-/

namespace NimiqApp

/-- `tx_data_vesting_creation_t`. -/
structure TxDataVestingCreation where
  isOwnerAddressSenderAddress : Bool
  isMultiStep : Bool
  ownerAddress : CString
  startBlock : CString
  period : CString
  stepCount : CString
  stepBlockCount : CString
  firstStepBlockCount : CString
  firstStepBlock : CString
  stepAmount : CString
  firstStepAmount : CString
  lastStepAmount : CString
  preVestedAmount : CString
  deriving DecidableEq, Repr

/-- The vesting parameters with the defaults of those not specified. -/
structure VestingParameters where
  startBlock : UInt32
  stepBlockCount : UInt32
  stepAmount : UInt64
  totalLockedAmount : UInt64
  deriving DecidableEq, Repr

/-- The values the parameters are translated into. -/
structure VestingSchedule where
  startBlock : UInt32
  stepBlockCount : UInt32
  stepCount : UInt32
  period : UInt32
  firstStepBlockCount : UInt32
  stepAmount : UInt64
  firstStepAmount : UInt64
  lastStepAmount : UInt64
  preVestedAmount : UInt64
  deriving DecidableEq, Repr

/-- `UINT32_MAX`. -/
def uint32Max : UInt64 := 4294967295

/-- `sizeof("4294967295 blocks")`. -/
def stringLengthBlocks : Nat := 18

/-- Format `%u block%c`, without an `s` for one block. -/
def printBlocks (count : Nat) : CString :=
  cString (snprintf stringLengthBlocks
    (printUnsigned count ++ ascii " block" ++ [if count ≠ 1 then 115 else 0]))

/-- Read the parameters that are specified. -/
def readVestingParameters (memory : List UInt8) (data : Slice)
    (txAmount : UInt64) : Run ErrorCode (VestingParameters × Slice) :=
  if data.length = 4 then do
    let (stepBlockCount, data) ← Run.orReturn .read (readU32 memory data)
    pure (⟨0, stepBlockCount, txAmount, txAmount⟩, data)
  else do
    let (startBlock, data) ← Run.orReturn .read (readU32 memory data)
    let (stepBlockCount, data) ← Run.orReturn .read (readU32 memory data)
    let (stepAmount, data) ← Run.orReturn .read (readU64 memory data)
    if data.length = 8 then
      let (totalLockedAmount, data) ← Run.orReturn .read (readU64 memory data)
      pure (⟨startBlock, stepBlockCount, stepAmount, totalLockedAmount⟩, data)
    else
      pure (⟨startBlock, stepBlockCount, stepAmount, txAmount⟩, data)

/-- The number of vesting steps, rounded up. -/
def vestingSteps (totalLockedAmount stepAmount : UInt64) : UInt64 :=
  totalLockedAmount / stepAmount +
    (if totalLockedAmount % stepAmount ≠ 0 then 1 else 0)

/-- All funds are vested immediately, whatever the other parameters. -/
def immediateSchedule (txAmount : UInt64) : VestingSchedule where
  startBlock := 0
  stepBlockCount := 0
  stepCount := 0
  period := 0
  firstStepBlockCount := 0
  stepAmount := txAmount
  firstStepAmount := txAmount
  lastStepAmount := txAmount
  preVestedAmount := txAmount

/-- The values computed in the normal case. -/
def stepwiseSchedule (txAmount : UInt64) (parameters : VestingParameters) :
    VestingSchedule :=
  let { startBlock, stepBlockCount, stepAmount, totalLockedAmount } :=
    parameters
  let steps := vestingSteps totalLockedAmount stepAmount
  { startBlock
    stepBlockCount
    stepCount :=
      if totalLockedAmount ≤ txAmount then steps.toUInt32
      else
        (steps.toUInt32.toUInt64 -
          (totalLockedAmount - txAmount) / stepAmount).toUInt32
    period := (steps * stepBlockCount.toUInt64).toUInt32
    firstStepBlockCount :=
      if txAmount < totalLockedAmount then
        (stepBlockCount.toUInt64 +
          (totalLockedAmount - txAmount) / stepAmount *
            stepBlockCount.toUInt64).toUInt32
      else stepBlockCount
    stepAmount
    firstStepAmount :=
      if txAmount < totalLockedAmount then
        stepAmount - (totalLockedAmount - txAmount) % stepAmount
      else stepAmount
    lastStepAmount :=
      if totalLockedAmount % stepAmount ≠ 0 then
        totalLockedAmount % stepAmount
      else stepAmount
    preVestedAmount :=
      if txAmount > totalLockedAmount then txAmount - totalLockedAmount
      else 0 }

/-- Translate the parameters into what is shown. -/
def vestingSchedule (txAmount : UInt64) (parameters : VestingParameters) :
    Run ErrorCode VestingSchedule :=
  if parameters.stepBlockCount = 0 ∨ parameters.stepAmount = 0 then
    pure (immediateSchedule txAmount)
  else do
    let steps :=
      vestingSteps parameters.totalLockedAmount parameters.stepAmount
    Run.returnOn (steps > uint32Max) .incorrectData
    Run.returnOn
      (steps * parameters.stepBlockCount.toUInt64 +
        parameters.startBlock.toUInt64 > uint32Max)
      .incorrectData
    pure (stepwiseSchedule txAmount parameters)

/-- `parse_vesting_creation_data`. -/
def parseVestingCreationData (device : Device) (version : TransactionVersion)
    (memory : List UInt8) (data : Slice) (sender : Pointer)
    (senderType : UInt8) (txAmount : UInt64) :
    Run ErrorCode TxDataVestingCreation := do
  Run.returnOn (version ≠ .legacy) .notSupported
  let (owner, data) ← Run.orReturn .read (readSubBuffer 20 data)
  let ownerAddressBytes ← load memory owner 20
  let ownerAddress ← printAddress device.pastTotalNumber ownerAddressBytes
  let senderBytes ← load memory sender 20
  let isOwnerAddressSenderAddress := decide (ownerAddressBytes = senderBytes)
  Run.returnOn
    (isOwnerAddressSenderAddress ∧ senderType ≠ AccountType.basic.code)
    .incorrectData
  let (parameters, data) ← readVestingParameters memory data txAmount
  Run.returnOn (data.length ≠ 0) .invalidLength
  let schedule ← vestingSchedule txAmount parameters
  let printAmount := fun amount =>
    Run.orReturn .incorrectData (parseAmount amount (some (ascii "NIM")))
  let stepAmount ← printAmount schedule.stepAmount
  let firstStepAmount ← printAmount schedule.firstStepAmount
  let lastStepAmount ← printAmount schedule.lastStepAmount
  let preVestedAmount ← printAmount schedule.preVestedAmount
  pure {
    isOwnerAddressSenderAddress
    isMultiStep := schedule.stepCount > 1
    ownerAddress
    startBlock := cString (snprintf stringLengthUint32
      (printUnsigned schedule.startBlock.toNat))
    period := printBlocks schedule.period.toNat
    stepCount := cString (snprintf stringLengthUint32
      (printUnsigned schedule.stepCount.toNat))
    stepBlockCount := printBlocks schedule.stepBlockCount.toNat
    firstStepBlockCount := printBlocks schedule.firstStepBlockCount.toNat
    firstStepBlock := cString (snprintf stringLengthUint32 (printUnsigned
      (schedule.startBlock + schedule.firstStepBlockCount).toNat))
    stepAmount
    firstStepAmount
    lastStepAmount
    preVestedAmount }

/-- A vesting schedule in natural numbers. -/
structure VestingPlan where
  startBlock : Nat
  stepBlockCount : Nat
  stepCount : Nat
  period : Nat
  firstStepBlockCount : Nat
  firstStepBlock : Nat
  stepAmount : Nat
  firstStepAmount : Nat
  lastStepAmount : Nat
  preVestedAmount : Nat
  deriving DecidableEq, Repr

/-- The values of a schedule. -/
def VestingSchedule.plan (schedule : VestingSchedule) : VestingPlan where
  startBlock := schedule.startBlock.toNat
  stepBlockCount := schedule.stepBlockCount.toNat
  stepCount := schedule.stepCount.toNat
  period := schedule.period.toNat
  firstStepBlockCount := schedule.firstStepBlockCount.toNat
  firstStepBlock :=
    (schedule.startBlock + schedule.firstStepBlockCount).toNat
  stepAmount := schedule.stepAmount.toNat
  firstStepAmount := schedule.firstStepAmount.toNat
  lastStepAmount := schedule.lastStepAmount.toNat
  preVestedAmount := schedule.preVestedAmount.toNat

namespace VestingParameters

/-- All funds are vested immediately. -/
def Immediate (parameters : VestingParameters) : Prop :=
  parameters.stepBlockCount = 0 ∨ parameters.stepAmount = 0

instance (parameters : VestingParameters) : Decidable parameters.Immediate :=
  inferInstanceAs (Decidable (_ ∨ _))

/-- The number of steps until the locked amount is vested, rounded up. -/
def steps (parameters : VestingParameters) : Nat :=
  parameters.totalLockedAmount.toNat / parameters.stepAmount.toNat +
    if parameters.totalLockedAmount.toNat % parameters.stepAmount.toNat = 0
    then 0 else 1

/-- The steps and the end of the schedule are possible block numbers. -/
def Bounded (parameters : VestingParameters) : Prop :=
  parameters.steps ≤ uint32Max.toNat ∧
    parameters.steps * parameters.stepBlockCount.toNat +
      parameters.startBlock.toNat ≤ uint32Max.toNat

instance (parameters : VestingParameters) : Decidable parameters.Bounded :=
  inferInstanceAs (Decidable (_ ∧ _))

/-- The schedule of an amount under the parameters.  Blocks that have to pass
for virtual funds in excess of the amount add to the first step. -/
def plan (parameters : VestingParameters) (txAmount : Nat) : VestingPlan :=
  let total := parameters.totalLockedAmount.toNat
  let step := parameters.stepAmount.toNat
  let blocks := parameters.stepBlockCount.toNat
  let excess := total - txAmount
  let firstStepBlockCount := (blocks + excess / step * blocks) % 2 ^ 32
  if parameters.Immediate then {
    startBlock := 0
    stepBlockCount := 0
    stepCount := 0
    period := 0
    firstStepBlockCount := 0
    firstStepBlock := 0
    stepAmount := txAmount
    firstStepAmount := txAmount
    lastStepAmount := txAmount
    preVestedAmount := txAmount }
  else {
    startBlock := parameters.startBlock.toNat
    stepBlockCount := blocks
    stepCount := parameters.steps - excess / step
    period := parameters.steps * blocks
    firstStepBlockCount
    firstStepBlock :=
      (parameters.startBlock.toNat + firstStepBlockCount) % 2 ^ 32
    stepAmount := step
    firstStepAmount := step - excess % step
    lastStepAmount := if total % step = 0 then step else total % step
    preVestedAmount := txAmount - total }

end VestingParameters

/-- The number of steps does not wrap. -/
theorem toNat_vestingSteps (total step : UInt64) :
    (vestingSteps total step).toNat =
      total.toNat / step.toNat +
        if total.toNat % step.toNat = 0 then 0 else 1 := by
  have totalLt := total.toNat_lt
  have remainder : total % step ≠ 0 ↔ total.toNat % step.toNat ≠ 0 := by
    rw [ne_eq, ← UInt64.toNat_inj, UInt64.toNat_mod]
    rfl
  rw [vestingSteps, UInt64.toNat_add, UInt64.toNat_div]
  by_cases exact : total.toNat % step.toNat = 0
  · rw [if_neg (fun other => remainder.mp other exact), if_pos exact]
    have quotient := Nat.div_le_self total.toNat step.toNat
    exact Nat.mod_eq_of_lt (Nat.lt_of_le_of_lt quotient totalLt)
  · rw [if_pos (remainder.mpr exact), if_neg exact]
    have notOne : step.toNat ≠ 1 := by
      intro one
      rw [one, Nat.mod_one] at exact
      exact exact rfl
    have small : total.toNat / step.toNat ≤ total.toNat / 2 ∨
        total.toNat / step.toNat = 0 := by
      rcases Nat.eq_zero_or_pos step.toNat with zero | positive
      · exact Or.inr (by rw [zero, Nat.div_zero])
      · exact Or.inl (Nat.div_le_div_left (by omega) (by decide))
    refine Nat.mod_eq_of_lt ?_
    change total.toNat / step.toNat + 1 < 2 ^ 64
    generalize total.toNat / step.toNat = quotient at small
    omega

/-- The difference of two words, where it is looked at. -/
theorem toNat_excess
    {txAmount total : UInt64}
    (excess : txAmount < total) :
    (total - txAmount).toNat = total.toNat - txAmount.toNat :=
  UInt64.toNat_sub_of_le _ _ (UInt64.le_of_lt excess)

theorem excess_of_not
    {txAmount total : UInt64}
    (noExcess : ¬txAmount < total) :
    total.toNat - txAmount.toNat = 0 := by
  have le := UInt64.le_iff_toNat_le.mp (UInt64.not_lt.mp noExcess)
  omega

section Values

variable (txAmount total step : UInt64) (blocks startBlock : UInt32)

/-- Only steps that vest some of the amount are counted. -/
theorem toNat_stepCount
    (fits : (vestingSteps total step).toNat ≤ uint32Max.toNat) :
    (if total ≤ txAmount then (vestingSteps total step).toUInt32
      else ((vestingSteps total step).toUInt32.toUInt64 -
        (total - txAmount) / step).toUInt32).toNat =
      (vestingSteps total step).toNat -
        (total.toNat - txAmount.toNat) / step.toNat := by
  have limit : uint32Max.toNat = 4294967295 := rfl
  have low : (vestingSteps total step).toUInt32.toNat =
      (vestingSteps total step).toNat := by
    rw [UInt64.toNat_toUInt32]
    omega
  by_cases locked : total ≤ txAmount
  · have none := excess_of_not (UInt64.not_lt.mpr locked)
    rw [if_pos locked, low, none, Nat.zero_div, Nat.sub_zero]
  · have excess := toNat_excess (UInt64.not_le.mp locked)
    have fewer : (total.toNat - txAmount.toNat) / step.toNat ≤
        (vestingSteps total step).toNat := by
      rw [toNat_vestingSteps]
      exact Nat.le_trans (Nat.div_le_div_right (Nat.sub_le _ _))
        (Nat.le_add_right _ _)
    have wide : (vestingSteps total step).toUInt32.toUInt64.toNat =
        (vestingSteps total step).toNat := by
      rw [UInt32.toNat_toUInt64, low]
    rw [if_neg locked, UInt64.toNat_toUInt32, UInt64.toNat_sub_of_le, wide,
      UInt64.toNat_div, excess]
    · exact Nat.mod_eq_of_lt
        (Nat.lt_of_le_of_lt (Nat.sub_le _ _) (by omega))
    · rw [UInt64.le_iff_toNat_le, wide, UInt64.toNat_div, excess]
      exact fewer

/-- The blocks until the first funds are vested, in a machine word. -/
theorem toNat_firstStepBlockCount :
    (if txAmount < total then
        (blocks.toUInt64 +
          (total - txAmount) / step * blocks.toUInt64).toUInt32
      else blocks).toNat =
      (blocks.toNat + (total.toNat - txAmount.toNat) / step.toNat *
        blocks.toNat) % 2 ^ 32 := by
  have blocksLt := blocks.toNat_lt
  by_cases excess : txAmount < total
  · rw [if_pos excess, UInt64.toNat_toUInt32, UInt64.toNat_add,
      UInt64.toNat_mul, UInt64.toNat_div, toNat_excess excess,
      UInt32.toNat_toUInt64, Nat.add_mod_mod,
      Nat.mod_mod_of_dvd _ (by decide)]
  · rw [if_neg excess, excess_of_not excess, Nat.zero_div, Nat.zero_mul,
      Nat.add_zero, Nat.mod_eq_of_lt blocksLt]

/-- The funds the first step vests. -/
theorem toNat_firstStepAmount (positive : step ≠ 0) :
    (if txAmount < total then step - (total - txAmount) % step
      else step).toNat =
      step.toNat - (total.toNat - txAmount.toNat) % step.toNat := by
  have stepPositive : 0 < step.toNat :=
    Nat.pos_of_ne_zero fun zero => positive (UInt64.toNat_inj.mp zero)
  by_cases excess : txAmount < total
  · have remainder : ((total - txAmount) % step).toNat =
        (total.toNat - txAmount.toNat) % step.toNat := by
      rw [UInt64.toNat_mod, toNat_excess excess]
    rw [if_pos excess, UInt64.toNat_sub_of_le, remainder]
    rw [UInt64.le_iff_toNat_le, remainder]
    exact Nat.le_of_lt (Nat.mod_lt _ stepPositive)
  · rw [if_neg excess, excess_of_not excess, Nat.zero_mod, Nat.sub_zero]

/-- The funds the last step vests. -/
theorem toNat_lastStepAmount :
    (if total % step ≠ 0 then total % step else step).toNat =
      if total.toNat % step.toNat = 0 then step.toNat
      else total.toNat % step.toNat := by
  have remainder : total % step = 0 ↔ total.toNat % step.toNat = 0 := by
    rw [← UInt64.toNat_inj, UInt64.toNat_mod]
    rfl
  by_cases exact : total % step = 0
  · rw [if_neg (not_not.mpr exact), if_pos (remainder.mp exact)]
  · rw [if_pos exact, if_neg (mt remainder.mpr exact), UInt64.toNat_mod]

/-- The funds that are vested from the start. -/
theorem toNat_preVestedAmount :
    (if txAmount > total then txAmount - total else 0).toNat =
      txAmount.toNat - total.toNat := by
  by_cases preVested : total < txAmount
  · rw [if_pos preVested, toNat_excess preVested]
  · rw [if_neg preVested, excess_of_not preVested]
    rfl

end Values

/-- Neither the period nor the last block wraps when the steps are few. -/
theorem toNat_period
    (startBlock blocks : UInt32)
    (steps : UInt64)
    (fits : steps.toNat ≤ uint32Max.toNat) :
    (steps * blocks.toUInt64).toNat = steps.toNat * blocks.toNat ∧
      (steps * blocks.toUInt64 + startBlock.toUInt64).toNat =
        steps.toNat * blocks.toNat + startBlock.toNat := by
  have limit : uint32Max.toNat = 4294967295 := rfl
  have blocksLt := blocks.toNat_lt
  have startLt := startBlock.toNat_lt
  have product : steps.toNat * blocks.toNat ≤ 4294967295 * 4294967295 :=
    Nat.mul_le_mul (by omega) (by omega)
  have period : (steps * blocks.toUInt64).toNat =
      steps.toNat * blocks.toNat := by
    rw [UInt64.toNat_mul, UInt32.toNat_toUInt64]
    exact Nat.mod_eq_of_lt (by omega)
  refine ⟨period, ?_⟩
  rw [UInt64.toNat_add, period, UInt32.toNat_toUInt64]
  exact Nat.mod_eq_of_lt (by omega)

namespace VestingParameters

/-- The steps in a machine word. -/
theorem toNat_vestingSteps_eq (parameters : VestingParameters) :
    (vestingSteps parameters.totalLockedAmount
      parameters.stepAmount).toNat = parameters.steps :=
  toNat_vestingSteps _ _

/-- The machine computes the schedule. -/
theorem plan_stepwiseSchedule
    (txAmount : UInt64)
    (notImmediate : ¬Immediate parameters)
    (bounded : Bounded parameters) :
    (stepwiseSchedule txAmount parameters).plan =
      parameters.plan txAmount.toNat := by
  obtain ⟨stepsFit, endFits⟩ := bounded
  have stepsEq := parameters.toNat_vestingSteps_eq
  rw [← stepsEq] at stepsFit endFits
  have stepPositive : parameters.stepAmount ≠ 0 := fun zero =>
    notImmediate (Or.inr zero)
  have limit : uint32Max.toNat = 4294967295 := rfl
  have period := (toNat_period parameters.startBlock parameters.stepBlockCount
    _ stepsFit).1
  simp only [VestingSchedule.plan, stepwiseSchedule, plan,
    if_neg notImmediate, UInt32.toNat_add, toNat_stepCount _ _ _ stepsFit,
    toNat_firstStepBlockCount, toNat_firstStepAmount _ _ _ stepPositive,
    toNat_lastStepAmount, toNat_preVestedAmount, UInt64.toNat_toUInt32,
    period, stepsEq]
  rw [stepsEq] at endFits
  rw [Nat.mod_eq_of_lt (show _ < 2 ^ 32 by omega)]

/-- The translation succeeds when the schedule consists of possible block
numbers. -/
theorem vestingSchedule_accept
    (txAmount : UInt64)
    (fits : Immediate parameters ∨ Bounded parameters) :
    ∃ schedule, vestingSchedule txAmount parameters = .ok schedule ∧
      schedule.plan = parameters.plan txAmount.toNat := by
  by_cases immediate : parameters.Immediate
  · refine ⟨_, if_pos immediate, ?_⟩
    unfold plan
    rw [if_pos immediate]
    rfl
  · have bounded := fits.resolve_left immediate
    refine ⟨_, ?_, plan_stepwiseSchedule txAmount immediate bounded⟩
    obtain ⟨stepsFit, endFits⟩ := bounded
    rw [← parameters.toNat_vestingSteps_eq] at stepsFit endFits
    have periods := toNat_period parameters.startBlock
      parameters.stepBlockCount _ stepsFit
    have notImmediate : ¬(parameters.stepBlockCount = 0 ∨
        parameters.stepAmount = 0) := immediate
    unfold vestingSchedule
    rw [if_neg notImmediate]
    simp only
    rw [Run.returnOn_of_not, Run.bind_ok, Run.returnOn_of_not, Run.bind_ok]
    · rfl
    · rw [gt_iff_lt, UInt64.lt_iff_toNat_lt, periods.2]
      omega
    · rw [gt_iff_lt, UInt64.lt_iff_toNat_lt]
      omega

/-- The translation succeeds only then. -/
theorem vestingSchedule_inversion
    (result : vestingSchedule txAmount parameters = .ok schedule) :
    Immediate parameters ∨ Bounded parameters := by
  by_cases immediate : parameters.Immediate
  · exact Or.inl immediate
  · have notImmediate : ¬(parameters.stepBlockCount = 0 ∨
        parameters.stepAmount = 0) := immediate
    unfold vestingSchedule at result
    rw [if_neg notImmediate] at result
    obtain ⟨_, stepsFit, result⟩ := Run.bind_eq_ok.mp result
    obtain ⟨_, endFits, _⟩ := Run.bind_eq_ok.mp result
    have few := Run.returnOn_eq_ok.mp stepsFit
    have early := Run.returnOn_eq_ok.mp endFits
    rw [gt_iff_lt, UInt64.lt_iff_toNat_lt, Nat.not_lt] at few
    have periods := toNat_period parameters.startBlock
      parameters.stepBlockCount _ few
    rw [gt_iff_lt, UInt64.lt_iff_toNat_lt, Nat.not_lt, periods.2] at early
    rw [parameters.toNat_vestingSteps_eq] at few early
    exact Or.inr ⟨few, early⟩

/-- The amounts of the schedule can be printed. -/
def Payable (parameters : VestingParameters) : Prop :=
  parameters.Immediate ∨
    (parameters.stepAmount ≤ maxSafeLunaAmount ∧ parameters.Bounded)

/-- No amount of the schedule exceeds both the step and the funds. -/
theorem plan_amounts_le
    (payable : Payable parameters)
    (bounded : txAmount ≤ maxSafeLunaAmount.toNat) :
    (parameters.plan txAmount).stepAmount ≤ maxSafeLunaAmount.toNat ∧
      (parameters.plan txAmount).firstStepAmount ≤
        maxSafeLunaAmount.toNat ∧
      (parameters.plan txAmount).lastStepAmount ≤ maxSafeLunaAmount.toNat ∧
      (parameters.plan txAmount).preVestedAmount ≤
        maxSafeLunaAmount.toNat := by
  unfold plan
  by_cases immediate : parameters.Immediate
  · simp only [if_pos immediate]
    exact ⟨bounded, bounded, bounded, bounded⟩
  · have step := UInt64.le_iff_toNat_le.mp (payable.resolve_left immediate).1
    have stepPositive : 0 < parameters.stepAmount.toNat :=
      Nat.pos_of_ne_zero fun zero =>
        immediate (Or.inr (UInt64.toNat_inj.mp zero))
    simp only [if_neg immediate]
    refine ⟨step, Nat.le_trans (Nat.sub_le _ _) step, ?_,
      Nat.le_trans (Nat.sub_le _ _) bounded⟩
    split
    · exact step
    · exact Nat.le_trans (Nat.le_of_lt (Nat.mod_lt _ stepPositive)) step

end VestingParameters

/-! ## The data that is accepted -/

/-- The parameters a contract specifies. -/
inductive VestingTerms
  | short (stepBlockCount : UInt32)
  | medium (startBlock stepBlockCount : UInt32) (stepAmount : UInt64)
  | full (startBlock stepBlockCount : UInt32)
      (stepAmount totalLockedAmount : UInt64)
  deriving DecidableEq, Repr

namespace VestingTerms

/-- The parameters on the wire. -/
def encode : VestingTerms → List UInt8
  | short stepBlockCount => u32Bytes stepBlockCount
  | medium startBlock stepBlockCount stepAmount =>
      u32Bytes startBlock ++ (u32Bytes stepBlockCount ++ u64Bytes stepAmount)
  | full startBlock stepBlockCount stepAmount totalLockedAmount =>
      u32Bytes startBlock ++ (u32Bytes stepBlockCount ++
        (u64Bytes stepAmount ++ u64Bytes totalLockedAmount))

/-- The parameters with their defaults. -/
def parameters (txAmount : UInt64) : VestingTerms → VestingParameters
  | short stepBlockCount => ⟨0, stepBlockCount, txAmount, txAmount⟩
  | medium startBlock stepBlockCount stepAmount =>
      ⟨startBlock, stepBlockCount, stepAmount, txAmount⟩
  | full startBlock stepBlockCount stepAmount totalLockedAmount =>
      ⟨startBlock, stepBlockCount, stepAmount, totalLockedAmount⟩

/-- Specified parameters are read. -/
theorem read_accept
    (terms : VestingTerms)
    (txAmount : UInt64)
    (covers : Covers memory data terms.encode) :
    ∃ next, readVestingParameters memory data txAmount =
        .ok (terms.parameters txAmount, next) ∧
      Covers memory next [] := by
  have size := covers.length_eq
  unfold readVestingParameters
  cases terms with
  | short stepBlockCount =>
      rw [encode, ← List.append_nil (u32Bytes stepBlockCount)] at covers
      obtain ⟨next, readBlocks, covers⟩ :=
        readU32_reads.accept_next trivial covers
      have four : data.length = 4 := size
      rw [if_pos four]
      simp only [readBlocks, Run.orReturn_ok, Run.bind_ok]
      exact ⟨next, rfl, covers⟩
  | medium startBlock stepBlockCount stepAmount =>
      rw [encode, ← List.append_nil (u64Bytes stepAmount)] at covers
      obtain ⟨_, readStart, covers⟩ := readU32_reads.accept_next trivial covers
      obtain ⟨_, readBlocks, covers⟩ :=
        readU32_reads.accept_next trivial covers
      obtain ⟨next, readStep, covers⟩ :=
        readU64_reads.accept_next trivial covers
      have finished : next.length ≠ 8 := by simp [covers.length_eq]
      rw [if_neg (by simp [size, encode])]
      simp only [readStart, readBlocks, readStep, Run.orReturn_ok,
        Run.bind_ok, if_neg finished]
      exact ⟨next, rfl, covers⟩
  | full startBlock stepBlockCount stepAmount totalLockedAmount =>
      rw [encode, ← List.append_nil (u64Bytes totalLockedAmount)] at covers
      obtain ⟨_, readStart, covers⟩ := readU32_reads.accept_next trivial covers
      obtain ⟨_, readBlocks, covers⟩ :=
        readU32_reads.accept_next trivial covers
      obtain ⟨after, readStep, covers⟩ :=
        readU64_reads.accept_next trivial covers
      have continues : after.length = 8 := by simp [covers.length_eq]
      obtain ⟨next, readTotal, covers⟩ :=
        readU64_reads.accept_next trivial covers
      rw [if_neg (by simp [size, encode])]
      simp only [readStart, readBlocks, readStep, readTotal,
        Run.orReturn_ok, Run.bind_ok, if_pos continues]
      exact ⟨next, rfl, covers⟩

/-- Parameters read from the whole data are specified parameters. -/
theorem read_inversion
    {obtained : VestingParameters}
    (covers : Covers memory data bytes)
    (result : readVestingParameters memory data txAmount =
      .ok (obtained, next))
    (finished : next.length = 0) :
    ∃ terms : VestingTerms, bytes = terms.encode ∧
      obtained = terms.parameters txAmount := by
  have whole : ∀ {slice rest}, Covers memory slice rest →
      slice.length = 0 → rest = [] := by
    intro slice rest ended none
    exact List.length_eq_zero_iff.mp (ended.length_eq ▸ none)
  unfold readVestingParameters at result
  split at result
  · obtain ⟨⟨blocks, _⟩, readBlocks, result⟩ := Run.bind_eq_ok.mp result
    cases result
    obtain ⟨rest, _, rfl, _, covers⟩ := readU32_reads.inversion covers
      (Run.orReturn_eq_ok.mp readBlocks)
    rw [whole covers finished]
    exact ⟨short blocks, by simp [encode], rfl⟩
  · obtain ⟨⟨start, _⟩, readStart, result⟩ := Run.bind_eq_ok.mp result
    obtain ⟨⟨blocks, _⟩, readBlocks, result⟩ := Run.bind_eq_ok.mp result
    obtain ⟨⟨step, _⟩, readStep, result⟩ := Run.bind_eq_ok.mp result
    obtain ⟨_, _, rfl, _, covers⟩ := readU32_reads.inversion covers
      (Run.orReturn_eq_ok.mp readStart)
    obtain ⟨_, _, rfl, _, covers⟩ := readU32_reads.inversion covers
      (Run.orReturn_eq_ok.mp readBlocks)
    obtain ⟨_, _, rfl, _, covers⟩ := readU64_reads.inversion covers
      (Run.orReturn_eq_ok.mp readStep)
    simp only at result
    split at result
    · obtain ⟨⟨total, _⟩, readTotal, result⟩ := Run.bind_eq_ok.mp result
      cases result
      obtain ⟨rest, _, rfl, _, covers⟩ := readU64_reads.inversion covers
        (Run.orReturn_eq_ok.mp readTotal)
      rw [whole covers finished]
      exact ⟨full start blocks step total, by simp [encode], rfl⟩
    · cases result
      rw [whole covers finished]
      exact ⟨medium start blocks step, by simp [encode], rfl⟩

end VestingTerms

/-- The data of a vesting contract creation. -/
structure VestingData where
  ownerAddress : Bytes 20
  terms : VestingTerms

/-- A number of blocks as it is shown. -/
def blocksText (count : Nat) : CString :=
  printUnsigned count ++ ascii " block" ++
    if count = 1 then [] else ascii "s"

theorem printBlocks_eq (bound : count < 2 ^ 32) :
    printBlocks count = blocksText count := by
  have short := (printUnsigned_length_le_iff (show 0 < 10 by decide)).mpr
    (show count < 10 ^ 10 by omega)
  have digits := printUnsigned_no_terminator count
  have words : (ascii " block").length = 6 ∧ (0 : UInt8) ∉ ascii " block" := by
    decide
  have noTerminator : (0 : UInt8) ∉ printUnsigned count ++ ascii " block" := by
    rw [List.mem_append]
    exact not_or.mpr ⟨digits, words.2⟩
  have size : (printUnsigned count ++ ascii " block").length ≤ 16 := by
    rw [List.length_append, words.1]
    omega
  have room : stringLengthBlocks = 18 := rfl
  unfold printBlocks blocksText
  by_cases one : count = 1
  · rw [if_neg (not_not.mpr one), if_pos one, snprintf,
      List.take_of_length_le (by simp; omega), List.append_assoc,
      List.append_nil]
    exact cString_append_zero noTerminator
  · rw [if_pos one, if_neg one]
    refine cString_snprintf ?_ ?_
    · rw [List.mem_append]
      exact not_or.mpr ⟨noTerminator, by decide⟩
    · rw [List.length_append, List.length_singleton]
      omega

/-- How a schedule is shown. -/
def VestingPlan.shown (plan : VestingPlan) (ownerAddress sender : Bytes 20) :
    TxDataVestingCreation where
  isOwnerAddressSenderAddress := decide (ownerAddress = sender)
  isMultiStep := decide (1 < plan.stepCount)
  ownerAddress := userFriendlyAddress ownerAddress.val
  startBlock := printUnsigned plan.startBlock
  period := blocksText plan.period
  stepCount := printUnsigned plan.stepCount
  stepBlockCount := blocksText plan.stepBlockCount
  firstStepBlockCount := blocksText plan.firstStepBlockCount
  firstStepBlock := printUnsigned plan.firstStepBlock
  stepAmount := amountWithTicker plan.stepAmount
  firstStepAmount := amountWithTicker plan.firstStepAmount
  lastStepAmount := amountWithTicker plan.lastStepAmount
  preVestedAmount := amountWithTicker plan.preVestedAmount

namespace VestingData

/-- The data on the wire. -/
def encode (vesting : VestingData) : List UInt8 :=
  vesting.ownerAddress.val ++ vesting.terms.encode

/-- A contract that sends funds does not own them, as it has no key. -/
def Ownable (vesting : VestingData) (sender : Bytes 20) (senderType : UInt8) :
    Prop :=
  vesting.ownerAddress = sender → senderType = AccountType.basic.code

/-- The parameters with their defaults. -/
def parameters (vesting : VestingData) (txAmount : UInt64) :
    VestingParameters :=
  vesting.terms.parameters txAmount

/-- How the contract is shown. -/
def shown (vesting : VestingData) (sender : Bytes 20) (txAmount : UInt64) :
    TxDataVestingCreation :=
  ((vesting.parameters txAmount).plan txAmount.toNat).shown
    vesting.ownerAddress sender

/-- A contract whose amounts can be printed is shown. -/
theorem parse_eq
    (device : Device)
    (vesting : VestingData)
    (covers : Covers memory data vesting.encode)
    (senderCovers : Covers memory ⟨sender, 20⟩ senderBytes.val)
    (ownable : vesting.Ownable senderBytes senderType)
    (bounded : txAmount ≤ maxSafeLunaAmount)
    (payable : (vesting.parameters txAmount).Payable) :
    parseVestingCreationData device .legacy memory data sender senderType
        txAmount =
      .ok (vesting.shown senderBytes txAmount) := by
  unfold encode at covers
  obtain ⟨owner, _, readOwner, ownerCovers, covers⟩ :=
    covers.readSubBuffer_accept vesting.ownerAddress.property
  obtain ⟨_, readParameters, covers⟩ :=
    vesting.terms.read_accept txAmount covers
  have fits : (vesting.parameters txAmount).Immediate ∨
      (vesting.parameters txAmount).Bounded :=
    payable.imp id And.right
  obtain ⟨schedule, scheduleEq, planEq⟩ :=
    VestingParameters.vestingSchedule_accept txAmount fits
  have ownFunds : ¬(decide (vesting.ownerAddress.val = senderBytes.val) =
      true ∧ senderType ≠ AccountType.basic.code) := by
    rintro ⟨same, contract⟩
    exact contract (ownable (Subtype.ext (of_decide_eq_true same)))
  obtain ⟨step, first, last, preVested⟩ :=
    VestingParameters.plan_amounts_le payable
      (UInt64.le_iff_toNat_le.mp bounded)
  rw [← planEq] at step first last preVested
  have printed : ∀ amount : UInt64, amount.toNat ≤ maxSafeLunaAmount.toNat →
      parseAmount amount (some (ascii "NIM")) =
        .ok (amountWithTicker amount.toNat) := fun amount safe =>
    parseAmount_eq (UInt64.le_iff_toNat_le.mpr safe)
  unfold parseVestingCreationData
  simp only [readOwner, ownerCovers.load_sub, senderCovers.load_sub,
    printAddress_eq vesting.ownerAddress.property, readParameters,
    Run.orReturn_ok, Run.bind_ok]
  rw [Run.returnOn_of_not (by simp), Run.bind_ok, Run.returnOn_of_not ownFunds,
    Run.bind_ok, Run.returnOn_of_not (by simp [covers.length_eq]), Run.bind_ok]
  change (vestingSchedule txAmount (vesting.parameters txAmount) >>= _) = _
  rw [scheduleEq, Run.bind_ok]
  simp only [printed _ step, printed _ first, printed _ last,
    printed _ preVested, Run.orReturn_ok, Run.bind_ok]
  simp only [shown, ← planEq, VestingPlan.shown, VestingSchedule.plan,
    cString_printUint32, printBlocks_eq (UInt32.toNat_lt _), gt_iff_lt,
    UInt32.lt_iff_toNat_lt, Subtype.ext_iff]
  rfl

/-- Data that is accepted is that of such a contract. -/
theorem parse_inversion
    (covers : Covers memory data bytes)
    (senderCovers : Covers memory ⟨sender, 20⟩ senderBytes.val)
    (result : parseVestingCreationData device version memory data sender
      senderType txAmount = .ok parsed) :
    version = .legacy ∧ ∃ vesting : VestingData, bytes = vesting.encode ∧
      vesting.Ownable senderBytes senderType ∧
      (vesting.parameters txAmount).Payable := by
  unfold parseVestingCreationData at result
  obtain ⟨_, isLegacy, result⟩ := Run.bind_eq_ok.mp result
  obtain ⟨⟨owner, _⟩, readOwner, result⟩ := Run.bind_eq_ok.mp result
  obtain ⟨ownerBytes, loadOwner, result⟩ := Run.bind_eq_ok.mp result
  obtain ⟨_, _, result⟩ := Run.bind_eq_ok.mp result
  obtain ⟨otherSender, loadSender, result⟩ := Run.bind_eq_ok.mp result
  obtain ⟨_, ownFunds, result⟩ := Run.bind_eq_ok.mp result
  obtain ⟨⟨read, last⟩, readParameters, result⟩ := Run.bind_eq_ok.mp result
  obtain ⟨_, noMore, result⟩ := Run.bind_eq_ok.mp result
  obtain ⟨schedule, scheduleEq, result⟩ := Run.bind_eq_ok.mp result
  obtain ⟨_, printStep, _⟩ := Run.bind_eq_ok.mp result
  obtain ⟨front, _, rfl, frontSize, _, _, ownerCovers, covers⟩ :=
    covers.readSubBuffer_inversion (Run.orReturn_eq_ok.mp readOwner)
  obtain ⟨terms, rfl, rfl⟩ := VestingTerms.read_inversion covers
    readParameters (not_not.mp (Run.returnOn_eq_ok.mp noMore))
  refine ⟨not_not.mp (Run.returnOn_eq_ok.mp isLegacy),
    ⟨⟨front, frontSize⟩, terms⟩, rfl, ?_, ?_⟩
  · intro same
    rw [ownerCovers.load_sub] at loadOwner
    rw [senderCovers.load_sub] at loadSender
    cases loadOwner
    cases loadSender
    have notBoth := Run.returnOn_eq_ok.mp ownFunds
    by_contra contract
    exact notBoth ⟨by rw [← congrArg Subtype.val same]; simp, contract⟩
  · have safe : schedule.stepAmount ≤ maxSafeLunaAmount :=
      le_of_parseAmount_eq_ok (Run.orReturn_eq_ok.mp printStep)
    rcases VestingParameters.vestingSchedule_inversion scheduleEq with
      immediate | bounded
    · exact Or.inl immediate
    · by_cases immediate : (terms.parameters txAmount).Immediate
      · exact Or.inl immediate
      · refine Or.inr ⟨?_, bounded⟩
        obtain ⟨other, otherEq, planEq⟩ :=
          VestingParameters.vestingSchedule_accept txAmount (Or.inr bounded)
        rw [scheduleEq] at otherEq
        cases otherEq
        have steps := congrArg VestingPlan.stepAmount planEq
        unfold VestingParameters.plan at steps
        rw [if_neg immediate] at steps
        change schedule.stepAmount.toNat =
          (terms.parameters txAmount).stepAmount.toNat at steps
        rw [UInt64.le_iff_toNat_le, steps] at safe
        exact UInt64.le_iff_toNat_le.mpr safe

end VestingData

end NimiqApp
