import NimiqApp.ChunkLengths

/-!
# Failing cleanly

Whatever it is given, `parse_tx` returns one of the errors that are
translated into status words.  It reads no byte outside its buffer, follows
no null pointer and fails no assertion.
-/

namespace NimiqApp

open Foundation (Ends)

/-- The errors `error_to_sw` knows. -/
def ErrorCode.Known (code : ErrorCode) : Prop :=
  code ≠ .errorTrue ∧ code ≠ .unexpected

instance (code : ErrorCode) : Decidable code.Known :=
  inferInstanceAs (Decidable (_ ∧ _))

/-- No fault but an error of a kind. -/
def Stop.Error (known : ε → Prop) : Stop ε → Prop
  | .error code => known code
  | .fault _ => False

/-- The run returns such a value, or an error that is known. -/
abbrev Clean (returns : α → Prop) (run : Run ErrorCode α) : Prop :=
  Ends returns (Stop.Error ErrorCode.Known) run

/-- The reader returns such a value, or `false`. -/
abbrev Reading (returns : α → Prop) (run : Run Unit α) : Prop :=
  Ends returns (Stop.Error fun _ => True) run

/-- The slice is a part of the memory. -/
def Covered (memory : List UInt8) (slice : Slice) : Prop :=
  ∃ bytes, Covers memory slice bytes

/-- A check that lets through what does not meet its condition. -/
theorem Clean.returnOn
    {condition : Prop} [Decidable condition]
    (known : code.Known) :
    Clean (fun _ => ¬condition) (Run.returnOn condition code) := by
  unfold Run.returnOn
  split
  · exact .threw known
  · rename_i absent
    exact .returned absent

/-- A check of a reader. -/
theorem Reading.returnOn
    {condition : Prop} [Decidable condition] :
    Reading (fun _ => ¬condition) (Run.returnOn condition ()) := by
  unfold Run.returnOn
  split
  · exact .threw trivial
  · rename_i absent
    exact .returned absent

/-- A reader in a parser. -/
theorem Reading.orReturn
    (reading : Reading returns run)
    (known : code.Known) : Clean returns (Run.orReturn code run) := by
  rcases reading with holds | holds
  · exact .returned holds
  · rename_i stop
    cases stop with
    | error _ => exact .threw known
    | fault _ => cases holds

/-- Another error for a received one. -/
theorem Clean.orReturn
    {run : Run ErrorCode α}
    (clean : Clean returns run)
    (known : code.Known) : Clean returns (Run.orReturn code run) := by
  rcases clean with holds | holds
  · exact .returned holds
  · rename_i stop
    cases stop with
    | error _ => exact .threw known
    | fault _ => cases holds

section Readers

variable {memory : List UInt8} {slice : Slice}

/-- Readers of values stay in the buffer. -/
theorem Reads.reading
    {valid : α → Prop} {read : List UInt8 → Slice → Run Unit (α × Slice)}
    {encode : α → List UInt8}
    (reads : Reads valid read encode)
    (covered : Covered memory slice) :
    Reading (fun out => Covered memory out.2) (read memory slice) := by
  obtain ⟨bytes, covers⟩ := covered
  by_cases encoded : ∃ value rest, valid value ∧ bytes = encode value ++ rest
  · obtain ⟨value, rest, isValid, rfl⟩ := encoded
    obtain ⟨next, result, nextCovers⟩ := reads.accept_next isValid covers
    exact Ends.of_eq_ok result ⟨rest, nextCovers⟩
  · refine Ends.of_eq_error (reads.reject covers ?_) trivial
    intro value rest isValid equal
    exact encoded ⟨value, rest, isValid, equal⟩

/-- A sub buffer is a part of the buffer. -/
theorem readSubBuffer_reading
    (covered : Covered memory slice) :
    Reading (fun out => Covered memory ⟨out.1, count⟩ ∧ Covered memory out.2)
      (readSubBuffer count slice) := by
  obtain ⟨bytes, covers⟩ := covered
  cases result : readSubBuffer count slice with
  | ok out =>
      obtain ⟨front, rest, _, _, _, _, frontCovers, restCovers⟩ :=
        covers.readSubBuffer_inversion result
      exact .returned ⟨⟨front, frontCovers⟩, ⟨rest, restCovers⟩⟩
  | error stop =>
      by_cases short : bytes.length < count
      · rw [covers.readSubBuffer_short short] at result
        cases result
        exact .threw trivial
      · obtain ⟨_, _, accepted, _⟩ :=
          Covers.readSubBuffer_accept
            ((List.take_append_drop count bytes).symm ▸ covers)
            (List.length_take_of_le (Nat.le_of_not_lt short))
        rw [accepted] at result
        cases result

/-- What is covered can be loaded. -/
theorem Covered.load
    (covered : Covered memory ⟨pointer, count⟩) :
    Clean (fun bytes => bytes.length = count) (load memory pointer count) := by
  obtain ⟨bytes, covers⟩ := covered
  exact Ends.of_eq_ok covers.load_sub covers.length_eq.symm

/-- A flag is read like its byte. -/
theorem readBool_reading
    (covered : Covered memory slice) :
    Reading (fun out => Covered memory out.2) (readBool memory slice) := by
  unfold readBool
  apply Ends.bind (readU8_reads.reading covered)
  intro out next
  exact .returned next

/-- A vector is a part of the buffer. -/
theorem readSerdeVecU8_reading
    (covered : Covered memory slice) :
    Reading (fun out => Covered memory out.1 ∧ Covered memory out.2)
      (readSerdeVecU8 memory slice) := by
  have length : Reading (fun out => Covered memory out.2)
      (readSerdeUvarint 16 memory slice) := by
    unfold readSerdeUvarint
    apply Ends.bind Reading.returnOn
    intro _ _
    apply Ends.bind (readU8_reads.reading covered)
    intro byte next
    apply Ends.bind Reading.returnOn
    intro _ _
    exact .returned next
  unfold readSerdeVecU8
  apply Ends.bind length
  intro dataLength covered
  apply Ends.bind (readSubBuffer_reading covered)
  intro data parts
  exact .returned parts

/-- The public key and the signature of a proof are parts of the buffer. -/
theorem readSignatureProof_reading
    (covered : Covered memory slice) :
    Reading (fun out => Covered memory ⟨out.1.publicKey, 32⟩ ∧
        Covered memory ⟨out.1.signature, 64⟩ ∧ Covered memory out.2)
      (readSignatureProof memory slice) := by
  unfold readSignatureProof
  apply Ends.bind (readU8_reads.reading covered)
  intro typeAndFlags covered
  apply Ends.bind (readSubBuffer_reading covered)
  rintro publicKey ⟨publicKeyCovered, covered⟩
  apply Ends.bind (readU8_reads.reading covered)
  intro merklePathLength covered
  apply Ends.bind (readSubBuffer_reading covered)
  rintro signature ⟨signatureCovered, covered⟩
  apply Ends.bind Reading.returnOn
  intro _ _
  apply Ends.bind Reading.returnOn
  intro _ _
  exact .returned ⟨publicKeyCovered, signatureCovered, covered⟩

end Readers

/-- Amounts are printed or refused. -/
theorem parseAmount_clean (amount : UInt64) :
    Clean (fun _ => True) (parseAmount amount (some (ascii "NIM"))) := by
  by_cases bounded : amount ≤ maxSafeLunaAmount
  · exact Ends.of_eq_ok (parseAmount_eq bounded) trivial
  · exact Ends.of_eq_error (parseAmount_reject bounded)
      (by decide : ErrorCode.Known .incorrectData)

/-- Addresses are printed. -/
theorem printAddress_clean (size : address.length = 20) :
    Clean (fun _ => True) (printAddress pastTotalNumber address) :=
  Ends.of_eq_ok (printAddress_eq size) trivial

theorem parseNetworkId_clean
    (version : TransactionVersion)
    (networkId : UInt8) :
    Clean (fun _ => True) (parseNetworkId version networkId) := by
  unfold parseNetworkId
  split_ifs
  · exact .returned trivial
  · exact .returned trivial
  · exact .returned trivial
  · exact .returned trivial
  · exact .threw (by decide : ErrorCode.Known .incorrectData)

section Parsers

variable {memory : List UInt8} {slice data : Slice}

/-- The parts of the buffer that are kept. -/
structure TxFields.InBuffer (memory : List UInt8) (fields : TxFields) :
    Prop where
  data : Covered memory fields.data
  sender : Covered memory ⟨fields.sender, 20⟩
  recipient : Covered memory ⟨fields.recipient, 20⟩
  senderData : Covered memory fields.senderData

/-- Nothing is a part of every memory. -/
theorem covered_nothing (memory : List UInt8) : Covered memory ⟨none, 0⟩ :=
  ⟨[], rfl, fun _ => rfl, by simp⟩

theorem readSenderData_clean
    (version : TransactionVersion)
    (covered : Covered memory slice) :
    Clean (fun out => Covered memory out.1 ∧ Covered memory out.2)
      (readSenderData version memory slice) := by
  unfold readSenderData
  apply Ends.ite
  · intro _
    exact (readSerdeVecU8_reading covered).orReturn (by decide)
  · intro _
    exact .returned ⟨covered_nothing memory, covered⟩

theorem readTxFields_clean
    (version : TransactionVersion)
    (covered : Covered memory slice) :
    Clean (TxFields.InBuffer memory) (readTxFields version memory slice) := by
  have read : ErrorCode.Known .read := by decide
  unfold readTxFields
  apply Ends.bind ((readU16_reads.reading covered).orReturn read)
  intro dataLength covered
  apply Ends.bind ((readSubBuffer_reading covered).orReturn read)
  rintro data ⟨dataCovered, covered⟩
  apply Ends.bind ((readSubBuffer_reading covered).orReturn read)
  rintro sender ⟨senderCovered, covered⟩
  apply Ends.bind ((readU8_reads.reading covered).orReturn read)
  intro senderType covered
  apply Ends.bind ((readSubBuffer_reading covered).orReturn read)
  rintro recipient ⟨recipientCovered, covered⟩
  apply Ends.bind ((readU8_reads.reading covered).orReturn read)
  intro recipientType covered
  apply Ends.bind ((readU64_reads.reading covered).orReturn read)
  intro value covered
  apply Ends.bind (parseAmount_clean _)
  intro valueText _
  apply Ends.bind ((readU64_reads.reading covered).orReturn read)
  intro fee covered
  apply Ends.bind (parseAmount_clean _)
  intro feeText _
  apply Ends.bind ((readU32_reads.reading covered).orReturn read)
  intro validityStartHeight covered
  apply Ends.bind ((readU8_reads.reading covered).orReturn read)
  intro networkId covered
  apply Ends.bind (parseNetworkId_clean version _)
  intro networkText _
  apply Ends.bind ((readU8_reads.reading covered).orReturn read)
  intro flags covered
  apply Ends.bind (readSenderData_clean version covered)
  rintro senderData ⟨senderDataCovered, covered⟩
  apply Ends.bind (Clean.returnOn (by decide))
  intro _ _
  exact .returned ⟨dataCovered, senderCovered, recipientCovered, senderDataCovered⟩

/-! ## The data of each kind of transaction -/

theorem isStakingContract_clean
    (covered : Covered memory ⟨address, 20⟩) :
    Clean (fun _ => True) (isStakingContract memory address) := by
  unfold isStakingContract
  apply Ends.bind covered.load
  intro bytes _
  exact .returned trivial

theorem parseNormalTxData_clean
    (covered : Covered memory data) :
    Clean (fun _ => True) (parseNormalTxData memory data) := by
  obtain ⟨bytes, covers⟩ := covered
  rw [parseNormalTxData_eq covers]
  split
  · exact .returned trivial
  · exact .threw (by decide : ErrorCode.Known .invalidLength)

theorem parseHashAlgorithm_clean (byte : UInt8) :
    Clean (fun _ => True) (parseHashAlgorithm byte) := by
  have incorrectData : ErrorCode.Known .incorrectData := by decide
  unfold parseHashAlgorithm
  cases HashAlgorithm.ofCode? byte with
  | none => exact .threw incorrectData
  | some algorithm =>
      cases algorithm with
      | argon2d => exact .threw incorrectData
      | blake2b => exact .returned trivial
      | sha256 => exact .returned trivial
      | sha512 => exact .returned trivial

theorem hashSize_bounds (algorithm : HashAlgorithm) :
    0 < algorithm.hashSize ∧ algorithm.hashSize ≤ 64 := by
  cases algorithm <;> decide

/-- A hash is printed. -/
theorem printHash_succeeds
    (size : digest.length = HashAlgorithm.hashSize algorithm) :
    ∃ text, printHex digest (List.replicate stringLengthHashRoot 0) =
      .ok text := by
  obtain ⟨positive, short⟩ := hashSize_bounds algorithm
  have nonempty : digest ≠ [] := by
    rintro rfl
    rw [← size] at positive
    exact absurd positive (by decide)
  have room : 2 * digest.length + 1 ≤
      (List.replicate stringLengthHashRoot (0 : UInt8)).length := by
    rw [List.length_replicate, size, stringLengthHashRoot]
    omega
  exact ⟨_, printHex_eq nonempty room⟩

theorem parseHtlcCreationData_clean
    (device : Device)
    (version : TransactionVersion)
    (senderType : UInt8)
    (validityStartHeight : UInt32)
    (covered : Covered memory data)
    (senderCovered : Covered memory ⟨sender, 20⟩) :
    Clean (fun _ => True) (parseHtlcCreationData device version memory data
      sender senderType validityStartHeight) := by
  have read : ErrorCode.Known .read := by decide
  unfold parseHtlcCreationData
  apply Ends.bind (Clean.returnOn (by decide))
  intro _ _
  apply Ends.bind ((readSubBuffer_reading covered).orReturn read)
  rintro refund ⟨refundCovered, covered⟩
  apply Ends.bind refundCovered.load
  intro refundBytes refundSize
  apply Ends.bind (printAddress_clean refundSize)
  intro refundAddress _
  apply Ends.bind senderCovered.load
  intro senderBytes _
  apply Ends.bind (Clean.returnOn (by decide))
  intro _ _
  apply Ends.bind ((readSubBuffer_reading covered).orReturn read)
  rintro redeem ⟨redeemCovered, covered⟩
  apply Ends.bind redeemCovered.load
  intro redeemBytes redeemSize
  apply Ends.bind (printAddress_clean redeemSize)
  intro redeemAddress _
  apply Ends.bind ((readU8_reads.reading covered).orReturn read)
  intro hashAlgorithmByte covered
  apply Ends.bind (parseHashAlgorithm_clean _)
  rintro ⟨algorithm, name⟩ _
  apply Ends.bind ((readSubBuffer_reading covered).orReturn read)
  rintro hash ⟨hashCovered, covered⟩
  apply Ends.bind hashCovered.load
  intro hashBytes hashLength
  obtain ⟨hashRoot, printed⟩ := printHash_succeeds hashLength
  rw [printed, Run.bind_ok]
  apply Ends.bind ((readU8_reads.reading covered).orReturn read)
  intro hashCount covered
  apply Ends.bind ((readU32_reads.reading covered).orReturn read)
  intro timeout covered
  apply Ends.bind (Clean.returnOn (by decide))
  intro _ _
  exact .returned trivial

theorem readVestingParameters_clean
    (txAmount : UInt64)
    (covered : Covered memory data) :
    Clean (fun out => Covered memory out.2)
      (readVestingParameters memory data txAmount) := by
  have read : ErrorCode.Known .read := by decide
  unfold readVestingParameters
  apply Ends.ite
  · intro _
    apply Ends.bind ((readU32_reads.reading covered).orReturn read)
    intro stepBlockCount covered
    exact .returned covered
  · intro _
    apply Ends.bind ((readU32_reads.reading covered).orReturn read)
    intro startBlock covered
    apply Ends.bind ((readU32_reads.reading covered).orReturn read)
    intro stepBlockCount covered
    apply Ends.bind ((readU64_reads.reading covered).orReturn read)
    intro stepAmount covered
    apply Ends.ite
    · intro _
      apply Ends.bind ((readU64_reads.reading covered).orReturn read)
      intro totalLockedAmount covered
      exact .returned covered
    · intro _
      exact .returned covered

theorem vestingSchedule_clean
    (txAmount : UInt64)
    (parameters : VestingParameters) :
    Clean (fun _ => True) (vestingSchedule txAmount parameters) := by
  unfold vestingSchedule
  apply Ends.ite
  · intro _
    exact .returned trivial
  · intro _
    apply Ends.bind (Clean.returnOn (by decide))
    intro _ _
    apply Ends.bind (Clean.returnOn (by decide))
    intro _ _
    exact .returned trivial

theorem parseVestingCreationData_clean
    (device : Device)
    (version : TransactionVersion)
    (senderType : UInt8)
    (txAmount : UInt64)
    (covered : Covered memory data)
    (senderCovered : Covered memory ⟨sender, 20⟩) :
    Clean (fun _ => True) (parseVestingCreationData device version memory data
      sender senderType txAmount) := by
  have printAmount : ∀ amount, Clean (fun _ => True)
      (Run.orReturn .incorrectData
        (parseAmount amount (some (ascii "NIM")))) := fun amount =>
    (parseAmount_clean amount).orReturn (by decide)
  unfold parseVestingCreationData
  apply Ends.bind (Clean.returnOn (by decide))
  intro _ _
  apply Ends.bind ((readSubBuffer_reading covered).orReturn (by decide))
  rintro owner ⟨ownerCovered, covered⟩
  apply Ends.bind ownerCovered.load
  intro ownerBytes ownerSize
  apply Ends.bind (printAddress_clean ownerSize)
  intro ownerAddress _
  apply Ends.bind senderCovered.load
  intro senderBytes _
  apply Ends.bind (Clean.returnOn (by decide))
  intro _ _
  apply Ends.bind (readVestingParameters_clean txAmount covered)
  intro parameters covered
  apply Ends.bind (Clean.returnOn (by decide))
  intro _ _
  apply Ends.bind (vestingSchedule_clean txAmount _)
  intro schedule _
  apply Ends.bind (printAmount _)
  intro stepAmount _
  apply Ends.bind (printAmount _)
  intro firstStepAmount _
  apply Ends.bind (printAmount _)
  intro lastStepAmount _
  apply Ends.bind (printAmount _)
  intro preVestedAmount _
  exact .returned trivial

theorem parseDelegation_clean
    (device : Device)
    (covered : Covered memory data) :
    Clean (fun out => Covered memory out.2)
      (parseDelegation device memory data) := by
  unfold parseDelegation
  apply Ends.bind ((readBool_reading covered).orReturn (by decide))
  intro hasDelegation covered
  apply Ends.ite
  · intro _
    apply Ends.bind ((readSubBuffer_reading covered).orReturn (by decide))
    rintro pointer ⟨pointerCovered, covered⟩
    apply Ends.bind pointerCovered.load
    intro bytes size
    apply Ends.bind (printAddress_clean size)
    intro delegation _
    exact .returned covered
  · intro _
    exact .returned covered

theorem parseStakingAmount_clean
    (covered : Covered memory data) :
    Clean (fun out => Covered memory out.2)
      (parseStakingAmount memory data) := by
  unfold parseStakingAmount
  apply Ends.bind ((readU64_reads.reading covered).orReturn (by decide))
  intro amount covered
  apply Ends.bind (parseAmount_clean _)
  intro text _
  exact .returned covered

theorem parseStakingPayload_clean
    (device : Device)
    (type : StakingIncomingDataType)
    (covered : Covered memory data) :
    Clean (fun out => (∀ address, out.2.1 = some address →
        address.length = 20) ∧ Covered memory out.2.2)
      (parseStakingPayload device memory type data) := by
  have notSupported : ErrorCode.Known .notSupported := by decide
  unfold parseStakingPayload
  cases type with
  | createStaker =>
      apply Ends.bind (parseDelegation_clean device covered)
      intro delegation covered
      exact .returned ⟨by simp, covered⟩
  | updateStaker =>
      apply Ends.bind (parseDelegation_clean device covered)
      intro delegation covered
      apply Ends.bind ((readBool_reading covered).orReturn (by decide))
      intro reactivateAllStake covered
      exact .returned ⟨by simp, covered⟩
  | addStake =>
      apply Ends.bind ((readSubBuffer_reading covered).orReturn (by decide))
      rintro pointer ⟨pointerCovered, covered⟩
      apply Ends.bind pointerCovered.load
      intro address size
      refine .returned ⟨?_, covered⟩
      intro other otherEq
      cases otherEq
      exact size
  | setActiveStake | retireStake =>
      apply Ends.bind (parseStakingAmount_clean covered)
      intro amount covered
      exact .returned ⟨by simp, covered⟩
  | createValidator | updateValidator | deactivateValidator
  | reactivateValidator | retireValidator => exact .threw notSupported

theorem isEmptyDefaultSignatureProof_clean
    (publicKeyCovered : Covered memory ⟨proof.publicKey, 32⟩)
    (signatureCovered : Covered memory ⟨proof.signature, 64⟩) :
    Clean (fun _ => True) (isEmptyDefaultSignatureProof memory proof) := by
  unfold isEmptyDefaultSignatureProof
  apply Ends.ite
  · intro _
    exact .returned trivial
  · intro _
    apply Ends.bind publicKeyCovered.load
    intro publicKey _
    apply Ends.ite
    · intro _
      exact .returned trivial
    · intro _
      apply Ends.bind signatureCovered.load
      intro signature _
      exact .returned trivial

theorem publicKeyToAddress_clean
    (device : Device)
    (publicKey : List UInt8) :
    Clean (fun _ => True) (publicKeyToAddress device publicKey) := by
  unfold publicKeyToAddress
  cases device.address publicKey with
  | some address => exact .returned trivial
  | none => exact .threw (by decide : ErrorCode.Known .cryptography)

theorem parseStakerProof_clean
    (device : Device)
    (covered : Covered memory data) :
    Clean (fun out => (∀ address, out.2.1 = some address →
        address.length = 20) ∧ Covered memory out.2.2)
      (parseStakerProof device memory data) := by
  unfold parseStakerProof
  apply Ends.bind ((readSignatureProof_reading covered).orReturn (by decide))
  rintro ⟨proof, data⟩ ⟨publicKeyCovered, signatureCovered, covered⟩
  apply Ends.bind (Clean.returnOn (by decide))
  intro _ _
  apply Ends.bind (isEmptyDefaultSignatureProof_clean publicKeyCovered
    signatureCovered)
  intro isEmptyDefault _
  apply Ends.ite
  · intro _
    exact .returned ⟨by simp, covered⟩
  · intro _
    apply Ends.bind publicKeyCovered.load
    intro publicKey _
    apply Ends.bind (publicKeyToAddress_clean device publicKey)
    intro address _
    refine .returned ⟨?_, covered⟩
    intro other otherEq
    cases otherEq
    exact address.property

theorem parseProofAndStaker_clean
    (device : Device)
    (type : StakingIncomingDataType)
    (addedToSize : ∀ address, addedTo = some address →
      address.length = 20)
    (covered : Covered memory data) :
    Clean (fun out => (∀ address, out.2.1 = some address →
        address.length = 20) ∧ Covered memory out.2.2)
      (parseProofAndStaker device memory type addedTo data) := by
  unfold parseProofAndStaker
  apply Ends.ite
  · intro _
    exact parseStakerProof_clean device covered
  · intro _
    exact .returned ⟨addedToSize, covered⟩

theorem printStakerAddress_clean
    (device : Device)
    (senderCovered : Covered memory ⟨sender, 20⟩)
    (size : ∀ address, staker = some address → address.length = 20) :
    Clean (fun _ => True)
      (printStakerAddress device memory sender staker) := by
  unfold printStakerAddress
  cases staker with
  | none => exact .returned trivial
  | some address =>
      apply Ends.bind senderCovered.load
      intro senderBytes _
      apply Ends.ite
      · intro _
        exact printAddress_clean (size address rfl)
      · intro _
        exact .returned trivial

theorem parseStakingIncomingData_clean
    (device : Device)
    (version : TransactionVersion)
    (covered : Covered memory data)
    (senderCovered : Covered memory ⟨sender, 20⟩) :
    Clean (fun _ => True)
      (parseStakingIncomingData device version memory data sender) := by
  unfold parseStakingIncomingData
  apply Ends.bind (Clean.returnOn (by decide))
  intro _ _
  apply Ends.bind ((readU8_reads.reading covered).orReturn (by decide))
  rintro ⟨typeByte, data⟩ covered
  cases typeEq : StakingIncomingDataType.ofCode? typeByte with
  | none =>
      simp only [typeEq]
      exact .threw (by decide : ErrorCode.Known .notSupported)
  | some type =>
      simp only [typeEq]
      apply Ends.bind (parseStakingPayload_clean device type covered)
      rintro payload ⟨addedTo, covered⟩
      apply Ends.bind (parseProofAndStaker_clean device type addedTo covered)
      rintro proof ⟨size, covered⟩
      apply Ends.bind (Clean.returnOn (by decide))
      intro _ _
      apply Ends.bind (printStakerAddress_clean device senderCovered size)
      intro text _
      exact .returned trivial

theorem parseStakingOutgoingData_clean
    (version : TransactionVersion)
    (covered : Covered memory data) :
    Clean (fun _ => True)
      (parseStakingOutgoingData version memory data) := by
  unfold parseStakingOutgoingData
  apply Ends.bind (Clean.returnOn (by decide))
  intro _ _
  apply Ends.bind ((readU8_reads.reading covered).orReturn (by decide))
  rintro ⟨typeByte, senderData⟩ covered
  cases typeEq : StakingOutgoingDataType.ofCode? typeByte with
  | none =>
      simp only [typeEq]
      exact .threw (by decide : ErrorCode.Known .incorrectData)
  | some type =>
      simp only [typeEq]
      apply Ends.bind (Clean.returnOn (by decide))
      intro _ _
      exact .returned trivial

variable {fields : TxFields}

theorem parseStakingOutgoingTx_clean
    (device : Device)
    (version : TransactionVersion)
    (inBuffer : fields.InBuffer memory) :
    Clean (fun _ => True)
      (parseStakingOutgoingTx device version memory fields) := by
  unfold parseStakingOutgoingTx
  apply Ends.bind (Clean.returnOn (by decide))
  intro _ _
  apply Ends.bind (isStakingContract_clean inBuffer.sender)
  intro fromStakingContract _
  apply Ends.bind (Clean.returnOn (by decide))
  intro _ _
  apply Ends.bind (parseStakingOutgoingData_clean version inBuffer.senderData)
  intro type _
  have label : Clean (fun _ => True) (stakingOutgoingLabel type) := by
    cases type with
    | removeStake => exact .returned trivial
    | deleteValidator => exact .threw (by decide : ErrorCode.Known .notSupported)
  apply Ends.bind label
  intro label _
  apply Ends.bind inBuffer.recipient.load
  intro recipientBytes size
  apply Ends.bind (printAddress_clean size)
  intro recipient _
  exact .returned trivial

theorem parseBasicTx_clean
    (device : Device)
    (inBuffer : fields.InBuffer memory) :
    Clean (fun _ => True) (parseBasicTx device memory fields) := by
  unfold parseBasicTx
  apply Ends.bind (Clean.returnOn (by decide))
  intro _ _
  apply Ends.bind (parseNormalTxData_clean inBuffer.data)
  intro normal _
  apply Ends.bind inBuffer.recipient.load
  intro recipientBytes size
  apply Ends.bind (printAddress_clean size)
  intro recipient _
  exact .returned trivial

theorem checkContractCreation_clean (fields : TxFields) :
    Clean (fun _ => True) (checkContractCreation fields) :=
  (Clean.returnOn (by decide)).imp fun _ _ => trivial

theorem parseVestingTx_clean
    (device : Device)
    (version : TransactionVersion)
    (inBuffer : fields.InBuffer memory) :
    Clean (fun _ => True) (parseVestingTx device version memory fields) := by
  unfold parseVestingTx
  apply Ends.bind (checkContractCreation_clean fields)
  intro _ _
  apply Ends.bind (parseVestingCreationData_clean device version _ _
    inBuffer.data inBuffer.sender)
  intro vesting _
  exact .returned trivial

theorem parseHtlcTx_clean
    (device : Device)
    (version : TransactionVersion)
    (inBuffer : fields.InBuffer memory) :
    Clean (fun _ => True) (parseHtlcTx device version memory fields) := by
  unfold parseHtlcTx
  apply Ends.bind (checkContractCreation_clean fields)
  intro _ _
  apply Ends.bind (parseHtlcCreationData_clean device version _ _
    inBuffer.data inBuffer.sender)
  intro htlc _
  exact .returned trivial

theorem stakingIncomingLabel_clean (type : StakingIncomingDataType) :
    Clean (fun _ => True) (stakingIncomingLabel type) := by
  have notSupported : ErrorCode.Known .notSupported := by decide
  cases type with
  | createStaker | addStake | updateStaker | setActiveStake | retireStake =>
      exact .returned trivial
  | createValidator | updateValidator | deactivateValidator
  | reactivateValidator | retireValidator => exact .threw notSupported

theorem parseStakingIncomingTx_clean
    (device : Device)
    (version : TransactionVersion)
    (inBuffer : fields.InBuffer memory) :
    Clean (fun _ => True)
      (parseStakingIncomingTx device version memory fields) := by
  unfold parseStakingIncomingTx
  apply Ends.bind (Clean.returnOn (by decide))
  intro _ _
  apply Ends.bind (isStakingContract_clean inBuffer.recipient)
  intro toStakingContract _
  apply Ends.bind (Clean.returnOn (by decide))
  intro _ _
  apply Ends.bind (parseStakingIncomingData_clean device version
    inBuffer.data inBuffer.sender)
  intro staking _
  apply Ends.bind (stakingIncomingLabel_clean _)
  intro label _
  apply Ends.bind (Clean.returnOn (by decide))
  intro _ _
  exact .returned trivial

theorem parseTxContent_clean
    (device : Device)
    (version : TransactionVersion)
    (inBuffer : fields.InBuffer memory) :
    Clean (fun _ => True) (parseTxContent device version memory fields) := by
  unfold parseTxContent
  apply Ends.ite
  · intro _
    exact parseStakingOutgoingTx_clean device version inBuffer
  · intro _
    cases AccountType.ofCode? fields.recipientType with
    | none => exact .threw (by decide : ErrorCode.Known .incorrectData)
    | some type =>
        cases type with
        | basic => exact parseBasicTx_clean device inBuffer
        | vesting => exact parseVestingTx_clean device version inBuffer
        | htlc => exact parseHtlcTx_clean device version inBuffer
        | staking =>
            exact parseStakingIncomingTx_clean device version inBuffer

end Parsers

/-- Every buffer is accepted or refused with a known error. -/
theorem parseTx_clean
    (device : Device)
    (version : UInt8)
    (buffer : List UInt8) :
    Clean (fun _ => True) (parseTx device version buffer) := by
  unfold parseTx
  split
  · exact .threw (by decide : ErrorCode.Known .notSupported)
  · rename_i known _
    apply Ends.bind (readTxFields_clean known ⟨buffer, Covers.whole buffer⟩)
    intro fields inBuffer
    apply Ends.bind (parseTxContent_clean device known inBuffer)
    intro content _
    exact .returned trivial

/-! ## Status words -/

/-- A known error has a status word, which is not that of success. -/
theorem errorToSw_known (known : code.Known) :
    ∃ sw, (errorToSw code : Run StatusWord StatusWord) = .ok sw ∧
      sw ≠ .ok := by
  cases code with
  | errorTrue => exact absurd rfl known.1
  | unexpected => exact absurd rfl known.2
  | read | invalidLength => exact ⟨.wrongDataLength, rfl, by decide⟩
  | incorrectData => exact ⟨.incorrectData, rfl, by decide⟩
  | notSupported => exact ⟨.notSupported, rfl, by decide⟩
  | cryptography => exact ⟨.cryptographyFail, rfl, by decide⟩

/-- The errors `parse_tx` may return. -/
def parseTxErrors : List ErrorCode :=
  [.read, .invalidLength, .incorrectData, .notSupported, .cryptography]

theorem mem_parseTxErrors : code ∈ parseTxErrors ↔ code.Known := by
  cases code <;> decide

/-- A transaction is accepted, or refused with one of the errors that have a
status word; the request is refused with that one. -/
structure FailsCleanly (device : Device) (version : UInt8)
    (buffer : List UInt8) : Prop where
  outcome :
    (∃ parsed, parseTx device version buffer = .ok parsed) ∨
      ∃ code ∈ parseTxErrors,
        parseTx device version buffer = .error (.error code)
  statusWord : ∀ code,
    parseTx device version buffer = .error (.error code) →
      ∃ sw, sw ≠ .ok ∧ Run.orErrorToSw (parseTx device version buffer) =
        .error (.error sw)

theorem parseTx_failsCleanly
    (device : Device)
    (version : UInt8)
    (buffer : List UInt8) :
    FailsCleanly device version buffer := by
  have clean := parseTx_clean device version buffer
  cases result : parseTx device version buffer with
  | ok parsed =>
      refine ⟨Or.inl ⟨parsed, result⟩, ?_⟩
      intro code refused
      rw [result] at refused
      cases refused
  | error stop =>
      rw [result] at clean
      cases clean with
      | threw holds =>
          cases stop with
          | fault reason => cases holds
          | error code =>
              refine ⟨Or.inr ⟨code, mem_parseTxErrors.mpr holds, result⟩, ?_⟩
              intro other _
              obtain ⟨sw, swEq, notOk⟩ := errorToSw_known holds
              refine ⟨sw, notOk, ?_⟩
              rw [result]
              change errorToSw code >>= Run.fail = _
              rw [swEq]
              rfl

/-- The transaction that is complete with the last chunk is accepted, but
creates a contract, and an assertion of the NBGL build fails at its review. -/
def App.FailsReview (app : App) (p1 p2 : UInt8) (memory : List UInt8)
    (data : Slice) (req : app.layout.Memory) : Prop :=
  p2 = p2Last ∧ app.ui = .nbgl ∧ ∃ tx bytes parsed,
    (app.layout.tx.read req).chunk p1 memory data = .ok tx ∧
    (tx.signedBytes : Run Empty _) = .ok bytes ∧
    CreatesContract bytes ∧
    parseTx app.toDevice tx.transactionVersion bytes = .ok parsed ∧
    (app.ui.uiTransactionSigning parsed : Run StatusWord Unit) =
      .error (.fault .assertion)

/-- The length of a further chunk and the one in memory are no word of 32 bits
together. -/
def App.LengthWraps (app : App) (p1 : UInt8) (data : Slice)
    (req : app.layout.Memory) : Prop :=
  p1 = p1More ∧
    2 ^ 32 ≤ (app.layout.tx.read req).rawTxLength.toNat + data.length

/-- A request ends with a status word other than that of success.  Only the
review of a transaction that was accepted fails an assertion, and only a
length in memory that was not left by chunks leads out of the buffer. -/
def App.Refusal (app : App) (p1 p2 : UInt8) (memory : List UInt8)
    (data : Slice) (req : app.layout.Memory) : Stop StatusWord → Prop
  | .error sw => sw ≠ .ok
  | .fault reason =>
      reason = .assertion ∧ app.FailsReview p1 p2 memory data req ∨
        reason = .outOfBounds ∧ app.LengthWraps p1 data req

section Requests

variable {app : App}

/-- The review of a transaction that was accepted starts, or the assertion of
the NBGL build for the creation of a contract fails. -/
theorem UserInterface.uiTransactionSigning_stop
    {ui : UserInterface}
    (parse : parseTx device version buffer = .ok parsed)
    (stopped : ui.uiTransactionSigning parsed = .error stop) :
    stop = .fault .assertion ∧ ui = .nbgl ∧ CreatesContract buffer := by
  obtain ⟨known, _, accepted, rfl, _, rfl⟩ :=
    (parseTx_eq_ok_iff device).mp parse
  unfold UserInterface.uiTransactionSigning at stopped
  cases ui with
  | bagl =>
      simp only [Bagl.uiTransactionSigning_eq device accepted] at stopped
      cases stopped
  | nbgl =>
      by_cases contract : accepted.content.IsContractCreation
      · simp only [Nbgl.uiTransactionSigning_contract device accepted contract]
          at stopped
        cases stopped
        exact ⟨rfl, rfl, accepted.createsContract_iff.mpr contract⟩
      · simp only [Nbgl.uiTransactionSigning_eq device accepted contract]
          at stopped
        cases stopped

/-- A sequence stops in its first or in its second part. -/
theorem Run.bind_eq_error
    {first : Run ε α} {next : α → Run ε β} {stop : Stop ε} :
    first >>= next = .error stop ↔
      first = .error stop ∨
        ∃ value, first = .ok value ∧ next value = .error stop := by
  cases first with
  | ok value => simp
  | error other => simp

/-- If the review of what is in the buffer does not start with a status word,
an assertion fails for the transaction that was parsed. -/
theorem App.reviewTransaction_fault
    {tx : TransactionContext}
    (short : tx.rawTxLength.toNat ≤ maxRawTx)
    (faults : app.reviewTransaction tx = .error (.fault reason)) :
    reason = .assertion ∧ app.ui = .nbgl ∧ ∃ bytes parsed,
      (tx.signedBytes : Run Empty _) = .ok bytes ∧
      CreatesContract bytes ∧
      parseTx app.toDevice tx.transactionVersion bytes = .ok parsed ∧
      (app.ui.uiTransactionSigning parsed : Run StatusWord Unit) =
        .error (.fault .assertion) := by
  have within : tx.rawTxLength.toNat ≤ tx.rawTx.val.length := by
    rw [tx.rawTx.property]
    exact short
  have failure := parseTx_failsCleanly app.toDevice tx.transactionVersion
    (tx.rawTx.val.take tx.rawTxLength.toNat)
  unfold App.reviewTransaction at faults
  rw [load_front within, Run.bind_ok] at faults
  rcases failure.outcome with ⟨parsed, accepted⟩ | ⟨code, _, refused⟩
  · rw [accepted] at faults
    change app.ui.uiTransactionSigning parsed >>= _ = _ at faults
    rcases Run.bind_eq_error.mp faults with stopped | ⟨_, _, stopped⟩
    · obtain ⟨isAssertion, isNbgl, contract⟩ :=
        UserInterface.uiTransactionSigning_stop accepted stopped
      cases isAssertion
      exact ⟨rfl, isNbgl, _, parsed, load_front within, contract, accepted,
        stopped⟩
    · cases stopped
  · obtain ⟨sw, _, swEq⟩ := failure.statusWord code refused
    rw [swEq] at faults
    cases faults

/-- What a request to sign a transaction leads to: the response to a chunk, or
the review of a transaction that was accepted. -/
def App.Answered (app : App) (p2 : UInt8) (handled : Handled app) : Prop :=
  (p2 = p2More ∧ handled.answer = .response []) ∨
    ∃ tx bytes, handled.answer = .review (.transaction tx) ∧
      tx.Reviewed app.toDevice bytes

/-- A request that is handled collects a chunk, or starts a review. -/
theorem App.handleSignTransaction_answered
    (result : app.handleSignTransaction p1 p2 memory slice req =
      .ok handled) :
    app.Answered p2 handled := by
  unfold App.handleSignTransaction App.finishTransactionChunk at result
  obtain ⟨_, _, result⟩ := Run.bind_eq_ok.mp result
  obtain ⟨tx, _, result⟩ := Run.bind_eq_ok.mp result
  split at result
  · rename_i more
    cases result
    exact Or.inl ⟨more, rfl⟩
  · obtain ⟨next, review, result⟩ := Run.bind_eq_ok.mp result
    obtain ⟨bytes, reviewed⟩ := (App.reviewTransaction_reviewed review).2
    cases result
    exact Or.inr ⟨next, bytes, rfl, reviewed⟩

/-- A request faults at the review of a transaction, or where the length of a
chunk wraps. -/
theorem App.handleSignTransaction_fault
    {req : app.layout.Memory}
    (covered : Covered memory slice)
    (faults : app.handleSignTransaction p1 p2 memory slice req =
      .error (.fault reason)) :
    app.Refusal p1 p2 memory slice req (.fault reason) := by
  obtain ⟨part, covers⟩ := covered
  unfold App.handleSignTransaction at faults
  rcases Run.bind_eq_error.mp faults with faults | ⟨_, checked, faults⟩
  · unfold checkChunkParameters Run.returnOn at faults
    split at faults <;> cases faults
  obtain ⟨p1Cases, p2Cases⟩ := checkChunkParameters_inversion checked
  rcases Run.bind_eq_error.mp faults with faults | ⟨tx, chunk, faults⟩
  · obtain ⟨outside, notFirst, wraps⟩ :=
      TransactionContext.chunk_fault covers faults
    exact Or.inr ⟨outside, p1Cases.resolve_left notFirst, wraps⟩
  · unfold App.finishTransactionChunk at faults
    split at faults
    · cases faults
    rename_i notMore
    rcases Run.bind_eq_error.mp faults with faults | ⟨_, _, faults⟩
    · obtain ⟨isAssertion, isNbgl, bytes, parsed, loaded, contract, parse,
        stopped⟩ := App.reviewTransaction_fault
          (TransactionContext.chunk_length_le chunk) faults
      exact Or.inl ⟨isAssertion, p2Cases.resolve_right notMore, isNbgl, tx,
        bytes, parsed, chunk, loaded, contract, parse, stopped⟩
    · cases faults

/-- How a request to sign a transaction ends. -/
theorem App.handleSignTransaction_ends
    (p1 p2 : UInt8)
    (req : app.layout.Memory)
    (covered : Covered memory slice) :
    Ends (app.Answered p2) (app.Refusal p1 p2 memory slice req)
      (app.handleSignTransaction p1 p2 memory slice req) := by
  rcases result : app.handleSignTransaction p1 p2 memory slice req with
    (sw | reason) | handled
  · exact .threw
      ((app.handleSignTransaction_refusing _ _ _ _ _).sw_ne_ok result)
  · exact .threw (App.handleSignTransaction_fault covered result)
  · exact .returned (App.handleSignTransaction_answered result)

end Requests

/-- All of an app fails cleanly on malformed transactions. -/
structure App.FailsCleanly (app : App) : Prop where
  /-- The parser returns one of its errors, and faults nowhere. -/
  parser : ∀ version buffer,
    NimiqApp.FailsCleanly app.toDevice version buffer
  /-- The translation of its errors does not exit the app. -/
  translation : ∀ version buffer,
    Run.NoFault (Run.orErrorToSw (parseTx app.toDevice version buffer))
  /-- A request is refused with a status word that is not that of success,
  unless the transaction is accepted; whatever is around its data. -/
  request : ∀ p1 p2 front data rest req,
    Ends (app.Answered p2)
      (app.Refusal p1 p2 (front ++ data ++ rest)
        ⟨some front.length, data.length⟩ req)
      (app.handleSignTransaction p1 p2 (front ++ data ++ rest)
        ⟨some front.length, data.length⟩ req)

/-- Malformed transactions fail cleanly in every app. -/
theorem App.malformedTransactions_failCleanly (app : App) :
    app.FailsCleanly := by
  refine ⟨parseTx_failsCleanly app.toDevice, ?_, ?_⟩
  · intro version buffer
    have failure := parseTx_failsCleanly app.toDevice version buffer
    rcases failure.outcome with ⟨parsed, accepted⟩ | ⟨code, _, refused⟩
    · rw [accepted]
      exact Run.NoFault.ok parsed
    · obtain ⟨sw, _, swEq⟩ := failure.statusWord code refused
      rw [swEq]
      exact Run.NoFault.error sw
  · intro p1 p2 front data rest req
    apply App.handleSignTransaction_ends
    exact ⟨data, Covers.behind front data rest⟩

end NimiqApp
