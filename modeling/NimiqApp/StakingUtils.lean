import NimiqApp.Amount
import NimiqApp.SignatureProof

/-!
# Staking transactions

`parse_staking_incoming_data` reads what a transaction tells the staking
contract, and `parse_staking_outgoing_data` what is taken out of it.  The
pointers of a signature proof are kept, so that the proof can be filled in
later.
-/

namespace NimiqApp

/-- The union in `tx_data_staking_incoming_t`; nothing is written for types
without data of their own. -/
inductive StakingTypeSpecific
  | unset
  | createStakerOrUpdateStaker
      (delegation updateStakerReactivateAllStake : CString)
  | setActiveStakeOrRetireStake (amount : CString)
  deriving DecidableEq, Repr

/-- `tx_data_staking_incoming_t`. -/
structure TxDataStakingIncoming where
  type : StakingIncomingDataType
  hasValidatorOrStakerSignatureProof : Bool
  validatorOrStakerSignatureProof : SignatureProof
  validatorOrStakerAddress : CString
  typeSpecific : StakingTypeSpecific
  deriving DecidableEq, Repr

/-- The optional delegation of `CREATE_STAKER` and `UPDATE_STAKER`. -/
def parseDelegation (device : Device) (memory : List UInt8) (data : Slice) :
    Run ErrorCode (CString × Slice) := do
  let (hasDelegation, data) ← Run.orReturn .read (readBool memory data)
  if hasDelegation then
    let (pointer, data) ← Run.orReturn .read (readSubBuffer 20 data)
    let delegationAddress ← load memory pointer 20
    let delegation ← printAddress device.pastTotalNumber delegationAddress
    pure (delegation, data)
  else
    pure (ascii "", data)

/-- The amount of `SET_ACTIVE_STAKE` and `RETIRE_STAKE`. -/
def parseStakingAmount (memory : List UInt8) (data : Slice) :
    Run ErrorCode (StakingTypeSpecific × Slice) := do
  let (amount, data) ← Run.orReturn .read (readU64 memory data)
  let amount ← parseAmount amount (some (ascii "NIM"))
  pure (.setActiveStakeOrRetireStake amount, data)

/-- The switch of `parse_staking_incoming_data` over the type, returning what
is shown, the staker if it is part of the data, and the data left. -/
def parseStakingPayload (device : Device) (memory : List UInt8)
    (type : StakingIncomingDataType) (data : Slice) :
    Run ErrorCode (StakingTypeSpecific × Option (List UInt8) × Slice) :=
  match type with
  | .createStaker => do
      let (delegation, data) ← parseDelegation device memory data
      pure (.createStakerOrUpdateStaker delegation [], none, data)
  | .updateStaker => do
      let (delegation, data) ← parseDelegation device memory data
      let (reactivateAllStake, data) ←
        Run.orReturn .read (readBool memory data)
      let updateStakerReactivateAllStake :=
        if reactivateAllStake then ascii "Yes" else ascii "No"
      pure (.createStakerOrUpdateStaker delegation
        updateStakerReactivateAllStake, none, data)
  | .addStake => do
      let (pointer, data) ← Run.orReturn .read (readSubBuffer 20 data)
      let address ← load memory pointer 20
      pure (.unset, some address, data)
  | .setActiveStake | .retireStake => do
      let (typeSpecific, data) ← parseStakingAmount memory data
      pure (typeSpecific, none, data)
  | .createValidator | .updateValidator | .deactivateValidator
  | .reactivateValidator | .retireValidator => Run.fail .notSupported

/-- The signature proof of all types but `ADD_STAKE`, and its staker unless
the proof is the empty default. -/
def parseStakerProof (device : Device) (memory : List UInt8) (data : Slice) :
    Run ErrorCode (SignatureProof × Option (List UInt8) × Slice) := do
  let (proof, data) ← Run.orReturn .read (readSignatureProof memory data)
  Run.returnOn (proof.typeAndFlags ≠ 0 ∨ proof.merklePathLength ≠ 0)
    .notSupported
  let isEmptyDefault ← isEmptyDefaultSignatureProof memory proof
  if isEmptyDefault then
    pure (proof, none, data)
  else
    let publicKey ← load memory proof.publicKey 32
    let address ← publicKeyToAddress device publicKey
    pure (proof, some address.val, data)

/-- The staker is known from the signature proof of all types but
`ADD_STAKE`. -/
def parseProofAndStaker (device : Device) (memory : List UInt8)
    (type : StakingIncomingDataType) (addedTo : Option (List UInt8))
    (data : Slice) :
    Run ErrorCode (SignatureProof × Option (List UInt8) × Slice) :=
  if type ≠ .addStake then parseStakerProof device memory data
  else pure (SignatureProof.zero, addedTo, data)

/-- Print the staker if it is known and different to the sender. -/
def printStakerAddress (device : Device) (memory : List UInt8)
    (sender : Pointer) (staker : Option (List UInt8)) :
    Run ErrorCode CString :=
  match staker with
  | none => pure (ascii "")
  | some address => do
      let senderBytes ← load memory sender 20
      if address ≠ senderBytes then
        printAddress device.pastTotalNumber address
      else pure (ascii "")

/-- `parse_staking_incoming_data`. -/
def parseStakingIncomingData (device : Device) (version : TransactionVersion)
    (memory : List UInt8) (data : Slice) (sender : Pointer) :
    Run ErrorCode TxDataStakingIncoming := do
  Run.returnOn (version = .legacy) .incorrectData
  let (typeByte, data) ← Run.orReturn .read (readU8 memory data)
  match StakingIncomingDataType.ofCode? typeByte with
  | none => Run.fail .notSupported
  | some type =>
      let (typeSpecific, addedTo, data) ←
        parseStakingPayload device memory type data
      let (proof, staker, data) ←
        parseProofAndStaker device memory type addedTo data
      Run.returnOn (data.length ≠ 0) .invalidLength
      let validatorOrStakerAddress ←
        printStakerAddress device memory sender staker
      pure {
        type
        hasValidatorOrStakerSignatureProof := decide (type ≠ .addStake)
        validatorOrStakerSignatureProof := proof
        validatorOrStakerAddress
        typeSpecific }

/-- `parse_staking_outgoing_data`. -/
def parseStakingOutgoingData (version : TransactionVersion)
    (memory : List UInt8) (senderData : Slice) :
    Run ErrorCode StakingOutgoingDataType := do
  Run.returnOn (version = .legacy) .incorrectData
  let (typeByte, senderData) ← Run.orReturn .read (readU8 memory senderData)
  match StakingOutgoingDataType.ofCode? typeByte with
  | none => Run.fail .incorrectData
  | some type =>
      Run.returnOn (senderData.length ≠ 0) .invalidLength
      pure type

/-- `is_staking_contract`. -/
def isStakingContract (memory : List UInt8) (address : Pointer) :
    Run ErrorCode Bool := do
  let bytes ← load memory address 20
  pure ((bytes.take 19).all (· = 0) && bytes.getD 19 0 = 1)

/-- `is_signaling_transaction_data`. -/
def isSignalingTransactionData (type : StakingIncomingDataType) : Bool :=
  type = .updateValidator || type = .deactivateValidator ||
    type = .reactivateValidator || type = .retireValidator ||
    type = .updateStaker || type = .setActiveStake || type = .retireStake

/-- An optional delegation on the wire; every byte but zero announces it. -/
inductive Delegation
  | absent
  | present (flag : UInt8) (isSet : flag ≠ 0) (address : Bytes 20)

namespace Delegation

/-- The bytes of a delegation. -/
def encode : Delegation → List UInt8
  | absent => [0]
  | present flag _ address => [flag] ++ address.val

/-- The address delegated to. -/
def address? : Delegation → Option (Bytes 20)
  | absent => none
  | present _ _ address => some address

/-- How a delegation is shown. -/
def shown (delegation : Delegation) : CString :=
  match delegation.address? with
  | none => []
  | some address => userFriendlyAddress address.val

end Delegation

/-- The data of the types of incoming staking transactions for stakers,
without the signature proof. -/
inductive StakingPayload
  | createStaker (delegation : Delegation)
  | addStake (staker : Bytes 20)
  | updateStaker (delegation : Delegation) (reactivateAllStake : UInt8)
  | setActiveStake (amount : UInt64)
  | retireStake (amount : UInt64)

namespace StakingPayload

/-- The type of the data. -/
def type : StakingPayload → StakingIncomingDataType
  | createStaker _ => .createStaker
  | addStake _ => .addStake
  | updateStaker _ _ => .updateStaker
  | setActiveStake _ => .setActiveStake
  | retireStake _ => .retireStake

/-- The bytes of the data. -/
def encode : StakingPayload → List UInt8
  | createStaker delegation => delegation.encode
  | addStake staker => staker.val
  | updateStaker delegation reactivateAllStake =>
      delegation.encode ++ [reactivateAllStake]
  | setActiveStake amount => u64Bytes amount
  | retireStake amount => u64Bytes amount

/-- The staker that is part of the data. -/
def addedTo : StakingPayload → Option (Bytes 20)
  | addStake staker => some staker
  | _ => none

/-- Amounts can be printed. -/
def Payable : StakingPayload → Prop
  | setActiveStake amount => amount ≤ maxSafeLunaAmount
  | retireStake amount => amount ≤ maxSafeLunaAmount
  | _ => True

/-- What is shown for the type. -/
def shown : StakingPayload → StakingTypeSpecific
  | createStaker delegation =>
      .createStakerOrUpdateStaker delegation.shown []
  | addStake _ => .unset
  | updateStaker delegation reactivateAllStake =>
      .createStakerOrUpdateStaker delegation.shown
        (if reactivateAllStake ≠ 0 then ascii "Yes" else ascii "No")
  | setActiveStake amount =>
      .setActiveStakeOrRetireStake (amountWithTicker amount.toNat)
  | retireStake amount =>
      .setActiveStakeOrRetireStake (amountWithTicker amount.toNat)

end StakingPayload

/-- The data of an incoming staking transaction. -/
structure StakingData where
  payload : StakingPayload
  proof : Option ProofData
  /-- All types but `ADD_STAKE` have a signature proof. -/
  hasProof : proof.isSome = decide (payload.type ≠ .addStake)

namespace StakingData

/-- The bytes of the signature proof, if any. -/
def proofBytes (staking : StakingData) : List UInt8 :=
  match staking.proof with
  | none => []
  | some proof => proof.encode

/-- The data on the wire. -/
def encode (staking : StakingData) : List UInt8 :=
  [staking.payload.type.code] ++
    (staking.payload.encode ++ staking.proofBytes)

/-- The offset of the signature proof in the data. -/
def proofOffset (staking : StakingData) : Nat :=
  1 + staking.payload.encode.length

/-- The staker, unless it is left to the app to sign for the sender. -/
def staker (device : Device) (staking : StakingData) : Option (Bytes 20) :=
  match staking.proof with
  | none => staking.payload.addedTo
  | some proof =>
      if proof.IsEmptyDefault then none
      else device.address proof.publicKey.val

/-- The address of the staker is known when it is looked at. -/
def Hashable (device : Device) (staking : StakingData) : Prop :=
  ∀ proof, staking.proof = some proof → ¬proof.IsEmptyDefault →
    (device.address proof.publicKey.val).isSome

/-- The staker as it is shown: not at all if it is the sender. -/
def shownStaker (device : Device) (staking : StakingData)
    (sender : Bytes 20) : CString :=
  match staking.staker device with
  | none => []
  | some staker =>
      if staker = sender then [] else userFriendlyAddress staker.val

/-- How the data at an offset is shown. -/
def shown (device : Device) (staking : StakingData) (sender : Bytes 20)
    (offset : Nat) : TxDataStakingIncoming where
  type := staking.payload.type
  hasValidatorOrStakerSignatureProof := staking.proof.isSome
  validatorOrStakerSignatureProof :=
    if staking.proof.isSome then
      SignatureProof.atOffset (offset + staking.proofOffset)
    else SignatureProof.zero
  validatorOrStakerAddress := staking.shownStaker device sender
  typeSpecific := staking.payload.shown

end StakingData

/-- A delegation is read and shown. -/
theorem parseDelegation_eq
    (device : Device)
    (delegation : Delegation)
    (covers : Covers memory data (delegation.encode ++ rest)) :
    parseDelegation device memory data =
      .ok (delegation.shown, data.advance delegation.encode.length) := by
  unfold parseDelegation
  cases delegation with
  | absent =>
      rw [readBool_eq covers]
      rfl
  | present flag isSet address =>
      unfold Delegation.encode at covers
      rw [List.append_assoc] at covers
      have readAddress := covers.advance.readSubBuffer_eq
      have loaded := covers.advance.leading.load_eq (ε := ErrorCode)
      rw [address.property] at readAddress loaded
      rw [readBool_eq covers]
      simp only [List.length_singleton] at readAddress loaded
      simp only [Run.orReturn_ok, Run.bind_ok, bne_iff_ne, ne_eq, isSet,
        not_false_eq_true, if_true, readAddress, loaded,
        printAddress_eq address.property]
      simp [Delegation.shown, Delegation.address?, Delegation.encode,
        address.property, Nat.add_comm]

/-- What is read as a delegation is one. -/
theorem parseDelegation_inversion
    (covers : Covers memory data bytes)
    (result : parseDelegation device memory data = .ok (text, next)) :
    ∃ delegation rest, bytes = Delegation.encode delegation ++ rest ∧
      next = data.advance delegation.encode.length ∧
      Covers memory next rest := by
  unfold parseDelegation at result
  obtain ⟨⟨hasDelegation, _⟩, readFlag, result⟩ := Run.bind_eq_ok.mp result
  obtain ⟨flag, _, rfl, rfl, rfl, behind⟩ :=
    readBool_inversion covers (Run.orReturn_eq_ok.mp readFlag)
  by_cases isSet : flag = 0
  · subst isSet
    cases result
    exact ⟨.absent, _, rfl, rfl, behind⟩
  · simp only [bne_iff_ne, ne_eq, isSet, not_false_eq_true, if_true] at result
    obtain ⟨⟨pointer, _⟩, readAddress, result⟩ := Run.bind_eq_ok.mp result
    obtain ⟨_, _, result⟩ := Run.bind_eq_ok.mp result
    obtain ⟨_, _, result⟩ := Run.bind_eq_ok.mp result
    cases result
    obtain ⟨address, _, rfl, size, _, rfl, _, covers⟩ :=
      behind.readSubBuffer_inversion (Run.orReturn_eq_ok.mp readAddress)
    refine ⟨.present flag isSet ⟨address, size⟩, _, ?_, ?_, covers⟩
    · simp [Delegation.encode]
    · simp [Delegation.encode, size, Nat.add_comm]

/-- An amount is read and shown. -/
theorem parseStakingAmount_eq
    (amount : UInt64)
    (covers : Covers memory data (u64Bytes amount ++ rest))
    (bounded : amount ≤ maxSafeLunaAmount) :
    parseStakingAmount memory data =
      .ok (.setActiveStakeOrRetireStake (amountWithTicker amount.toNat),
        data.advance 8) := by
  unfold parseStakingAmount
  rw [readU64_reads.accept trivial covers, Run.orReturn_ok, Run.bind_ok]
  simp only
  rw [parseAmount_eq bounded, Run.bind_ok]
  rfl

/-- An amount that is read can be printed. -/
theorem parseStakingAmount_inversion
    (covers : Covers memory data bytes)
    (result : parseStakingAmount memory data = .ok (typeSpecific, next)) :
    ∃ amount rest, amount ≤ maxSafeLunaAmount ∧
      bytes = u64Bytes amount ++ rest ∧ next = data.advance 8 ∧
      Covers memory next rest := by
  unfold parseStakingAmount at result
  obtain ⟨⟨amount, _⟩, readAmount, result⟩ := Run.bind_eq_ok.mp result
  obtain ⟨_, printed, result⟩ := Run.bind_eq_ok.mp result
  cases result
  obtain ⟨rest, _, rfl, rfl, covers⟩ :=
    readU64_reads.inversion covers (Run.orReturn_eq_ok.mp readAmount)
  exact ⟨amount, rest, le_of_parseAmount_eq_ok printed, rfl, rfl, covers⟩

/-- The data of a type is read and shown. -/
theorem parseStakingPayload_eq
    (device : Device)
    (payload : StakingPayload)
    (covers : Covers memory data (payload.encode ++ rest))
    (payable : payload.Payable) :
    parseStakingPayload device memory payload.type data =
      .ok (payload.shown, payload.addedTo.map Subtype.val,
        data.advance payload.encode.length) := by
  cases payload with
  | createStaker delegation =>
      change (parseDelegation device memory data >>= _) = _
      rw [parseDelegation_eq device delegation covers]
      rfl
  | addStake staker =>
      unfold StakingPayload.encode at covers
      have readStaker := covers.readSubBuffer_eq
      have loaded := covers.leading.load_eq (ε := ErrorCode)
      rw [staker.property] at readStaker loaded
      change (Run.orReturn ErrorCode.read (readSubBuffer 20 data) >>= _) = _
      rw [readStaker, Run.orReturn_ok, Run.bind_ok]
      simp only
      rw [loaded, Run.bind_ok, StakingPayload.encode, staker.property]
      rfl
  | updateStaker delegation reactivateAllStake =>
      unfold StakingPayload.encode at covers
      rw [List.append_assoc] at covers
      change (parseDelegation device memory data >>= _) = _
      rw [parseDelegation_eq device delegation covers, Run.bind_ok]
      simp only
      rw [readBool_eq covers.advance, Run.orReturn_ok, Run.bind_ok]
      simp only [Slice.advance_advance, StakingPayload.shown,
        StakingPayload.encode, StakingPayload.addedTo, bne_iff_ne,
        List.length_append, List.length_singleton]
      rfl
  | setActiveStake amount =>
      change (parseStakingAmount memory data >>= _) = _
      rw [parseStakingAmount_eq amount covers payable]
      rfl
  | retireStake amount =>
      change (parseStakingAmount memory data >>= _) = _
      rw [parseStakingAmount_eq amount covers payable]
      rfl

/-- What is read as the data of a type is data of that type. -/
theorem parseStakingPayload_inversion
    (covers : Covers memory data bytes)
    (result : parseStakingPayload device memory type data =
      .ok (typeSpecific, staker, next)) :
    ∃ payload rest, StakingPayload.type payload = type ∧ payload.Payable ∧
      bytes = payload.encode ++ rest ∧
      next = data.advance payload.encode.length ∧
      Covers memory next rest := by
  cases type with
  | createStaker =>
      obtain ⟨⟨text, _⟩, parsed, result⟩ := Run.bind_eq_ok.mp result
      cases result
      obtain ⟨delegation, rest, split, nextEq, covers⟩ :=
        parseDelegation_inversion covers parsed
      exact ⟨.createStaker delegation, rest, rfl, trivial, split, nextEq,
        covers⟩
  | updateStaker =>
      obtain ⟨⟨text, _⟩, parsed, result⟩ := Run.bind_eq_ok.mp result
      obtain ⟨⟨flag, _⟩, readFlag, result⟩ := Run.bind_eq_ok.mp result
      cases result
      obtain ⟨delegation, _, rfl, rfl, covers⟩ :=
        parseDelegation_inversion covers parsed
      obtain ⟨byte, rest, _, rfl, rfl, covers⟩ :=
        readBool_inversion covers (Run.orReturn_eq_ok.mp readFlag)
      refine ⟨.updateStaker delegation byte, rest, rfl, trivial, ?_, ?_,
        covers⟩
      · simp [StakingPayload.encode]
      · simp [StakingPayload.encode]
  | addStake =>
      obtain ⟨⟨pointer, _⟩, readStaker, result⟩ := Run.bind_eq_ok.mp result
      obtain ⟨_, _, result⟩ := Run.bind_eq_ok.mp result
      cases result
      obtain ⟨address, rest, rfl, size, _, rfl, _, covers⟩ :=
        covers.readSubBuffer_inversion (Run.orReturn_eq_ok.mp readStaker)
      exact ⟨.addStake ⟨address, size⟩, rest, rfl, trivial, rfl,
        by rw [StakingPayload.encode, size], covers⟩
  | setActiveStake =>
      obtain ⟨⟨text, _⟩, parsed, result⟩ := Run.bind_eq_ok.mp result
      cases result
      obtain ⟨amount, rest, bounded, split, nextEq, covers⟩ :=
        parseStakingAmount_inversion covers parsed
      exact ⟨.setActiveStake amount, rest, rfl, bounded, split, nextEq,
        covers⟩
  | retireStake =>
      obtain ⟨⟨text, _⟩, parsed, result⟩ := Run.bind_eq_ok.mp result
      cases result
      obtain ⟨amount, rest, bounded, split, nextEq, covers⟩ :=
        parseStakingAmount_inversion covers parsed
      exact ⟨.retireStake amount, rest, rfl, bounded, split, nextEq, covers⟩
  | createValidator => cases result
  | updateValidator => cases result
  | deactivateValidator => cases result
  | reactivateValidator => cases result
  | retireValidator => cases result

/-- A signature proof is read, and its staker looked at. -/
theorem parseStakerProof_eq
    (device : Device)
    (proof : ProofData)
    (covers : Covers memory ⟨some offset, length⟩ (proof.encode ++ rest))
    (hashable : ¬proof.IsEmptyDefault →
      (device.address proof.publicKey.val).isSome) :
    parseStakerProof device memory ⟨some offset, length⟩ =
      .ok (SignatureProof.atOffset offset,
        (if proof.IsEmptyDefault then none
          else device.address proof.publicKey.val).map Subtype.val,
        (⟨some offset, length⟩ : Slice).advance 98) := by
  have denotes := SignatureProof.denotes_atOffset covers
  unfold parseStakerProof
  rw [readSignatureProof_eq covers, Run.orReturn_ok, Run.bind_ok]
  simp only
  rw [Run.returnOn_of_not (by simp [SignatureProof.atOffset]), Run.bind_ok,
    isEmptyDefaultSignatureProof_eq denotes, Run.bind_ok]
  by_cases empty : proof.IsEmptyDefault
  · simp only [empty, decide_true, if_true, ProofData.encode_length]
    rfl
  · obtain ⟨address, found⟩ := Option.isSome_iff_exists.mp (hashable empty)
    simp only [empty, decide_false, Bool.false_eq_true, if_false,
      denotes.publicKey.load_sub, publicKeyToAddress_eq_ok.mpr found,
      Run.bind_ok, found, ProofData.encode_length]
    rfl

/-- What is read as a signature proof is one, and its staker is known. -/
theorem parseStakerProof_inversion
    (covers : Covers memory ⟨some offset, length⟩ bytes)
    (result : parseStakerProof device memory ⟨some offset, length⟩ =
      .ok (pointers, staker, next)) :
    ∃ proof rest, bytes = ProofData.encode proof ++ rest ∧
      (¬proof.IsEmptyDefault →
        (device.address proof.publicKey.val).isSome) ∧
      Covers memory next rest := by
  unfold parseStakerProof at result
  obtain ⟨⟨proof, _⟩, readProof, result⟩ := Run.bind_eq_ok.mp result
  obtain ⟨_, _, result⟩ := Run.bind_eq_ok.mp result
  obtain ⟨isEmptyDefault, comparison, result⟩ := Run.bind_eq_ok.mp result
  obtain ⟨data, rest, rfl, rfl, behind⟩ :=
    readSignatureProof_inversion covers (Run.orReturn_eq_ok.mp readProof)
  have denotes := SignatureProof.denotes_atOffset covers
  rw [isEmptyDefaultSignatureProof_eq denotes] at comparison
  cases comparison
  by_cases empty : data.IsEmptyDefault
  · simp only [empty, decide_true, if_true] at result
    cases result
    exact ⟨data, rest, rfl, fun notEmpty => absurd empty notEmpty, behind⟩
  · simp only [empty, decide_false, Bool.false_eq_true, if_false,
      denotes.publicKey.load_sub, Run.bind_ok] at result
    obtain ⟨address, hashed, result⟩ := Run.bind_eq_ok.mp result
    cases result
    have found := publicKeyToAddress_eq_ok.mp hashed
    exact ⟨data, rest, rfl, fun _ => by rw [found]; rfl, behind⟩

/-- The proof and the staker of the data are read, whatever the type. -/
theorem parseProofAndStaker_eq
    (device : Device)
    (staking : StakingData)
    (covers : Covers memory ⟨some offset, length⟩ staking.proofBytes)
    (hashable : staking.Hashable device) :
    parseProofAndStaker device memory staking.payload.type
        (staking.payload.addedTo.map Subtype.val) ⟨some offset, length⟩ =
      .ok (if staking.proof.isSome then SignatureProof.atOffset offset
          else SignatureProof.zero,
        (staking.staker device).map Subtype.val,
        (⟨some offset, length⟩ : Slice).advance
          staking.proofBytes.length) := by
  have hasProof := staking.hasProof
  unfold StakingData.proofBytes at covers ⊢
  unfold parseProofAndStaker StakingData.staker
  cases proofEq : staking.proof with
  | none =>
      rw [proofEq] at hasProof
      rw [if_neg (by simpa using hasProof)]
      rfl
  | some proof =>
      rw [proofEq] at hasProof covers
      rw [if_pos (by simpa using hasProof),
        parseStakerProof_eq device proof
          (by rwa [List.append_nil]) (hashable proof proofEq)]
      simp

/-- The staker is printed as it is shown. -/
theorem printStakerAddress_eq
    (device : Device)
    (staking : StakingData)
    (senderCovers : Covers memory ⟨sender, 20⟩ senderBytes.val) :
    printStakerAddress device memory sender
        ((staking.staker device).map Subtype.val) =
      .ok (staking.shownStaker device senderBytes) := by
  unfold printStakerAddress StakingData.shownStaker
  cases staking.staker device with
  | none => rfl
  | some staker =>
      simp only [Option.map_some, senderCovers.load_sub, Run.bind_ok]
      by_cases same : staker = senderBytes
      · rw [if_pos same, if_neg (not_not.mpr (congrArg Subtype.val same))]
        rfl
      · rw [if_neg same, if_pos (fun equal => same (Subtype.ext equal)),
          printAddress_eq staker.property]

/-- The data of an incoming staking transaction is read and shown. -/
theorem parseStakingIncomingData_eq
    (device : Device)
    (staking : StakingData)
    (covers : Covers memory ⟨some offset, length⟩ staking.encode)
    (senderCovers : Covers memory ⟨sender, 20⟩ senderBytes.val)
    (payable : staking.payload.Payable)
    (hashable : staking.Hashable device) :
    parseStakingIncomingData device .albatross memory ⟨some offset, length⟩
        sender =
      .ok (staking.shown device senderBytes offset) := by
  have total := covers.length_eq
  unfold StakingData.encode at covers total
  have payloadCovers := covers.advance
  have proofCovers := payloadCovers.advance
  rw [Slice.advance_advance] at proofCovers
  unfold parseStakingIncomingData
  rw [Run.returnOn_of_not (by decide), Run.bind_ok,
    readU8_reads.accept trivial covers, Run.orReturn_ok, Run.bind_ok]
  simp only [StakingIncomingDataType.ofCode?_code]
  rw [parseStakingPayload_eq device staking.payload payloadCovers payable,
    Run.bind_ok]
  simp only [Slice.advance_advance]
  have proofAndStaker :=
    parseProofAndStaker_eq device staking proofCovers hashable
  simp only [Slice.advance, Option.map_some] at proofAndStaker ⊢
  rw [proofAndStaker, Run.bind_ok]
  simp only
  rw [Run.returnOn_of_not (by
      simp only [List.length_append] at total
      simp only [ne_eq, not_not]
      omega), Run.bind_ok, printStakerAddress_eq device staking senderCovers,
    Run.bind_ok, ← staking.hasProof]
  rfl

/-- What is read as the data of an incoming staking transaction is such
data. -/
theorem parseStakingIncomingData_inversion
    (covers : Covers memory data bytes)
    (result : parseStakingIncomingData device version memory data sender =
      .ok parsed) :
    version = .albatross ∧ ∃ staking : StakingData,
      bytes = staking.encode ∧ staking.payload.Payable ∧
      staking.Hashable device := by
  obtain ⟨pointer, length⟩ := data
  unfold parseStakingIncomingData at result
  obtain ⟨_, notLegacy, result⟩ := Run.bind_eq_ok.mp result
  obtain ⟨⟨typeByte, _⟩, readType, result⟩ := Run.bind_eq_ok.mp result
  rw [Run.orReturn_eq_ok] at readType
  obtain ⟨offset, rfl⟩ : ∃ offset, pointer = some offset := by
    cases pointer with
    | some offset => exact ⟨offset, rfl⟩
    | none => simp [readU8, readSubBuffer] at readType
  obtain ⟨_, _, rfl, rfl, covers⟩ := readU8_reads.inversion covers readType
  refine ⟨TransactionVersion.ne_legacy_iff.mp
    (Run.returnOn_eq_ok.mp notLegacy), ?_⟩
  simp only at result
  cases typeEq : StakingIncomingDataType.ofCode? typeByte with
  | none => simp [typeEq] at result
  | some type =>
      obtain rfl := StakingIncomingDataType.ofCode?_eq_some_iff.mp typeEq
      simp only [typeEq] at result
      obtain ⟨⟨typeSpecific, addedTo, _⟩, parsePayload, result⟩ :=
        Run.bind_eq_ok.mp result
      obtain ⟨⟨proof, staker, last⟩, parseProof, result⟩ :=
        Run.bind_eq_ok.mp result
      obtain ⟨_, noMore, _⟩ := Run.bind_eq_ok.mp result
      obtain ⟨payload, _, rfl, payable, rfl, rfl, behind⟩ :=
        parseStakingPayload_inversion covers parsePayload
      have nothing : last.length = 0 :=
        not_not.mp (Run.returnOn_eq_ok.mp noMore)
      simp only at parseProof
      unfold parseProofAndStaker at parseProof
      by_cases isAddStake : payload.type = .addStake
      · rw [if_neg (by simpa using isAddStake)] at parseProof
        cases parseProof
        rw [behind.length_eq] at nothing
        refine ⟨⟨payload, none, by simp [isAddStake]⟩, ?_, payable, ?_⟩
        · simp [StakingData.encode, StakingData.proofBytes,
            List.length_eq_zero_iff.mp nothing]
        · intro proof absent
          cases absent
      · rw [if_pos isAddStake] at parseProof
        obtain ⟨proof, rest, rfl, hashable, ending⟩ :=
          parseStakerProof_inversion behind parseProof
        rw [ending.length_eq] at nothing
        refine ⟨⟨payload, some proof, by simp [isAddStake]⟩, ?_, payable, ?_⟩
        · simp [StakingData.encode, StakingData.proofBytes,
            List.length_eq_zero_iff.mp nothing]
        · rintro other same
          cases same
          exact hashable

/-- The address of the staking contract. -/
def stakingContract : Bytes 20 :=
  ⟨zeroBytes 19 ++ [1], rfl⟩

/-- The comparison with the staking contract. -/
theorem isStakingContract_eq
    (covers : Covers memory ⟨pointer, 20⟩ (Subtype.val address)) :
    isStakingContract memory pointer =
      .ok (decide (address = stakingContract)) := by
  obtain ⟨bytes, size⟩ := address
  unfold isStakingContract
  rw [covers.load_sub, Run.bind_ok, Run.pure_eq]
  simp only
  have front : (bytes.take 19).length = 19 := by
    rw [List.length_take]
    omega
  obtain ⟨last, lastEq⟩ : ∃ last, bytes.drop 19 = [last] :=
    List.length_eq_one_iff.mp (by rw [List.length_drop, size])
  have split : bytes = bytes.take 19 ++ [last] := by
    rw [← lastEq, List.take_append_drop]
  rw [all_zero_eq front]
  generalize bytes.take 19 = leading at front split
  subst split
  have parts : leading ++ [last] = zeroBytes 19 ++ [1] ↔
      leading = zeroBytes 19 ∧ last = 1 := by
    constructor
    · intro equal
      obtain ⟨leadingEq, lastEq⟩ := List.append_inj' equal rfl
      exact ⟨leadingEq, List.singleton_injective lastEq⟩
    · rintro ⟨rfl, rfl⟩
      rfl
  simp [Subtype.ext_iff, stakingContract, front, parts]

/-- Outgoing staking data is its type. -/
theorem parseStakingOutgoingData_eq_ok
    (covers : Covers memory senderData bytes) :
    parseStakingOutgoingData version memory senderData = .ok type ↔
      version = .albatross ∧ bytes = [type.code] := by
  unfold parseStakingOutgoingData
  constructor
  · intro result
    obtain ⟨_, notLegacy, result⟩ := Run.bind_eq_ok.mp result
    obtain ⟨⟨typeByte, _⟩, readType, result⟩ := Run.bind_eq_ok.mp result
    obtain ⟨rest, _, rfl, rfl, covers⟩ :=
      readU8_reads.inversion covers (Run.orReturn_eq_ok.mp readType)
    simp only at result
    cases typeEq : StakingOutgoingDataType.ofCode? typeByte with
    | none => simp [typeEq] at result
    | some other =>
        simp only [typeEq] at result
        obtain ⟨_, noMore, result⟩ := Run.bind_eq_ok.mp result
        cases result
        obtain rfl := StakingOutgoingDataType.ofCode?_eq_some_iff.mp typeEq
        have nothing := not_not.mp (Run.returnOn_eq_ok.mp noMore)
        rw [covers.length_eq] at nothing
        exact ⟨TransactionVersion.ne_legacy_iff.mp
          (Run.returnOn_eq_ok.mp notLegacy),
          by simp [List.length_eq_zero_iff.mp nothing]⟩
  · rintro ⟨rfl, rfl⟩
    have total := covers.length_eq
    rw [← List.append_nil [type.code]] at covers
    rw [Run.returnOn_of_not (by decide), Run.bind_ok,
      readU8_reads.accept trivial covers, Run.orReturn_ok, Run.bind_ok]
    simp only [StakingOutgoingDataType.ofCode?_code]
    rw [Run.returnOn_of_not (by simp [total]), Run.bind_ok]
    rfl

end NimiqApp
