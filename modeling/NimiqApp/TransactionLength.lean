import NimiqApp.PublicKeyRequest
import NimiqApp.TransactionChunks

/-!
# The length of transactions

Every transaction that is accepted is longer than the other data the app
signs, and none is longer than the buffer transactions are collected in.
-/

namespace NimiqApp

/-- The bytes of a transaction besides its data and sender data. -/
theorem Transaction.encode_length (tx : Transaction version) :
    tx.encode.length = 66 + tx.data.length + tx.senderDataBytes.length := by
  unfold encode
  simp only [List.length_append, u16Bytes_length, u32Bytes_length,
    u64Bytes_length, List.length_singleton, tx.sender.property,
    tx.recipient.property]
  omega

/-- Albatross transactions have a byte for the length of the sender data. -/
def minimumLength (version : UInt8) : Nat :=
  if version = TransactionVersion.albatross.code then 67 else 66

theorem Transaction.senderDataBytes_length (tx : Transaction version) :
    66 + tx.senderDataBytes.length =
      minimumLength version.code + tx.senderData.length := by
  unfold senderDataBytes minimumLength
  cases version with
  | legacy =>
      rw [if_neg (by decide), if_neg (by decide), tx.legacySenderData rfl]
  | albatross =>
      rw [if_pos rfl, if_pos rfl, List.length_append, List.length_singleton]
      omega

theorem VestingTerms.encode_length_le (terms : VestingTerms) :
    terms.encode.length ≤ 24 := by
  cases terms with
  | short => simp [encode]
  | medium => simp [encode]
  | full => simp [encode]

theorem VestingData.encode_length_le (vesting : VestingData) :
    vesting.encode.length ≤ 44 := by
  have terms := vesting.terms.encode_length_le
  unfold encode
  rw [List.length_append, vesting.ownerAddress.property]
  omega

theorem HtlcData.encode_length_le (htlc : HtlcData) :
    htlc.encode.length ≤ 110 := by
  have root : HashAlgorithm.hashSize htlc.hashAlgorithm ≤ 64 := by
    cases htlc.hashAlgorithm <;> decide
  unfold encode
  simp only [List.length_append, List.length_singleton, u32Bytes_length,
    htlc.refundAddress.property, htlc.redeemAddress.property,
    htlc.hashRoot.property]
  omega

theorem Delegation.encode_length_le (delegation : Delegation) :
    delegation.encode.length ≤ 21 := by
  cases delegation with
  | absent => simp [encode]
  | present flag isSet address =>
      rw [encode, List.length_append, address.property]
      rfl

theorem StakingPayload.encode_length_le (payload : StakingPayload) :
    payload.encode.length ≤ 22 := by
  cases payload with
  | createStaker delegation =>
      exact Nat.le_succ_of_le delegation.encode_length_le
  | addStake staker =>
      rw [encode, staker.property]
      decide
  | updateStaker delegation reactivateAllStake =>
      rw [encode, List.length_append, List.length_singleton]
      exact Nat.succ_le_succ delegation.encode_length_le
  | setActiveStake amount => simp [encode]
  | retireStake amount => simp [encode]

theorem StakingData.encode_length_le (staking : StakingData) :
    staking.encode.length ≤ 121 := by
  have payload := staking.payload.encode_length_le
  have proof : staking.proofBytes.length ≤ 98 := by
    unfold proofBytes
    split
    · exact Nat.zero_le _
    · rw [ProofData.encode_length]
  unfold encode
  simp only [List.length_append, List.length_singleton]
  omega

/-- Data and sender data are not set at the same time, and the longest data
is that of a fully specified update of a staker. -/
theorem Content.Admits.data_length_le
    {tx : Transaction version}
    {content : Content}
    (admits : content.Admits tx) :
    tx.data.length + tx.senderData.length ≤ 121 := by
  cases content with
  | stakingOutgoing =>
      obtain ⟨_, _, _, _, dataEq, senderDataEq⟩ := admits
      rw [dataEq, senderDataEq]
      decide
  | normal =>
      obtain ⟨_, _, _, senderDataEq, short⟩ := admits
      rw [senderDataEq, List.length_nil]
      unfold lengthNormalTxDataMax at short
      omega
  | vestingCreation vesting =>
      obtain ⟨_, _, _, _, senderDataEq, dataEq, _⟩ := admits
      have short := vesting.encode_length_le
      rw [senderDataEq, dataEq, List.length_nil]
      omega
  | htlcCreation htlc =>
      obtain ⟨_, _, _, _, senderDataEq, dataEq, _⟩ := admits
      have short := htlc.encode_length_le
      rw [senderDataEq, dataEq, List.length_nil]
      omega
  | stakingIncoming staking =>
      obtain ⟨_, _, _, _, _, senderDataEq, dataEq, _⟩ := admits
      rw [senderDataEq, dataEq, List.length_nil]
      exact staking.encode_length_le

/-- The length of a transaction that can be reviewed. -/
theorem AcceptedTransaction.encode_length_bounds
    (accepted : AcceptedTransaction version) :
    minimumLength version.code ≤ accepted.tx.encode.length ∧
      accepted.tx.encode.length ≤ maxRawTx := by
  have total := accepted.tx.encode_length
  have senderData := accepted.tx.senderDataBytes_length
  have data := accepted.admitted.data_length_le
  have minimum : minimumLength version.code ≤ 67 := by
    unfold minimumLength
    split <;> decide
  unfold maxRawTx
  omega

/-- The longest data: an update of the delegation of a staker, signed by the
staker. -/
def longestUpdate : StakingData where
  payload := .updateStaker (.present 1 (by decide) sampleAddress) 1
  proof := some ProofData.emptyDefault
  hasProof := rfl

theorem longestUpdate_length : longestUpdate.encode.length = 121 := by
  unfold StakingData.encode
  simp only [longestUpdate, StakingData.proofBytes, StakingPayload.encode,
    Delegation.encode, List.length_append, List.length_singleton,
    ProofData.encode_length, sampleAddress.property]

/-- The update is accepted. -/
def acceptedUpdate : AcceptedTransaction .albatross where
  tx := { sampleStaking longestUpdate
      (by rw [longestUpdate_length]; decide) with
    flags := txFlagSignaling }
  network := .test
  content := .stakingIncoming longestUpdate
  payable := ⟨show (10000000 : UInt64) ≤ maxSafeLunaAmount by decide,
    show (0 : UInt64) ≤ maxSafeLunaAmount by decide⟩
  networkId_eq := rfl
  admitted := ⟨show AccountType.basic.code ≠ AccountType.staking.code by
    decide, rfl, rfl, rfl, rfl, rfl, rfl, trivial⟩

/-- The longest transaction is accepted by every device. -/
theorem acceptedUpdate_parsed (device : Device) :
    parseTx device TransactionVersion.albatross.code
        acceptedUpdate.tx.encode =
      .ok (acceptedUpdate.shown device) := by
  refine (parseTx_eq_ok_iff device).mpr
    ⟨_, rfl, acceptedUpdate, rfl, ?_, rfl⟩
  intro proof isProof notEmpty
  cases isProof
  exact absurd ⟨rfl, rfl⟩ notEmpty

theorem acceptedUpdate_length :
    acceptedUpdate.tx.encode.length = maxRawTx := by
  have total := acceptedUpdate.tx.encode_length
  have senderData := acceptedUpdate.tx.senderDataBytes_length
  have dataLength : acceptedUpdate.tx.data.length = 121 :=
    longestUpdate_length
  have noSenderData : acceptedUpdate.tx.senderData.length = 0 := rfl
  rw [noSenderData] at senderData
  change 66 + _ = 67 + 0 at senderData
  unfold maxRawTx
  omega

/-- What is read as a verification message is short. -/
theorem readVerificationMessage_length
    (result : readVerificationMessage buffer true data = .ok (msg, rest))
    (loaded : (load buffer msg.pointer msg.length : Run ε _) = .ok message) :
    message.length ≤ 31 := by
  unfold readVerificationMessage at result
  rw [if_pos rfl] at result
  obtain ⟨_, short, result⟩ := Run.bind_eq_ok.mp result
  obtain ⟨⟨pointer, next⟩, _, result⟩ := Run.bind_eq_ok.mp result
  obtain ⟨_, _, result⟩ := Run.bind_eq_ok.mp result
  obtain ⟨_, _, result⟩ := Run.bind_eq_ok.mp result
  cases result
  have bounded := Run.returnOn_eq_ok.mp short
  have messageLength : message.length ≤ data.length := by
    unfold load at loaded
    split at loaded
    · cases loaded
      exact Nat.zero_le _
    · split at loaded
      · cases loaded
      · split at loaded
        · cases loaded
          exact List.length_take_le _ _
        · cases loaded
  omega

/-- The transactions that are accepted are longer than the hashes and the
verification messages that are signed, and each fits the buffer in which the
chunks of transactions are collected. -/
theorem parseTx_lengths (app : App) :
    (∀ version buffer parsed,
      parseTx app.toDevice version buffer = .ok parsed →
        minimumLength version ≤ buffer.length ∧ buffer.length ≤ maxRawTx ∧
        (∀ msg : MessageSigningContext app.layout.Shared,
          buffer ≠ msg.prefixedMessageHash.val) ∧
        (∀ memory data msg rest message,
          readVerificationMessage memory true data = .ok (msg, rest) →
          (load memory msg.pointer msg.length : Run StatusWord _) =
            .ok message →
          buffer ≠ message) ∧
        ∀ (path : List UInt32) (part : List UInt8) (parts commands)
          (state : State app), ValidPath path →
          (part :: parts).flatten = buffer →
          Cut insSignTx p1First
            ((bip32PathBytes path ++ version :: part) :: parts)
            commands →
          ∃ before last middle, commands = before ++ [last] ∧
            state.Accepts before middle ∧
            app.TransactionOutcome path version buffer
              (middle.receive last)) ∧
    ∃ buffer parsed,
      parseTx app.toDevice TransactionVersion.albatross.code buffer =
          .ok parsed ∧
        buffer.length = maxRawTx := by
  refine ⟨?_, _, _, acceptedUpdate_parsed app.toDevice,
    acceptedUpdate_length⟩
  intro version buffer parsed accepts
  obtain ⟨known, rfl, accepted, rfl, _, _⟩ :=
    (parseTx_eq_ok_iff app.toDevice).mp accepts
  obtain ⟨atLeast, atMost⟩ := accepted.encode_length_bounds
  have long : 66 ≤ accepted.tx.encode.length := by
    have total := accepted.tx.encode_length
    omega
  refine ⟨atLeast, atMost, ?_, ?_, ?_⟩
  · intro msg same
    rw [same, msg.prefixedMessageHash.property] at long
    omega
  · intro memory data msg rest message reads loaded same
    have short := readVerificationMessage_length reads loaded
    rw [same] at long
    omega
  · intro path part parts commands state validPath whole cut
    rw [← whole] at atMost ⊢
    exact signTransaction_within validPath cut state atMost

end NimiqApp
