import NimiqApp.Foundation.Delimited
import NimiqApp.ParseTx

/-!
# The grammar is unambiguous

A buffer stands for one transaction, and the data of a transaction for one
content.  What was parsed is therefore known from the transaction alone.
-/

namespace NimiqApp

open Foundation (Delimited)

/-- The encodings a reader accepts are delimited. -/
theorem Reads.delimited
    {read : List UInt8 → Slice → Run Unit (α × Slice)}
    {encode : α → List UInt8}
    (reads : Reads anyValue read encode) :
    Delimited encode := by
  intro left right rest tail equal
  have leftCovers := Covers.whole (encode left ++ rest)
  have rightCovers : Covers (encode left ++ rest)
      ⟨some 0, (encode left ++ rest).length⟩ (encode right ++ tail) := by
    rw [← equal]
    exact leftCovers
  have leftRead := reads.accept trivial leftCovers
  rw [reads.accept trivial rightCovers] at leftRead
  cases leftRead
  exact ⟨rfl, List.append_cancel_left equal⟩

theorem u16Bytes_delimited : Delimited u16Bytes := readU16_reads.delimited

theorem u32Bytes_delimited : Delimited u32Bytes := readU32_reads.delimited

theorem u64Bytes_delimited : Delimited u64Bytes := readU64_reads.delimited

theorem byte_delimited : Delimited fun byte : UInt8 => [byte] :=
  Delimited.singleton

theorem bytes_delimited (count : Nat) :
    Delimited fun bytes : Bytes count => bytes.val :=
  Delimited.sized count

theorem ProofData.encode_delimited : Delimited ProofData.encode := by
  intro left right rest tail equal
  simp only [encode, List.append_assoc] at equal
  obtain ⟨_, equal⟩ := byte_delimited _ _ _ _ equal
  obtain ⟨key, equal⟩ := bytes_delimited 32 _ _ _ _ equal
  obtain ⟨_, equal⟩ := byte_delimited _ _ _ _ equal
  obtain ⟨signature, ends⟩ := bytes_delimited 64 _ _ _ _ equal
  cases left
  cases right
  simp only at key signature
  exact ⟨by rw [key, signature], ends⟩

theorem Delegation.encode_delimited : Delimited Delegation.encode := by
  intro left right rest tail equal
  cases left with
  | absent =>
      cases right with
      | absent => exact ⟨rfl, (List.cons.inj equal).2⟩
      | present flag isSet address =>
          exact absurd (List.cons.inj equal).1.symm isSet
  | present flag isSet address =>
      cases right with
      | absent => exact absurd (List.cons.inj equal).1 isSet
      | present otherFlag otherSet other =>
          simp only [encode, List.append_assoc] at equal
          obtain ⟨flags, equal⟩ := byte_delimited _ _ _ _ equal
          obtain ⟨addresses, ends⟩ := bytes_delimited 20 _ _ _ _ equal
          subst flags addresses
          exact ⟨rfl, ends⟩

/-- The data of a type is delimited. -/
theorem StakingPayload.encode_delimited
    {left right : StakingPayload}
    (types : left.type = right.type)
    (equal : left.encode ++ rest = right.encode ++ tail) :
    left = right ∧ rest = tail := by
  cases left with
  | createStaker delegation =>
      cases right with
      | createStaker other =>
          obtain ⟨rfl, ends⟩ := Delegation.encode_delimited _ _ _ _ equal
          exact ⟨rfl, ends⟩
      | _ => cases types
  | addStake staker =>
      cases right with
      | addStake other =>
          obtain ⟨rfl, ends⟩ := bytes_delimited 20 _ _ _ _ equal
          exact ⟨rfl, ends⟩
      | _ => cases types
  | updateStaker delegation reactivateAllStake =>
      cases right with
      | updateStaker other otherReactivate =>
          simp only [encode, List.append_assoc] at equal
          obtain ⟨delegations, equal⟩ :=
            Delegation.encode_delimited _ _ _ _ equal
          obtain ⟨flags, ends⟩ := byte_delimited _ _ _ _ equal
          subst delegations flags
          exact ⟨rfl, ends⟩
      | _ => cases types
  | setActiveStake amount =>
      cases right with
      | setActiveStake other =>
          obtain ⟨rfl, ends⟩ := u64Bytes_delimited _ _ _ _ equal
          exact ⟨rfl, ends⟩
      | _ => cases types
  | retireStake amount =>
      cases right with
      | retireStake other =>
          obtain ⟨rfl, ends⟩ := u64Bytes_delimited _ _ _ _ equal
          exact ⟨rfl, ends⟩
      | _ => cases types

theorem StakingIncomingDataType.code_injective
    (equal : code left = code right) : left = right := by
  have known := ofCode?_code left
  rw [equal, ofCode?_code] at known
  exact (Option.some.inj known).symm

/-- Staking data is determined by its bytes. -/
theorem StakingData.encode_injective
    {left right : StakingData}
    (equal : left.encode = right.encode) : left = right := by
  obtain ⟨codes, equal⟩ := byte_delimited _ _ _ _ equal
  obtain ⟨payloads, proofs⟩ := StakingPayload.encode_delimited
    (StakingIncomingDataType.code_injective codes) equal
  obtain ⟨payload, leftProof, leftHas⟩ := left
  obtain ⟨other, rightProof, rightHas⟩ := right
  simp only at payloads
  subst payloads
  have sameKind : leftProof.isSome = rightProof.isSome := by
    rw [leftHas, rightHas]
  cases leftProof with
  | none =>
      cases rightProof with
      | none => rfl
      | some proof => simp at sameKind
  | some proof =>
      cases rightProof with
      | none => simp at sameKind
      | some other => rw [ProofData.encode_delimited.injective proofs]

/-- HTLC parameters are determined by their bytes. -/
theorem HtlcData.encode_injective
    {left right : HtlcData}
    (equal : left.encode = right.encode) : left = right := by
  obtain ⟨refund, equal⟩ := bytes_delimited 20 _ _ _ _ equal
  obtain ⟨redeem, equal⟩ := bytes_delimited 20 _ _ _ _ equal
  obtain ⟨codes, equal⟩ := byte_delimited _ _ _ _ equal
  have known := HashAlgorithm.ofCode?_code left.hashAlgorithm
  rw [codes, HashAlgorithm.ofCode?_code] at known
  have algorithms := Option.some.inj known
  obtain ⟨_, _, algorithm, root, _, _, _⟩ := left
  obtain ⟨_, _, otherAlgorithm, otherRoot, _, _, _⟩ := right
  simp only at refund redeem algorithms
  subst algorithms refund redeem
  obtain ⟨roots, equal⟩ := bytes_delimited _ root otherRoot _ _ equal
  obtain ⟨counts, equal⟩ := byte_delimited _ _ _ _ equal
  have timeouts := u32Bytes_delimited.injective equal
  simp only at counts timeouts
  rw [roots, counts, timeouts]

/-- Vesting parameters are determined by their bytes, whose length tells
which of them are there. -/
theorem VestingTerms.encode_injective
    {left right : VestingTerms}
    (equal : left.encode = right.encode) : left = right := by
  have lengths := congrArg List.length equal
  cases left with
  | short stepBlockCount =>
      cases right with
      | short other =>
          obtain rfl := u32Bytes_delimited.injective equal
          rfl
      | _ => cases lengths
  | medium startBlock stepBlockCount stepAmount =>
      cases right with
      | medium otherStart otherCount otherAmount =>
          obtain ⟨starts, equal⟩ := u32Bytes_delimited _ _ _ _ equal
          obtain ⟨counts, equal⟩ := u32Bytes_delimited _ _ _ _ equal
          have amounts := u64Bytes_delimited.injective equal
          rw [starts, counts, amounts]
      | _ => cases lengths
  | full startBlock stepBlockCount stepAmount totalLockedAmount =>
      cases right with
      | full otherStart otherCount otherAmount otherTotal =>
          obtain ⟨starts, equal⟩ := u32Bytes_delimited _ _ _ _ equal
          obtain ⟨counts, equal⟩ := u32Bytes_delimited _ _ _ _ equal
          obtain ⟨amounts, equal⟩ := u64Bytes_delimited _ _ _ _ equal
          have totals := u64Bytes_delimited.injective equal
          rw [starts, counts, amounts, totals]
      | _ => cases lengths

/-- Vesting data is determined by its bytes. -/
theorem VestingData.encode_injective
    {left right : VestingData}
    (equal : left.encode = right.encode) : left = right := by
  obtain ⟨owner, equal⟩ := bytes_delimited 20 _ _ _ _ equal
  have terms := VestingTerms.encode_injective equal
  cases left
  cases right
  simp only at owner terms
  rw [owner, terms]

/-- A transaction is determined by its bytes. -/
theorem Transaction.encode_injective
    {left right : Transaction version}
    (equal : left.encode = right.encode) : left = right := by
  obtain ⟨lengths, equal⟩ := u16Bytes_delimited _ _ _ _ equal
  have sizes := congrArg UInt16.toNat lengths
  rw [toNat_dataLength, toNat_dataLength] at sizes
  obtain ⟨data, equal⟩ := List.append_inj equal sizes
  obtain ⟨sender, equal⟩ := bytes_delimited 20 _ _ _ _ equal
  obtain ⟨senderType, equal⟩ := byte_delimited _ _ _ _ equal
  obtain ⟨recipient, equal⟩ := bytes_delimited 20 _ _ _ _ equal
  obtain ⟨recipientType, equal⟩ := byte_delimited _ _ _ _ equal
  obtain ⟨value, equal⟩ := u64Bytes_delimited _ _ _ _ equal
  obtain ⟨fee, equal⟩ := u64Bytes_delimited _ _ _ _ equal
  obtain ⟨height, equal⟩ := u32Bytes_delimited _ _ _ _ equal
  obtain ⟨networkId, equal⟩ := byte_delimited _ _ _ _ equal
  obtain ⟨flags, equal⟩ := byte_delimited _ _ _ _ equal
  have senderData : left.senderData = right.senderData := by
    unfold senderDataBytes at equal
    cases version with
    | legacy => rw [left.legacySenderData rfl, right.legacySenderData rfl]
    | albatross =>
        rw [if_pos rfl, if_pos rfl] at equal
        exact (byte_delimited _ _ _ _ equal).2
  cases left
  cases right
  simp only at data sender senderType recipient recipientType value fee
  simp only at height networkId flags senderData
  subst data sender senderType recipient recipientType value fee
  subst height networkId flags senderData
  rfl

/-- The network of an id is unique. -/
theorem Network.id_injective
    (equal : id version left = id version right) : left = right := by
  cases version <;> cases left <;> cases right <;>
    first | rfl | exact absurd equal (by decide)

/-- The account type a content sends to; stake is removed to any. -/
def Content.recipientAccount : Content → Option AccountType
  | stakingOutgoing => none
  | normal => some .basic
  | vestingCreation _ => some .vesting
  | htlcCreation _ => some .htlc
  | stakingIncoming _ => some .staking

/-- The account types of a transaction tell the kind of its content. -/
theorem Content.Admits.recipientAccount_eq
    {tx : Transaction version}
    (admits : Admits tx content) :
    content.recipientAccount =
      if tx.senderType = AccountType.staking.code then none
      else AccountType.ofCode? tx.recipientType := by
  cases content with
  | stakingOutgoing => rw [if_pos admits.1, recipientAccount]
  | normal =>
      rw [if_neg admits.1, AccountType.ofCode?_eq_some_iff.mpr admits.2.1,
        recipientAccount]
  | vestingCreation vesting =>
      rw [if_neg admits.1, AccountType.ofCode?_eq_some_iff.mpr admits.2.1,
        recipientAccount]
  | htlcCreation htlc =>
      rw [if_neg admits.1, AccountType.ofCode?_eq_some_iff.mpr admits.2.1,
        recipientAccount]
  | stakingIncoming staking =>
      rw [if_neg admits.1, AccountType.ofCode?_eq_some_iff.mpr admits.2.1,
        recipientAccount]

/-- A transaction has at most one content. -/
theorem Content.Admits.unique
    {tx : Transaction version}
    (left : Admits tx first)
    (right : Admits tx second) :
    first = second := by
  have kinds : first.recipientAccount = second.recipientAccount := by
    rw [left.recipientAccount_eq, right.recipientAccount_eq]
  cases first with
  | stakingOutgoing =>
      cases second with
      | stakingOutgoing => rfl
      | _ => cases kinds
  | normal =>
      cases second with
      | normal => rfl
      | _ => cases kinds
  | vestingCreation vesting =>
      cases second with
      | vestingCreation other =>
          obtain ⟨_, _, _, _, _, dataEq, _⟩ := left
          obtain ⟨_, _, _, _, _, otherEq, _⟩ := right
          rw [VestingData.encode_injective (dataEq.symm.trans otherEq)]
      | _ => cases kinds
  | htlcCreation htlc =>
      cases second with
      | htlcCreation other =>
          obtain ⟨_, _, _, _, _, dataEq, _⟩ := left
          obtain ⟨_, _, _, _, _, otherEq, _⟩ := right
          rw [HtlcData.encode_injective (dataEq.symm.trans otherEq)]
      | _ => cases kinds
  | stakingIncoming staking =>
      cases second with
      | stakingIncoming other =>
          obtain ⟨_, _, _, _, _, _, dataEq, _⟩ := left
          obtain ⟨_, _, _, _, _, _, otherEq, _⟩ := right
          rw [StakingData.encode_injective (dataEq.symm.trans otherEq)]
      | _ => cases kinds

/-- What is reviewed is determined by the bytes of the transaction. -/
theorem AcceptedTransaction.encode_injective
    {left right : AcceptedTransaction version}
    (equal : left.tx.encode = right.tx.encode) : left = right := by
  have txs := Transaction.encode_injective equal
  obtain ⟨tx, network, content, _, networkId, admitted⟩ := left
  obtain ⟨_, otherNetwork, otherContent, _, otherId, otherAdmitted⟩ := right
  simp only at txs
  subst txs
  obtain rfl := Network.id_injective (networkId.symm.trans otherId)
  obtain rfl := admitted.unique otherAdmitted
  rfl

/-- A transaction that can be reviewed is parsed as such. -/
theorem AcceptedTransaction.parseTx_eq_ok_iff
    (accepted : AcceptedTransaction known) :
    parseTx device known.code accepted.tx.encode = .ok parsed ↔
      accepted.content.Hashable device ∧
        parsed = accepted.shown device := by
  rw [NimiqApp.parseTx_eq_ok_iff device]
  constructor
  · rintro ⟨version, versionEq, other, bufferEq, hashable, parsedEq⟩
    have versions := TransactionVersion.ofCode?_eq_some_iff.mpr versionEq
    rw [TransactionVersion.ofCode?_code] at versions
    cases versions
    obtain rfl := encode_injective bufferEq
    exact ⟨hashable, parsedEq⟩
  · rintro ⟨hashable, parsedEq⟩
    exact ⟨known, rfl, accepted, rfl, hashable, parsedEq⟩

end NimiqApp
