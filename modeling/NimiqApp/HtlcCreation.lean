import NimiqApp.Device
import NimiqApp.Encoding

/-!
# HTLC creation data

`parse_htlc_creation_data` reads the parameters of a hashed time-locked
contract.  The data it accepts is given by `HtlcData`, which it shows.
-/

namespace NimiqApp

/-- `tx_data_htlc_creation_t`. -/
structure TxDataHtlcCreation where
  isRefundAddressSenderAddress : Bool
  isTimingOutSoon : Bool
  isUsingSha256 : Bool
  redeemAddress : CString
  refundAddress : CString
  hashRoot : CString
  hashAlgorithm : CString
  hashCount : CString
  timeout : CString
  deriving DecidableEq, Repr

/-- `sizeof(hash_root)`. -/
def stringLengthHashRoot : Nat := 64 * 2 + 1

/-- The switch over the hash algorithm, returning it with its name. -/
def parseHashAlgorithm (byte : UInt8) :
    Run ErrorCode (HashAlgorithm × CString) :=
  match HashAlgorithm.ofCode? byte with
  | some .blake2b => pure (.blake2b, ascii "BLAKE2b")
  | some .sha256 => pure (.sha256, ascii "SHA-256")
  | some .sha512 => pure (.sha512, ascii "SHA-512")
  | some .argon2d => Run.fail .incorrectData
  | none => Run.fail .incorrectData

/-- The length of a hash. -/
def HashAlgorithm.hashSize (algorithm : HashAlgorithm) : Nat :=
  if algorithm = .sha512 then 64 else 32

/-- `parse_htlc_creation_data`. -/
def parseHtlcCreationData (device : Device) (version : TransactionVersion)
    (memory : List UInt8) (data : Slice) (sender : Pointer)
    (senderType : UInt8) (validityStartHeight : UInt32) :
    Run ErrorCode TxDataHtlcCreation := do
  Run.returnOn (version ≠ .legacy) .notSupported
  let (refund, data) ← Run.orReturn .read (readSubBuffer 20 data)
  let refundAddressBytes ← load memory refund 20
  let refundAddress ← printAddress device.pastTotalNumber refundAddressBytes
  let senderBytes ← load memory sender 20
  let isRefundAddressSenderAddress := decide (refundAddressBytes = senderBytes)
  Run.returnOn
    (isRefundAddressSenderAddress ∧ senderType ≠ AccountType.basic.code)
    .incorrectData
  let (redeem, data) ← Run.orReturn .read (readSubBuffer 20 data)
  let redeemAddressBytes ← load memory redeem 20
  let redeemAddress ← printAddress device.pastTotalNumber redeemAddressBytes
  let (hashAlgorithmByte, data) ← Run.orReturn .read (readU8 memory data)
  let (algorithm, hashAlgorithm) ← parseHashAlgorithm hashAlgorithmByte
  let hashSize := algorithm.hashSize
  let (hash, data) ← Run.orReturn .read (readSubBuffer hashSize data)
  let hashBytes ← load memory hash hashSize
  let hashRoot ← printHex hashBytes (List.replicate stringLengthHashRoot 0)
  let (hashCount, data) ← Run.orReturn .read (readU8 memory data)
  let (timeout, data) ← Run.orReturn .read (readU32 memory data)
  Run.returnOn (data.length ≠ 0) .invalidLength
  pure {
    isRefundAddressSenderAddress
    isTimingOutSoon :=
      timeout < validityStartHeight ||
        timeout - validityStartHeight < htlcTimeoutSoonThreshold
    isUsingSha256 := decide (algorithm = .sha256)
    redeemAddress
    refundAddress
    hashRoot := cString hashRoot
    hashAlgorithm
    hashCount :=
      cString (snprintf stringLengthUint8 (printUnsigned hashCount.toNat))
    timeout :=
      cString (snprintf stringLengthUint32 (printUnsigned timeout.toNat)) }

/-- The name of a hash algorithm; ARGON2d is never shown. -/
def HashAlgorithm.name : HashAlgorithm → CString
  | .blake2b => ascii "BLAKE2b"
  | .sha256 => ascii "SHA-256"
  | .sha512 => ascii "SHA-512"
  | .argon2d => []

/-- All algorithms but the blacklisted one are accepted. -/
theorem parseHashAlgorithm_eq_ok :
    parseHashAlgorithm byte = .ok (algorithm, name) ↔
      byte = algorithm.code ∧ algorithm ≠ .argon2d ∧
        name = algorithm.name := by
  rw [← HashAlgorithm.ofCode?_eq_some_iff]
  unfold parseHashAlgorithm
  cases HashAlgorithm.ofCode? byte with
  | none => simp
  | some other =>
      rw [Option.some.injEq]
      constructor
      · intro accepted
        cases other <;> cases accepted <;> exact ⟨rfl, by decide, rfl⟩
      · rintro ⟨rfl, supported, rfl⟩
        cases other <;> first | rfl | exact absurd rfl supported

/-- The parameters of an HTLC. -/
structure HtlcData where
  refundAddress : Bytes 20
  redeemAddress : Bytes 20
  hashAlgorithm : HashAlgorithm
  hashRoot : Bytes hashAlgorithm.hashSize
  hashCount : UInt8
  timeout : UInt32
  /-- The hash algorithm is not blacklisted for HTLCs. -/
  supported : hashAlgorithm ≠ .argon2d

namespace HtlcData

/-- The parameters on the wire. -/
def encode (htlc : HtlcData) : List UInt8 :=
  htlc.refundAddress.val ++ (htlc.redeemAddress.val ++
    ([htlc.hashAlgorithm.code] ++ (htlc.hashRoot.val ++
      ([htlc.hashCount] ++ u32Bytes htlc.timeout))))

/-- A contract that sends funds does not get them back, as it has no key. -/
def Refundable (htlc : HtlcData) (sender : Bytes 20) (senderType : UInt8) :
    Prop :=
  htlc.refundAddress = sender → senderType = AccountType.basic.code

/-- How the parameters are shown. -/
def shown (htlc : HtlcData) (sender : Bytes 20)
    (validityStartHeight : UInt32) : TxDataHtlcCreation where
  isRefundAddressSenderAddress := decide (htlc.refundAddress = sender)
  isTimingOutSoon := decide
    (htlc.timeout.toNat <
      validityStartHeight.toNat + htlcTimeoutSoonThreshold.toNat)
  isUsingSha256 := decide (htlc.hashAlgorithm = .sha256)
  redeemAddress := userFriendlyAddress htlc.redeemAddress.val
  refundAddress := userFriendlyAddress htlc.refundAddress.val
  hashRoot := hexText htlc.hashRoot.val
  hashAlgorithm := htlc.hashAlgorithm.name
  hashCount := printUnsigned htlc.hashCount.toNat
  timeout := printUnsigned htlc.timeout.toNat

/-- Subtracting does not wrap where the difference is looked at. -/
theorem timingOutSoon_eq (timeout validityStartHeight : UInt32) :
    (decide (timeout < validityStartHeight) ||
        decide (timeout - validityStartHeight < htlcTimeoutSoonThreshold)) =
      decide (timeout.toNat <
        validityStartHeight.toNat + htlcTimeoutSoonThreshold.toNat) := by
  have threshold : htlcTimeoutSoonThreshold.toNat = 89280 := rfl
  rw [Bool.eq_iff_iff]
  simp only [Bool.or_eq_true, decide_eq_true_eq, UInt32.lt_iff_toNat_lt,
    threshold]
  by_cases earlier : timeout.toNat < validityStartHeight.toNat
  · exact ⟨fun _ => by omega, fun _ => Or.inl earlier⟩
  · have difference := UInt32.toNat_sub_of_le timeout validityStartHeight
      (UInt32.le_iff_toNat_le.mpr (by omega))
    omega

theorem cString_printHash (hash : Bytes (HashAlgorithm.hashSize algorithm)) :
    ∃ out, printHex hash.val (List.replicate stringLengthHashRoot 0) =
        .ok out ∧ cString out = hexText hash.val := by
  have sizes : HashAlgorithm.hashSize algorithm = 32 ∨
      HashAlgorithm.hashSize algorithm = 64 := by
    cases algorithm <;> decide
  have size := hash.property
  have nonempty : hash.val ≠ [] := by
    intro empty
    rw [empty, List.length_nil] at size
    omega
  have room : 2 * hash.val.length + 1 ≤
      (List.replicate stringLengthHashRoot (0 : UInt8)).length := by
    rw [List.length_replicate, stringLengthHashRoot]
    omega
  exact cString_printHex nonempty room

/-- Parameters that are accepted are shown. -/
theorem parse_eq
    (device : Device)
    (htlc : HtlcData)
    (validityStartHeight : UInt32)
    (covers : Covers memory data htlc.encode)
    (senderCovers : Covers memory ⟨sender, 20⟩ senderBytes.val)
    (refundable : htlc.Refundable senderBytes senderType) :
    parseHtlcCreationData device .legacy memory data sender senderType
        validityStartHeight =
      .ok (htlc.shown senderBytes validityStartHeight) := by
  unfold encode at covers
  obtain ⟨refund, _, readRefund, refundCovers, covers⟩ :=
    covers.readSubBuffer_accept htlc.refundAddress.property
  obtain ⟨redeem, _, readRedeem, redeemCovers, covers⟩ :=
    covers.readSubBuffer_accept htlc.redeemAddress.property
  obtain ⟨_, readAlgorithm, covers⟩ := readU8_reads.accept_next trivial covers
  obtain ⟨hash, _, readHash, hashCovers, covers⟩ :=
    covers.readSubBuffer_accept htlc.hashRoot.property
  obtain ⟨_, readCount, covers⟩ := readU8_reads.accept_next trivial covers
  rw [← List.append_nil (u32Bytes htlc.timeout)] at covers
  obtain ⟨_, readTimeout, covers⟩ := readU32_reads.accept_next trivial covers
  obtain ⟨root, printRoot, rootText⟩ := cString_printHash htlc.hashRoot
  have ownFunds : ¬(decide (htlc.refundAddress.val = senderBytes.val) = true ∧
      senderType ≠ AccountType.basic.code) := by
    rintro ⟨same, contract⟩
    exact contract (refundable (Subtype.ext (of_decide_eq_true same)))
  have parseAlgorithm := parseHashAlgorithm_eq_ok.mpr
    ⟨rfl, htlc.supported, rfl⟩
  unfold parseHtlcCreationData
  simp only [readRefund, refundCovers.load_sub, readRedeem,
    redeemCovers.load_sub, senderCovers.load_sub, readAlgorithm,
    parseAlgorithm, readHash, hashCovers.load_sub,
    printRoot, readCount, readTimeout, Run.orReturn_ok, Run.bind_ok,
    printAddress_eq htlc.refundAddress.property,
    printAddress_eq htlc.redeemAddress.property]
  rw [Run.returnOn_of_not (by simp), Run.bind_ok, Run.returnOn_of_not ownFunds,
    Run.bind_ok, Run.returnOn_of_not (by simp [covers.length_eq]), Run.bind_ok,
    rootText, cString_printUint8, cString_printUint32, timingOutSoon_eq]
  simp only [shown, Subtype.ext_iff]
  rfl

/-- Data that is accepted consists of parameters. -/
theorem parse_inversion
    (covers : Covers memory data bytes)
    (senderCovers : Covers memory ⟨sender, 20⟩ senderBytes.val)
    (result : parseHtlcCreationData device version memory data sender
      senderType validityStartHeight = .ok parsed) :
    version = .legacy ∧ ∃ htlc : HtlcData, bytes = htlc.encode ∧
      htlc.Refundable senderBytes senderType := by
  unfold parseHtlcCreationData at result
  obtain ⟨_, isLegacy, result⟩ := Run.bind_eq_ok.mp result
  obtain ⟨⟨refund, _⟩, readRefund, result⟩ := Run.bind_eq_ok.mp result
  obtain ⟨refundBytes, loadRefund, result⟩ := Run.bind_eq_ok.mp result
  obtain ⟨_, _, result⟩ := Run.bind_eq_ok.mp result
  obtain ⟨otherSender, loadSender, result⟩ := Run.bind_eq_ok.mp result
  obtain ⟨_, ownFunds, result⟩ := Run.bind_eq_ok.mp result
  obtain ⟨⟨redeem, _⟩, readRedeem, result⟩ := Run.bind_eq_ok.mp result
  obtain ⟨redeemBytes, _, result⟩ := Run.bind_eq_ok.mp result
  obtain ⟨_, _, result⟩ := Run.bind_eq_ok.mp result
  obtain ⟨⟨algorithmByte, _⟩, readAlgorithm, result⟩ :=
    Run.bind_eq_ok.mp result
  obtain ⟨⟨algorithm, _⟩, parseAlgorithm, result⟩ := Run.bind_eq_ok.mp result
  obtain ⟨⟨hash, _⟩, readHash, result⟩ := Run.bind_eq_ok.mp result
  obtain ⟨hashBytes, _, result⟩ := Run.bind_eq_ok.mp result
  obtain ⟨_, _, result⟩ := Run.bind_eq_ok.mp result
  obtain ⟨⟨hashCount, _⟩, readCount, result⟩ := Run.bind_eq_ok.mp result
  obtain ⟨⟨timeout, last⟩, readTimeout, result⟩ := Run.bind_eq_ok.mp result
  obtain ⟨_, noMore, result⟩ := Run.bind_eq_ok.mp result
  rw [Run.orReturn_eq_ok] at readRefund readRedeem readAlgorithm
  rw [Run.orReturn_eq_ok] at readHash readCount readTimeout
  obtain ⟨rfl, supported, _⟩ := parseHashAlgorithm_eq_ok.mp parseAlgorithm
  obtain ⟨front, _, rfl, frontSize, _, _, refundCovers, covers⟩ :=
    covers.readSubBuffer_inversion readRefund
  obtain ⟨middle, _, rfl, middleSize, _, _, _, covers⟩ :=
    covers.readSubBuffer_inversion readRedeem
  obtain ⟨_, _, rfl, _, covers⟩ := readU8_reads.inversion covers readAlgorithm
  obtain ⟨root, _, rfl, rootSize, _, _, _, covers⟩ :=
    covers.readSubBuffer_inversion readHash
  obtain ⟨_, _, rfl, _, covers⟩ := readU8_reads.inversion covers readCount
  obtain ⟨rest, _, rfl, _, covers⟩ :=
    readU32_reads.inversion covers readTimeout
  have nothing : rest = [] := by
    have empty := not_not.mp (Run.returnOn_eq_ok.mp noMore)
    rw [covers.length_eq] at empty
    exact List.length_eq_zero_iff.mp empty
  subst nothing
  refine ⟨not_not.mp (Run.returnOn_eq_ok.mp isLegacy),
    ⟨⟨front, frontSize⟩, ⟨middle, middleSize⟩, algorithm, ⟨root, rootSize⟩,
      hashCount, timeout, supported⟩, ?_, ?_⟩
  · simp [encode]
  · intro same
    rw [refundCovers.load_sub] at loadRefund
    rw [senderCovers.load_sub] at loadSender
    cases loadRefund
    cases loadSender
    have notBoth := Run.returnOn_eq_ok.mp ownFunds
    by_contra contract
    exact notBoth ⟨by rw [← congrArg Subtype.val same]; simp, contract⟩

end HtlcData

end NimiqApp
