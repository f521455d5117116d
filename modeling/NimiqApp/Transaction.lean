import NimiqApp.Amount
import NimiqApp.Device
import NimiqApp.Encoding

/-!
# Serialized transactions

The fields of a transaction on the wire, and the part of `parse_tx` that reads
them.  `Transaction` is what a buffer can stand for; the pointers kept by
`parse_tx` denote its variable parts.
-/

namespace NimiqApp

/-- The networks the app knows. -/
inductive Network
  | main
  | test
  | development
  | bounty
  deriving DecidableEq, Repr

namespace Network

/-- The id of a network depends on the version. -/
def id (version : TransactionVersion) : Network → UInt8
  | main => if version = .legacy then 42 else 24
  | test => if version = .legacy then 1 else 5
  | development => if version = .legacy then 2 else 6
  | bounty => if version = .legacy then 3 else 7

/-- The name of a network. -/
def name : Network → CString
  | main => ascii "Main"
  | test => ascii "Test"
  | development => ascii "Development"
  | bounty => ascii "Bounty"

theorem name_injective (equal : name left = name right) : left = right := by
  cases left <;> cases right <;> first | rfl | exact absurd equal (by decide)

end Network

/-- `parse_network_id`. -/
def parseNetworkId (version : TransactionVersion) (networkId : UInt8) :
    Run ErrorCode CString :=
  if networkId = Network.main.id version then pure (ascii "Main")
  else if networkId = Network.test.id version then pure (ascii "Test")
  else if networkId = Network.development.id version then
    pure (ascii "Development")
  else if networkId = Network.bounty.id version then pure (ascii "Bounty")
  else Run.fail .incorrectData

/-- The ids of the four networks are accepted. -/
theorem parseNetworkId_eq_ok :
    parseNetworkId version networkId = .ok text ↔
      ∃ network : Network, networkId = network.id version ∧
        text = network.name := by
  constructor
  · intro accepted
    unfold parseNetworkId at accepted
    split_ifs at accepted with isMain isTest isDevelopment isBounty
    · cases accepted
      exact ⟨.main, isMain, rfl⟩
    · cases accepted
      exact ⟨.test, isTest, rfl⟩
    · cases accepted
      exact ⟨.development, isDevelopment, rfl⟩
    · cases accepted
      exact ⟨.bounty, isBounty, rfl⟩
    · cases accepted
  · rintro ⟨network, rfl, rfl⟩
    cases version <;> cases network <;> rfl

/-- A transaction as it is serialized. -/
structure Transaction (version : TransactionVersion) where
  data : List UInt8
  sender : Bytes 20
  senderType : UInt8
  recipient : Bytes 20
  recipientType : UInt8
  value : UInt64
  fee : UInt64
  validityStartHeight : UInt32
  networkId : UInt8
  flags : UInt8
  senderData : List UInt8
  /-- The length of the data has two bytes. -/
  dataLength_lt : data.length < 2 ^ 16
  /-- The length of the sender data is a varint of one byte. -/
  senderDataLength_lt : senderData.length < 128
  /-- There is no sender data in legacy transactions. -/
  legacySenderData : version = .legacy → senderData = []

namespace Transaction

/-- The sender data on the wire. -/
def senderDataBytes (tx : Transaction version) : List UInt8 :=
  if version = .albatross then
    [UInt8.ofNat tx.senderData.length] ++ tx.senderData
  else []

/-- A transaction on the wire. -/
def encode (tx : Transaction version) : List UInt8 :=
  u16Bytes (UInt16.ofNat tx.data.length) ++ (tx.data ++
    (tx.sender.val ++ ([tx.senderType] ++
      (tx.recipient.val ++ ([tx.recipientType] ++
        (u64Bytes tx.value ++ (u64Bytes tx.fee ++
          (u32Bytes tx.validityStartHeight ++
            ([tx.networkId] ++ ([tx.flags] ++ tx.senderDataBytes))))))))))

/-- Value and fee can be printed. -/
def Payable (tx : Transaction version) : Prop :=
  tx.value ≤ maxSafeLunaAmount ∧ tx.fee ≤ maxSafeLunaAmount

instance (tx : Transaction version) : Decidable tx.Payable :=
  inferInstanceAs (Decidable (_ ∧ _))

end Transaction

/-- The variables of `parse_tx` once the buffer is read, with what was printed
on the way. -/
structure TxFields where
  data : Slice
  sender : Pointer
  senderType : UInt8
  recipient : Pointer
  recipientType : UInt8
  value : UInt64
  validityStartHeight : UInt32
  flags : UInt8
  senderData : Slice
  valueText : CString
  feeText : CString
  networkText : CString

/-- The sender data, which legacy transactions do not have. -/
def readSenderData (version : TransactionVersion) (memory : List UInt8)
    (buffer : Slice) : Run ErrorCode (Slice × Slice) :=
  if version = .albatross then
    Run.orReturn .read (readSerdeVecU8 memory buffer)
  else pure (⟨none, 0⟩, buffer)

/-- `parse_tx` up to the end of the buffer. -/
def readTxFields (version : TransactionVersion) (memory : List UInt8)
    (buffer : Slice) : Run ErrorCode TxFields := do
  let (dataLength, buffer) ← Run.orReturn .read (readU16 memory buffer)
  let (data, buffer) ←
    Run.orReturn .read (readSubBuffer dataLength.toNat buffer)
  let (sender, buffer) ← Run.orReturn .read (readSubBuffer 20 buffer)
  let (senderType, buffer) ← Run.orReturn .read (readU8 memory buffer)
  let (recipient, buffer) ← Run.orReturn .read (readSubBuffer 20 buffer)
  let (recipientType, buffer) ← Run.orReturn .read (readU8 memory buffer)
  let (value, buffer) ← Run.orReturn .read (readU64 memory buffer)
  let valueText ← parseAmount value (some (ascii "NIM"))
  let (fee, buffer) ← Run.orReturn .read (readU64 memory buffer)
  let feeText ← parseAmount fee (some (ascii "NIM"))
  let (validityStartHeight, buffer) ←
    Run.orReturn .read (readU32 memory buffer)
  let (networkId, buffer) ← Run.orReturn .read (readU8 memory buffer)
  let networkText ← parseNetworkId version networkId
  let (flags, buffer) ← Run.orReturn .read (readU8 memory buffer)
  let (senderData, buffer) ← readSenderData version memory buffer
  Run.returnOn (buffer.length ≠ 0) .invalidLength
  pure {
    data := ⟨data, dataLength.toNat⟩
    sender, senderType, recipient, recipientType, value
    validityStartHeight, flags, senderData
    valueText, feeText, networkText }

/-- The variables of `parse_tx` denote the fields of a transaction. -/
structure TxFields.Denotes (memory : List UInt8) (fields : TxFields)
    (tx : Transaction version) : Prop where
  data : Covers memory fields.data tx.data
  dataPointer : tx.data ≠ [] → fields.data = ⟨some 2, tx.data.length⟩
  sender : Covers memory ⟨fields.sender, 20⟩ tx.sender.val
  senderType : fields.senderType = tx.senderType
  recipient : Covers memory ⟨fields.recipient, 20⟩ tx.recipient.val
  recipientType : fields.recipientType = tx.recipientType
  value : fields.value = tx.value
  validityStartHeight : fields.validityStartHeight = tx.validityStartHeight
  flags : fields.flags = tx.flags
  senderData : Covers memory fields.senderData tx.senderData

/-- The texts printed for a transaction. -/
def TxFields.Prints (fields : TxFields) (tx : Transaction version)
    (network : Network) : Prop :=
  fields.valueText = amountWithTicker tx.value.toNat ∧
    fields.feeText = amountWithTicker tx.fee.toNat ∧
      fields.networkText = network.name

/-- The sender data at the end of a transaction is read. -/
theorem readSenderData_accept
    (tx : Transaction version)
    (covers : Covers memory slice tx.senderDataBytes) :
    ∃ senderData next,
      readSenderData version memory slice = .ok (senderData, next) ∧
      Covers memory senderData tx.senderData ∧ Covers memory next [] := by
  unfold Transaction.senderDataBytes at covers
  unfold readSenderData
  cases version with
  | legacy =>
      refine ⟨⟨none, 0⟩, slice, rfl, ?_, covers⟩
      rw [tx.legacySenderData rfl]
      exact ⟨rfl, fun _ => rfl, by simp⟩
  | albatross =>
      have whole : Covers memory slice
          ([UInt8.ofNat tx.senderData.length] ++ (tx.senderData ++ [])) := by
        rwa [if_pos rfl, ← List.append_nil (_ ++ _),
          List.append_assoc] at covers
      obtain ⟨senderData, next, result, dataCovers, nextCovers⟩ :=
        readSerdeVecU8_accept whole tx.senderDataLength_lt
      exact ⟨senderData, next, by rw [if_pos rfl, result]; rfl, dataCovers,
        nextCovers⟩

/-- What is read as sender data is the end of a transaction. -/
theorem readSenderData_inversion
    (covers : Covers memory slice bytes)
    (result : readSenderData version memory slice = .ok (senderData, next))
    (finished : next.length = 0) :
    ∃ vector : List UInt8, vector.length < 128 ∧
      (version = .legacy → vector = []) ∧
      bytes = if version = .albatross then
          [UInt8.ofNat vector.length] ++ vector
        else [] := by
  unfold readSenderData at result
  cases version with
  | legacy =>
      cases result
      rw [covers.length_eq, List.length_eq_zero_iff] at finished
      exact ⟨[], by decide, fun _ => rfl, by simpa using finished⟩
  | albatross =>
      rw [if_pos rfl, Run.orReturn_eq_ok] at result
      obtain ⟨vector, rest, short, rfl, _, behind⟩ :=
        readSerdeVecU8_inversion covers result
      rw [behind.length_eq, List.length_eq_zero_iff] at finished
      refine ⟨vector, short, fun legacy => absurd legacy (by decide), ?_⟩
      rw [finished, List.append_nil, if_pos rfl]

theorem toNat_dataLength (tx : Transaction version) :
    (UInt16.ofNat tx.data.length).toNat = tx.data.length :=
  UInt16.toNat_ofNat_of_lt' tx.dataLength_lt

/-- The fields of a transaction are read. -/
theorem readTxFields_accept
    (tx : Transaction version)
    (covers : Covers memory ⟨some 0, length⟩ tx.encode)
    (payable : tx.Payable)
    (networkId : tx.networkId = Network.id version network) :
    ∃ fields, readTxFields version memory ⟨some 0, length⟩ = .ok fields ∧
      fields.Denotes memory tx ∧ fields.Prints tx network := by
  unfold Transaction.encode at covers
  have readLength := readU16_reads.accept trivial covers
  have dataCovers := covers.advance.leading
  have readData := covers.advance.readSubBuffer_eq
  obtain ⟨sender, _, readSender, senderCovers, covers⟩ :=
    covers.advance.advance.readSubBuffer_accept tx.sender.property
  obtain ⟨_, readSenderType, covers⟩ := readU8_reads.accept_next trivial covers
  obtain ⟨recipient, _, readRecipient, recipientCovers, covers⟩ :=
    covers.readSubBuffer_accept tx.recipient.property
  obtain ⟨_, readRecipientType, covers⟩ :=
    readU8_reads.accept_next trivial covers
  obtain ⟨_, readValue, covers⟩ := readU64_reads.accept_next trivial covers
  obtain ⟨_, readFee, covers⟩ := readU64_reads.accept_next trivial covers
  obtain ⟨_, readHeight, covers⟩ := readU32_reads.accept_next trivial covers
  obtain ⟨_, readNetwork, covers⟩ := readU8_reads.accept_next trivial covers
  obtain ⟨_, readFlags, covers⟩ := readU8_reads.accept_next trivial covers
  obtain ⟨senderData, last, readLast, senderDataCovers, ending⟩ :=
    readSenderData_accept tx covers
  have networkText := parseNetworkId_eq_ok.mpr ⟨network, networkId, rfl⟩
  unfold readTxFields
  simp only [readLength, Run.orReturn_ok, Run.bind_ok, toNat_dataLength tx,
    readData, readSender, readSenderType, readRecipient, readRecipientType,
    readValue, readFee, readHeight, readNetwork, readFlags, readLast,
    parseAmount_eq payable.1, parseAmount_eq payable.2, networkText]
  rw [Run.returnOn_of_not (by simp [ending.length_eq]), Run.bind_ok]
  refine ⟨_, rfl, ?_, rfl, rfl, rfl⟩
  exact {
    data := dataCovers
    dataPointer := by
      intro nonempty
      simp [Slice.leading, Slice.advance, nonempty]
    sender := senderCovers
    senderType := rfl
    recipient := recipientCovers
    recipientType := rfl
    value := rfl
    validityStartHeight := rfl
    flags := rfl
    senderData := senderDataCovers }

/-- A buffer whose fields are read is a transaction. -/
theorem readTxFields_inversion
    (covers : Covers memory slice bytes)
    (result : readTxFields version memory slice = .ok fields) :
    ∃ (tx : Transaction version) (network : Network), bytes = tx.encode ∧
      tx.Payable ∧ tx.networkId = network.id version := by
  unfold readTxFields at result
  obtain ⟨⟨dataLength, _⟩, readLength, result⟩ := Run.bind_eq_ok.mp result
  obtain ⟨⟨data, _⟩, readData, result⟩ := Run.bind_eq_ok.mp result
  obtain ⟨⟨sender, _⟩, readSender, result⟩ := Run.bind_eq_ok.mp result
  obtain ⟨⟨senderType, _⟩, readSenderType, result⟩ :=
    Run.bind_eq_ok.mp result
  obtain ⟨⟨recipient, _⟩, readRecipient, result⟩ := Run.bind_eq_ok.mp result
  obtain ⟨⟨recipientType, _⟩, readRecipientType, result⟩ :=
    Run.bind_eq_ok.mp result
  obtain ⟨⟨value, _⟩, readValue, result⟩ := Run.bind_eq_ok.mp result
  obtain ⟨_, printValue, result⟩ := Run.bind_eq_ok.mp result
  obtain ⟨⟨fee, _⟩, readFee, result⟩ := Run.bind_eq_ok.mp result
  obtain ⟨_, printFee, result⟩ := Run.bind_eq_ok.mp result
  obtain ⟨⟨height, _⟩, readHeight, result⟩ := Run.bind_eq_ok.mp result
  obtain ⟨⟨networkId, _⟩, readNetwork, result⟩ := Run.bind_eq_ok.mp result
  obtain ⟨_, parseNetwork, result⟩ := Run.bind_eq_ok.mp result
  obtain ⟨⟨flags, _⟩, readFlags, result⟩ := Run.bind_eq_ok.mp result
  obtain ⟨⟨senderData, last⟩, readLast, result⟩ := Run.bind_eq_ok.mp result
  obtain ⟨_, noMore, _⟩ := Run.bind_eq_ok.mp result
  rw [Run.orReturn_eq_ok] at readLength readData readSender readSenderType
  rw [Run.orReturn_eq_ok] at readRecipient readRecipientType readValue readFee
  rw [Run.orReturn_eq_ok] at readHeight readNetwork readFlags
  obtain ⟨_, _, rfl, _, covers⟩ := readU16_reads.inversion covers readLength
  obtain ⟨dataBytes, _, rfl, dataSize, _, _, _, covers⟩ :=
    covers.readSubBuffer_inversion readData
  obtain ⟨senderBytes, _, rfl, senderSize, _, _, _, covers⟩ :=
    covers.readSubBuffer_inversion readSender
  obtain ⟨_, _, rfl, _, covers⟩ := readU8_reads.inversion covers readSenderType
  obtain ⟨recipientBytes, _, rfl, recipientSize, _, _, _, covers⟩ :=
    covers.readSubBuffer_inversion readRecipient
  obtain ⟨_, _, rfl, _, covers⟩ :=
    readU8_reads.inversion covers readRecipientType
  obtain ⟨_, _, rfl, _, covers⟩ := readU64_reads.inversion covers readValue
  obtain ⟨_, _, rfl, _, covers⟩ := readU64_reads.inversion covers readFee
  obtain ⟨_, _, rfl, _, covers⟩ := readU32_reads.inversion covers readHeight
  obtain ⟨_, _, rfl, _, covers⟩ := readU8_reads.inversion covers readNetwork
  obtain ⟨_, _, rfl, _, covers⟩ := readU8_reads.inversion covers readFlags
  obtain ⟨vector, short, legacy, rfl⟩ := readSenderData_inversion covers
    readLast (not_not.mp (Run.returnOn_eq_ok.mp noMore))
  obtain ⟨network, networkEq, _⟩ := parseNetworkId_eq_ok.mp parseNetwork
  refine ⟨{
    data := dataBytes
    sender := ⟨senderBytes, senderSize⟩
    senderType
    recipient := ⟨recipientBytes, recipientSize⟩
    recipientType, value, fee
    validityStartHeight := height
    networkId, flags
    senderData := vector
    dataLength_lt := dataSize ▸ dataLength.toNat_lt
    senderDataLength_lt := short
    legacySenderData := legacy }, network, ?_,
    ⟨le_of_parseAmount_eq_ok printValue, le_of_parseAmount_eq_ok printFee⟩,
    networkEq⟩
  rw [Transaction.encode, Transaction.senderDataBytes]
  simp only [dataSize, UInt16.ofNat_toNat]

end NimiqApp
