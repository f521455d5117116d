import NimiqApp.Device
import NimiqApp.Encoding

/-!
# Signature proofs

`read_signature_proof` keeps pointers into the transaction it reads; only
ed25519 proofs without flags and with an empty merkle path are supported.
-/

namespace NimiqApp

/-- `signature_proof_t`. -/
structure SignatureProof where
  publicKey : Pointer
  signature : Pointer
  typeAndFlags : UInt8
  merklePathLength : UInt8
  deriving DecidableEq, Repr

namespace SignatureProof

/-- Zeroed memory. -/
def zero : SignatureProof where
  publicKey := none
  signature := none
  typeAndFlags := 0
  merklePathLength := 0

/-- The proof read at an offset. -/
def atOffset (offset : Nat) : SignatureProof where
  publicKey := some (offset + 1)
  signature := some (offset + 34)
  typeAndFlags := 0
  merklePathLength := 0

end SignatureProof

/-- `read_signature_proof`. -/
def readSignatureProof (memory : List UInt8) (slice : Slice) :
    Run Unit (SignatureProof × Slice) := do
  let (typeAndFlags, slice) ← readU8 memory slice
  let (publicKey, slice) ← readSubBuffer 32 slice
  let (merklePathLength, slice) ← readU8 memory slice
  let (signature, slice) ← readSubBuffer 64 slice
  Run.returnOn (typeAndFlags ≠ 0) ()
  Run.returnOn (merklePathLength ≠ 0) ()
  pure ({ publicKey, signature, typeAndFlags, merklePathLength }, slice)

/-- `is_empty_default_signature_proof`. -/
def isEmptyDefaultSignatureProof (memory : List UInt8)
    (proof : SignatureProof) : Run ε Bool :=
  if proof.typeAndFlags ≠ 0 ∨ proof.merklePathLength ≠ 0 then pure false
  else do
    let publicKey ← load memory proof.publicKey 32
    if publicKey.any (· ≠ 0) then pure false
    else
      let signature ← load memory proof.signature 64
      pure (signature.all (· = 0))

/-- Bytes of value zero. -/
def zeroBytes (count : Nat) : List UInt8 :=
  List.replicate count 0

/-- An array of zeros. -/
def Bytes.zero : Bytes size :=
  ⟨zeroBytes size, List.length_replicate⟩

theorem all_zero_eq (size : bytes.length = count) :
    bytes.all (· = (0 : UInt8)) = decide (bytes = zeroBytes count) := by
  rw [Bool.eq_iff_iff, decide_eq_true_iff, zeroBytes, List.eq_replicate_iff]
  simp [size]

theorem any_nonzero_eq (size : bytes.length = count) :
    bytes.any (· ≠ (0 : UInt8)) = !decide (bytes = zeroBytes count) := by
  rw [← all_zero_eq size, List.not_all_eq_any_not]
  simp

/-- A signature proof as it is serialized. -/
structure ProofData where
  publicKey : Bytes 32
  signature : Bytes 64

namespace ProofData

/-- Algorithm and flags, the public key, an empty merkle path and the
signature. -/
def encode (proof : ProofData) : List UInt8 :=
  [0] ++ (proof.publicKey.val ++ ([0] ++ proof.signature.val))

/-- The proof the wallet leaves for the app to fill in. -/
def IsEmptyDefault (proof : ProofData) : Prop :=
  proof.publicKey.val = zeroBytes 32 ∧ proof.signature.val = zeroBytes 64

/-- The empty default proof. -/
def emptyDefault : ProofData where
  publicKey := ⟨zeroBytes 32, rfl⟩
  signature := ⟨zeroBytes 64, rfl⟩

instance (proof : ProofData) : Decidable proof.IsEmptyDefault :=
  inferInstanceAs (Decidable (_ ∧ _))

@[simp] theorem encode_length (proof : ProofData) :
    proof.encode.length = 98 := by
  simp [encode, proof.publicKey.property, proof.signature.property]

end ProofData

/-- The pointers of a proof denote the fields of its serialization. -/
structure SignatureProof.Denotes (memory : List UInt8)
    (proof : SignatureProof) (data : ProofData) : Prop where
  publicKey : Covers memory ⟨proof.publicKey, 32⟩ data.publicKey.val
  signature : Covers memory ⟨proof.signature, 64⟩ data.signature.val
  typeAndFlags : proof.typeAndFlags = 0
  merklePathLength : proof.merklePathLength = 0

/-- A serialized proof is denoted by the pointers at its offset. -/
theorem SignatureProof.denotes_atOffset
    {data : ProofData}
    (covers : Covers memory ⟨some offset, length⟩ (data.encode ++ rest)) :
    (atOffset offset).Denotes memory data where
  publicKey := by
    unfold ProofData.encode at covers
    rw [List.append_assoc, List.append_assoc] at covers
    have key := covers.advance.leading
    rwa [data.publicKey.property] at key
  signature := by
    unfold ProofData.encode at covers
    rw [List.append_assoc, List.append_assoc, List.append_assoc] at covers
    have signature := covers.advance.advance.advance.leading
    rwa [data.publicKey.property, data.signature.property] at signature
  typeAndFlags := rfl
  merklePathLength := rfl

/-- A serialized proof is read. -/
theorem readSignatureProof_eq
    {data : ProofData}
    (covers : Covers memory ⟨some offset, length⟩ (data.encode ++ rest)) :
    readSignatureProof memory ⟨some offset, length⟩ =
      .ok (SignatureProof.atOffset offset,
        (⟨some offset, length⟩ : Slice).advance data.encode.length) := by
  have total := data.encode_length
  unfold ProofData.encode at covers
  rw [List.append_assoc, List.append_assoc, List.append_assoc] at covers
  have key := covers.advance.readSubBuffer_eq
  have signature := covers.advance.advance.advance.readSubBuffer_eq
  rw [data.publicKey.property] at key
  rw [data.publicKey.property, data.signature.property] at signature
  have path := readU8_reads.accept trivial covers.advance.advance
  rw [data.publicKey.property] at path
  unfold readSignatureProof
  rw [readU8_reads.accept trivial covers, Run.bind_ok]
  simp only [List.length_singleton, Slice.advance_advance] at key signature path ⊢
  rw [key, Run.bind_ok]
  simp only
  rw [path, Run.bind_ok]
  simp only
  rw [signature, Run.bind_ok]
  simp only [total]
  rfl

/-- Whatever is read as a proof is a serialized proof. -/
theorem readSignatureProof_inversion
    (covers : Covers memory ⟨some offset, length⟩ bytes)
    (result : readSignatureProof memory ⟨some offset, length⟩ =
      .ok (proof, next)) :
    ∃ data rest, bytes = ProofData.encode data ++ rest ∧
      proof = SignatureProof.atOffset offset ∧ Covers memory next rest := by
  unfold readSignatureProof at result
  obtain ⟨⟨typeAndFlags, afterType⟩, readType, result⟩ :=
    Run.bind_eq_ok.mp result
  obtain ⟨⟨publicKey, afterKey⟩, readKey, result⟩ := Run.bind_eq_ok.mp result
  obtain ⟨⟨merklePathLength, afterPath⟩, readPath, result⟩ :=
    Run.bind_eq_ok.mp result
  obtain ⟨⟨signature, afterSignature⟩, readSignature, result⟩ :=
    Run.bind_eq_ok.mp result
  obtain ⟨_, noFlags, result⟩ := Run.bind_eq_ok.mp result
  obtain ⟨_, noPath, result⟩ := Run.bind_eq_ok.mp result
  obtain ⟨_, _, rfl, rfl, covers⟩ := readU8_reads.inversion covers readType
  obtain ⟨key, _, rfl, keyLength, rfl, rfl, _, covers⟩ :=
    covers.readSubBuffer_inversion readKey
  obtain ⟨_, _, rfl, rfl, covers⟩ := readU8_reads.inversion covers readPath
  obtain ⟨signed, _, rfl, signedLength, rfl, rfl, _, covers⟩ :=
    covers.readSubBuffer_inversion readSignature
  obtain rfl := not_not.mp (Run.returnOn_eq_ok.mp noFlags)
  obtain rfl := not_not.mp (Run.returnOn_eq_ok.mp noPath)
  cases result
  refine ⟨⟨⟨key, keyLength⟩, ⟨signed, signedLength⟩⟩, _, ?_, ?_, covers⟩
  · simp [ProofData.encode]
  · rfl

/-- The comparison with the empty default proof. -/
theorem isEmptyDefaultSignatureProof_eq
    (denotes : SignatureProof.Denotes memory proof data) :
    (isEmptyDefaultSignatureProof memory proof : Run ε Bool) =
      .ok (decide data.IsEmptyDefault) := by
  have key := denotes.publicKey.load_eq (ε := ε)
  have signature := denotes.signature.load_eq (ε := ε)
  rw [data.publicKey.property] at key
  rw [data.signature.property] at signature
  unfold isEmptyDefaultSignatureProof
  rw [if_neg (by simp [denotes.typeAndFlags, denotes.merklePathLength]), key,
    Run.bind_ok, any_nonzero_eq data.publicKey.property]
  by_cases keyEmpty : data.publicKey.val = zeroBytes 32
  · rw [if_neg (by simp [keyEmpty]), signature, Run.bind_ok,
      all_zero_eq data.signature.property]
    simp [ProofData.IsEmptyDefault, keyEmpty]
  · rw [if_pos (by simp [keyEmpty])]
    simp [ProofData.IsEmptyDefault, keyEmpty]

end NimiqApp
