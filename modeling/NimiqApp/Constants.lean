/-!
# Constants

The constants and enumerations of `constants.h` the model uses.  Bytes read
from the wire stay bytes; an enumeration says which of them it names.
-/

namespace NimiqApp

/-- A C string, without its terminator. -/
abbrev CString := List UInt8

/-- The bytes of an ASCII literal. -/
def ascii (literal : String) : CString :=
  literal.toUTF8.data.toList

/-- Largest amount in Luna, `MAX_SAFE_LUNA_AMOUNT`. -/
def maxSafeLunaAmount : UInt64 := 9007199254740991

/-- `sizeof("255")`. -/
def stringLengthUint8 : Nat := 4

/-- `sizeof("4294967295")`. -/
def stringLengthUint32 : Nat := 11

/-- `sizeof("90071992547.40991")`. -/
def stringLengthNimAmount : Nat := 18

/-- `STRING_LENGTH_WITH_SUFFIX(STRING_LENGTH_NIM_AMOUNT, " NIM")`. -/
def stringLengthNimAmountWithTicker : Nat := 22

def maxBip32PathLength : UInt8 := 10

/-- The magic data of a Cashlink. -/
def cashlinkMagicNumber : List UInt8 := [0x00, 0x82, 0x80, 0x92, 0x87]

/-- The prefix of every signed message. -/
def messageSigningPrefix : CString := ascii "\x16Nimiq Signed Message:\n"

def txFlagContractCreation : UInt8 := 1

def txFlagSignaling : UInt8 := 2

def messageFlagPreferDisplayTypeHex : UInt8 := 1

def messageFlagPreferDisplayTypeHash : UInt8 := 2

/-- Longest supported transaction, `MAX_RAW_TX`. -/
def maxRawTx : Nat := 188

def maxPrintableMessageLength : Nat := 160

/-- Longest data of a normal transaction, `LENGTH_NORMAL_TX_DATA_MAX`. -/
def lengthNormalTxDataMax : Nat := 64

/-- Two months at one block a minute. -/
def htlcTimeoutSoonThreshold : UInt32 := 60 * 24 * 31 * 2

/-- The class of all commands, `CLA`. -/
def cla : UInt8 := 0xE0

def insGetPublicKey : UInt8 := 0x02

def insSignTx : UInt8 := 0x04

def insKeepAlive : UInt8 := 0x08

def insSignMessage : UInt8 := 0x0A

def p1NoSignature : UInt8 := 0x00

def p1Signature : UInt8 := 0x01

def p2NoConfirm : UInt8 := 0x00

def p2Confirm : UInt8 := 0x01

def p1First : UInt8 := 0x00

def p1More : UInt8 := 0x80

def p2Last : UInt8 := 0x00

def p2More : UInt8 := 0x80

def offsetCla : Nat := 0

def offsetIns : Nat := 1

def offsetP1 : Nat := 2

def offsetP2 : Nat := 3

def offsetLc : Nat := 4

/-- Where the data of a command starts, `OFFSET_CDATA`. -/
def offsetCdata : Nat := 5

/-- Milliseconds until a heartbeat, `U2F_REQUEST_TIMEOUT`. -/
def u2fRequestTimeout : UInt16 := 28000

/-- The enumerator among `values` whose code is the given byte. -/
def decodeEnum (values : List α) (code : α → UInt8)
    (byte : UInt8) : Option α :=
  values.find? fun value => code value == byte

/-- With distinct codes and all values listed, a byte names exactly the
enumerator with that code. -/
theorem decodeEnum_eq_some_iff
    {code : α → UInt8}
    (complete : ∀ value, value ∈ values)
    (distinct : ∀ left right, code left = code right → left = right) :
    decodeEnum values code byte = some value ↔ byte = code value := by
  unfold decodeEnum
  constructor
  · intro found
    have codeEq := List.find?_some found
    exact (beq_iff_eq.mp codeEq).symm
  · rintro rfl
    have present : (values.find? fun other =>
        code other == code value).isSome :=
      List.find?_isSome.mpr ⟨value, complete value, beq_self_eq_true _⟩
    obtain ⟨other, found⟩ := Option.isSome_iff_exists.mp present
    have codeEq : (code other == code value) = true :=
      List.find?_some (p := fun other => code other == code value) found
    rw [found, distinct other value (beq_iff_eq.mp codeEq)]

/-- `transaction_version_t`. -/
inductive TransactionVersion
  | legacy
  | albatross
  deriving DecidableEq, Repr

namespace TransactionVersion

def code : TransactionVersion → UInt8
  | .legacy => 0
  | .albatross => 1

/-- The version a byte names. -/
def ofCode? : UInt8 → Option TransactionVersion :=
  decodeEnum [.legacy, .albatross] code

theorem ofCode?_eq_some_iff :
    ofCode? byte = some version ↔ byte = code version :=
  decodeEnum_eq_some_iff
    (by intro value; cases value <;> decide)
    (by intro left right; cases left <;> cases right <;> decide)

@[simp] theorem ofCode?_code (version : TransactionVersion) :
    ofCode? (code version) = some version :=
  ofCode?_eq_some_iff.mpr rfl

/-- There is no version but the two. -/
theorem ne_legacy_iff {version : TransactionVersion} :
    ¬version = .legacy ↔ version = .albatross := by
  cases version with
  | legacy => simp
  | albatross => simp

end TransactionVersion

/-- `account_type_t`. -/
inductive AccountType
  | basic
  | vesting
  | htlc
  | staking
  deriving DecidableEq, Repr

namespace AccountType

def code : AccountType → UInt8
  | .basic => 0
  | .vesting => 1
  | .htlc => 2
  | .staking => 3

/-- The account type a byte names. -/
def ofCode? : UInt8 → Option AccountType :=
  decodeEnum [.basic, .vesting, .htlc, .staking] code

theorem ofCode?_eq_some_iff :
    ofCode? byte = some account ↔ byte = code account :=
  decodeEnum_eq_some_iff
    (by intro value; cases value <;> decide)
    (by intro left right; cases left <;> cases right <;> decide)

@[simp] theorem ofCode?_code (account : AccountType) :
    ofCode? (code account) = some account :=
  ofCode?_eq_some_iff.mpr rfl

end AccountType

/-- `hash_algorithm_t`. -/
inductive HashAlgorithm
  | blake2b
  | argon2d
  | sha256
  | sha512
  deriving DecidableEq, Repr

namespace HashAlgorithm

def code : HashAlgorithm → UInt8
  | .blake2b => 1
  | .argon2d => 2
  | .sha256 => 3
  | .sha512 => 4

/-- The hash algorithm a byte names. -/
def ofCode? : UInt8 → Option HashAlgorithm :=
  decodeEnum [.blake2b, .argon2d, .sha256, .sha512] code

theorem ofCode?_eq_some_iff :
    ofCode? byte = some algorithm ↔ byte = code algorithm :=
  decodeEnum_eq_some_iff
    (by intro value; cases value <;> decide)
    (by intro left right; cases left <;> cases right <;> decide)

@[simp] theorem ofCode?_code (algorithm : HashAlgorithm) :
    ofCode? (code algorithm) = some algorithm :=
  ofCode?_eq_some_iff.mpr rfl

end HashAlgorithm

/-- `transaction_type_t`. -/
inductive TransactionType
  | normal
  | vestingCreation
  | htlcCreation
  | stakingIncoming
  | stakingOutgoing
  deriving DecidableEq, Repr

/-- `transaction_label_type_t`. -/
inductive TransactionLabelType
  | regularTransaction
  | cashlink
  | vestingCreation
  | htlcCreation
  | stakingCreateStaker
  | stakingAddStake
  | stakingUpdateStaker
  | stakingSetActiveStake
  | stakingRetireStake
  | stakingRemoveStake
  deriving DecidableEq, Repr

/-- `staking_incoming_data_type_t`. -/
inductive StakingIncomingDataType
  | createValidator
  | updateValidator
  | deactivateValidator
  | reactivateValidator
  | retireValidator
  | createStaker
  | addStake
  | updateStaker
  | setActiveStake
  | retireStake
  deriving DecidableEq, Repr

namespace StakingIncomingDataType

def code : StakingIncomingDataType → UInt8
  | .createValidator => 0
  | .updateValidator => 1
  | .deactivateValidator => 2
  | .reactivateValidator => 3
  | .retireValidator => 4
  | .createStaker => 5
  | .addStake => 6
  | .updateStaker => 7
  | .setActiveStake => 8
  | .retireStake => 9

/-- The incoming staking data type a byte names. -/
def ofCode? : UInt8 → Option StakingIncomingDataType :=
  decodeEnum
    [.createValidator, .updateValidator, .deactivateValidator,
      .reactivateValidator, .retireValidator, .createStaker, .addStake,
      .updateStaker, .setActiveStake, .retireStake]
    code

theorem ofCode?_eq_some_iff :
    ofCode? byte = some type ↔ byte = code type :=
  decodeEnum_eq_some_iff
    (by intro value; cases value <;> decide)
    (by intro left right; cases left <;> cases right <;> decide)

@[simp] theorem ofCode?_code (type : StakingIncomingDataType) :
    ofCode? (code type) = some type :=
  ofCode?_eq_some_iff.mpr rfl

end StakingIncomingDataType

/-- `staking_outgoing_data_type_t`. -/
inductive StakingOutgoingDataType
  | deleteValidator
  | removeStake
  deriving DecidableEq, Repr

namespace StakingOutgoingDataType

def code : StakingOutgoingDataType → UInt8
  | .deleteValidator => 0
  | .removeStake => 1

/-- The outgoing staking data type a byte names. -/
def ofCode? : UInt8 → Option StakingOutgoingDataType :=
  decodeEnum [.deleteValidator, .removeStake] code

theorem ofCode?_eq_some_iff :
    ofCode? byte = some type ↔ byte = code type :=
  decodeEnum_eq_some_iff
    (by intro value; cases value <;> decide)
    (by intro left right; cases left <;> cases right <;> decide)

@[simp] theorem ofCode?_code (type : StakingOutgoingDataType) :
    ofCode? (code type) = some type :=
  ofCode?_eq_some_iff.mpr rfl

end StakingOutgoingDataType

/-- `message_display_type_t`. -/
inductive MessageDisplayType
  | ascii
  | hex
  | hash
  deriving DecidableEq, Repr

end NimiqApp
