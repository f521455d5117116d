import NimiqApp.Text
import NimiqApp.BufferUtils

/-!
# Data of normal transactions

`parse_normal_tx_data` shows data as text or in hexadecimal and recognizes
Cashlinks.  Whatever the data, its label and its text determine it.
-/

namespace NimiqApp

/-- `is_printable_ascii`. -/
def isPrintableAscii (data : List UInt8) : Bool :=
  data.all fun byte => !(byte < 32 || byte > 126)

/-- `sizeof(extra_data)`. -/
def stringLengthNormalTxDataMax : Nat := lengthNormalTxDataMax * 2 + 1

/-- What `parse_normal_tx_data` writes. -/
structure NormalTxData where
  extraDataLabel : CString
  extraData : CString
  isCashlink : Bool
  deriving DecidableEq, Repr

/-- `parse_normal_tx_data`. -/
def parseNormalTxData (memory : List UInt8) (data : Slice) :
    Run ErrorCode NormalTxData := do
  Run.returnOn (data.length > lengthNormalTxDataMax) .invalidLength
  if data.pointer = none ∨ data.length = 0 then
    pure ⟨ascii "", ascii "", false⟩
  else
    let bytes ← load memory data.pointer data.length
    if data.length = cashlinkMagicNumber.length ∧
        bytes = cashlinkMagicNumber then
      pure ⟨ascii "", ascii "", true⟩
    else if !isPrintableAscii bytes then
      let extraData ← printHex bytes
        (List.replicate stringLengthNormalTxDataMax 0)
      pure ⟨ascii "Data Hex", cString extraData, false⟩
    else
      pure ⟨ascii "Data", cString (bytes ++ [0]), false⟩

/-- How data is shown. -/
def shownNormalData (data : List UInt8) : NormalTxData :=
  if data = [] then ⟨[], [], false⟩
  else if data = cashlinkMagicNumber then ⟨[], [], true⟩
  else if isPrintableAscii data then ⟨ascii "Data", data, false⟩
  else ⟨ascii "Data Hex", hexText data, false⟩

theorem zero_not_mem_of_isPrintableAscii
    (printable : isPrintableAscii data = true) : (0 : UInt8) ∉ data := by
  intro member
  have inRange := List.all_eq_true.mp printable 0 member
  exact absurd inRange (by decide)

/-- Data is shown if and only if it is short enough. -/
theorem parseNormalTxData_eq (covers : Covers memory slice data) :
    parseNormalTxData memory slice =
      if data.length ≤ lengthNormalTxDataMax then
        .ok (shownNormalData data)
      else .error (.error .invalidLength) := by
  have size := covers.length_eq
  unfold parseNormalTxData
  by_cases short : data.length ≤ lengthNormalTxDataMax
  · rw [if_pos short, Run.returnOn_of_not (by omega), Run.bind_ok]
    by_cases empty : data = []
    · rw [if_pos (Or.inr (by rw [size, empty]; rfl)), shownNormalData,
        if_pos empty]
      rfl
    · have present : ¬(slice.pointer = none ∨ slice.length = 0) := by
        rintro (isNull | zero)
        · exact empty (covers.null isNull)
        · exact empty (List.length_eq_zero_iff.mp (size ▸ zero))
      have loaded := covers.load_eq (ε := ErrorCode)
      rw [← size] at loaded
      rw [if_neg present, loaded, Run.bind_ok, shownNormalData, if_neg empty]
      by_cases cashlink : data = cashlinkMagicNumber
      · rw [if_pos ⟨by rw [size, cashlink], cashlink⟩, if_pos cashlink]
        rfl
      · rw [if_neg (fun both => cashlink both.2), if_neg cashlink]
        by_cases printable : isPrintableAscii data = true
        · rw [if_neg (by simp [printable]), if_pos printable,
            cString_append_zero (zero_not_mem_of_isPrintableAscii printable)]
          rfl
        · have room : 2 * data.length + 1 ≤
              (List.replicate stringLengthNormalTxDataMax (0 : UInt8)).length := by
            rw [List.length_replicate, stringLengthNormalTxDataMax]
            omega
          obtain ⟨printed, print, text⟩ := cString_printHex empty room
          rw [if_pos (by simpa using printable), if_neg printable, print,
            Run.bind_ok, text]
          rfl
  · rw [if_neg short, Run.returnOn, if_pos (by omega)]
    rfl

/-- Data is shown as a Cashlink, as an entry or, when there is none, not at
all. -/
theorem shownNormalData_extraData_eq_nil_iff :
    (shownNormalData data).extraData = [] ↔
      data = [] ∨ data = cashlinkMagicNumber := by
  unfold shownNormalData
  split
  · simp_all
  · split
    · simp_all
    · split
      · simp_all
      · rename_i nonempty notCashlink _
        constructor
        · intro isEmpty
          have size := congrArg List.length isEmpty
          rw [hexText_length] at size
          have zero : data.length = 0 := by simpa using size
          exact absurd (List.length_eq_zero_iff.mp zero) nonempty
        · rintro (empty | cashlink)
          · exact absurd empty nonempty
          · exact absurd cashlink notCashlink

/-- What is shown determines the data. -/
theorem shownNormalData_injective
    (equal : shownNormalData left = shownNormalData right) :
    left = right := by
  have labels : ascii "Data" ≠ ascii "Data Hex" := by decide
  have noLabel : ([] : CString) ≠ ascii "Data" ∧
      ([] : CString) ≠ ascii "Data Hex" := by decide
  have inverse : ∀ data : List UInt8,
      (data = [] ∧ shownNormalData data = ⟨[], [], false⟩) ∨
      (data = cashlinkMagicNumber ∧
        shownNormalData data = ⟨[], [], true⟩) ∨
      shownNormalData data = ⟨ascii "Data", data, false⟩ ∨
      shownNormalData data = ⟨ascii "Data Hex", hexText data, false⟩ := by
    intro data
    unfold shownNormalData
    split
    · exact Or.inl ⟨‹_›, rfl⟩
    · split
      · exact Or.inr (Or.inl ⟨‹_›, rfl⟩)
      · split
        · exact Or.inr (Or.inr (Or.inl rfl))
        · exact Or.inr (Or.inr (Or.inr rfl))
  rcases inverse left with ⟨leftEq, shown⟩ | ⟨leftEq, shown⟩ | shown | shown <;>
    rcases inverse right with
      ⟨rightEq, other⟩ | ⟨rightEq, other⟩ | other | other <;>
    rw [shown, other] at equal
  all_goals simp_all [NormalTxData.mk.injEq]
  exact hexText_injective equal

end NimiqApp
