import NimiqApp.ApprovalReplies
import NimiqApp.Foundation.Agreement
import NimiqApp.HandlerFaults

/-!
# What is left behind a command

A command is in the front of the APDU buffer.  Behind it is what earlier
commands and replies left there, and approvals use the buffer as scratch
memory.  None of this is observed: whatever is behind the commands of a run,
the replies are the same, and so is what the app remembers.
-/

namespace NimiqApp

open Foundation (Agree Ends)
open Foundation.System (anyEvent)

/-- Two buffers have the same bytes up to a bound. -/
structure SameFront (bound : Nat) (left right : List UInt8) : Prop where
  length : left.length = right.length
  front : left.take bound = right.take bound

theorem SameFront.symm
    (same : SameFront bound left right) : SameFront bound right left where
  length := same.length.symm
  front := same.front.symm

/-- A slice ends at a bound or before it. -/
def Slice.EndsBy (slice : Slice) (bound : Nat) : Prop :=
  ∀ offset, slice.pointer = some offset → offset + slice.length ≤ bound

/-- A reader only looks at the bytes of its slice. -/
structure OwnReads (reader : List UInt8 → Slice → Run ε (α × Slice)) :
    Prop where
  same : ∀ {bound left right slice}, SameFront bound left right →
    slice.EndsBy bound → reader left slice = reader right slice
  endsBy : ∀ {bound memory slice value next}, slice.EndsBy bound →
    reader memory slice = .ok (value, next) → next.EndsBy bound

section Reading

variable {bound : Nat} {left right : List UInt8} {slice : Slice}

/-- A part in front of the bound. -/
theorem SameFront.part
    (same : SameFront bound left right)
    (within : offset + count ≤ bound) :
    (left.drop offset).take count = (right.drop offset).take count := by
  have front := congrArg (List.drop offset) same.front
  rw [List.drop_take, List.drop_take] at front
  have shorter := congrArg (List.take count) front
  rw [List.take_take, List.take_take, Nat.min_eq_left (by omega)] at shorter
  exact shorter

/-- A load in front of the bound. -/
theorem SameFront.load
    (same : SameFront bound left right)
    (within : ∀ offset, pointer = some offset → offset + count ≤ bound) :
    (NimiqApp.load left pointer count : Run ε _) =
      NimiqApp.load right pointer count := by
  unfold NimiqApp.load
  split
  · rfl
  · cases pointer with
    | none => rfl
    | some offset =>
        simp only
        rw [same.length, same.part (within offset rfl)]

/-- A load of a slice. -/
theorem SameFront.load_slice
    (same : SameFront bound left right)
    (ends : slice.EndsBy bound) :
    (NimiqApp.load left slice.pointer slice.length : Run ε _) =
      NimiqApp.load right slice.pointer slice.length :=
  same.load ends

/-- A part of a slice, and what is behind it. -/
theorem readSubBuffer_endsBy
    (ends : slice.EndsBy bound)
    (result : readSubBuffer count slice = .ok (pointer, next)) :
    Slice.EndsBy ⟨pointer, count⟩ bound ∧ next.EndsBy bound := by
  unfold readSubBuffer at result
  split at result
  · cases result
    exact ⟨nofun, ends⟩
  · split at result
    · cases result
    · rename_i offset atOffset
      split at result
      · cases result
      · cases result
        have total := ends offset atOffset
        refine ⟨?_, ?_⟩
        · rintro _ ⟨rfl⟩
          change offset + count ≤ bound
          omega
        · intro other atOther
          unfold Slice.advance at atOther ⊢
          rw [atOffset] at atOther
          cases atOther
          change offset + count + (slice.length - count) ≤ bound
          omega

theorem OwnReads.pure (value : α) :
    OwnReads (fun _ slice => (Pure.pure (value, slice) : Run ε _)) where
  same _ _ := rfl
  endsBy := by
    rintro bound memory slice _ _ ends ⟨⟩
    exact ends

/-- One reader after another. -/
theorem OwnReads.bind
    {reader : List UInt8 → Slice → Run ε (α × Slice)}
    {behind : α → List UInt8 → Slice → Run ε (β × Slice)}
    (first : OwnReads reader)
    (second : ∀ value, OwnReads (behind value)) :
    OwnReads (fun memory slice => reader memory slice >>= fun read =>
      behind read.1 memory read.2) where
  same := by
    intro bound left right slice same ends
    rw [← first.same same ends]
    cases result : reader left slice with
    | error stop => rfl
    | ok read => exact (second read.1).same same (first.endsBy ends result)
  endsBy := by
    intro bound memory slice value next ends result
    obtain ⟨read, readFirst, result⟩ := Run.bind_eq_ok.mp result
    exact (second read.1).endsBy (first.endsBy ends readFirst) result

/-- A check in front of a reader. -/
theorem OwnReads.returnOn
    {reader : List UInt8 → Slice → Run ε (α × Slice)}
    (own : OwnReads reader)
    (condition : Prop) [Decidable condition]
    (code : ε) :
    OwnReads (fun memory slice => Run.returnOn condition code >>= fun _ =>
      reader memory slice) where
  same same ends := by rw [own.same same ends]
  endsBy ends result := by
    obtain ⟨_, _, result⟩ := Run.bind_eq_ok.mp result
    exact own.endsBy ends result

/-- A reader whose errors become a status word. -/
theorem OwnReads.orReturn
    {reader : List UInt8 → Slice → Run ε (α × Slice)}
    (own : OwnReads reader)
    (sw : StatusWord) :
    OwnReads (fun memory slice => Run.orReturn sw (reader memory slice)) where
  same same ends := by rw [own.same same ends]
  endsBy ends result := own.endsBy ends (Run.orReturn_eq_ok.mp result)

theorem readU8_own : OwnReads readU8 where
  same := by
    intro bound left right slice same ends
    unfold readU8
    cases result : readSubBuffer 1 slice with
    | error stop => rfl
    | ok read =>
        simp only [Run.bind_ok]
        rw [same.load (readSubBuffer_endsBy ends result).1]
  endsBy := by
    intro bound memory slice value next ends result
    obtain ⟨read, readFirst, result⟩ := Run.bind_eq_ok.mp result
    obtain ⟨_, _, result⟩ := Run.bind_eq_ok.mp result
    cases result
    exact (readSubBuffer_endsBy ends readFirst).2

theorem readU16_own : OwnReads readU16 :=
  readU8_own.bind fun a => readU8_own.bind fun b =>
    .pure ((a.toUInt16 <<< 8) ||| b.toUInt16)

theorem readU32_own : OwnReads readU32 :=
  readU16_own.bind fun a => readU16_own.bind fun b =>
    .pure ((a.toUInt32 <<< 16) ||| b.toUInt32)

theorem readBip32PathEntries_own (count : Nat) :
    OwnReads (readBip32PathEntries · count) := by
  induction count with
  | zero => exact .pure []
  | succ count inductionHypothesis =>
      exact readU32_own.bind fun entry =>
        inductionHypothesis.bind fun entries => .pure (entry :: entries)

theorem readBip32Path_own : OwnReads readBip32Path :=
  readU8_own.bind fun pathLength =>
    (readBip32PathEntries_own pathLength.toNat).returnOn
      (pathLength < 1 ∨ pathLength > maxBip32PathLength) ()

/-- The verification message is in the slice. -/
theorem readVerificationMessage_endsBy
    (ends : slice.EndsBy bound)
    (read : readVerificationMessage memory returnSignature slice =
      .ok (msg, rest)) :
    msg.EndsBy bound := by
  unfold readVerificationMessage at read
  split at read
  · obtain ⟨_, _, read⟩ := Run.bind_eq_ok.mp read
    obtain ⟨⟨pointer, behind⟩, readPart, read⟩ := Run.bind_eq_ok.mp read
    obtain ⟨_, _, read⟩ := Run.bind_eq_ok.mp read
    obtain ⟨_, _, read⟩ := Run.bind_eq_ok.mp read
    cases read
    exact (readSubBuffer_endsBy ends (Run.orReturn_eq_ok.mp readPart)).1
  · cases read
    intro offset atOffset
    cases atOffset

/-- A slice has the same bytes. -/
theorem SameFront.covers
    (same : SameFront bound left right)
    (ends : slice.EndsBy bound)
    (covers : Covers left slice bytes) :
    Covers right slice bytes where
  length_eq := covers.length_eq
  null := covers.null
  within := by
    intro offset atOffset
    obtain ⟨rest, restEq⟩ := covers.within offset atOffset
    have part := same.part (ends offset atOffset)
    rw [restEq, covers.length_eq, List.take_left] at part
    refine ⟨(right.drop offset).drop bytes.length, ?_⟩
    calc
      right.drop offset =
          (right.drop offset).take bytes.length ++
            (right.drop offset).drop bytes.length :=
        (List.take_append_drop _ _).symm
      _ = bytes ++ (right.drop offset).drop bytes.length := by rw [← part]

/-- A message that starts the prefix, but is shorter. -/
structure StartsPrefix (message : List UInt8) : Prop where
  nonempty : message ≠ []
  short : message.length < dummyDataPrefix.length
  isPrefix : message <+: dummyDataPrefix

/-- A short message is accepted if it is dummy data together with what is
behind it. -/
theorem readVerificationMessage_behind
    (covers : Covers memory slice message)
    (nonempty : message ≠ [])
    (short : message.length < dummyDataPrefix.length)
    (atOffset : slice.pointer = some offset) :
    readVerificationMessage memory true slice =
      if offset + dummyDataPrefix.length ≤ memory.length then
        if (memory.drop offset).take dummyDataPrefix.length =
            dummyDataPrefix then
          .ok (slice, slice.advance slice.length)
        else .error (.error .incorrectData)
      else .error (.fault .outOfBounds) := by
  have prefixLength : dummyDataPrefix.length = 11 := by decide
  have size := covers.length_eq
  have start : Covers memory slice (message ++ []) := by
    rwa [List.append_nil]
  have present : slice.length ≠ 0 := by
    rw [size]
    exact mt List.length_eq_zero_iff.mp nonempty
  have readMessage := start.readSubBuffer_eq
  rw [← size, Slice.leading, if_neg present] at readMessage
  unfold readVerificationMessage
  rw [if_pos rfl, Run.returnOn_of_not (by omega), Run.bind_ok]
  simp only [readMessage, Run.orReturn_ok, Run.bind_ok]
  unfold load
  rw [if_neg (by decide), atOffset]
  simp only
  split
  · rw [Run.pure_eq, Run.bind_ok]
    split
    · rename_i isPrefix
      rw [Run.returnOn_of_not (not_not.mpr isPrefix), ← atOffset]
      rfl
    · rename_i differs
      rw [Run.returnOn, if_pos differs]
      rfl
  · rfl

/-- A short message that is no dummy data is refused, if what is behind it
can be read at all. -/
theorem readVerificationMessage_other
    (covers : Covers memory slice message)
    (nonempty : message ≠ [])
    (short : message.length < dummyDataPrefix.length)
    (other : ¬message <+: dummyDataPrefix)
    (atOffset : slice.pointer = some offset) :
    readVerificationMessage memory true slice =
      if offset + dummyDataPrefix.length ≤ memory.length then
        .error (.error .incorrectData)
      else .error (.fault .outOfBounds) := by
  obtain ⟨rest, restEq⟩ := covers.within offset atOffset
  have differs : (memory.drop offset).take dummyDataPrefix.length ≠
      dummyDataPrefix := by
    intro isPrefix
    apply other
    rw [← isPrefix, restEq, List.prefix_take_iff]
    exact ⟨List.prefix_append _ _, Nat.le_of_lt short⟩
  rw [readVerificationMessage_behind covers nonempty short atOffset,
    if_neg differs]

end Reading

/-! ## Handling commands -/

section Handlers

variable {app : App} {bound : Nat} {left right : List UInt8} {data : Slice}
  (same : SameFront bound left right) (ends : data.EndsBy bound)

include same ends

/-- The first chunk of a transaction. -/
theorem TransactionContext.first_own (tx : TransactionContext) :
    tx.first left data = tx.first right data := by
  unfold TransactionContext.first
  apply Agree.eq
  have ownPath := readBip32Path_own.orReturn .wrongDataLength
  refine .behind (ownPath.same same ends) ?_
  rintro ⟨path, behindPath⟩ readPath
  have endsPath := ownPath.endsBy ends readPath
  have ownVersion := readU8_own.orReturn .wrongDataLength
  refine .behind (ownVersion.same same endsPath) ?_
  rintro ⟨version, rest⟩ readVersion
  have endsVersion := ownVersion.endsBy endsPath readVersion
  refine .behind rfl ?_
  intro _ _
  refine .behind (same.load_slice endsVersion) ?_
  intro chunk _
  exact .of_eq rfl

/-- A further chunk of a transaction. -/
theorem TransactionContext.more_own (tx : TransactionContext) :
    tx.more left data = tx.more right data := by
  unfold TransactionContext.more
  simp only
  rw [same.load_slice ends]

theorem TransactionContext.chunk_own
    (p1 : UInt8)
    (tx : TransactionContext) :
    tx.chunk p1 left data = tx.chunk p1 right data := by
  unfold TransactionContext.chunk
  rw [tx.first_own same ends, tx.more_own same ends]

/-- The bytes of a message. -/
theorem App.processMessage_own
    (msg : MessageSigningContext app.layout.Shared) :
    app.processMessage left data msg = app.processMessage right data msg := by
  unfold App.processMessage
  simp only
  rw [same.load_slice ends]

/-- The first chunk of a message, or a further one. -/
theorem App.messageChunk_own
    (p1 : UInt8)
    (msg : MessageSigningContext app.layout.Shared) :
    app.messageChunk p1 left data msg = app.messageChunk p1 right data msg := by
  unfold App.messageChunk App.startMessage
  rw [App.processMessage_own same ends]
  apply Agree.eq
  split
  · have ownPath := readBip32Path_own.orReturn .wrongDataLength
    have ownFlags := readU8_own.orReturn .wrongDataLength
    have ownLength := readU32_own.orReturn .wrongDataLength
    simp only [bind_assoc]
    refine .behind (ownPath.same same ends) ?_
    rintro ⟨path, behindPath⟩ readPath
    have endsPath := ownPath.endsBy ends readPath
    refine .behind (ownFlags.same same endsPath) ?_
    rintro ⟨flags, behindFlags⟩ readFlags
    have endsFlags := ownFlags.endsBy endsPath readFlags
    refine .behind (ownLength.same same endsFlags) ?_
    rintro ⟨length, rest⟩ readLength
    have endsLength := ownLength.endsBy endsFlags readLength
    refine .behind rfl ?_
    intro prepare _
    exact .of_eq (App.processMessage_own same endsLength _)
  · exact .of_eq rfl

/-- A verification message that is not read beyond its end, or refused
whatever is there. -/
theorem readVerificationMessage_own
    (message : List UInt8)
    (covers : returnSignature = true → Covers right data message)
    (decided : returnSignature = true → ¬StartsPrefix message) :
    readVerificationMessage left returnSignature data =
      readVerificationMessage right returnSignature data := by
  cases returnSignature with
  | false => rfl
  | true =>
      have inRight := covers rfl
      have inLeft := same.symm.covers ends inRight
      have size := inRight.length_eq
      by_cases empty : message = []
      · subst empty
        rw [readVerificationMessage_nothing inLeft,
          readVerificationMessage_nothing inRight]
      · by_cases long : dummyDataPrefix.length ≤ message.length
        · unfold readVerificationMessage
          rw [if_pos rfl, if_pos rfl]
          apply Agree.eq
          refine .behind rfl ?_
          intro _ _
          refine .behind rfl ?_
          rintro ⟨pointer, rest⟩ read
          obtain ⟨part, _⟩ :=
            readSubBuffer_endsBy ends (Run.orReturn_eq_ok.mp read)
          have front : ∀ offset, pointer = some offset →
              offset + dummyDataPrefix.length ≤ bound := by
            rintro offset rfl
            have total := part offset rfl
            simp only at total
            omega
          simp only
          rw [same.load front]
          exact .of_eq rfl
        · have short := Nat.lt_of_not_le long
          have other : ¬message <+: dummyDataPrefix := fun isPrefix =>
            decided rfl ⟨empty, short, isPrefix⟩
          obtain ⟨offset, atOffset⟩ : ∃ offset, data.pointer = some offset :=
            Option.ne_none_iff_exists'.mp (mt inLeft.null empty)
          rw [readVerificationMessage_other inLeft empty short other atOffset,
            readVerificationMessage_other inRight empty short other atOffset,
            same.length]

/-- A request for a public key. -/
theorem App.handleGetPublicKey_own
    (covers : Covers right data bytes)
    (decided : p1 = p1Signature → ConfirmationParameter p2 →
      ∀ path message, ValidPath path →
        bytes = bip32PathBytes path ++ message → ¬StartsPrefix message)
    (req : app.layout.Memory) :
    app.handleGetPublicKey p1 p2 left data req =
      app.handleGetPublicKey p1 p2 right data req := by
  unfold App.handleGetPublicKey
  apply Agree.eq
  refine .behind rfl ?_
  intro _ checked
  have confirmation : ConfirmationParameter p2 := by
    have passed := Run.returnOn_eq_ok.mp checked
    unfold ConfirmationParameter
    tauto
  have ownPath := readBip32Path_own.orReturn .wrongDataLength
  refine .behind (ownPath.same same ends) ?_
  rintro ⟨path, rest⟩ readPath
  have endsPath := ownPath.endsBy ends readPath
  obtain ⟨message, validPath, bytesEq, rfl, messageCovers⟩ :=
    readBip32Path_reads.inversion covers (Run.orReturn_eq_ok.mp readPath)
  refine .behind (readVerificationMessage_own same endsPath message
    (fun _ => messageCovers) (fun withSignature =>
      decided (of_decide_eq_true withSignature) confirmation _ _ validPath
        bytesEq)) ?_
  rintro ⟨msg, behind⟩ readMessage
  have endsMessage := readVerificationMessage_endsBy endsPath readMessage
  have signed : ∀ privateKey signature,
      app.signVerificationMessage left privateKey (decide (p1 = p1Signature))
          msg signature =
        app.signVerificationMessage right privateKey
          (decide (p1 = p1Signature)) msg signature := by
    intro privateKey signature
    unfold Sdk.signVerificationMessage
    rw [same.load_slice endsMessage]
  simp only [signed]
  exact .of_eq rfl

/-- A request for the signature of a transaction. -/
theorem App.handleSignTransaction_own
    (p1 p2 : UInt8)
    (req : app.layout.Memory) :
    app.handleSignTransaction p1 p2 left data req =
      app.handleSignTransaction p1 p2 right data req := by
  unfold App.handleSignTransaction
  rw [TransactionContext.chunk_own same ends]

/-- A request for the signature of a message. -/
theorem App.handleSignMessage_own
    (p1 p2 : UInt8)
    (req : app.layout.Memory) :
    app.handleSignMessage p1 p2 left data req =
      app.handleSignMessage p1 p2 right data req := by
  unfold App.handleSignMessage
  rw [App.messageChunk_own same ends]

end Handlers

/-- Two commands have the same bytes, with anything behind them. -/
structure Command.SameBytes (command other : Command) : Prop where
  length : command.length = other.length
  front : SameFront command.length command.buffer.val other.buffer.val

/-- A command asks for the signature of a message that is only a front of
the prefix it has to start with. -/
def Command.ReadsBehind (command : Command) : Prop :=
  ∃ p2 path message, ConfirmationParameter p2 ∧ ValidPath path ∧
    command.Carries insGetPublicKey p1Signature p2
      (bip32PathBytes path ++ message) ∧ StartsPrefix message

section Commands

variable {app : App} {command other : Command}

/-- The header is one of the bytes of a command. -/
theorem Command.SameBytes.byte
    (same : command.SameBytes other)
    (within : offset < command.length) :
    command.byte offset = other.byte offset := by
  have at_offset := congrArg (fun bytes => bytes.getD offset 0)
    same.front.front
  simp only [List.getD_eq_getElem?_getD, List.getElem?_take_of_lt within]
    at at_offset
  unfold Command.byte
  simpa only [List.getD_eq_getElem?_getD] using at_offset

/-- The data of a command is in front of its end. -/
theorem Command.WellFormed.endsBy
    (wellFormed : command.WellFormed) :
    command.data.EndsBy command.length := by
  unfold Command.WellFormed at wellFormed
  rintro _ ⟨rfl⟩
  change offsetCdata + (command.byte offsetLc).toNat ≤ command.length
  omega

/-- What is behind a command does not change what it leads to, unless the
command has a verification message that is too short. -/
theorem App.handleCommand_own
    (same : command.SameBytes other)
    (bounded : ¬command.ReadsBehind)
    (req : app.layout.Memory) :
    app.handleCommand command req = app.handleCommand other req := by
  by_cases complete : offsetLc < command.length
  · have header : ∀ offset, offset ≤ offsetLc →
        command.byte offset = other.byte offset :=
      fun offset within => same.byte (Nat.lt_of_le_of_lt within complete)
    have sameData : command.data = other.data := by
      unfold Command.data
      rw [header offsetLc (Nat.le_refl _)]
    have sameForm : command.WellFormed = other.WellFormed := by
      unfold Command.WellFormed
      rw [header offsetLc (Nat.le_refl _), same.length]
    unfold App.handleCommand App.handleApdu
    rw [← header offsetCla (by decide), ← header offsetIns (by decide),
      ← header offsetP1 (by decide), ← header offsetP2 (by decide),
      ← sameData]
    apply Agree.eq
    refine .behind (by simp only [sameForm]) ?_
    intro _ checked
    have wellFormed : command.WellFormed := by
      rw [sameForm]
      exact not_not.mp (Run.returnOn_eq_ok.mp checked)
    have ends := wellFormed.endsBy
    refine .behind rfl ?_
    intro _ claChecked
    have claEq := not_not.mp (Run.returnOn_eq_ok.mp claChecked)
    apply Agree.of_eq
    simp only
    split_ifs with isPublicKey isTransaction isMessage isKeepAlive
    · obtain ⟨bytes, carries⟩ := wellFormed.carries claEq
      symm
      apply App.handleGetPublicKey_own same.front.symm ends carries.covers
      rintro withSignature confirmation path message validPath rfl starts
      rw [isPublicKey, withSignature] at carries
      exact bounded ⟨_, path, message, confirmation, validPath, carries,
        starts⟩
    · exact App.handleSignTransaction_own same.front ends _ _ req
    · exact App.handleSignMessage_own same.front ends _ _ req
    · rfl
    · rfl
  · have refused : ∀ incomplete : Command, ¬offsetLc < incomplete.length →
        app.handleCommand incomplete req =
          .error (.error .wrongDataLength) := by
      intro incomplete short
      unfold App.handleCommand
      rw [Run.returnOn, if_pos]
      · rfl
      · unfold Command.WellFormed
        exact not_not.mpr (Or.inl (by omega))
    rw [refused command complete,
      refused other (by rw [← same.length]; exact complete)]

end Commands

/-! ## Approving with scratch memory -/

section Approvals

variable {sdk : Sdk} {privateKey : sdk.PrivateKey}

/-- A store that extends what is the same. -/
theorem Bytes.store_sameFront
    {left right : Bytes size}
    (same : SameFront offset left.val right.val)
    (bytes : List UInt8) :
    Agree (fun left right : Bytes size =>
        SameFront (offset + bytes.length) left.val right.val)
      (left.store offset bytes : Run ε _) (right.store offset bytes) := by
  by_cases fits : offset + bytes.length ≤ size
  · obtain ⟨storedLeft, stored, leftEq⟩ :=
      left.store_eq (ε := ε) offset bytes fits
    obtain ⟨storedRight, storedToo, rightEq⟩ :=
      right.store_eq (ε := ε) offset bytes fits
    rw [stored, storedToo]
    refine .returned ⟨?_, ?_⟩
    · rw [storedLeft.property, storedRight.property]
    · have place : ∀ array : Bytes size,
          (array.val.take offset ++ bytes).length = offset + bytes.length := by
        intro array
        rw [List.length_append, List.length_take, array.property]
        omega
      rw [leftEq, rightEq]
      unfold overwrite
      rw [← place left, List.take_left, place left, ← place right,
        List.take_left, same.front]
  · unfold store
    rw [dif_neg fits, dif_neg fits]
    exact .stopped

/-- What is stored is loaded again, whatever is around it. -/
theorem Bytes.store_sameLoad
    (left right : Bytes size)
    (offset : Nat)
    (bytes : List UInt8) :
    Agree (fun left right : Bytes size =>
        (load left.val (some offset) bytes.length : Run ε _) =
          load right.val (some offset) bytes.length)
      (left.store offset bytes : Run ε _) (right.store offset bytes) := by
  by_cases fits : offset + bytes.length ≤ size
  · obtain ⟨storedLeft, stored, _⟩ :=
      left.store_eq (ε := ε) offset bytes fits
    obtain ⟨storedRight, storedToo, _⟩ :=
      right.store_eq (ε := ε) offset bytes fits
    rw [stored, storedToo]
    exact .returned ((store_load stored).trans (store_load storedToo).symm)
  · unfold store
    rw [dif_neg fits, dif_neg fits]
    exact .stopped

/-- A signature is the same in any scratch memory. -/
theorem signTransaction_own
    (tx : TransactionContext)
    (left right : ApduBuffer) :
    Agree (fun left right : ApduBuffer =>
        SameFront 64 left.val right.val)
      (sdk.signTransaction privateKey tx left)
      (sdk.signTransaction privateKey tx right) := by
  unfold Sdk.signTransaction
  refine .behind rfl ?_
  intro bytes _
  refine .behind rfl ?_
  intro signature _
  have start : SameFront 0 left.val right.val := by
    refine ⟨?_, rfl⟩
    rw [left.property, right.property]
  have stored := Bytes.store_sameFront (ε := Interruption) start signature.val
  rw [Nat.zero_add, signature.property] at stored
  exact stored

/-- The proof is filled in with the same in any scratch memory. -/
theorem createStakerSignature_own
    (proof : SignatureProof)
    (tx : TransactionContext)
    (left right : ApduBuffer) :
    Agree (fun (left right : TransactionContext × ApduBuffer) =>
        left.1 = right.1)
      (sdk.createStakerSignature privateKey proof tx left)
      (sdk.createStakerSignature privateKey proof tx right) := by
  unfold Sdk.createStakerSignature
  refine .bind (signTransaction_own tx left right) ?_
  intro left right signed
  refine .behind (signed.load (by rintro _ ⟨rfl⟩; exact Nat.le_refl 64)) ?_
  intro signature _
  refine .behind rfl ?_
  intro rawTx _
  refine .behind rfl ?_
  intro publicKey _
  have stored := Bytes.store_sameLoad (ε := Interruption) left right
    sdk.temporaryCoordinates publicKey.val
  rw [publicKey.property] at stored
  refine .bind stored ?_
  intro left right sameKey
  refine .behind sameKey ?_
  intro W _
  refine .behind rfl ?_
  intro filled _
  exact .returned rfl

/-- The reply to an approval is the same in any scratch memory. -/
theorem signApprovedTransaction_own
    (tx : TransactionContext)
    (left right : ApduBuffer) :
    sdk.signApprovedTransaction tx left =
      sdk.signApprovedTransaction tx right := by
  unfold Sdk.signApprovedTransaction
  apply Agree.eq
  refine .behind rfl ?_
  intro privateKey _
  refine .behind rfl ?_
  intro proof _
  cases proof with
  | none =>
      refine .bind (signTransaction_own tx left right) ?_
      intro left right signed
      refine .returned ?_
      rw [signed.front]
  | some proof =>
      refine .bind (createStakerSignature_own proof tx left right) ?_
      rintro ⟨filled, left⟩ ⟨_, right⟩ ⟨rfl⟩
      refine .bind (signTransaction_own filled left right) ?_
      intro left right signed
      refine .behind rfl ?_
      intro stakerSignature loaded
      have stored := Bytes.store_sameFront (ε := Interruption) signed
        stakerSignature
      rw [load_length loaded] at stored
      refine .bind stored ?_
      intro left right both
      refine .returned ?_
      rw [both.front]

/-- Approvals do not depend on their scratch memory. -/
theorem App.onApproved_own
    {app : App}
    (left right : ApduBuffer)
    (req : app.layout.Memory)
    (review : OpenReview app.layout.Shared) :
    app.onApproved left req review = app.onApproved right req review := by
  cases review with
  | publicKey pk => rfl
  | message msg => rfl
  | transaction tx =>
      change app.approveTransaction left req = app.approveTransaction right req
      unfold App.approveTransaction Sdk.onTransactionApproved
      simp only [signApprovedTransaction_own _ left right]

end Approvals

namespace Command

variable {command : Command} {behind : List UInt8}

/-- The same command with other bytes behind it. -/
def leaving (command : Command) (behind : List UInt8)
    (fits : command.length + behind.length ≤ 260) : Command where
  length := command.length
  buffer := ⟨overwrite command.buffer.val command.length behind, by
    rw [overwrite_length (by rw [command.buffer.property]; exact fits),
      command.buffer.property]⟩

theorem leaving_sameBytes
    (fits : command.length + behind.length ≤ 260) :
    command.SameBytes (command.leaving behind fits) where
  length := rfl
  front := by
    refine ⟨?_, ?_⟩
    · rw [command.buffer.property,
        (command.leaving behind fits).buffer.property]
    · have place : (command.buffer.val.take command.length).length =
          command.length := by
        rw [List.length_take, command.buffer.property]
        omega
      change _ = (overwrite _ _ _).take _
      unfold overwrite
      rw [List.append_assoc, List.take_append_of_le_length (by omega),
        List.take_take, Nat.min_self]

/-- The command carries the same, in front of the bytes that are left. -/
theorem Carries.leaving
    (carries : command.Carries ins p1 p2 bytes)
    (fits : command.length + behind.length ≤ 260) :
    ∃ rest, (command.leaving behind fits).buffer.val =
      [cla, ins, p1, p2, UInt8.ofNat bytes.length] ++ bytes ++
        (behind ++ rest) := by
  obtain ⟨length, tail, bufferEq⟩ := carries
  have place : ([cla, ins, p1, p2, UInt8.ofNat bytes.length] ++
      bytes).length = command.length := by
    rw [length, List.length_append]
    rfl
  refine ⟨tail.drop behind.length, ?_⟩
  change overwrite _ _ _ = _
  unfold overwrite
  rw [bufferEq, ← place, List.take_left, ← List.drop_drop, List.drop_left,
    List.append_assoc]

end Command

/-! ## Whole runs -/

/-- The same event, or another command of the same bytes. -/
inductive Event.SameBytes : Event → Event → Prop
  | command {command other : Command} (same : command.SameBytes other) :
      SameBytes (.command command) (.command other)
  | same (event : Event) : SameBytes event event

/-- Two states differ in nothing but the APDU buffer. -/
structure State.SameButBuffer {app : App} (left right : State app) :
    Prop where
  ctx : left.ctx = right.ctx
  review : left.review = right.review
  unanswered : left.unanswered = right.unanswered

/-- No command has a verification message that is too short. -/
def BytesSuffice {app : App} (_ : List (Event × Output app.layout.Shared))
    (_ : State app) (event : Event) : Prop :=
  ∀ command, event = .command command → ¬command.ReadsBehind

/-- The same step, up to what is behind its command. -/
def SameStep (left right : Event × Output Shared) : Prop :=
  left.1.SameBytes right.1 ∧ left.2 = right.2

/-- Lists of related entries end with related entries. -/
theorem forall₂_append_singleton
    {related : α → β → Prop}
    {front : List α}
    {others : List β}
    (both : List.Forall₂ related (front ++ [last]) others) :
    ∃ begin ending, others = begin ++ [ending] ∧
      List.Forall₂ related front begin ∧ related last ending := by
  have reversed := List.forall₂_reverse_iff.mpr both
  rw [List.reverse_append, List.reverse_singleton, List.singleton_append,
    List.forall₂_cons_left_iff] at reversed
  obtain ⟨ending, begin, atEnd, before, reverseEq⟩ := reversed
  refine ⟨begin.reverse, ending, ?_, ?_, atEnd⟩
  · rw [← List.reverse_cons, ← reverseEq, List.reverse_reverse]
  · rw [← List.forall₂_reverse_iff, List.reverse_reverse]
    exact before

section Runs

variable {app : App} {left right next : State app} {event other : Event}
  {output : Output app.layout.Shared}
  {history others : List (Event × Output app.layout.Shared)}

theorem Command.SameBytes.refl (command : Command) :
    command.SameBytes command :=
  ⟨rfl, ⟨rfl, rfl⟩⟩

/-- A command leads to the same in any state that only differs in the
buffer. -/
theorem State.receive_own
    {command other : Command}
    (alike : left.SameButBuffer right)
    (same : command.SameBytes other)
    (bounded : ¬command.ReadsBehind)
    (received : left.receive command = .ok (next, output)) :
    ∃ reached, right.receive other = .ok (reached, output) ∧
      next.SameButBuffer reached := by
  unfold State.receive App.nimiqMain at received ⊢
  rw [App.handleCommand_own same bounded, alike.ctx] at received
  obtain ⟨⟨ctx, answered⟩, handled, received⟩ := Run.bind_eq_ok.mp received
  cases received
  rw [handled, Run.bind_ok]
  exact ⟨_, rfl, rfl, congrArg output.launched.or alike.review, rfl⟩

/-- A step leads to the same, whatever is behind its command and in the
buffer. -/
theorem State.step_own
    (alike : left.SameButBuffer right)
    (same : event.SameBytes other)
    (bounded : ∀ command, event = .command command → ¬command.ReadsBehind)
    (stepped : left.step event = some (next, output)) :
    ∃ reached, right.step other = some (reached, output) ∧
      next.SameButBuffer reached := by
  have command_step : ∀ {command other : Command},
      event = .command command → command.SameBytes other →
      ∃ reached, right.step (.command other) = some (reached, output) ∧
        next.SameButBuffer reached := by
    rintro command other rfl same
    unfold State.step at stepped ⊢
    simp only at stepped ⊢
    rw [← alike.unanswered]
    split at stepped
    · cases stepped
    · rename_i idle
      obtain ⟨reached, received, both⟩ := State.receive_own alike same
        (bounded _ rfl) (Run.toOption_eq_some.mp stepped)
      rw [if_neg idle, received]
      exact ⟨reached, rfl, both⟩
  cases same with
  | command same => exact command_step rfl same
  | same event =>
      obtain ⟨ctx, buffer, review, unanswered⟩ := left
      obtain ⟨_, otherBuffer, _, _⟩ := right
      obtain ⟨⟨rfl⟩, ⟨rfl⟩, ⟨rfl⟩⟩ := alike
      cases event with
      | command command => exact command_step rfl (.refl command)
      | ticker isU2f =>
          cases stepped
          exact ⟨_, rfl, rfl, rfl, rfl⟩
      | approve =>
          unfold State.step at stepped ⊢
          simp only [Option.bind_eq_bind, Option.bind_eq_some_iff]
            at stepped ⊢
          obtain ⟨shown, onScreen, ⟨req, reply⟩, approved, decided⟩ := stepped
          cases decided
          rw [App.onApproved_own buffer otherBuffer] at approved
          exact ⟨_, ⟨shown, onScreen, _, approved, rfl⟩, rfl, rfl, rfl⟩
      | reject =>
          unfold State.step at stepped ⊢
          simp only [Option.bind_eq_bind, Option.bind_eq_some_iff]
            at stepped ⊢
          obtain ⟨shown, onScreen, decided⟩ := stepped
          cases decided
          exact ⟨_, ⟨shown, onScreen, rfl⟩, rfl, rfl, rfl⟩
      | messageStep step =>
          unfold State.step at stepped ⊢
          simp only at stepped ⊢
          split at stepped
          · rename_i offered
            obtain ⟨msg, displayed, shown⟩ :=
              Run.bind_eq_ok.mp (Run.toOption_eq_some.mp stepped)
            cases shown
            have shownToo : State.display step
                (⟨ctx, otherBuffer, review, unanswered⟩ : State app) = _ :=
              congrArg (Bind.bind · _) displayed
            exact ⟨_, (if_pos offered).trans
              (Run.toOption_eq_some.mpr shownToo), rfl, rfl, rfl⟩
          · cases stepped
      | restart =>
          cases stepped
          exact ⟨_, rfl, rfl, rfl, rfl⟩

/-- In a run whose verification messages are long enough, no reply and no
later state tells what is behind the commands. -/
theorem leftovers_unobservable
    (run : app.system.Run BytesSuffice history left)
    (same : List.Forall₂ SameStep history others) :
    ∃ right, app.system.Run anyEvent others right ∧
      left.SameButBuffer right := by
  induction run generalizing others with
  | start =>
      cases same
      exact ⟨_, .start, rfl, rfl, rfl⟩
  | @step history left event next output _ bounded stepped
      inductionHypothesis =>
      obtain ⟨before, ⟨other, answer⟩, rfl, sameBefore, sameEvent, ⟨rfl⟩⟩ :=
        forall₂_append_singleton same
      obtain ⟨right, run, alike⟩ := inductionHypothesis sameBefore
      obtain ⟨reached, steppedToo, both⟩ :=
        State.step_own alike sameEvent bounded stepped
      exact ⟨reached, run.step trivial steppedToo, both⟩

end Runs

/-- Other commands have no verification message. -/
theorem Command.Carries.bounded
    {command : Command}
    (carries : command.Carries ins p1 p2 bytes)
    (other : ins ≠ insGetPublicKey) : ¬command.ReadsBehind := by
  rintro ⟨_, path, message, _, _, carriesMessage, _⟩
  exact other (carries.header.2.2.1.symm.trans carriesMessage.header.2.2.1)

theorem reviewedCommand_room :
    reviewedCommand.length + [(255 : UInt8)].length ≤ 260 := by
  decide

/-- The vesting contract is reviewed, also with another byte behind it. -/
theorem leftovers_unobservable_vesting :
    ∃ (tx : TransactionContext) (right : State disturbedApp),
      disturbedApp.system.Run anyEvent
        [(.command (reviewedCommand.leaving [255] reviewedCommand_room),
          ⟨none, some (.transaction tx)⟩)] right ∧
      right.review = some (.transaction tx) := by
  obtain ⟨state, tx, received, onScreen, _⟩ :=
    State.receive_accepted acceptedVestingCreation (State.start disturbedApp)
      rfl trivial (Command.carrying_carries reviewedTransaction_short)
      (by decide)
  have bounded : BytesSuffice [] (State.start disturbedApp)
      (.command reviewedCommand) := by
    rintro _ ⟨rfl⟩
    exact (Command.carrying_carries reviewedTransaction_short).bounded
      (by decide)
  have run : disturbedApp.system.Run BytesSuffice
      [(.command reviewedCommand, ⟨none, some (.transaction tx)⟩)] state :=
    .step .start bounded (State.step_of_receive rfl received)
  have same : SameStep
      (.command reviewedCommand, ⟨none, some (.transaction tx)⟩)
      (.command (reviewedCommand.leaving [255] reviewedCommand_room),
        (⟨none, some (.transaction tx)⟩ :
          Output disturbedApp.layout.Shared)) :=
    ⟨.command (Command.leaving_sameBytes reviewedCommand_room), rfl⟩
  obtain ⟨right, runToo, alike⟩ := leftovers_unobservable run (.cons same .nil)
  exact ⟨tx, right, runToo, alike.review.symm.trans onScreen⟩

section Observing

variable {app : App} {command : Command}

/-- The rest of the prefix behind a message makes it dummy data. -/
theorem StartsPrefix.completed
    (starts : StartsPrefix message)
    (rest : List UInt8) :
    (message ++ (dummyDataPrefix.drop message.length ++ rest)).take
      dummyDataPrefix.length = dummyDataPrefix := by
  obtain ⟨back, whole⟩ := starts.isPrefix
  have dropped : dummyDataPrefix.drop message.length = back := by
    rw [← whole, List.drop_left]
  rw [dropped, ← List.append_assoc, whole, List.take_left]

/-- A zero behind a message makes it none. -/
theorem StartsPrefix.broken
    (starts : StartsPrefix message)
    (rest : List UInt8) :
    (message ++ ([0] ++ rest)).take dummyDataPrefix.length ≠
      dummyDataPrefix := by
  intro isPrefix
  have noZero : (0 : UInt8) ∉ dummyDataPrefix := by decide
  apply noZero
  obtain ⟨more, moreEq⟩ := Nat.exists_eq_succ_of_ne_zero
    (Nat.sub_ne_zero_of_lt starts.short)
  rw [← isPrefix, List.take_append, moreEq]
  exact List.mem_append_right _ List.mem_cons_self

/-- No error that speaks of incorrect data. -/
abbrev NotIncorrect (run : Run StatusWord α) : Prop :=
  Ends (fun _ => True) (· ≠ .error .incorrectData) run

theorem cryptography_notIncorrect (call : Option α) :
    NotIncorrect (cryptography call) := by
  cases call with
  | none => exact .threw nofun
  | some value => exact .returned trivial

theorem printPublicKeyAsAddress_notIncorrect
    (device : Device)
    (publicKey : List UInt8) :
    NotIncorrect
      (Run.orErrorToSw (printPublicKeyAsAddress device publicKey)) := by
  unfold printPublicKeyAsAddress publicKeyToAddress
  cases device.address publicKey with
  | none => exact .threw nofun
  | some address =>
      simp only [Run.pure_eq, Run.bind_ok, printAddress_eq address.property]
      exact .returned trivial

/-- A request to sign a message is not refused because of its data. -/
theorem App.signedPublicKey_notIncorrect
    (p2 : UInt8)
    (path : List UInt32)
    (message : List UInt8)
    (req : app.layout.Memory) :
    NotIncorrect (app.signedPublicKey p2 path message req) := by
  have answered : ∀ pk, NotIncorrect (app.answerGetPublicKey p2 pk) := by
    intro pk
    unfold App.answerGetPublicKey
    split
    · apply Ends.bind (printPublicKeyAsAddress_notIncorrect _ _)
      intro _ _
      exact .returned trivial
    · rw [setResultGetPublicKey_eq]
      exact .returned trivial
  unfold App.signedPublicKey
  apply Ends.bind (cryptography_notIncorrect _)
  intro privateKey _
  apply Ends.bind (cryptography_notIncorrect _)
  intro publicKey _
  apply Ends.bind (cryptography_notIncorrect _)
  intro signature _
  apply Ends.bind (answered _)
  intro _ _
  exact .returned trivial

/-- A command with a short verification message is handled as one with the
bytes that are behind it. -/
theorem Command.Carries.handle_behind
    (bufferEq : command.buffer.val =
      [cla, insGetPublicKey, p1Signature, p2,
        UInt8.ofNat (bip32PathBytes path ++ message).length] ++
      (bip32PathBytes path ++ message) ++ behind)
    (carries : command.Carries insGetPublicKey p1Signature p2
      (bip32PathBytes path ++ message))
    (valid : ConfirmationParameter p2)
    (validPath : ValidPath path)
    (starts : StartsPrefix message)
    (req : app.layout.Memory) :
    app.handleCommand command req =
      if (message ++ behind).take dummyDataPrefix.length =
          dummyDataPrefix then
        app.signedPublicKey p2 path message req
      else .error (.error .incorrectData) := by
  have covers := carries.covers
  have readPath := readBip32Path_reads.accept validPath covers
  have messageCovers := covers.advance
  have size := messageCovers.length_eq
  obtain ⟨offset, atOffset⟩ : ∃ offset,
      (command.data.advance (bip32PathBytes path).length).pointer =
        some offset := ⟨_, rfl⟩
  have room := validPath.room command offset atOffset
  have front : command.buffer.val.drop offset = message ++ behind := by
    have place : ([cla, insGetPublicKey, p1Signature, p2,
        UInt8.ofNat (bip32PathBytes path ++ message).length] ++
        bip32PathBytes path).length = offset := by
      cases atOffset
      rw [List.length_append]
      rfl
    rw [bufferEq, ← List.append_assoc, ← place, List.append_assoc,
      List.drop_left]
  rw [carries.handleGetPublicKey]
  unfold App.handleGetPublicKey
  rw [valid.check, Run.bind_ok, readPath]
  simp only [Run.orReturn_ok, Run.bind_ok, decide_true]
  rw [readVerificationMessage_behind messageCovers starts.nonempty
    starts.short atOffset, if_pos room, front]
  by_cases accepted : (message ++ behind).take dummyDataPrefix.length =
      dummyDataPrefix
  · rw [if_pos accepted, if_pos accepted, Run.bind_ok]
    simp only
    rw [Run.returnOn_of_not (by
      rw [Slice.advance_length]
      omega), Run.bind_ok]
    have signed : ∀ privateKey signature,
        app.signVerificationMessage command.buffer.val privateKey true
            (command.data.advance (bip32PathBytes path).length) signature =
          cryptography (app.eddsaSign privateKey message) := by
      intro privateKey signature
      unfold Sdk.signVerificationMessage
      rw [if_pos ⟨rfl, atOffset ▸ Option.some_ne_none offset⟩, size, messageCovers.load_eq,
        Run.bind_ok]
    simp only [signed]
    rfl
  · rw [if_neg accepted, if_neg accepted]
    rfl

/-- The reply to such a request tells that the data was not incorrect. -/
theorem State.receive_notIncorrect
    {state : State app}
    (ends : NotIncorrect (app.handleCommand command state.ctx.req)) :
    (state.receive command).map Prod.snd ≠
      .ok ⟨some ⟨[], .incorrectData⟩, none⟩ := by
  cases result : app.handleCommand command state.ctx.req with
  | ok handled =>
      rw [State.receive_handled handled result]
      cases handled.answer with
      | response data => nofun
      | review launched => nofun
      | asyncReply => nofun
  | error stopped =>
      rw [result] at ends
      cases stopped with
      | error sw =>
          rw [State.receive_refused result]
          rintro ⟨⟩
          cases ends with
          | threw other => exact other rfl
      | fault reason =>
          rw [State.receive_fault result]
          nofun

/-- Some other bytes behind a command change what is replied or shown. -/
def State.Observes (state : State app) (command : Command) : Prop :=
  ∃ other, command.SameBytes other ∧
    (state.receive command).map Prod.snd ≠ (state.receive other).map Prod.snd

/-- In any state, what is behind a command is observed exactly if the command
has a verification message that is only a front of the prefix. -/
theorem leftovers_observable_iff
    (state : State app)
    (command : Command) :
    state.Observes command ↔ command.ReadsBehind := by
  constructor
  · rintro ⟨other, same, differs⟩
    by_contra bounded
    apply differs
    unfold State.receive App.nimiqMain
    rw [App.handleCommand_own same bounded]
    cases app.handleCommand other state.ctx.req with
    | ok handled => rfl
    | error stopped =>
        cases stopped with
        | error sw => rfl
        | fault reason => rfl
  · rintro ⟨p2, path, message, valid, validPath, carries, starts⟩
    have prefixLength : dummyDataPrefix.length = 11 := by decide
    have short := starts.short
    have total : command.length + dummyDataPrefix.length ≤ 260 := by
      have bound : path.length ≤ 10 := validPath.2
      rw [carries.1, List.length_append, bip32PathBytes_length]
      unfold offsetCdata
      omega
    have fitsPrefix : command.length +
        (dummyDataPrefix.drop message.length).length ≤ 260 := by
      rw [List.length_drop]
      omega
    have fitsZero : command.length + [(0 : UInt8)].length ≤ 260 := by
      change command.length + 1 ≤ 260
      omega
    obtain ⟨_, accepted⟩ := carries.leaving fitsPrefix
    obtain ⟨_, refused⟩ := carries.leaving fitsZero
    have signs := Command.Carries.handle_behind accepted
      ⟨carries.1, _, accepted⟩ valid validPath starts state.ctx.req
    have refuses := Command.Carries.handle_behind refused
      ⟨carries.1, _, refused⟩ valid validPath starts state.ctx.req
    rw [if_pos (starts.completed _)] at signs
    rw [if_neg (starts.broken _)] at refuses
    have signsReply : (state.receive (command.leaving _ fitsPrefix)).map
        Prod.snd ≠ .ok ⟨some ⟨[], .incorrectData⟩, none⟩ :=
      State.receive_notIncorrect
        (signs ▸ app.signedPublicKey_notIncorrect p2 path message
          state.ctx.req)
    have refusesReply := congrArg (Except.map Prod.snd)
      (State.receive_refused refuses)
    by_cases isRefused : (state.receive command).map Prod.snd =
        .ok ⟨some ⟨[], .incorrectData⟩, none⟩
    · refine ⟨_, command.leaving_sameBytes fitsPrefix, ?_⟩
      rw [isRefused]
      exact signsReply.symm
    · refine ⟨_, command.leaving_sameBytes fitsZero, ?_⟩
      rw [refusesReply]
      exact isRefused

end Observing
end NimiqApp
