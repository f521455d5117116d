import NimiqApp.Continuity

/-!
# The lengths of chunks

The lengths of what was received are words of 32 bits in memory that other
requests use as well.  They are added up before they are checked, so it
depends on the run whether a sum can wrap.
-/

namespace NimiqApp

/-- A length that does not wrap. -/
theorem toNat_addLength
    (length : UInt32)
    (count : Nat)
    (bounded : length.toNat + count < 2 ^ 32) :
    (length + UInt32.ofNat count).toNat = length.toNat + count := by
  have countEq : (UInt32.ofNat count).toNat = count :=
    UInt32.toNat_ofNat_of_lt' (by unfold UInt32.size; omega)
  rw [UInt32.toNat_add, countEq, Nat.mod_eq_of_lt bounded]

/-- Nothing is written. -/
theorem overwrite_nil (buffer : List UInt8) (offset : Nat) :
    overwrite buffer offset [] = buffer := by
  unfold overwrite
  rw [List.append_nil, List.length_nil, Nat.add_zero, List.take_append_drop]

/-- A reader does not fault on a buffer. -/
theorem Reads.noFault
    {read : List UInt8 → Slice → Run Unit (α × Slice)}
    (reads : Reads valid read encode)
    (covers : Covers memory slice bytes) :
    Run.NoFault (Run.orReturn code (read memory slice) : Run ε _) := by
  by_cases encoded : ∃ value rest, valid value ∧ bytes = encode value ++ rest
  · obtain ⟨value, rest, isValid, rfl⟩ := encoded
    rw [reads.accept isValid covers]
    exact Run.NoFault.ok _
  · rw [reads.reject covers fun value rest isValid equal =>
      encoded ⟨value, rest, isValid, equal⟩]
    exact Run.NoFault.error _

/-- A chunk is added behind what was received, inside the buffer. -/
structure TransactionContext.Appends (tx : TransactionContext)
    (part : List UInt8) (next : TransactionContext) : Prop where
  length : next.rawTxLength.toNat = tx.rawTxLength.toNat + part.length
  within : next.rawTxLength.toNat ≤ maxRawTx
  written : next.rawTx.val =
    overwrite tx.rawTx.val tx.rawTxLength.toNat part

/-- A further chunk of a transaction leads to no fault, and is added if it is
accepted. -/
theorem TransactionContext.more_appends
    {tx : TransactionContext}
    (covers : Covers buffer data part)
    (bounded : tx.rawTxLength.toNat + part.length < 2 ^ 32) :
    Run.NoFault (tx.more buffer data) ∧
      ∀ next, tx.more buffer data = .ok next → tx.Appends part next := by
  have sum := toNat_addLength tx.rawTxLength part.length bounded
  by_cases refuses : tx.RefusesLength part
  · rw [refuses.more covers]
    refine ⟨Run.NoFault.error _, ?_⟩
    intro next accepted
    cases accepted
  · have within : (tx.rawTxLength + UInt32.ofNat part.length).toNat ≤
        maxRawTx := Nat.le_of_not_lt refuses
    obtain ⟨rawTx, stored, storedEq⟩ :=
      tx.rawTx.store_eq (ε := StatusWord) tx.rawTxLength.toNat part
        (by rwa [← sum])
    have more : tx.more buffer data = .ok { tx with
        rawTx
        rawTxLength := tx.rawTxLength + UInt32.ofNat part.length } := by
      unfold TransactionContext.more
      rw [covers.length_eq]
      simp only
      rw [Run.returnOn_of_not (Nat.not_lt.mpr within), Run.bind_ok,
        covers.load_eq, Run.bind_ok, stored]
      rfl
    rw [more]
    refine ⟨Run.NoFault.ok _, ?_⟩
    rintro next ⟨⟩
    exact ⟨sum, within, storedEq⟩

/-- A first chunk is read and stored without a fault. -/
theorem TransactionContext.first_noFault
    {tx : TransactionContext}
    (covers : Covers buffer data sent) :
    Run.NoFault (tx.first buffer data) := by
  by_cases carried : ∃ path version bytes,
      CarriesTransaction path version bytes sent
  · obtain ⟨path, version, bytes, validPath, rfl⟩ := carried
    by_cases short : bytes.length ≤ maxRawTx
    · obtain ⟨next, first, _⟩ := tx.first_collects validPath covers short
      rw [first]
      exact Run.NoFault.ok next
    · rw [tx.first_refuses validPath covers (Nat.lt_of_not_le short)]
      exact Run.NoFault.error _
  · unfold TransactionContext.first
    apply Run.NoFault.bind (readBip32Path_reads.noFault covers)
    rintro ⟨path, atVersion⟩ readPath
    obtain ⟨behindPath, validPath, rfl, _, versionCovers⟩ :=
      readBip32Path_reads.inversion covers (Run.orReturn_eq_ok.mp readPath)
    apply Run.NoFault.bind (readU8_reads.noFault versionCovers)
    rintro ⟨version, atBytes⟩ readVersion
    obtain ⟨bytes, _, rfl, _, _⟩ :=
      readU8_reads.inversion versionCovers (Run.orReturn_eq_ok.mp readVersion)
    exact absurd ⟨path, version, bytes, validPath, rfl⟩ carried

/-- A chunk faults only behind the end of the buffer, where the sum of the
lengths wraps. -/
theorem TransactionContext.chunk_fault
    {tx : TransactionContext}
    (covers : Covers buffer data part)
    (faults : tx.chunk p1 buffer data = .error (.fault reason)) :
    reason = .outOfBounds ∧ p1 ≠ p1First ∧
      2 ^ 32 ≤ tx.rawTxLength.toNat + data.length := by
  unfold TransactionContext.chunk at faults
  split at faults
  · exact absurd faults (TransactionContext.first_noFault covers _)
  rename_i notFirst
  refine ⟨?_, notFirst, ?_⟩
  · unfold TransactionContext.more Run.returnOn at faults
    simp only at faults
    split at faults
    · cases faults
    rw [Run.pure_eq, Run.bind_ok, covers.load_sub, Run.bind_ok] at faults
    unfold Bytes.store at faults
    split at faults
    · cases faults
    · cases faults
      rfl
  · by_contra bounded
    rw [covers.length_eq, Nat.not_le] at bounded
    exact (TransactionContext.more_appends covers bounded).1 _ faults

/-- What a chunk leaves fits the buffer. -/
theorem TransactionContext.chunk_length_le
    {tx next : TransactionContext}
    (result : tx.chunk p1 buffer data = .ok next) :
    next.rawTxLength.toNat ≤ maxRawTx := by
  unfold TransactionContext.chunk at result
  split at result
  · unfold TransactionContext.first at result
    obtain ⟨_, _, result⟩ := Run.bind_eq_ok.mp result
    obtain ⟨_, _, result⟩ := Run.bind_eq_ok.mp result
    obtain ⟨_, short, result⟩ := Run.bind_eq_ok.mp result
    obtain ⟨_, _, result⟩ := Run.bind_eq_ok.mp result
    obtain ⟨_, _, result⟩ := Run.bind_eq_ok.mp result
    cases result
    have fits := Nat.le_of_not_lt (Run.returnOn_eq_ok.mp short)
    exact (TransactionContext.toNat_length fits).symm ▸ fits
  · unfold TransactionContext.more at result
    obtain ⟨_, short, result⟩ := Run.bind_eq_ok.mp result
    obtain ⟨_, _, result⟩ := Run.bind_eq_ok.mp result
    obtain ⟨_, _, result⟩ := Run.bind_eq_ok.mp result
    cases result
    exact Nat.le_of_not_lt (Run.returnOn_eq_ok.mp short)

/-! ## Messages -/

/-- A chunk is counted, and added to a message that can be printed. -/
structure MessageSigningContext.Appends
    (msg : MessageSigningContext Shared) (part : List UInt8)
    (next : MessageSigningContext Shared) : Prop where
  messageLength : next.messageLength = msg.messageLength
  processed : next.processedMessageLength.toNat =
    msg.processedMessageLength.toNat + part.length
  within : next.processedMessageLength ≤ next.messageLength
  written : msg.messageLength.toNat ≤ maxPrintableMessageLength →
    msg.processedMessageLength.toNat + part.length ≤
        maxPrintableMessageLength ∧
      next.printableMessage.val =
        overwrite msg.printableMessage.val msg.processedMessageLength.toNat
          part

section Messages

variable {app : App} {msg next : MessageSigningContext app.layout.Shared}

theorem App.hashMessage_noFault
    (app : App)
    (chunk : List UInt8)
    (msg : MessageSigningContext app.layout.Shared) :
    Run.NoFault (app.hashMessage chunk msg) := by
  unfold App.hashMessage
  apply Run.NoFault.bind (Run.NoFault.cryptography _)
  intro messageContext _
  apply Run.NoFault.bind (Run.NoFault.cryptography _)
  intro prefixedContext _
  exact Run.NoFault.ok _

/-- The copy of a chunk is inside the buffer for messages that can be
printed. -/
theorem copyPrintableMessage_noFault
    {msg : MessageSigningContext Shared}
    (within : msg.processedMessageLength.toNat + chunk.length ≤
      msg.messageLength.toNat) :
    Run.NoFault (copyPrintableMessage chunk msg : Run ε _) := by
  unfold copyPrintableMessage
  split
  · rename_i short
    obtain ⟨stored, result, _⟩ := msg.printableMessage.store_eq (ε := ε)
      msg.processedMessageLength.toNat chunk (Nat.le_trans within short)
    rw [result]
    exact Run.NoFault.ok _
  · exact Run.NoFault.ok _

/-- The bytes of a message lead to no fault. -/
theorem App.processMessage_noFault
    (covers : Covers buffer data part)
    (bounded : msg.processedMessageLength.toNat + part.length < 2 ^ 32) :
    Run.NoFault (app.processMessage buffer data msg) := by
  have sum := toNat_addLength msg.processedMessageLength part.length bounded
  unfold App.processMessage
  split
  · rw [covers.length_eq]
    simp only
    by_cases exceeds : msg.processedMessageLength + UInt32.ofNat part.length >
        msg.messageLength
    · rw [Run.returnOn, if_pos exceeds]
      exact Run.NoFault.error _
    · have within := UInt32.le_iff_toNat_le.mp (UInt32.not_lt.mp exceeds)
      rw [Run.returnOn_of_not exceeds, Run.bind_ok, covers.load_eq,
        Run.bind_ok]
      refine Run.NoFault.bind (copyPrintableMessage_noFault (by omega)) ?_
      intro copied _
      refine Run.NoFault.bind (app.hashMessage_noFault part copied) ?_
      intro hashed _
      exact Run.NoFault.ok _
  · exact Run.NoFault.ok _

/-- The bytes of a message that are accepted are added. -/
theorem App.processMessage_appends
    (covers : Covers buffer data part)
    (bounded : msg.processedMessageLength.toNat + part.length < 2 ^ 32)
    (complete : part = [] → msg.processedMessageLength ≤ msg.messageLength)
    (result : app.processMessage buffer data msg = .ok next) :
    msg.Appends part next := by
  obtain ⟨lengthEq, processed, within⟩ :=
    App.processMessage_lengths covers result
  have sum := toNat_addLength msg.processedMessageLength part.length bounded
  rw [← processed] at sum
  by_cases empty : part = []
  · subst empty
    rw [App.processMessage_empty covers] at result
    cases result
    have most := UInt32.le_iff_toNat_le.mp (complete rfl)
    exact ⟨rfl, rfl, complete rfl, fun short =>
      ⟨Nat.le_trans most short, (overwrite_nil _ _).symm⟩⟩
  · obtain ⟨_, copied, hashed, copy, hash, rfl⟩ :=
      App.processMessage_inversion covers empty result
    obtain ⟨printableMessage, _, rfl, stored⟩ :=
      copyPrintableMessage_inversion copy
    obtain ⟨_, _, _, _, rfl⟩ := App.hashMessage_inversion hash
    refine ⟨lengthEq, sum, within empty, ?_⟩
    intro short
    rw [if_pos short] at stored
    exact Bytes.store_inversion stored.1

/-- The start of a first chunk leads to no fault. -/
theorem App.startMessage_noFault
    (covers : Covers buffer data sent) :
    Run.NoFault (app.startMessage buffer data msg) := by
  unfold App.startMessage
  refine Run.NoFault.bind (readBip32Path_reads.noFault covers) ?_
  rintro ⟨path, atFlags⟩ readPath
  obtain ⟨_, _, _, _, flagsCovers⟩ :=
    readBip32Path_reads.inversion covers (Run.orReturn_eq_ok.mp readPath)
  refine Run.NoFault.bind (readU8_reads.noFault flagsCovers) ?_
  rintro ⟨flags, atLength⟩ readFlags
  obtain ⟨_, _, _, _, lengthCovers⟩ :=
    readU8_reads.inversion flagsCovers (Run.orReturn_eq_ok.mp readFlags)
  refine Run.NoFault.bind (readU32_reads.noFault lengthCovers) ?_
  rintro ⟨messageLength, rest⟩ _
  have prepared : Run.NoFault (app.prepareHashes messageLength) := by
    unfold App.prepareHashes
    refine Run.NoFault.bind (Run.NoFault.cryptography _) ?_
    intro context _
    refine Run.NoFault.bind (Run.NoFault.cryptography _) ?_
    intro next _
    exact Run.NoFault.ok _
  refine Run.NoFault.bind prepared ?_
  intro prepare _
  exact Run.NoFault.ok _

/-- The bytes of a first chunk are the first ones of the message. -/
def App.AppendsFirst (app : App) (part : List UInt8)
    (next : MessageSigningContext app.layout.Shared) : Prop :=
  ∃ (started : MessageSigningContext app.layout.Shared)
    (path : List UInt32) (flags : UInt8) (message : List UInt8),
    CarriesMessage path flags started.messageLength message part ∧
      started.processedMessageLength = 0 ∧ started.Appends message next

variable {command : Command}

/-- A first chunk leads to no fault, and starts a message if it is
accepted. -/
theorem App.messageChunk_firstAppends
    (carries : command.Carries insSignMessage p1First p2 part) :
    Run.NoFault (app.messageChunk p1First command.buffer.val command.data
        msg) ∧
      ∀ next, app.messageChunk p1First command.buffer.val command.data msg =
        .ok next → app.AppendsFirst part next := by
  have begun : ∀ started rest, app.startMessage command.buffer.val
      command.data msg = .ok (started, rest) →
      ∃ path flags message,
        CarriesMessage path flags started.messageLength message part ∧
        started.processedMessageLength = 0 ∧
        Covers command.buffer.val rest message ∧ message.length < 2 ^ 32 := by
    intro started rest start
    obtain ⟨path, flags, messageLength, message, carried, covers, hashes⟩ :=
      App.startMessage_inversion carries.covers start
    have length := carried.length_le
    have short := carries.header.1
    exact ⟨path, flags, message, hashes.lengthEq.symm ▸ carried,
      hashes.processed, covers, by omega⟩
  have chunkEq : app.messageChunk p1First command.buffer.val command.data msg =
      (app.startMessage command.buffer.val command.data msg >>=
        fun started =>
          app.processMessage command.buffer.val started.2 started.1) := by
    unfold App.messageChunk
    rw [if_pos rfl]
  rw [chunkEq]
  constructor
  · refine Run.NoFault.bind (App.startMessage_noFault carries.covers) ?_
    rintro ⟨started, rest⟩ start
    obtain ⟨_, _, message, _, none, covers, short⟩ := begun _ _ start
    exact App.processMessage_noFault covers
      (by rw [none, UInt32.toNat_zero]; omega)
  · intro next result
    obtain ⟨⟨started, rest⟩, start, processed⟩ := Run.bind_eq_ok.mp result
    obtain ⟨path, flags, message, carried, none, covers, short⟩ :=
      begun _ _ start
    refine ⟨started, path, flags, message, carried, none,
      App.processMessage_appends covers
        (by rw [none, UInt32.toNat_zero]; omega) ?_ processed⟩
    intro _
    rw [none]
    exact UInt32.zero_le

end Messages

/-! ## Runs -/

/-- As many bytes of a message were hashed as are counted, and no more than
were declared. -/
def App.CountsMessage (app : App) (sent : List UInt8)
    (req : app.layout.Memory) : Prop :=
  ∃ path flags messageLength message,
    CarriesMessage path flags messageLength message sent ∧
    app.Hashes path flags messageLength message (app.layout.msg.read req) ∧
    message.length ≤ messageLength.toNat

section Count

variable {app : App} {command : Command}
  {msg next : MessageSigningContext app.layout.Shared}

/-- The number of bytes that were hashed. -/
theorem App.Hashes.toNat_processed
    (hashes : app.Hashes path flags messageLength message msg)
    (bounded : message.length < 2 ^ 32) :
    msg.processedMessageLength.toNat = message.length := by
  rw [hashes.processed]
  exact UInt32.toNat_ofNat_of_lt' bounded

/-- What a first chunk that is accepted leaves behind. -/
theorem App.messageChunk_firstCounts
    (carries : command.Carries insSignMessage p1First p2 part)
    (result : app.messageChunk p1First command.buffer.val command.data msg =
      .ok next) :
    ∃ path flags messageLength message,
      CarriesMessage path flags messageLength message part ∧
      app.Hashes path flags messageLength message next ∧
      next.processedMessageLength.toNat = message.length ∧
      message.length ≤ messageLength.toNat := by
  obtain ⟨path, flags, messageLength, message, carried, hashes⟩ :=
    App.messageChunk_first carries result
  obtain ⟨started, _, _, _, _, _, appends⟩ :=
    (App.messageChunk_firstAppends carries).2 next result
  have length := carried.length_le
  have short := carries.header.1
  have count := hashes.toNat_processed (by omega)
  have within := UInt32.le_iff_toNat_le.mp appends.within
  rw [count, hashes.lengthEq] at within
  exact ⟨path, flags, messageLength, message, carried, hashes, count, within⟩

/-- What a further chunk that is accepted leaves behind. -/
theorem App.Hashes.messageChunk_moreCounts
    (hashes : app.Hashes path flags messageLength message msg)
    (within : message.length ≤ messageLength.toNat)
    (carries : command.Carries insSignMessage p1More p2 part)
    (bounded : (message ++ part).length < 2 ^ 32)
    (result : app.messageChunk p1More command.buffer.val command.data msg =
      .ok next) :
    app.Hashes path flags messageLength (message ++ part) next ∧
      next.processedMessageLength.toNat = (message ++ part).length ∧
      (message ++ part).length ≤ messageLength.toNat := by
  change app.processMessage _ _ _ = _ at result
  rw [List.length_append] at bounded
  have count := hashes.toNat_processed (by omega)
  have appends := App.processMessage_appends carries.covers
    (by rw [count]; exact bounded)
    (fun _ => by rw [UInt32.le_iff_toNat_le, count, hashes.lengthEq]; exact within)
    result
  have nextHashes :=
    hashes.processMessage carries.covers carries.header.1 result
  have nextCount := nextHashes.toNat_processed
    (by rw [List.length_append]; exact bounded)
  have nextWithin := UInt32.le_iff_toNat_le.mp appends.within
  rw [nextCount, nextHashes.lengthEq] at nextWithin
  exact ⟨nextHashes, nextCount, nextWithin⟩

end Count

section Bounded

variable {app : App} {history : List (Event × Output app.layout.Shared)}
  {state : State app} {command : Command}

/-- The lengths in memory leave room for the bytes of a chunk: of a chunk that
continues nothing, since the lengths may be anything then, and of a message
that is longer than any length. -/
structure LengthsBounded (history : List (Event × Output app.layout.Shared))
    (state : State app) (event : Event) : Prop where
  uninterrupted : Uninterrupted history state event
  transaction : ∀ command p2 part, event = .command command →
    command.Carries insSignTx p1More p2 part →
    (∀ sent, ¬OpenSequence insSignTx history sent) →
      (app.layout.tx.read state.ctx.req).rawTxLength.toNat + part.length <
        2 ^ 32
  message : ∀ command p2 part, event = .command command →
    command.Carries insSignMessage p1More p2 part →
    (∀ sent, ¬OpenSequence insSignMessage history sent) →
      (app.layout.msg.read state.ctx.req).processedMessageLength.toNat +
          part.length < 2 ^ 32 ∧
        (part = [] →
          (app.layout.msg.read state.ctx.req).processedMessageLength ≤
            (app.layout.msg.read state.ctx.req).messageLength)
  sequence : ∀ command p2 part sent path flags messageLength message,
    event = .command command →
    command.Carries insSignMessage p1More p2 part →
    OpenSequence insSignMessage history sent →
    CarriesMessage path flags messageLength message sent →
      (message ++ part).length < 2 ^ 32

/-- The lengths do not wrap and what is received is written inside its
buffer; the bytes of a message are counted, and its review opens if all of
them were received. -/
structure LengthsKept (history : List (Event × Output app.layout.Shared))
    (state : State app) (command : Command) : Prop where
  transaction : ∀ p2 part, command.Carries insSignTx p1More p2 part →
    Run.NoFault ((app.layout.tx.read state.ctx.req).chunk p1More
      command.buffer.val command.data) ∧
    ∀ next, (app.layout.tx.read state.ctx.req).chunk p1More
      command.buffer.val command.data = .ok next →
        (app.layout.tx.read state.ctx.req).Appends part next
  firstMessage : ∀ p2 part, command.Carries insSignMessage p1First p2 part →
    Run.NoFault (app.messageChunk p1First command.buffer.val command.data
      (app.layout.msg.read state.ctx.req)) ∧
    ∀ next, app.messageChunk p1First command.buffer.val command.data
      (app.layout.msg.read state.ctx.req) = .ok next →
        app.AppendsFirst part next
  message : ∀ p2 part, command.Carries insSignMessage p1More p2 part →
    Run.NoFault (app.messageChunk p1More command.buffer.val command.data
      (app.layout.msg.read state.ctx.req)) ∧
    ∀ next, app.messageChunk p1More command.buffer.val command.data
      (app.layout.msg.read state.ctx.req) = .ok next →
        (app.layout.msg.read state.ctx.req).Appends part next
  counted : ∀ sent, OpenSequence insSignMessage history sent →
    app.CountsMessage sent state.ctx.req
  reviewed : ∀ p1 part sent handled,
    command.Carries insSignMessage p1 p2Last part →
    app.Handles command state.ctx.req handled →
    (p1 = p1First ∧ sent = [] ∨
      p1 = p1More ∧ OpenSequence insSignMessage history sent) →
    ∃ path flags messageLength message,
      CarriesMessage path flags messageLength message (sent ++ part) ∧
        message.length = messageLength.toNat

/-- A first chunk of a message. -/
theorem App.Handles.counts_firstMessage
    {req : app.layout.Memory}
    {handled : Handled app}
    (handles : app.Handles command req handled)
    (carries : command.Carries insSignMessage p1First p2More part) :
    app.CountsMessage part handled.req := by
  obtain ⟨msg, chunk, ⟨_, memory⟩ | ⟨isLast, _⟩⟩ :=
    handles.message_inversion carries
  · obtain ⟨path, flags, messageLength, message, carried, hashes, _, within⟩ :=
      App.messageChunk_firstCounts carries chunk
    refine ⟨path, flags, messageLength, message, carried, ?_, within⟩
    rw [memory, app.layout.msg.read_write]
    exact hashes
  · exact absurd isLast (by decide)

/-- A further chunk of a message that is not too long. -/
theorem App.CountsMessage.more
    {req : app.layout.Memory}
    {handled : Handled app}
    (counts : app.CountsMessage sent req)
    (handles : app.Handles command req handled)
    (carries : command.Carries insSignMessage p1More p2More part)
    (bounded : ∀ path flags messageLength message,
      CarriesMessage path flags messageLength message sent →
        (message ++ part).length < 2 ^ 32) :
    app.CountsMessage (sent ++ part) handled.req := by
  obtain ⟨path, flags, messageLength, message, carried, hashes, within⟩ :=
    counts
  obtain ⟨msg, chunk, ⟨_, memory⟩ | ⟨isLast, _⟩⟩ :=
    handles.message_inversion carries
  · obtain ⟨nextHashes, _, nextWithin⟩ := hashes.messageChunk_moreCounts
      within carries (bounded _ _ _ _ carried) chunk
    refine ⟨path, flags, messageLength, message ++ part,
      carried.append part, ?_, nextWithin⟩
    rw [memory, app.layout.msg.read_write]
    exact nextHashes
  · exact absurd isLast (by decide)

/-- The bytes of open messages are counted. -/
def CountsMessages (history : List (Event × Output app.layout.Shared))
    (state : State app) : Prop :=
  ∀ sent, OpenSequence insSignMessage history sent →
    app.CountsMessage sent state.ctx.req

/-- The bytes of open messages are counted in every run with bounded
lengths. -/
theorem CountsMessages.of_run
    (run : app.system.Run LengthsBounded history state) :
    CountsMessages history state := by
  refine run.invariant ?_ ?_
  · intro sent isOpen
    exact absurd isOpen OpenSequence.not_start
  · intro history state event next output counts bounded stepped sent isOpen
    have reacts : state.Reacts event next output := State.step_reacts stepped
    refine isOpen.holds (Or.inr rfl) ?_ ?_ counts reacts
      bounded.uninterrupted
    · intro command part handled carries handles
      exact handles.counts_firstMessage carries
    · intro command sent part handled eventEq before count carries handles
      exact count.more handles carries fun _ _ _ _ =>
        bounded.sequence _ _ _ _ _ _ _ _ eventEq carries before

/-- The chunks of a transaction have room. -/
theorem LengthsBounded.transaction_room
    (bounded : LengthsBounded history state (.command command))
    (holds : HoldsSequences history state)
    (carries : command.Carries insSignTx p1More p2 part) :
    (app.layout.tx.read state.ctx.req).rawTxLength.toNat + part.length <
      2 ^ 32 := by
  by_cases isOpen : ∃ sent, OpenSequence insSignTx history sent
  · obtain ⟨sent, isOpen⟩ := isOpen
    obtain ⟨path, version, bytes, _, collected⟩ :=
      holds.transaction sent isOpen
    have short := collected.length_le
    have partShort := carries.header.1
    unfold maxRawTx at short
    rw [collected.rawTxLength]
    omega
  · exact bounded.transaction _ _ _ rfl carries (not_exists.mp isOpen)

/-- The chunks of a message have room, and the message is not longer than it
was declared. -/
theorem LengthsBounded.message_room
    (bounded : LengthsBounded history state (.command command))
    (counts : CountsMessages history state)
    (carries : command.Carries insSignMessage p1More p2 part) :
    (app.layout.msg.read state.ctx.req).processedMessageLength.toNat +
        part.length < 2 ^ 32 ∧
      (part = [] →
        (app.layout.msg.read state.ctx.req).processedMessageLength ≤
          (app.layout.msg.read state.ctx.req).messageLength) := by
  by_cases isOpen : ∃ sent, OpenSequence insSignMessage history sent
  · obtain ⟨sent, isOpen⟩ := isOpen
    obtain ⟨path, flags, messageLength, message, carried, hashes, within⟩ :=
      counts sent isOpen
    have room := bounded.sequence _ _ _ _ _ _ _ _ rfl carries isOpen carried
    rw [List.length_append] at room
    have count := hashes.toNat_processed (by omega)
    rw [UInt32.le_iff_toNat_le, count, hashes.lengthEq]
    exact ⟨room, fun _ => within⟩
  · exact bounded.message _ _ _ rfl carries (not_exists.mp isOpen)

/-- In every run in which the lengths in memory leave room for the chunks, no
length wraps, and the bytes of a message are all counted. -/
theorem chunkLengths_kept
    (run : app.system.Run LengthsBounded history state)
    (bounded : LengthsBounded history state (.command command)) :
    LengthsKept history state command := by
  have holds := HoldsSequences.of_run
    (run.mono fun _ _ _ bounded => bounded.uninterrupted)
  have counts := CountsMessages.of_run run
  constructor
  · intro p2 part carries
    exact TransactionContext.more_appends carries.covers
      (bounded.transaction_room holds carries)
  · intro p2 part carries
    exact App.messageChunk_firstAppends carries
  · intro p2 part carries
    obtain ⟨room, complete⟩ := bounded.message_room counts carries
    exact ⟨App.processMessage_noFault carries.covers room,
      fun next result =>
        App.processMessage_appends carries.covers room complete result⟩
  · exact counts
  · intro p1 part sent handled carries handles sequence
    obtain ⟨msg, chunk, ⟨isMore, _⟩ | ⟨_, shown, review⟩⟩ :=
      handles.message_inversion carries
    · exact absurd isMore (by decide)
    have whole := App.reviewMessage_whole review
    rcases sequence with ⟨rfl, rfl⟩ | ⟨rfl, isOpen⟩
    · obtain ⟨path, flags, messageLength, message, carried, hashes, count, _⟩ :=
        App.messageChunk_firstCounts carries chunk
      refine ⟨path, flags, messageLength, message, carried, ?_⟩
      rw [← count, whole, hashes.lengthEq]
    · obtain ⟨path, flags, messageLength, message, carried, hashes, within⟩ :=
        counts sent isOpen
      obtain ⟨nextHashes, count, _⟩ := hashes.messageChunk_moreCounts within
        carries
        (bounded.sequence _ _ _ _ _ _ _ _ rfl carries isOpen carried) chunk
      refine ⟨path, flags, messageLength, message ++ part,
        carried.append part, ?_⟩
      rw [← count, whole, nextHashes.lengthEq]

end Bounded

section Wraps

variable {app : App} {sha256 : List UInt8 → Bytes 32}
  {absorbed : app.HashContext → List UInt8 → Prop}
  {msg : MessageSigningContext app.layout.Shared}
  {history : List (Event × Output app.layout.Shared)}
  {state : State app} {command : Command}

/-- The length of what was received is that of a long message, and the next
chunk wraps it. -/
theorem App.Absorbs.processMessage_wraps
    (absorbs : app.Absorbs absorbed path flags messageLength bytes msg)
    (streams : app.StreamsSha256 sha256 absorbed)
    (covers : Covers buffer data [byte])
    (long : maxPrintableMessageLength < messageLength.toNat)
    (whole : bytes.length = 2 ^ 32 - 1) :
    ∃ next, app.processMessage buffer data msg = .ok next := by
  have wrapped :
      msg.processedMessageLength + UInt32.ofNat [byte].length = 0 := by
    rw [← UInt32.toNat_inj, UInt32.toNat_add, absorbs.processed, whole,
      List.length_singleton]
    rfl
  have unchecked : ¬msg.processedMessageLength + UInt32.ofNat [byte].length >
      msg.messageLength := by
    rw [wrapped]
    exact UInt32.not_lt.mpr UInt32.zero_le
  have unprintable : ¬msg.messageLength.toNat ≤ maxPrintableMessageLength := by
    rw [absorbs.lengthEq]
    omega
  obtain ⟨messageContext, updated, _⟩ :=
    streams.update [byte] absorbs.messageHashContext
  obtain ⟨prefixedContext, prefixedUpdated, _⟩ :=
    streams.update [byte] absorbs.prefixedMessageHashContext
  refine ⟨{ msg with
    processedMessageLength :=
      msg.processedMessageLength + UInt32.ofNat [byte].length
    shared := app.layout.prepare.write msg.shared
      ⟨messageContext, prefixedContext⟩ }, ?_⟩
  unfold App.processMessage
  rw [if_pos (by rw [covers.length_eq]; exact Nat.one_ne_zero),
    covers.length_eq]
  simp only
  rw [Run.returnOn_of_not unchecked, Run.bind_ok, covers.load_eq,
    Run.bind_ok]
  unfold copyPrintableMessage App.hashMessage
  rw [if_neg unprintable, Run.pure_eq, Run.bind_ok]
  simp only
  rw [updated, cryptography_some, Run.bind_ok, prefixedUpdated,
    cryptography_some, Run.bind_ok, Run.pure_eq, Run.bind_ok]
  rfl

/-- A state in the middle of a message, reached by commands alone. -/
structure Streaming (absorbed : app.HashContext → List UInt8 → Prop)
    (path : List UInt32) (flags : UInt8) (messageLength : UInt32)
    (bytes : List UInt8) (history : List (Event × Output app.layout.Shared))
    (state : State app) : Prop where
  run : app.system.Run Foundation.System.anyEvent history state
  commands : ∀ step ∈ history, ∃ command, step.1 = .command command
  idle : state.unanswered = false
  isOpen : ∃ sent, OpenSequence insSignMessage history sent
  absorbs : state.AbsorbsMessage absorbed path flags messageLength bytes

/-- A chunk within the length of the message. -/
theorem Streaming.step
    (streaming : Streaming absorbed path flags messageLength bytes history
      state)
    (streams : app.StreamsSha256 sha256 absorbed)
    (carries : command.Carries insSignMessage p1More p2More part)
    (within : (bytes ++ part).length ≤ messageLength.toNat) :
    ∃ next, Streaming absorbed path flags messageLength (bytes ++ part)
      (history ++ [(.command command, Output.accepted)]) next := by
  obtain ⟨next, received, nextAbsorbs⟩ :=
    streaming.absorbs.accepts streams carries within
  obtain ⟨sent, isOpen⟩ := streaming.isOpen
  refine ⟨next, .step streaming.run trivial
    (State.step_of_receive streaming.idle received), ?_,
    State.receive_unanswered received, ⟨_, .more isOpen carries⟩,
    nextAbsorbs⟩
  intro step member
  rcases List.mem_append.mp member with before | now
  · exact streaming.commands step before
  · rw [List.mem_singleton.mp now]
    exact ⟨command, rfl⟩

/-- The same chunk again and again. -/
theorem Streaming.repeat
    (streaming : Streaming absorbed path flags messageLength bytes history
      state)
    (streams : app.StreamsSha256 sha256 absorbed)
    (carries : command.Carries insSignMessage p1More p2More part)
    (count : Nat)
    (within : bytes.length + count * part.length ≤ messageLength.toNat) :
    ∃ received history next,
      Streaming absorbed path flags messageLength received history next ∧
        received.length = bytes.length + count * part.length := by
  induction count with
  | zero => exact ⟨bytes, history, state, streaming, by omega⟩
  | succ count inductionHypothesis =>
      rw [Nat.succ_mul] at within ⊢
      obtain ⟨received, longer, middle, middleStreaming, length⟩ :=
        inductionHypothesis (by omega)
      obtain ⟨next, nextStreaming⟩ := middleStreaming.step streams carries
        (by rw [List.length_append]; omega)
      refine ⟨_, _, next, nextStreaming, ?_⟩
      rw [List.length_append]
      omega

/-- After 2^32 - 1 bytes, one byte more is accepted and the length wraps. -/
theorem Streaming.not_kept
    (streaming : Streaming absorbed path flags messageLength bytes history
      state)
    (streams : app.StreamsSha256 sha256 absorbed)
    (carries : command.Carries insSignMessage p1More p2 [byte])
    (long : maxPrintableMessageLength < messageLength.toNat)
    (whole : bytes.length = 2 ^ 32 - 1) :
    ¬LengthsKept history state command := by
  intro kept
  obtain ⟨next, accepted⟩ := App.Absorbs.processMessage_wraps
    streaming.absorbs streams carries.covers long whole
  have appends := (kept.message _ _ carries).2 next accepted
  have count := appends.processed
  have bound := next.processedMessageLength.toNat_lt
  rw [streaming.absorbs.processed, whole, List.length_singleton] at count
  omega

end Wraps

/-- The first chunk of a message of the greatest length, without bytes. -/
def longestFirst : List UInt8 :=
  bip32PathBytes samplePath ++ 0 :: (u32Bytes 0xFFFFFFFF ++ [])

/-- The first chunk. -/
def longestFirstChunk : Command :=
  .carrying insSignMessage p1First p2More longestFirst (by decide)

/-- As many bytes as a chunk carries. -/
def fullPart : List UInt8 :=
  List.replicate 255 0

theorem fullPart_length : fullPart.length = 255 :=
  List.length_replicate

/-- A chunk with as many bytes as it carries. -/
def fullChunk : Command :=
  .carrying insSignMessage p1More p2More fullPart fullPart_length.le

/-- A chunk with a single byte. -/
def singleChunk : Command :=
  .carrying insSignMessage p1More p2More [0] (by decide)

/-- The chunk behind 2^32 - 1 bytes is accepted, and the length wraps. -/
theorem singleChunk_wraps :
    ∃ history state,
      helloApp.system.Run Foundation.System.anyEvent history state ∧
      (∀ step ∈ history, ∃ command, step.1 = .command command) ∧
      ¬LengthsKept history state singleChunk := by
  have carries : longestFirstChunk.Carries insSignMessage p1First p2More
      longestFirst := Command.carrying_carries _
  obtain ⟨state, received, stateAbsorbs⟩ :=
    (State.start helloApp).receive_messageFirst helloApp_streams carries
      (by decide) (by decide)
  let start : List (Event × Output helloApp.layout.Shared) := []
  have streaming : Streaming Eq samplePath 0 0xFFFFFFFF []
      (start ++ [(.command longestFirstChunk, Output.accepted)]) state := by
    refine ⟨.step .start trivial (State.step_of_receive rfl received), ?_,
      State.receive_unanswered received, ⟨_, .first carries⟩, stateAbsorbs⟩
    intro step member
    rw [List.mem_singleton.mp member]
    exact ⟨_, rfl⟩
  obtain ⟨bytes, history, next, nextStreaming, length⟩ :=
    streaming.repeat helloApp_streams
      (show fullChunk.Carries insSignMessage p1More p2More fullPart from
        Command.carrying_carries _)
      16843009 (by rw [fullPart_length]; decide)
  rw [fullPart_length] at length
  refine ⟨history, next, nextStreaming.run, nextStreaming.commands, ?_⟩
  exact nextStreaming.not_kept helloApp_streams
    (show singleChunk.Carries insSignMessage p1More p2More [0] from
      Command.carrying_carries _) (by decide) length

/-- What was sent with a single first chunk. -/
theorem OpenSequence.single
    {command : Command}
    (carries : command.Carries ins p1First p2More part)
    (isOpen : OpenSequence ins
      ([] ++ [(.command command, output)] : List (Event × Output Shared))
      sent) :
    sent = part := by
  rcases isOpen.last with
    ⟨other, p1, otherPart, before, ⟨⟩, _, otherCarries, rfl, begins⟩ |
    ⟨wasOpen, _⟩
  · obtain ⟨_, rfl, _, rfl⟩ := otherCarries.unique carries
    rcases begins with ⟨_, rfl⟩ | ⟨isMore, _⟩
    · rfl
    · exact absurd isMore (by decide)
  · exact absurd wasOpen OpenSequence.not_start

theorem helloLast_length :
    (ascii "llo").length ≤ 255 := by
  decide

/-- The chunk with the rest of `Hello`. -/
def helloLastChunk : Command :=
  .carrying insSignMessage p1More p2Last (ascii "llo") helloLast_length

theorem helloLastChunk_carries :
    helloLastChunk.Carries insSignMessage p1More p2Last (ascii "llo") :=
  Command.carrying_carries _

/-- The lengths are kept by the last chunk of `Hello`, which opens the
review. -/
theorem chunkLengths_kept_hello :
    ∃ history state next msg,
      helloApp.system.Run LengthsBounded history state ∧
      OpenSequence insSignMessage history helloFirst ∧
      helloApp.system.step state (.command helloLastChunk) =
        some (next, ⟨none, some (.message msg)⟩) ∧
      LengthsKept history state helloLastChunk := by
  obtain ⟨state, received, absorbs⟩ := helloFirstChunk_received
  obtain ⟨msg, collects, complete⟩ :=
    absorbs.collects helloApp_streams helloLastChunk_carries (by decide)
  obtain ⟨next, shown, reviewed, _⟩ := State.receive_messageLast
    helloApp_streams helloLastChunk_carries (Or.inr rfl) collects complete
    (by decide)
  have firstBounded : LengthsBounded [] (State.start helloApp)
      (.command helloFirstChunk) := by
    refine ⟨Uninterrupted.start, ?_, ?_, ?_⟩
    · rintro command p2 part ⟨⟩ carries
      exact helloFirstChunk_notMore carries
    · rintro command p2 part ⟨⟩ carries
      exact helloFirstChunk_notMore carries
    · intro _ _ _ _ _ _ _ _ _ _ isOpen
      exact absurd isOpen OpenSequence.not_start
  refine ⟨_, state, next, shown, .step .start firstBounded
    (State.step_of_receive rfl received), helloFirstChunk_opens,
    State.step_of_receive (State.receive_unanswered received) reviewed, ?_⟩
  refine chunkLengths_kept (.step .start firstBounded
    (State.step_of_receive rfl received)) ⟨fun _ => id, ?_, ?_, ?_⟩
  · rintro command p2 part ⟨⟩ carries
    exact carries.conflict helloLastChunk_carries (by decide)
  · rintro command p2 part ⟨⟩ carries notOpen
    exact absurd helloFirstChunk_opens (notOpen _)
  · rintro command p2 part sent path flags messageLength message ⟨⟩ carries
      sequence carried
    obtain ⟨_, _, _, rfl⟩ := carries.unique helloLastChunk_carries
    have length := carried.length_le
    rw [sequence.single helloFirstChunk_carries] at length
    have short := helloFirstChunk_carries.header.1
    have lastShort := helloLastChunk_carries.header.1
    rw [List.length_append]
    omega

end NimiqApp
