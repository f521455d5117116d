import NimiqApp.Chunks

/-!
# Transactions in chunks

The chunks of a transaction are put together in `rawTx`.  What was there
before, from this request or from others, does not matter: the outcome is
that of parsing the transaction as a whole.
-/

namespace NimiqApp

/-- The part of a transaction that was received so far. -/
structure TransactionContext.Collected (path : List UInt32) (version : UInt8)
    (bytes : List UInt8) (tx : TransactionContext) : Prop where
  bip32Path : tx.bip32Path = path
  transactionVersion : tx.transactionVersion = version
  rawTxLength : tx.rawTxLength.toNat = bytes.length
  rawTx : ∃ behind, tx.rawTx.val = bytes ++ behind

namespace TransactionContext

variable {tx : TransactionContext}

/-- What was received fits the buffer. -/
theorem Collected.length_le
    (collected : tx.Collected path version bytes) :
    bytes.length ≤ maxRawTx := by
  obtain ⟨behind, rawTx⟩ := collected.rawTx
  have total := congrArg List.length rawTx
  rw [tx.rawTx.property, List.length_append] at total
  omega

/-- What was received is what would be parsed. -/
theorem Collected.signedBytes
    (collected : tx.Collected path version bytes) :
    (tx.signedBytes : Run ε _) = .ok bytes :=
  signedBytes_eq_ok.mpr ⟨collected.rawTxLength, collected.rawTx⟩

/-- The length of a part of a transaction as a machine word. -/
theorem toNat_length
    (short : count ≤ maxRawTx) : (UInt32.ofNat count).toNat = count := by
  apply UInt32.toNat_ofNat_of_lt'
  unfold maxRawTx at short
  unfold UInt32.size
  omega

/-- The first chunk, up to its bytes of the transaction. -/
theorem first_eq
    (tx : TransactionContext)
    (validPath : ValidPath path)
    (covers : Covers buffer data (bip32PathBytes path ++ version :: bytes)) :
    ∃ rest, Covers buffer rest bytes ∧
      tx.first buffer data = (do
        Run.returnOn (rest.length > maxRawTx) .wrongDataLength
        let chunk ← load buffer rest.pointer rest.length
        let rawTx ← tx.rawTx.store 0 chunk
        pure { tx with
          bip32Path := path
          transactionVersion := version
          rawTx
          rawTxLength := UInt32.ofNat rest.length }) := by
  obtain ⟨next, readPath, atVersion⟩ :=
    readBip32Path_reads.accept_next validPath covers
  have versionFirst : Covers buffer next ([version] ++ bytes) := atVersion
  obtain ⟨rest, readVersion, behind⟩ :=
    readU8_reads.accept_next trivial versionFirst
  refine ⟨rest, behind, ?_⟩
  unfold first
  rw [readPath, Run.orReturn_ok, Run.bind_ok]
  simp only
  rw [readVersion, Run.orReturn_ok, Run.bind_ok]

/-- The first chunk starts a transaction. -/
theorem first_collects
    (tx : TransactionContext)
    (validPath : ValidPath path)
    (covers : Covers buffer data (bip32PathBytes path ++ version :: bytes))
    (short : bytes.length ≤ maxRawTx) :
    ∃ next, tx.first buffer data = .ok next ∧
      next.Collected path version bytes := by
  obtain ⟨rest, behind, firstEq⟩ := tx.first_eq validPath covers
  obtain ⟨rawTx, after, stored, rawTxEq⟩ :=
    Bytes.store_append (ε := StatusWord) (List.nil_append tx.rawTx.val).symm
      (by simpa using short : ([] ++ bytes).length ≤ _)
  rw [List.length_nil] at stored
  have lengthEq := behind.length_eq
  refine ⟨{ tx with
    bip32Path := path
    transactionVersion := version
    rawTx
    rawTxLength := UInt32.ofNat rest.length }, ?_, rfl, rfl, ?_, after,
    rawTxEq⟩
  · rw [firstEq, Run.returnOn_of_not (by omega), Run.bind_ok,
      behind.load_sub, Run.bind_ok, stored, Run.bind_ok]
    rfl
  · rw [lengthEq]
    exact toNat_length short

/-- A first chunk with too many bytes is refused. -/
theorem first_refuses
    (tx : TransactionContext)
    (validPath : ValidPath path)
    (covers : Covers buffer data (bip32PathBytes path ++ version :: bytes))
    (long : maxRawTx < bytes.length) :
    tx.first buffer data = .error (.error .wrongDataLength) := by
  obtain ⟨rest, behind, firstEq⟩ := tx.first_eq validPath covers
  have lengthEq := behind.length_eq
  rw [firstEq, Run.returnOn, if_pos (by omega)]
  rfl

/-- The length after a further chunk. -/
theorem Collected.toNat_add
    (collected : tx.Collected path version bytes)
    (short : count < 256) :
    (tx.rawTxLength + UInt32.ofNat count).toNat = bytes.length + count := by
  have bound := collected.length_le
  have countEq : (UInt32.ofNat count).toNat = count :=
    UInt32.toNat_ofNat_of_lt' (by unfold UInt32.size; omega)
  unfold maxRawTx at bound
  rw [UInt32.toNat_add, collected.rawTxLength, countEq, Nat.mod_eq_of_lt]
  omega

/-- A further chunk continues the transaction. -/
theorem Collected.more_collects
    (collected : tx.Collected path version bytes)
    (covers : Covers buffer data part)
    (partShort : part.length < 256)
    (short : (bytes ++ part).length ≤ maxRawTx) :
    ∃ next, tx.more buffer data = .ok next ∧
      next.Collected path version (bytes ++ part) := by
  obtain ⟨behind, rawTx⟩ := collected.rawTx
  have lengthEq := covers.length_eq
  have lengthAfter := collected.toNat_add partShort
  rw [← List.length_append] at lengthAfter
  obtain ⟨stored, rest, storedEq, storedVal⟩ :=
    Bytes.store_append (ε := StatusWord) rawTx short
  refine ⟨{ tx with
    rawTx := stored
    rawTxLength := tx.rawTxLength + UInt32.ofNat part.length }, ?_,
    collected.bip32Path, collected.transactionVersion, lengthAfter, rest,
    storedVal⟩
  unfold more
  rw [lengthEq]
  simp only
  rw [Run.returnOn_of_not (by omega), Run.bind_ok, covers.load_eq,
    Run.bind_ok, collected.rawTxLength, storedEq, Run.bind_ok]
  rfl

/-- A chunk is too long for what was received.  The sum of the lengths is
computed in 32 bits. -/
def RefusesLength (tx : TransactionContext) (part : List UInt8) : Prop :=
  maxRawTx < (tx.rawTxLength + UInt32.ofNat part.length).toNat

/-- A further chunk that is too long is refused. -/
theorem RefusesLength.more
    (refuses : tx.RefusesLength part)
    (covers : Covers buffer data part) :
    tx.more buffer data = .error (.error .wrongDataLength) := by
  unfold RefusesLength at refuses
  unfold TransactionContext.more
  rw [covers.length_eq]
  simp only
  rw [Run.returnOn, if_pos refuses]
  rfl

/-- A further chunk with too many bytes is refused. -/
theorem Collected.more_refuses
    (collected : tx.Collected path version bytes)
    (covers : Covers buffer data part)
    (partShort : part.length < 256)
    (long : maxRawTx < (bytes ++ part).length) :
    tx.more buffer data = .error (.error .wrongDataLength) := by
  have lengthAfter := collected.toNat_add partShort
  rw [← List.length_append] at lengthAfter
  have refuses : tx.RefusesLength part := by
    unfold RefusesLength
    omega
  exact refuses.more covers

end TransactionContext

/-- What the bytes of a transaction lead to: parsing and the start of the
review. -/
def App.parseForReview (app : App) (version : UInt8) (bytes : List UInt8) :
    Run StatusWord ParsedTx := do
  let parsed ← Run.orErrorToSw (parseTx app.toDevice version bytes)
  app.ui.uiTransactionSigning parsed
  pure parsed

/-- The BAGL build starts the review of every accepted transaction. -/
theorem UserInterface.bagl_uiTransactionSigning
    (device : Device)
    (accepted : AcceptedTransaction version) :
    (bagl.uiTransactionSigning (accepted.shown device) : Run ε Unit) =
      .ok () := by
  unfold uiTransactionSigning
  rw [Bagl.uiTransactionSigning_eq]
  rfl

/-- The BAGL build reviews every accepted transaction. -/
theorem App.parseForReview_accepted
    {app : App}
    (accepted : AcceptedTransaction version)
    (isBagl : app.ui = .bagl)
    (hashable : accepted.content.Hashable app.toDevice) :
    app.parseForReview version.code accepted.tx.encode =
      .ok (accepted.shown app.toDevice) := by
  have parse : parseTx app.toDevice version.code accepted.tx.encode =
      .ok (accepted.shown app.toDevice) :=
    accepted.parseTx_eq_ok_iff.mpr ⟨hashable, rfl⟩
  unfold App.parseForReview
  rw [Run.orErrorToSw_eq_ok.mpr parse, Run.bind_ok, isBagl,
    UserInterface.bagl_uiTransactionSigning]
  rfl

/-- The outcome of the last chunk of a transaction: a review of what was
sent, a status word with all of `ctx` wiped, or the end of the app. -/
def App.TransactionOutcome (app : App) (path : List UInt32) (version : UInt8)
    (bytes : List UInt8)
    (result : Run Empty (State app × Output app.layout.Shared)) : Prop :=
  match app.parseForReview version bytes with
  | .ok parsed =>
      ∃ next tx, result = .ok (next, ⟨none, some (.transaction tx)⟩) ∧
        next.review = some (.transaction tx) ∧
        app.layout.tx.read next.ctx.req = tx ∧
        tx.Collected path version bytes ∧ tx.parsed = parsed
  | .error (.error sw) =>
      ∃ next, result = .ok (next, Output.refused sw) ∧
        next.ctx = ⟨app.layout.zeroed, 0⟩
  | .error (.fault reason) => result = .error (.fault reason)

/-- The transaction in memory is the part that was received so far. -/
def State.CollectsTransaction {app : App} (path : List UInt32)
    (version : UInt8) (bytes : List UInt8) (state : State app) : Prop :=
  (app.layout.tx.read state.ctx.req).Collected path version bytes

section Chunks

variable {app : App} {tx : TransactionContext}

/-- The review depends on the transaction only through what was received. -/
theorem App.reviewTransaction_eq
    (collected : tx.Collected path version bytes) :
    app.reviewTransaction tx =
      (app.parseForReview version bytes).map ({ tx with parsed := · }) := by
  have loaded : (load tx.rawTx.val (some 0) tx.rawTxLength.toNat :
      Run StatusWord _) = .ok bytes := collected.signedBytes
  unfold App.reviewTransaction App.parseForReview
  rw [loaded, Run.bind_ok, collected.transactionVersion]
  rcases Run.orErrorToSw (parseTx app.toDevice version bytes) with _ | parsed
  · rfl
  · simp only [Run.bind_ok]
    rcases app.ui.uiTransactionSigning parsed with _ | _ <;> rfl

section Command

variable {state : State app} {command : Command}

/-- A chunk that is collected is written to memory. -/
theorem Command.Carries.handle_transactionMore
    {req : app.layout.Memory}
    (carries : command.Carries insSignTx p1 p2More part)
    (p1Cases : p1 = p1First ∨ p1 = p1More)
    (collects : (app.layout.tx.read req).chunk p1 command.buffer.val
      command.data = .ok tx) :
    app.handleCommand command req =
      .ok ⟨app.layout.tx.write req tx, .response []⟩ := by
  rw [carries.handleSignTransaction]
  unfold App.handleSignTransaction
  rw [checkChunkParameters_eq p1Cases (Or.inr rfl), Run.bind_ok, collects,
    Run.bind_ok]
  rfl

/-- A chunk that is collected, with more to come. -/
theorem State.receive_transactionMore
    (carries : command.Carries insSignTx p1 p2More part)
    (p1Cases : p1 = p1First ∨ p1 = p1More)
    (collects : (app.layout.tx.read state.ctx.req).chunk p1
      command.buffer.val command.data = .ok tx)
    (collected : tx.Collected path version bytes) :
    ∃ next, state.receive command = .ok (next, Output.accepted) ∧
      next.CollectsTransaction path version bytes := by
  refine ⟨_, State.receive_handled _
    (carries.handle_transactionMore p1Cases collects), ?_⟩
  unfold State.CollectsTransaction
  rw [app.layout.tx.read_write]
  exact collected

/-- The last chunk leads to the outcome for all that was received. -/
theorem State.receive_transactionLast
    (carries : command.Carries insSignTx p1 p2Last part)
    (p1Cases : p1 = p1First ∨ p1 = p1More)
    (collects : (app.layout.tx.read state.ctx.req).chunk p1
      command.buffer.val command.data = .ok tx)
    (collected : tx.Collected path version bytes) :
    app.TransactionOutcome path version bytes (state.receive command) := by
  have handle : app.handleCommand command state.ctx.req =
      (app.parseForReview version bytes).map fun parsed =>
        ⟨app.layout.tx.write state.ctx.req { tx with parsed },
          .review (.transaction { tx with parsed })⟩ := by
    rw [carries.handleSignTransaction]
    unfold App.handleSignTransaction App.finishTransactionChunk
    rw [checkChunkParameters_eq p1Cases (Or.inl rfl), Run.bind_ok, collects,
      Run.bind_ok, if_neg (by decide), App.reviewTransaction_eq collected]
    rcases app.parseForReview version bytes with _ | _ <;> rfl
  unfold App.TransactionOutcome
  rcases outcome : app.parseForReview version bytes with
    (sw | reason) | parsed
  · rw [outcome] at handle
    exact ⟨_, State.receive_refused handle, rfl⟩
  · rw [outcome] at handle
    exact State.receive_fault handle
  · rw [outcome] at handle
    refine ⟨_, { tx with parsed }, State.receive_handled _ handle, rfl,
      app.layout.tx.read_write _ _, ?_, rfl⟩
    exact ⟨collected.bip32Path, collected.transactionVersion,
      collected.rawTxLength, collected.rawTx⟩

/-- A chunk with too many bytes is refused. -/
theorem State.receive_transactionLong
    (carries : command.Carries insSignTx p1 p2 part)
    (p1Cases : p1 = p1First ∨ p1 = p1More)
    (p2Cases : p2 = p2Last ∨ p2 = p2More)
    (refuses : (app.layout.tx.read state.ctx.req).chunk p1
      command.buffer.val command.data = .error (.error .wrongDataLength)) :
    ∃ next,
      state.receive command = .ok (next, Output.refused .wrongDataLength) ∧
        next.ctx = ⟨app.layout.zeroed, 0⟩ := by
  refine ⟨_, State.receive_refused ?_, rfl⟩
  rw [carries.handleSignTransaction]
  unfold App.handleSignTransaction
  rw [checkChunkParameters_eq p1Cases p2Cases, Run.bind_ok, refuses]
  rfl

/-- A further chunk that is collected. -/
theorem State.CollectsTransaction.collects
    (collected : state.CollectsTransaction path version bytes)
    (carries : command.Carries insSignTx p1More p2 part)
    (short : (bytes ++ part).length ≤ maxRawTx) :
    ∃ tx, (app.layout.tx.read state.ctx.req).chunk p1More
        command.buffer.val command.data = .ok tx ∧
      tx.Collected path version (bytes ++ part) :=
  TransactionContext.Collected.more_collects collected carries.covers
    carries.header.1 short

/-- Further chunks within the limit are accepted. -/
theorem State.CollectsTransaction.accepts
    (collected : state.CollectsTransaction path version bytes)
    (carries : command.Carries insSignTx p1More p2More part)
    (short : (bytes ++ part).length ≤ maxRawTx) :
    ∃ next, state.receive command = .ok (next, Output.accepted) ∧
      next.CollectsTransaction path version (bytes ++ part) := by
  obtain ⟨tx, collects, txCollected⟩ := collected.collects carries short
  exact State.receive_transactionMore carries (Or.inr rfl) collects
    txCollected

/-- A first chunk that is collected. -/
theorem State.collects_first
    (state : State app)
    (carries : command.Carries insSignTx p1First p2
      (bip32PathBytes path ++ version :: part))
    (validPath : ValidPath path)
    (short : part.length ≤ maxRawTx) :
    ∃ tx, (app.layout.tx.read state.ctx.req).chunk p1First
        command.buffer.val command.data = .ok tx ∧
      tx.Collected path version part :=
  TransactionContext.first_collects _ validPath carries.covers short

/-- A transaction in a single command. -/
theorem State.receive_transactionSingle
    (state : State app)
    (carries : command.Carries insSignTx p1First p2Last
      (bip32PathBytes path ++ version :: part))
    (validPath : ValidPath path)
    (short : part.length ≤ maxRawTx) :
    app.TransactionOutcome path version part (state.receive command) := by
  obtain ⟨tx, collects, collected⟩ :=
    state.collects_first carries validPath short
  exact State.receive_transactionLast carries (Or.inl rfl) collects collected

/-- A first chunk with more to come is accepted. -/
theorem State.receive_transactionFirst
    (state : State app)
    (carries : command.Carries insSignTx p1First p2More
      (bip32PathBytes path ++ version :: part))
    (validPath : ValidPath path)
    (short : part.length ≤ maxRawTx) :
    ∃ next, state.receive command = .ok (next, Output.accepted) ∧
      next.CollectsTransaction path version part := by
  obtain ⟨tx, collects, collected⟩ :=
    state.collects_first carries validPath short
  exact State.receive_transactionMore carries (Or.inl rfl) collects collected

end Command

/-- All chunks but the last one are accepted if the transaction fits. -/
theorem signTransaction_within
    (validPath : ValidPath path)
    (cut : Cut insSignTx p1First
      ((bip32PathBytes path ++ version :: part) :: parts) commands)
    (state : State app)
    (short : (part :: parts).flatten.length ≤ maxRawTx) :
    ∃ before last middle, commands = before ++ [last] ∧
      state.Accepts before middle ∧
      app.TransactionOutcome path version (part :: parts).flatten
        (middle.receive last) := by
  rw [List.flatten_cons] at short ⊢
  have partShort : part.length ≤ maxRawTx := by
    rw [List.length_append] at short
    omega
  cases cut with
  | last carries =>
      rename_i command
      refine ⟨[], command, state, rfl, .nil, ?_⟩
      rw [List.flatten_nil, List.append_nil]
      exact state.receive_transactionSingle carries validPath partShort
  | more carries rest =>
      rename_i command commands
      obtain ⟨next, received, collected⟩ :=
        state.receive_transactionFirst carries validPath partShort
      obtain ⟨before, last, lastPart, bytes, middle, rfl, lastCarries,
        accepted, middleCollected, total⟩ :=
        rest.collect State.CollectsTransaction.accepts collected short
      refine ⟨command :: before, last, middle, rfl, .cons received accepted,
        ?_⟩
      rw [← total] at short ⊢
      obtain ⟨tx, lastCollects, lastCollected⟩ :=
        middleCollected.collects lastCarries short
      exact State.receive_transactionLast lastCarries (Or.inr rfl)
        lastCollects lastCollected

/-- The first chunk that exceeds the buffer is refused. -/
theorem signTransaction_beyond
    (validPath : ValidPath path)
    (cut : Cut insSignTx p1First
      ((bip32PathBytes path ++ version :: part) :: parts) commands)
    (state : State app)
    (long : maxRawTx < (part :: parts).flatten.length) :
    ∃ before breaching after sent exceeding rest middle wiped,
      commands = before ++ breaching :: after ∧
      part :: parts = sent ++ exceeding :: rest ∧
      sent.length = before.length ∧ sent.flatten.length ≤ maxRawTx ∧
      maxRawTx < (sent.flatten ++ exceeding).length ∧
      state.Accepts before middle ∧
      middle.receive breaching = .ok (wiped, Output.refused .wrongDataLength) ∧
      wiped.ctx = ⟨app.layout.zeroed, 0⟩ := by
  by_cases partShort : part.length ≤ maxRawTx
  · cases cut with
    | last carries =>
        rw [List.flatten_cons, List.flatten_nil, List.append_nil] at long
        omega
    | more carries rest =>
        rename_i command commands
        obtain ⟨next, received, collected⟩ :=
          state.receive_transactionFirst carries validPath partShort
        obtain ⟨before, breaching, after, sent, exceeding, others, p2, middle,
          rfl, rfl, lengths, overCarries, p2Cases, accepted, middleCollected,
          within, beyond⟩ :=
          rest.exceed State.CollectsTransaction.accepts collected partShort
            (by rwa [List.flatten_cons] at long)
        obtain ⟨wiped, refused, clean⟩ :=
          State.receive_transactionLong overCarries (Or.inr rfl) p2Cases
            (TransactionContext.Collected.more_refuses middleCollected
              overCarries.covers overCarries.header.1 beyond)
        exact ⟨command :: before, breaching, after, part :: sent, exceeding,
          others, middle, wiped, rfl, rfl, congrArg (· + 1) lengths, within,
          beyond, .cons received accepted, refused, clean⟩
  · have refuses := fun {command p2}
        (carries : Command.Carries command insSignTx p1First p2
          (bip32PathBytes path ++ version :: part)) =>
      (app.layout.tx.read state.ctx.req).first_refuses validPath
        carries.covers (Nat.lt_of_not_le partShort)
    cases cut with
    | last carries =>
        rename_i command
        obtain ⟨wiped, refused, clean⟩ :=
          State.receive_transactionLong carries (Or.inl rfl) (Or.inl rfl)
            (refuses carries)
        exact ⟨[], command, [], [], part, [], state, wiped, rfl, rfl, rfl,
          Nat.zero_le _, Nat.lt_of_not_le partShort, .nil, refused, clean⟩
    | more carries rest =>
        rename_i command commands
        obtain ⟨wiped, refused, clean⟩ :=
          State.receive_transactionLong carries (Or.inl rfl) (Or.inr rfl)
            (refuses carries)
        exact ⟨[], command, commands, [], part, parts, state, wiped, rfl, rfl,
          rfl, Nat.zero_le _, Nat.lt_of_not_le partShort, .nil, refused,
          clean⟩

end Chunks

section Chunked

variable {app : App}

/-- A transaction in chunks is reviewed, refused or answered with an error
like the transaction as a whole. -/
theorem signTransaction_chunked
    (validPath : ValidPath path)
    (cut : Cut insSignTx p1First
      ((bip32PathBytes path ++ version :: part) :: parts) commands)
    (state : State app) :
    ((part :: parts).flatten.length ≤ maxRawTx →
      (∃ before last middle, commands = before ++ [last] ∧
        state.Accepts before middle ∧
        app.TransactionOutcome path version (part :: parts).flatten
          (middle.receive last)) ∧
      ∀ (other : State app) (single : Command),
        single.Carries insSignTx p1First p2Last
          (bip32PathBytes path ++ version :: (part :: parts).flatten) →
        app.TransactionOutcome path version (part :: parts).flatten
          (other.receive single)) ∧
    (maxRawTx < (part :: parts).flatten.length →
      ∃ before breaching after sent exceeding rest middle wiped,
        commands = before ++ breaching :: after ∧
        part :: parts = sent ++ exceeding :: rest ∧
        sent.length = before.length ∧ sent.flatten.length ≤ maxRawTx ∧
        maxRawTx < (sent.flatten ++ exceeding).length ∧
        state.Accepts before middle ∧
        middle.receive breaching =
          .ok (wiped, Output.refused .wrongDataLength) ∧
        wiped.ctx = ⟨app.layout.zeroed, 0⟩) := by
  refine ⟨fun short => ⟨?_, ?_⟩, ?_⟩
  · exact signTransaction_within validPath cut state short
  · intro other single carries
    exact other.receive_transactionSingle carries validPath short
  · exact signTransaction_beyond validPath cut state

/-- The bytes of a transaction that creates a staker. -/
def sampleTransactionBytes : List UInt8 :=
  (acceptedCreateStaker ProofData.emptyDefault).tx.encode

set_option maxRecDepth 2000 in
theorem sampleTransactionBytes_length :
    sampleTransactionBytes.length = 167 := by
  decide

/-- The transaction in two parts, with an empty one between them. -/
def sampleParts : List (List UInt8) :=
  [sampleTransactionBytes.take 100, [], sampleTransactionBytes.drop 100]

theorem sampleParts_flatten :
    sampleParts.flatten = sampleTransactionBytes := by
  simp only [sampleParts, List.flatten_cons, List.flatten_nil,
    List.append_nil, List.nil_append, List.take_append_drop]

theorem sampleFirst_length :
    (bip32PathBytes samplePath ++
      1 :: sampleTransactionBytes.take 100).length ≤ 255 := by
  rw [List.length_append, List.length_cons, List.length_take,
    sampleTransactionBytes_length]
  decide

theorem sampleLast_length :
    (sampleTransactionBytes.drop 100).length ≤ 255 := by
  rw [List.length_drop, sampleTransactionBytes_length]
  decide

/-- The commands that carry the parts. -/
def sampleChunks : List Command :=
  [.carrying insSignTx p1First p2More _ sampleFirst_length,
    .carrying insSignTx p1More p2More [] Command.noData_length,
    .carrying insSignTx p1More p2Last _ sampleLast_length]

/-- The chunks have the outcome of the transaction they carry. -/
theorem signTransaction_chunked_sample :
    ∃ before last middle, sampleChunks = before ++ [last] ∧
      (State.start (sampleApp .bagl (fun _ => Bytes.zero)
        fun _ => Bytes.zero)).Accepts before middle ∧
      App.TransactionOutcome _ samplePath 1 sampleParts.flatten
        (middle.receive last) :=
  ((signTransaction_chunked (by decide)
    (.more (Command.carrying_carries sampleFirst_length)
      (.more (Command.carrying_carries (Nat.zero_le _))
        (.last (Command.carrying_carries sampleLast_length)))) _).1 (by
          change sampleParts.flatten.length ≤ maxRawTx
          rw [sampleParts_flatten, sampleTransactionBytes_length]
          decide)).1

end Chunked
end NimiqApp
