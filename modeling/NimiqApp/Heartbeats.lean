import NimiqApp.Foundation.Refinement
import NimiqApp.Refusals
import NimiqApp.Replies

/-!
# Heartbeats

With U2F, a command is answered in time: by its reply, or by a heartbeat that
the client is to continue with `INS_KEEP_ALIVE`.  The timer is only a counter
of the ticks since the last command that was handled, so when it sends a
heartbeat is a matter of the history.
-/

namespace NimiqApp

open Foundation (Ends)
open Foundation.System (anyEvent)

section Refusing

variable {app : App}

/-- The verification message is only refused with an error. -/
theorem readVerificationMessage_refusing
    (buffer : List UInt8)
    (returnSignature : Bool)
    (data : Slice) :
    Refusing (readVerificationMessage buffer returnSignature data) := by
  unfold readVerificationMessage
  split
  · apply Refusing.bind (Refusing.returnOn (by decide))
    intro _
    apply Refusing.bind (Refusing.orReturn (by decide))
    intro _
    apply Refusing.bind (Refusing.load _ _ _)
    intro _
    apply Refusing.bind (Refusing.returnOn (by decide))
    intro _
    exact Refusing.pure _
  · exact Refusing.pure _

/-- A request for a public key is only refused with an error. -/
theorem App.handleGetPublicKey_refusing
    (p1 p2 : UInt8)
    (buffer : List UInt8)
    (data : Slice)
    (req : app.layout.Memory) :
    Refusing (app.handleGetPublicKey p1 p2 buffer data req) := by
  unfold App.handleGetPublicKey
  apply Refusing.bind (Refusing.returnOn (by decide))
  intro _
  apply Refusing.bind (Refusing.orReturn (by decide))
  intro _
  apply Refusing.bind (readVerificationMessage_refusing _ _ _)
  intro _
  apply Refusing.bind (Refusing.returnOn (by decide))
  intro _
  apply Refusing.bind (Refusing.cryptography _)
  intro privateKey
  apply Refusing.bind (Refusing.cryptography _)
  intro publicKey
  have signed : ∀ msg signature, Refusing (app.signVerificationMessage buffer
      privateKey (decide (p1 = p1Signature)) msg signature) := by
    intro msg signature
    unfold Sdk.signVerificationMessage
    split
    · apply Refusing.bind (Refusing.load _ _ _)
      intro _
      exact Refusing.cryptography _
    · exact Refusing.pure _
  have answered : ∀ pk, Refusing (app.answerGetPublicKey p2 pk) := by
    intro pk
    unfold App.answerGetPublicKey
    split
    · exact Ends.bind (Refusing.orErrorToSw _)
        fun _ _ => Refusing.pure _
    · exact Ends.bind (Refusing.orErrorToSw _)
        fun _ _ => Refusing.pure _
  apply Refusing.bind (signed _ _)
  intro _
  apply Refusing.bind (answered _)
  intro _
  exact Refusing.pure _

/-- No command is refused with the status word of success. -/
theorem App.handleCommand_refusing
    (command : Command)
    (req : app.layout.Memory) :
    Refusing (app.handleCommand command req) := by
  unfold App.handleCommand
  apply Refusing.bind (Refusing.returnOn (by decide))
  intro _
  unfold App.handleApdu
  apply Refusing.bind (Refusing.returnOn (by decide))
  intro _
  simp only
  split_ifs
  · exact App.handleGetPublicKey_refusing _ _ _ _ _
  · exact app.handleSignTransaction_refusing _ _ _ _ _
  · exact app.handleSignMessage_refusing _ _ _ _ _
  · exact Refusing.pure _
  · exact .threw (nofun : StatusWord.insNotSupported ≠ .ok)

end Refusing

/-- A command was handled: there is no reply yet, or it is a success. -/
def Output.handled (output : Output Shared) : Bool :=
  match output.reply with
  | .none => true
  | .some reply => reply.sw = .ok

/-- Count the ticks of U2F behind a command that was handled.  Another
command and a restart end the count. -/
def countTick (ticks : Option Nat) :
    Event × Output Shared → Option Nat
  | (.command _, output) => if output.handled then some 0 else none
  | (.ticker true, _) => ticks.map (· + 1)
  | (.restart, _) => none
  | _ => ticks

/-- The ticks since the last command, if it was handled. -/
def ticksSinceCommand (history : List (Event × Output Shared)) :
    Option Nat :=
  history.foldl countTick none

@[simp] theorem ticksSinceCommand_append
    (history : List (Event × Output Shared))
    (step : Event × Output Shared) :
    ticksSinceCommand (history ++ [step]) =
      countTick (ticksSinceCommand history) step := by
  unfold ticksSinceCommand
  rw [List.foldl_append]
  rfl

/-- The timer after some ticks. -/
def timerAfter : Option Nat → Nat
  | some ticks => 28000 - 100 * ticks
  | none => 0

section Timer

variable {app : App} {history : List (Event × Output app.layout.Shared)}
  {state next : State app} {output : Output app.layout.Shared}

/-- The timer counts the ticks since the last command, and a command waits
only until it has run down. -/
structure Timed (history : List (Event × Output app.layout.Shared))
    (state : State app) : Prop where
  timer : state.ctx.u2fTimer.toNat = timerAfter (ticksSinceCommand history)
  waits : state.unanswered = true →
    ∃ ticks, ticksSinceCommand history = some ticks ∧ ticks < 280

/-- Another tick. -/
theorem timerAfter_tick (ticks : Option Nat) :
    timerAfter (ticks.map (· + 1)) = timerAfter ticks - 100 := by
  cases ticks with
  | none => rfl
  | some count =>
      unfold timerAfter
      simp only [Option.map_some]
      omega

/-- The heartbeat is due when the timer has almost run down. -/
theorem Timed.due_iff (timed : Timed history state) :
    state.HeartbeatDue ↔ ticksSinceCommand history = some 279 := by
  have due : state.HeartbeatDue ↔ state.ctx.u2fTimer.toNat = 100 := by
    unfold State.HeartbeatDue
    rw [← UInt16.toNat_inj]
    rfl
  rw [due, timed.timer]
  cases ticksSinceCommand history with
  | none => exact iff_of_false nofun nofun
  | some ticks =>
      unfold timerAfter
      simp only [Option.some.injEq]
      omega

/-- What a tick makes of the timer. -/
theorem tickerEvent_timer (ctx : GeneralContext Memory) :
    (tickerEvent isU2f ctx).1.u2fTimer.toNat =
        (if isU2f then ctx.u2fTimer.toNat - 100 else ctx.u2fTimer.toNat) ∨
      ctx.u2fTimer.toNat % 100 ≠ 0 := by
  by_cases multiple : ctx.u2fTimer.toNat % 100 = 0
  · left
    unfold tickerEvent u2fSendKeepAlive
    cases isU2f with
    | false => simp
    | true =>
        by_cases counting : ctx.u2fTimer > 0
        · have positive : 0 < ctx.u2fTimer.toNat := by
            rw [gt_iff_lt, UInt16.lt_iff_toNat_lt] at counting
            exact counting
          have enough : (100 : UInt16) ≤ ctx.u2fTimer := by
            rw [UInt16.le_iff_toNat_le]
            change 100 ≤ _
            omega
          have less : (ctx.u2fTimer - 100).toNat =
              ctx.u2fTimer.toNat - 100 := UInt16.toNat_sub_of_le _ _ enough
          rw [if_pos ⟨rfl, counting⟩]
          simp only
          split
          · rename_i zero
            rw [zero] at less
            simpa using less
          · simpa using less
        · have zero : ctx.u2fTimer.toNat = 0 := by
            rw [gt_iff_lt, UInt16.lt_iff_toNat_lt] at counting
            exact Nat.eq_zero_of_not_pos counting
          rw [if_neg (fun both => counting both.2)]
          simp [zero]
  · exact Or.inr multiple

/-- A tick keeps time. -/
theorem Timed.tick
    (timed : Timed history state)
    (ticked : state.step (.ticker isU2f) = some (next, output)) :
    Timed (history ++ [(.ticker isU2f, output)]) next := by
  have multiple : state.ctx.u2fTimer.toNat % 100 = 0 := by
    rw [timed.timer]
    cases ticksSinceCommand history with
    | none => rfl
    | some ticks =>
        unfold timerAfter
        simp only
        omega
  have counted : next.ctx.u2fTimer.toNat =
      timerAfter (ticksSinceCommand (history ++ [(.ticker isU2f, output)])) := by
    have timer : next.ctx.u2fTimer.toNat =
        (tickerEvent isU2f state.ctx).1.u2fTimer.toNat := by
      change some (state.tick isU2f) = _ at ticked
      cases ticked
      rfl
    rw [timer, (tickerEvent_timer state.ctx).resolve_right (· multiple),
      timed.timer, ticksSinceCommand_append]
    cases isU2f with
    | true => exact (timerAfter_tick _).symm
    | false => rfl
  refine ⟨counted, ?_⟩
  intro waits
  cases State.step_ticker ticked with
  | heartbeat due => cases waits
  | tick timer early =>
      obtain ⟨ticks, since, few⟩ := timed.waits waits
      rw [ticksSinceCommand_append, since]
      cases isU2f with
      | false => exact ⟨ticks, rfl, few⟩
      | true =>
          refine ⟨ticks + 1, rfl, ?_⟩
          have notYet : ticks ≠ 279 := by
            rintro rfl
            exact early ⟨rfl, timed.due_iff.mpr since⟩
          omega

/-- Every step keeps time. -/
theorem Timed.step
    (timed : Timed history state)
    (stepped : app.system.step state event = some (next, output)) :
    Timed (history ++ [(event, output)]) next := by
  have reacts := State.step_reacts stepped
  cases reacts with
  | @handled command handled idle handles =>
      have isHandled : (handled.answer.output).handled = true := by
        cases handles <;> rfl
      refine ⟨?_, fun _ => ⟨0, ?_, by decide⟩⟩
      · rw [ticksSinceCommand_append, countTick, if_pos isHandled]
        rfl
      · rw [ticksSinceCommand_append, countTick, if_pos isHandled]
  | @refused command sw idle refuses =>
      have notOk := (app.handleCommand_refusing _ _).sw_ne_ok refuses
      have notHandled :
          ¬(Output.refused sw : Output app.layout.Shared).handled = true := by
        unfold Output.handled Output.refused
        simpa using notOk
      refine ⟨?_, nofun⟩
      rw [ticksSinceCommand_append, countTick, if_neg notHandled]
      rfl
  | heartbeat due => exact timed.tick stepped
  | tick timer early => exact timed.tick stepped
  | approve onScreen approved =>
      refine ⟨?_, nofun⟩
      rw [ticksSinceCommand_append]
      exact timed.timer
  | reject onScreen =>
      refine ⟨?_, nofun⟩
      rw [ticksSinceCommand_append]
      exact timed.timer
  | messageStep onScreen displayed =>
      refine ⟨?_, ?_⟩
      · rw [ticksSinceCommand_append]
        exact timed.timer
      · rw [ticksSinceCommand_append]
        exact timed.waits
  | restart =>
      refine ⟨?_, nofun⟩
      rw [ticksSinceCommand_append]
      rfl

/-- Every run keeps time. -/
theorem Timed.of_run
    (run : app.system.Run allowed history state) :
    Timed history state := by
  refine run.invariant ⟨rfl, nofun⟩ ?_
  intro history state event next output timed _ stepped
  exact timed.step stepped

/-- Ticks in a row lead up to the heartbeat. -/
theorem Timed.silentTicks
    (count : Nat)
    (timed : Timed history state)
    (since : ticksSinceCommand history = some ticks)
    (few : ticks + count = 279) :
    ∃ last, app.system.Steps anyEvent history state
        (NimiqApp.silentTicks _ count) last ∧
      last.HeartbeatDue := by
  have timer : state.ctx.u2fTimer.toNat = 100 * (count + 1) := by
    rw [timed.timer, since]
    unfold timerAfter
    simp only
    omega
  exact ⟨_, State.silentTicks (fun _ _ _ => trivial) count timer, rfl⟩

/-- A command that waits although there is no review. -/
theorem keepAlive_received :
    ∃ state : State helloApp,
      helloApp.system.Run anyEvent [(.command keepAliveCommand, Output.none)]
        state ∧
      state.unanswered = true :=
  ⟨_, .step .start trivial rfl, rfl⟩

/-- In every run, a tick sends a heartbeat exactly if it is the 280th tick of
U2F since the last command, and that command was handled. -/
theorem heartbeat_iff
    (run : app.system.Run anyEvent history state)
    (ticked : app.system.step state (.ticker isU2f) = some (next, output)) :
    output.reply = some ⟨[], .keepAlive⟩ ↔
      isU2f = true ∧ ticksSinceCommand history = some 279 := by
  have timed := Timed.of_run run
  change state.step (.ticker isU2f) = some (next, output) at ticked
  cases State.step_ticker ticked with
  | heartbeat due => exact iff_of_true rfl ⟨rfl, timed.due_iff.mp due⟩
  | tick timer early =>
      refine iff_of_false nofun ?_
      rintro ⟨rfl, since⟩
      exact early ⟨rfl, timed.due_iff.mpr since⟩

/-- The heartbeat that is sent comes at the 280th tick. -/
theorem heartbeat_iff_keepAlive :
    ∃ (state next : State helloApp),
      helloApp.system.step state (.ticker true) =
        some (next, Output.refused .keepAlive) ∧
      ticksSinceCommand ([(.command keepAliveCommand, Output.none)] ++
        silentTicks helloApp.layout.Shared 279) = some 279 := by
  obtain ⟨start, run, _⟩ := keepAlive_received
  obtain ⟨state, steps, due⟩ := (Timed.of_run run).silentTicks 279 rfl rfl
  have beats := State.step_heartbeat due
  exact ⟨state, _, beats, ((heartbeat_iff (steps.run run) beats).mp rfl).2⟩

/-- A command that waits has waited for less than 280 ticks of U2F, and if
nothing else happens, the remaining ones lead to a heartbeat. -/
theorem waiting_answered
    (run : app.system.Run anyEvent history state)
    (waits : state.unanswered = true) :
    ∃ ticks, ticksSinceCommand history = some ticks ∧ ticks < 280 ∧
      ∃ before last,
        app.system.Steps anyEvent history state
          (silentTicks _ (279 - ticks)) before ∧
        app.system.step before (.ticker true) =
          some (last, Output.refused .keepAlive) ∧
        last.unanswered = false := by
  have timed := Timed.of_run run
  obtain ⟨ticks, since, few⟩ := timed.waits waits
  obtain ⟨before, steps, due⟩ :=
    timed.silentTicks (279 - ticks) since (by omega)
  exact ⟨ticks, since, few, before, _, steps, State.step_heartbeat due, rfl⟩

end Timer

/-- It is answered by a heartbeat after 280 ticks. -/
theorem waiting_answered_keepAlive :
    ∃ (state before last : State helloApp),
      state.unanswered = true ∧
      helloApp.system.Steps anyEvent
        [(.command keepAliveCommand, Output.none)] state (silentTicks _ 279)
        before ∧
      helloApp.system.step before (.ticker true) =
        some (last, Output.refused .keepAlive) := by
  obtain ⟨state, run, waits⟩ := keepAlive_received
  obtain ⟨ticks, since, _, before, last, steps, beats, _⟩ :=
    waiting_answered run waits
  cases since
  exact ⟨state, before, last, waits, steps, beats⟩

end NimiqApp
