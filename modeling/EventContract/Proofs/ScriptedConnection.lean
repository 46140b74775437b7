import EventContract.Consumption.Connection
import EventContract.Consumption.Evaluation
import EventContract.Proofs.BackoffDelay
import EventContract.Proofs.ClientSession
import Mathlib.Algebra.Ring.Int.Defs
import Mathlib.Data.Nat.Cast.Basic

/-! # The connection logic as a script and as a machine

Every consumption module carries the connection logic of the client as a script, which reckons with
exact integers. It does what the client's own connection does, state for state and effect for
effect, up to the limits of fixed-width numbers: the client cuts the power of two, the delay and the
count of attempts, and the script cuts none of them.
-/

namespace EventContract.Consumption

open Client (Backoff Connection Effect Signal)

/-! ## What the script reads and gives -/

/-- A record that begins with its kind. -/
def kindValue (kind : String) (more : List (String × Value)) : Value :=
  .record (("kind", .text kind) :: more)

def stateValue : Connection → Value
  | .idle => kindValue "idle" []
  | .connected => kindValue "connected" []
  | .reconnecting attempt => kindValue "reconnecting" [("attempt", .number attempt.toNat)]
  | .disconnected => kindValue "disconnected" []

def signalValue : Signal → Value
  | .connect => .text "connect"
  | .opened => .text "opened"
  | .streamLost => .text "streamLost"
  | .retryTimerFired => .text "retryTimerFired"
  | .disconnect => .text "disconnect"

/-- An effect as the script has it, with delays in whole milliseconds. -/
def effectValue : Effect → Value
  | .openStream => kindValue "openStream" []
  | .closeStream => kindValue "closeStream" []
  | .scheduleRetry attempt delay => kindValue "scheduleRetry"
    [("attempt", .number attempt.toNat), ("delayMs", .number delay.totalMillis)]
  | .cancelRetry => kindValue "cancelRetry" []
  | .gaveUp => kindValue "gaveUp" []

def policyValue (backoff : Backoff) : Value :=
  .record [("baseDelayMs", .number backoff.baseDelay.totalMillis),
    ("maxAttempts", .number backoff.maxAttempts.toNat)]

def outcomeValue (state : Value) (effects : List Value) : Value :=
  .record [("state", state), ("effects", .list effects)]

/-- What a transition of the client comes to in the script. -/
def transitionValue (outcome : Connection × List Effect) : Value :=
  outcomeValue (stateValue outcome.1) (outcome.2.map effectValue)

/-- What the script makes of a signal. -/
def scriptedNext (policy state signal : Value) : Option Value :=
  connectionScript.call "transition" [state, signal, policy]

/-- What the script makes of signals, each in the state that the one before led to. -/
def scriptedRun (policy : Value) : Value → List Value → Option (List Value)
  | _, [] => some []
  | state, signal :: rest => do
    let outcome ← scriptedNext policy state signal
    let after ← outcome.member? "state"
    return outcome :: (← scriptedRun policy after rest)

/-! ## The functions of the script -/

/-- The constants of the script. -/
def restingScope : Scope :=
  [("IDLE", stateValue .idle), ("CONNECTED", stateValue .connected),
    ("DISCONNECTED", stateValue .disconnected)]

theorem member_baseDelayMs (backoff : Backoff) : (policyValue backoff).member? "baseDelayMs" =
    some (.number backoff.baseDelay.totalMillis) :=
  rfl

theorem member_maxAttempts (backoff : Backoff) : (policyValue backoff).member? "maxAttempts" =
    some (.number backoff.maxAttempts.toNat) :=
  rfl

theorem apply_retryDelay (calls : Callable) (backoff : Backoff) {attempt : Nat}
    (hattempt : 1 ≤ attempt) :
    retryDelayFunction.apply calls restingScope [policyValue backoff, .number attempt] =
      some (.number (backoff.baseDelay.totalMillis * 2 ^ (attempt - 1) : Nat)) := by
  have hone : (1 : Int) ≤ attempt := by omega
  have hexponent : ((attempt : Int) - 1).toNat = attempt - 1 := by omega
  have hpower : ((2 ^ (attempt - 1) : Nat) : Int) = Int.pow 2 (attempt - 1) := by
    rw [Nat.cast_pow]
    rfl
  rw [Nat.cast_mul, hpower]
  simp [Function.apply, retryDelayFunction, Statement.runBlock, Statement.run, Expression.eval,
    Table.get?, member_baseDelayMs, Operator.apply, hone, hexponent]

/-- What the script makes of a lost stream when an attempt is due. -/
def scriptedAfterLoss (backoff : Backoff) (attempt : Nat) : Value :=
  if backoff.maxAttempts.toNat < attempt then
    outcomeValue (stateValue .disconnected) [effectValue .closeStream, effectValue .gaveUp]
  else
    outcomeValue (kindValue "reconnecting" [("attempt", .number attempt)])
      [effectValue .closeStream, kindValue "scheduleRetry" [("attempt", .number attempt),
        ("delayMs", .number (backoff.baseDelay.totalMillis * 2 ^ (attempt - 1) : Nat))]]

theorem apply_retry {calls : Callable} {backoff : Backoff} {attempt : Nat}
    (hdelay : calls "retryDelayMs" [policyValue backoff, .number attempt] =
      some (.number (backoff.baseDelay.totalMillis * 2 ^ (attempt - 1) : Nat))) :
    retryFunction.apply calls restingScope [.number attempt, policyValue backoff] =
      some (scriptedAfterLoss backoff attempt) := by
  unfold scriptedAfterLoss
  by_cases hcap : backoff.maxAttempts.toNat < attempt
  · rw [if_pos hcap]
    simp [Function.apply, retryFunction, Statement.runBlock, Statement.run, Expression.eval,
      Table.get?, member_maxAttempts, Operator.apply, hcap, outcome,
      Expression.evalMembers, Expression.evalItems, kindOnly, restingScope, outcomeValue,
      effectValue, kindValue]
  · rw [if_neg hcap]
    simp [Function.apply, retryFunction, Statement.runBlock, Statement.run, Expression.eval,
      Table.get?, member_maxAttempts, Operator.apply, hcap, outcome,
      Expression.evalMembers, Expression.evalItems, kindOnly, hdelay, outcomeValue, effectValue,
      kindValue]

/-- The attempt that a lost stream makes due in the script. -/
def scriptedAttempt : Connection → Nat
  | .reconnecting attempt => attempt.toNat + 1
  | _ => 1

theorem one_le_scriptedAttempt (state : Connection) : 1 ≤ scriptedAttempt state := by
  cases state with
  | reconnecting => exact Nat.le_add_left 1 _
  | idle | connected | disconnected => exact Nat.le_refl 1

theorem apply_transition_streamLost (calls : Callable) (policy : Value) {state : Connection}
    (hstate : state ≠ .disconnected) :
    transitionFunction.apply calls restingScope
        [stateValue state, signalValue .streamLost, policy] =
      calls "retry" [.number (scriptedAttempt state), policy] := by
  generalize hresult : calls "retry" [.number (scriptedAttempt state), policy] = result
  cases state with
  | disconnected => exact absurd rfl hstate
  | idle | connected | reconnecting =>
      push_cast [scriptedAttempt] at hresult
      simp [Function.apply, transitionFunction, Statement.runBlock, Statement.run,
        Expression.eval, Expression.evalItems, Table.get?, Value.member?, Operator.apply, stateIs,
        signalIs, signalValue, stateValue, kindValue, hresult]
      cases result <;> rfl

/-! ## One signal -/

theorem scriptedNext_streamLost (backoff : Backoff) {state : Connection}
    (hstate : state ≠ .disconnected) :
    scriptedNext (policyValue backoff) (stateValue state) (signalValue .streamLost) =
      some (scriptedAfterLoss backoff (scriptedAttempt state)) := by
  calc scriptedNext (policyValue backoff) (stateValue state) (signalValue .streamLost)
      = transitionFunction.apply (callable restingScope [retryFunction, retryDelayFunction])
          restingScope [stateValue state, signalValue .streamLost, policyValue backoff] := rfl
    _ = callable restingScope [retryFunction, retryDelayFunction] "retry"
          [.number (scriptedAttempt state), policyValue backoff] :=
        apply_transition_streamLost _ _ hstate
    _ = retryFunction.apply (callable restingScope [retryDelayFunction]) restingScope
          [.number (scriptedAttempt state), policyValue backoff] := rfl
    _ = some (scriptedAfterLoss backoff (scriptedAttempt state)) :=
        apply_retry (apply_retryDelay _ backoff (one_le_scriptedAttempt state))

/-- Where no attempt comes due, there is no number to be cut. -/
theorem scriptedNext_of_not_due (backoff : Backoff) {state : Connection} {signal : Signal}
    (hnotDue : signal ≠ .streamLost ∨ state = .disconnected) :
    scriptedNext (policyValue backoff) (stateValue state) (signalValue signal) =
      some (transitionValue (state.next backoff signal)) := by
  rcases hnotDue with hsignal | rfl
  · cases signal with
    | streamLost => exact absurd rfl hsignal
    | connect | opened | retryTimerFired | disconnect => cases state <;> rfl
  · cases signal <;> rfl

/-- The client counts and reckons a retry as the script does: neither the attempt, nor the power
of two, nor the delay is cut. -/
def Uncut (backoff : Backoff) (step : Connection.Step) : Prop :=
  ∀ attempt delay, .scheduleRetry attempt delay ∈ step.effects →
    backoff.Doubles attempt ∧ step.before ≠ .reconnecting 4294967295

theorem uncut_step_iff {backoff : Backoff} {state : Connection} {signal : Signal} :
    Uncut backoff (state.step backoff signal) ↔
      (signal = .streamLost → state ≠ .disconnected → state.dueAttempt ≤ backoff.maxAttempts →
        backoff.Doubles state.dueAttempt ∧ state ≠ .reconnecting 4294967295) := by
  simp only [Uncut, Connection.step, Connection.scheduleRetry_mem_iff]
  constructor
  · intro huncut hsignal hstate hattempt
    exact huncut _ _ ⟨hsignal, hstate, hattempt, rfl, rfl⟩
  · rintro huncut _ _ ⟨hsignal, hstate, hattempt, rfl, -⟩
    exact huncut hsignal hstate hattempt

theorem scriptedAttempt_eq {state : Connection} (hstate : state ≠ .reconnecting 4294967295) :
    scriptedAttempt state = state.dueAttempt.toNat := by
  cases state with
  | reconnecting attempt =>
      have hlt : attempt.toNat < 4294967296 := attempt.toNat_lt
      have hne : attempt.toNat ≠ 4294967295 := fun heq =>
        hstate (congrArg _ (UInt32.toNat_inj.mp heq))
      rw [scriptedAttempt, Connection.dueAttempt, Connection.toNat_nextAttempt]
      omega
  | idle | connected | disconnected => rfl

theorem transitionValue_reconnecting_ne {attempt : UInt32} {effects : List Effect}
    {values : List Value} :
    outcomeValue (stateValue .disconnected) values ≠
      transitionValue (.reconnecting attempt, effects) := by
  simp [transitionValue, outcomeValue, stateValue, kindValue]

theorem transitionValue_retry_eq_iff {attempt : UInt32} {delay : Client.Duration} {millis : Nat} :
    outcomeValue (kindValue "reconnecting" [("attempt", .number attempt.toNat)])
        [effectValue .closeStream, kindValue "scheduleRetry"
          [("attempt", .number attempt.toNat), ("delayMs", .number millis)]] =
        transitionValue (.reconnecting attempt, [.closeStream, .scheduleRetry attempt delay]) ↔
      delay.totalMillis = millis := by
  constructor
  · intro heq
    have hcast : (delay.totalMillis : Int) = millis := by
      simpa [transitionValue, outcomeValue, stateValue, effectValue, kindValue] using heq.symm
    exact Int.ofNat_inj.mp hcast
  · rintro rfl
    rfl

/-- The script and the client do the same about a lost stream exactly where neither has a number cut
that the other has not. -/
theorem scriptedAfterLoss_eq_iff {backoff : Backoff}
    (hmillis : 1000000 ∣ backoff.baseDelay.totalNanos) (state : Connection) :
    scriptedAfterLoss backoff (scriptedAttempt state) =
        transitionValue (Connection.afterLoss backoff state.dueAttempt) ↔
      (state.dueAttempt ≤ backoff.maxAttempts →
        backoff.Doubles state.dueAttempt ∧ state ≠ .reconnecting 4294967295) := by
  by_cases hlargest : state = .reconnecting 4294967295
  · -- The script counts one attempt further than the client and gives up in any case.
    have hbeyond : backoff.maxAttempts.toNat < scriptedAttempt state := by
      rw [hlargest]
      exact backoff.maxAttempts.toNat_lt
    rw [scriptedAfterLoss, if_pos hbeyond, Connection.afterLoss]
    split
    next hattempt => exact iff_of_true rfl fun h => absurd hattempt (UInt32.not_lt.mpr h)
    next hattempt =>
      exact iff_of_false transitionValue_reconnecting_ne fun h =>
        (h (UInt32.not_lt.mp hattempt)).2 hlargest
  · simp only [scriptedAttempt_eq hlargest, scriptedAfterLoss, Connection.afterLoss,
      ← UInt32.lt_iff_toNat_lt]
    split
    next hattempt => exact iff_of_true rfl fun h => absurd hattempt (UInt32.not_lt.mpr h)
    next hattempt =>
      rw [transitionValue_retry_eq_iff, Client.Backoff.totalMillis_delay_eq_iff hmillis]
      simp [hlargest, UInt32.not_lt.mp hattempt]

/-- The script makes of a signal what the client makes of it exactly where no number is cut. -/
theorem scriptedNext_eq_iff {backoff : Backoff}
    (hmillis : 1000000 ∣ backoff.baseDelay.totalNanos) (state : Connection) (signal : Signal) :
    scriptedNext (policyValue backoff) (stateValue state) (signalValue signal) =
        some (transitionValue (state.next backoff signal)) ↔
      Uncut backoff (state.step backoff signal) := by
  rw [uncut_step_iff]
  by_cases hdue : signal = .streamLost ∧ state ≠ .disconnected
  · obtain ⟨rfl, hstate⟩ := hdue
    have hnext : state.next backoff .streamLost =
        Connection.afterLoss backoff state.dueAttempt := by
      cases state with
      | disconnected => exact absurd rfl hstate
      | idle | connected | reconnecting => rfl
    rw [scriptedNext_streamLost backoff hstate, hnext, Option.some.injEq,
      scriptedAfterLoss_eq_iff hmillis]
    simp [hstate]
  · refine iff_of_true (scriptedNext_of_not_due backoff ?_) fun hsignal hstate =>
      absurd ⟨hsignal, hstate⟩ hdue
    rwa [not_and_or, not_not] at hdue

/-- On the loss after 32 retries the client waits for 2 ^ 32 - 1 times the base delay, and the
script for 2 ^ 32 times the base delay. -/
theorem scriptedNext_ne_after_32_retries :
    let backoff : Backoff := ⟨.ofMillis 1000, 33⟩
    let state := Connection.idle.reached backoff (List.replicate 32 .streamLost)
    scriptedNext (policyValue backoff) (stateValue state) (signalValue .streamLost) ≠
      some (transitionValue (state.next backoff .streamLost)) := by
  intro backoff state
  have hstate : state = .reconnecting 32 := by decide
  have hmillis : 1000000 ∣ backoff.baseDelay.totalNanos := by decide
  have hdoubles : ¬ backoff.Doubles 33 := by
    unfold Client.Backoff.Doubles
    decide
  rw [Ne, scriptedNext_eq_iff hmillis, hstate, uncut_step_iff]
  intro huncut
  exact hdoubles (huncut rfl (by decide) (by decide)).1

/-! ## Many signals -/

/-- What the client makes of signals. -/
def transitionValues (steps : List Connection.Step) : List Value :=
  steps.map fun step => transitionValue (step.after, step.effects)

theorem scriptedRun_cons_eq_iff {policy state signal first after : Value}
    {signals rest : List Value} (hafter : first.member? "state" = some after) :
    scriptedRun policy state (signal :: signals) = some (first :: rest) ↔
      scriptedNext policy state signal = some first ∧
        scriptedRun policy after signals = some rest := by
  rw [scriptedRun]
  constructor
  · intro hrun
    obtain ⟨outcome, hnext, hrun⟩ := Option.bind_eq_some_iff.mp hrun
    obtain ⟨after', hafter', hrun⟩ := Option.bind_eq_some_iff.mp hrun
    obtain ⟨outcomes, hrest, heq⟩ := Option.bind_eq_some_iff.mp hrun
    cases heq
    cases hafter.symm.trans hafter'
    exact ⟨hnext, hrest⟩
  · rintro ⟨hnext, hrest⟩
    simp [hnext, hafter, hrest]

theorem scriptedRun_eq_iff {backoff : Backoff}
    (hmillis : 1000000 ∣ backoff.baseDelay.totalNanos) (state : Connection)
    (signals : List Signal) :
    scriptedRun (policyValue backoff) (stateValue state) (signals.map signalValue) =
        some (transitionValues (state.steps backoff signals)) ↔
      ∀ step ∈ state.steps backoff signals, Uncut backoff step := by
  induction signals generalizing state with
  | nil => simp [scriptedRun, transitionValues, Connection.steps]
  | cons signal signals ih =>
      have hafter : (transitionValue (state.next backoff signal)).member? "state" =
          some (stateValue (state.next backoff signal).1) := rfl
      rw [Connection.steps, List.forall_mem_cons, ← ih, ← scriptedNext_eq_iff hmillis]
      exact scriptedRun_cons_eq_iff hafter

/-- With a last attempt that is not cut, no attempt before it is. -/
theorem uncut_of_doubles {backoff : Backoff} (hcap : backoff.maxAttempts < 4294967295)
    (hdoubles : backoff.Doubles backoff.maxAttempts) (state : Connection) (signals : List Signal) :
    ∀ step ∈ state.steps backoff signals, Uncut backoff step := by
  induction signals generalizing state with
  | nil => exact List.forall_mem_nil _
  | cons signal signals ih =>
      rw [Connection.steps, List.forall_mem_cons]
      refine ⟨uncut_step_iff.mpr fun _ _ hattempt => ⟨hdoubles.of_le hattempt, ?_⟩, ih _⟩
      rintro rfl
      exact UInt32.not_lt.mpr hattempt hcap

/-- With a last attempt that is not cut, the script follows the client along whatever signals. -/
theorem scriptedRun_of_doubles {backoff : Backoff}
    (hmillis : 1000000 ∣ backoff.baseDelay.totalNanos)
    (hcap : backoff.maxAttempts < 4294967295)
    (hdoubles : backoff.Doubles backoff.maxAttempts) (state : Connection) (signals : List Signal) :
    scriptedRun (policyValue backoff) (stateValue state) (signals.map signalValue) =
      some (transitionValues (state.steps backoff signals)) :=
  (scriptedRun_eq_iff hmillis state signals).mpr (uncut_of_doubles hcap hdoubles state signals)

/-- From the start and along whatever signals, the script and the client go through the same states
and ask for the same effects exactly where no number is cut. -/
theorem scriptedRun_follows_iff {backoff : Backoff}
    (hmillis : 1000000 ∣ backoff.baseDelay.totalNanos) (signals : List Signal) :
    scriptedRun (policyValue backoff) (stateValue .idle) (signals.map signalValue) =
        some (transitionValues (Connection.idle.steps backoff signals)) ↔
      ∀ step ∈ Connection.idle.steps backoff signals, Uncut backoff step :=
  scriptedRun_eq_iff hmillis .idle signals

/-- With the default policy nothing is cut, here on the way to giving up after a reconnection. -/
theorem scriptedRun_follows_default :
    let backoff := Backoff.default
    let signals : List Signal :=
      [.connect, .opened, .streamLost, .retryTimerFired, .opened] ++ List.replicate 11 .streamLost
    1000000 ∣ backoff.baseDelay.totalNanos ∧
      scriptedRun (policyValue backoff) (stateValue .idle) (signals.map signalValue) =
        some (transitionValues (Connection.idle.steps backoff signals)) := by
  intro backoff signals
  have hmillis : 1000000 ∣ backoff.baseDelay.totalNanos := by decide
  have hdoubles : backoff.Doubles backoff.maxAttempts := by
    unfold Client.Backoff.Doubles
    decide
  exact ⟨hmillis, (scriptedRun_follows_iff hmillis signals).mpr
    (uncut_of_doubles (by decide) hdoubles .idle signals)⟩

end EventContract.Consumption
