import EventContract.Client.Subscriber
import Mathlib.Tactic.Common

/-! # Sessions of a client

A session is a client with what its owner sees of it: the tasks it has given and the retry timer,
which the owner runs. It goes from input to input. What is claimed of all runs of a client is
claimed here of every session along a list of inputs, and shown by what one input does.
-/

namespace EventContract.Client

/-! ## One signal -/

namespace Connection

/-- The attempt that a lost stream makes due. -/
def dueAttempt : Connection → UInt32
  | reconnecting attempt => nextAttempt attempt
  | _ => 1

theorem toNat_nextAttempt (attempt : UInt32) :
    (nextAttempt attempt).toNat = min (attempt.toNat + 1) 4294967295 := by
  have hlt : attempt.toNat < 4294967296 := attempt.toNat_lt
  unfold nextAttempt
  split
  next hlargest => rw [hlargest]; rfl
  next hsmaller =>
    have hne : attempt.toNat ≠ 4294967295 := fun heq => hsmaller (UInt32.toNat_inj.mp heq)
    rw [UInt32.toNat_add, UInt32.toNat_one, Nat.mod_eq_of_lt (by omega), Nat.min_eq_left (by omega)]

/-- The client has lost its stream and not given up. -/
def isReconnecting : Connection → Bool
  | reconnecting _ => true
  | _ => false

/-- The signals that change nothing and ask for nothing. -/
def ignores : Connection → Signal → Bool
  | connected, .connect => true
  | reconnecting _, .connect => true
  | idle, .retryTimerFired => true
  | connected, .retryTimerFired => true
  | disconnected, .streamLost => true
  | disconnected, .retryTimerFired => true
  | disconnected, .disconnect => true
  | _, _ => false

/-- What a signal leads to, by what it is about. -/
inductive Move (backoff : Backoff) : Connection → Signal → Connection → List Effect → Prop
  | ignored {state : Connection} {signal : Signal} (hignores : state.ignores signal = true) :
      Move backoff state signal state []
  /-- A stream is opened at the caller's wish. -/
  | opens {state : Connection} (hstate : state = idle ∨ state = disconnected) :
      Move backoff state .connect idle [.openStream]
  /-- A stream is opened at the end of a wait. -/
  | reopens {attempt : UInt32} :
      Move backoff (reconnecting attempt) .retryTimerFired (reconnecting attempt) [.openStream]
  | connects {state : Connection} (hstate : state ≠ disconnected) :
      Move backoff state .opened connected []
  /-- A stream reported open after all was over. -/
  | late : Move backoff disconnected .opened disconnected [.closeStream]
  | retries {state : Connection} (hstate : state ≠ disconnected)
      (hattempt : ¬ backoff.maxAttempts < state.dueAttempt) :
      Move backoff state .streamLost (reconnecting state.dueAttempt)
        [.closeStream, .scheduleRetry state.dueAttempt (backoff.delay state.dueAttempt)]
  | givesUp {state : Connection} (hstate : state ≠ disconnected)
      (hattempt : backoff.maxAttempts < state.dueAttempt) :
      Move backoff state .streamLost disconnected [.closeStream, .gaveUp]
  | closes {state : Connection} (hstate : state = idle ∨ state = connected) :
      Move backoff state .disconnect disconnected [.closeStream]
  | cancels {attempt : UInt32} :
      Move backoff (reconnecting attempt) .disconnect disconnected [.cancelRetry, .closeStream]

theorem move_afterLoss (backoff : Backoff) (state : Connection) (hstate : state ≠ disconnected) :
    Move backoff state .streamLost (afterLoss backoff state.dueAttempt).1
      (afterLoss backoff state.dueAttempt).2 := by
  unfold afterLoss
  split
  next hattempt => exact .givesUp hstate hattempt
  next hattempt => exact .retries hstate hattempt

/-- Every transition is one of the moves. -/
theorem move_next (backoff : Backoff) (state : Connection) (signal : Signal) :
    Move backoff state signal (state.next backoff signal).1 (state.next backoff signal).2 := by
  cases signal with
  | connect =>
      cases state with
      | idle => exact .opens (.inl rfl)
      | connected => exact .ignored rfl
      | reconnecting => exact .ignored rfl
      | disconnected => exact .opens (.inr rfl)
  | opened =>
      cases state with
      | idle => exact .connects (by simp)
      | connected => exact .connects (by simp)
      | reconnecting => exact .connects (by simp)
      | disconnected => exact .late
  | streamLost =>
      cases state with
      | idle => exact move_afterLoss backoff idle (by simp)
      | connected => exact move_afterLoss backoff connected (by simp)
      | reconnecting attempt => exact move_afterLoss backoff (reconnecting attempt) (by simp)
      | disconnected => exact .ignored rfl
  | retryTimerFired =>
      cases state with
      | idle => exact .ignored rfl
      | connected => exact .ignored rfl
      | reconnecting => exact .reopens
      | disconnected => exact .ignored rfl
  | disconnect =>
      cases state with
      | idle => exact .closes (.inl rfl)
      | connected => exact .closes (.inr rfl)
      | reconnecting => exact .cancels
      | disconnected => exact .ignored rfl

theorem signal_of_ignores {state : Connection} {signal : Signal} (hstate : state ≠ disconnected)
    (hignores : state.ignores signal = true) : signal = .connect ∨ signal = .retryTimerFired := by
  cases signal with
  | connect => exact .inl rfl
  | retryTimerFired => exact .inr rfl
  | opened | streamLost | disconnect =>
      cases state with
      | disconnected => exact absurd rfl hstate
      | idle | connected | reconnecting => exact Bool.noConfusion hignores

/-- A client gives up on the loss that makes an attempt beyond its limit due. -/
theorem gaveUp_mem_iff {backoff : Backoff} {state : Connection} {signal : Signal} :
    .gaveUp ∈ (state.next backoff signal).2 ↔
      signal = .streamLost ∧ state ≠ disconnected ∧ backoff.maxAttempts < state.dueAttempt := by
  have hmove := move_next backoff state signal
  generalize (state.next backoff signal).1 = after at hmove
  generalize (state.next backoff signal).2 = effects at hmove
  constructor
  · intro hgaveUp
    cases hmove with
    | givesUp hstate hattempt => exact ⟨rfl, hstate, hattempt⟩
    | ignored | opens | reopens | connects | late | retries | closes | cancels =>
        simp at hgaveUp
  · rintro ⟨rfl, hstate, hattempt⟩
    cases hmove with
    | ignored hignores => simpa using signal_of_ignores hstate hignores
    | retries _ hkept => exact absurd hattempt hkept
    | givesUp => simp

/-- A retry is scheduled on a loss that makes an attempt within the limit due. -/
theorem scheduleRetry_mem_iff {backoff : Backoff} {state : Connection} {signal : Signal}
    {attempt : UInt32} {delay : Duration} :
    .scheduleRetry attempt delay ∈ (state.next backoff signal).2 ↔
      signal = .streamLost ∧ state ≠ disconnected ∧ state.dueAttempt ≤ backoff.maxAttempts ∧
        attempt = state.dueAttempt ∧ delay = backoff.delay state.dueAttempt := by
  have hmove := move_next backoff state signal
  generalize (state.next backoff signal).1 = after at hmove
  generalize (state.next backoff signal).2 = effects at hmove
  constructor
  · intro hretry
    cases hmove with
    | retries hstate hattempt =>
        obtain ⟨rfl, rfl⟩ : attempt = _ ∧ delay = _ := by simpa using hretry
        exact ⟨rfl, hstate, UInt32.not_lt.mp hattempt, rfl, rfl⟩
    | ignored | opens | reopens | connects | late | givesUp | closes | cancels =>
        simp at hretry
  · rintro ⟨rfl, hstate, hattempt, rfl, rfl⟩
    cases hmove with
    | ignored hignores => simpa using signal_of_ignores hstate hignores
    | retries => simp
    | givesUp _ hbeyond => exact absurd hattempt (UInt32.not_le.mpr hbeyond)

theorem disconnected_of_gaveUp {backoff : Backoff} {state : Connection} {signal : Signal}
    (hgaveUp : .gaveUp ∈ (state.next backoff signal).2) :
    (state.next backoff signal).1 = disconnected := by
  have hmove := move_next backoff state signal
  generalize (state.next backoff signal).1 = after at hmove
  generalize (state.next backoff signal).2 = effects at hmove hgaveUp
  cases hmove with
  | givesUp => rfl
  | ignored | opens | reopens | connects | late | retries | closes | cancels => simp at hgaveUp

/-! ## Many signals -/

/-- One step of a connection. -/
structure Step where
  before : Connection
  signal : Signal
  after : Connection
  effects : List Effect

/-- The step that a signal makes. -/
def step (backoff : Backoff) (state : Connection) (signal : Signal) : Step :=
  ⟨state, signal, (state.next backoff signal).1, (state.next backoff signal).2⟩

/-- The steps that signals make, one after the other. -/
def steps (backoff : Backoff) : Connection → List Signal → List Step
  | _, [] => []
  | state, signal :: rest =>
    state.step backoff signal :: steps backoff (state.next backoff signal).1 rest

/-- The state that signals lead to. -/
def reached (backoff : Backoff) (state : Connection) (signals : List Signal) : Connection :=
  signals.foldl (fun state signal => (state.next backoff signal).1) state

theorem steps_append_singleton (backoff : Backoff) (state : Connection) (signals : List Signal)
    (signal : Signal) : state.steps backoff (signals ++ [signal]) =
      state.steps backoff signals ++ [(state.reached backoff signals).step backoff signal] := by
  induction signals generalizing state with
  | nil => rfl
  | cons first rest ih =>
      rw [List.cons_append, steps, ih, steps, List.cons_append]
      rfl

theorem reached_append (backoff : Backoff) (state : Connection) (first second : List Signal) :
    state.reached backoff (first ++ second) =
      (state.reached backoff first).reached backoff second :=
  List.foldl_append

theorem reached_append_singleton (backoff : Backoff) (state : Connection) (signals : List Signal)
    (signal : Signal) : state.reached backoff (signals ++ [signal]) =
      ((state.reached backoff signals).next backoff signal).1 := by
  rw [reached_append]
  rfl

end Connection

theorem Subscriber.isConnected_iff {κ : Type} {client : Subscriber κ} :
    client.isConnected ↔ client.connection = .connected :=
  decide_eq_true_iff

/-! ## What the owner sees -/

/-- Whether the timer is set after a task. A newer schedule takes the place of an older one. -/
def Task.setsTimer (armed : Bool) : Task → Bool
  | .schedule _ => true
  | .cancelTimer => false
  | _ => armed

/-- The task opens a stream. -/
def Task.opens : Task → Bool
  | .openStream _ => true
  | _ => false

/-- What is done to a client. -/
inductive Input (κ : Type) where
  | signal (signal : Signal)
  /-- Subscribing, unsubscribing or delivering an event, with the callbacks there are after it. -/
  | callbacks (registry : Registry κ)

/-- A client and what its owner sees of it. -/
structure Session (κ : Type) where
  client : Subscriber κ
  /-- All that the owner had to do so far, in order. -/
  tasks : List Task
  /-- The retry timer is running. -/
  timerArmed : Bool
  /-- How often a stream was reported open. -/
  reported : Nat

namespace Session

variable {κ π σ : Type}

/-- A new client, of which nothing was asked yet. -/
def start (url : String) (backoff : Backoff) : Session κ :=
  ⟨.new url backoff, [], false, 0⟩

/-- The session after an input. An expiry that reaches the client is over with that. -/
def take (session : Session κ) : Input κ → Session κ
  | .signal signal =>
    let (client, tasks) := session.client.signal signal
    { client
      tasks := session.tasks ++ tasks
      timerArmed := tasks.foldl Task.setsTimer (session.timerArmed && signal ≠ .retryTimerFired)
      reported := session.reported + if signal = .opened then 1 else 0 }
  | .callbacks registry => { session with client := { session.client with registry } }

/-- The session after a list of inputs. -/
def run (session : Session κ) (inputs : List (Input κ)) : Session κ :=
  inputs.foldl take session

/-- The session in which the client has gone over to a state and asked for effects, with the timer
as it stood before. -/
def moved (session : Session κ) (signal : Signal) (state : Connection) (effects : List Effect) :
    Session κ :=
  let tasks := effects.flatMap (Effect.tasks session.client.url)
  { client := { session.client with connection := state }
    tasks := session.tasks ++ tasks
    timerArmed := tasks.foldl Task.setsTimer (session.timerArmed && signal ≠ .retryTimerFired)
    reported := session.reported + if signal = .opened then 1 else 0 }

/-- A signal makes a session move. -/
theorem exists_move (session : Session κ) (signal : Signal) :
    ∃ state effects,
      session.client.connection.Move session.client.backoff signal state effects ∧
        session.take (.signal signal) = session.moved signal state effects :=
  ⟨_, _, Connection.move_next _ _ _, rfl⟩

/-- Delivering an event changes a client as the input for it says. -/
theorem take_callbacks_of_receive (session : Session κ) {behaviour : Behaviour κ π σ} {depth : Nat}
    {event : String} {payload : π} {state after : σ} {called : Nat} {client : Subscriber κ}
    {log : Array (Happening κ π)}
    (hreceive : session.client.receive behaviour depth event payload state =
      some (called, client, after, log)) :
    (session.take (.callbacks client.registry)).client = client := by
  unfold Subscriber.receive at hreceive
  split at hreceive
  · obtain ⟨⟨called, run⟩, -, heq⟩ := Option.bind_eq_some_iff.mp hreceive
    cases heq
    rfl
  · cases hreceive
    rfl

/-! ## Along a list of inputs -/

/-- Holds of a session and of all that come of it, input by input. -/
def Always (Q : Session κ → Prop) : Session κ → List (Input κ) → Prop
  | session, [] => Q session
  | session, input :: rest => Q session ∧ Always Q (session.take input) rest

/-- Holds of every input and the session that takes it in. -/
def Each (P : Session κ → Input κ → Prop) : Session κ → List (Input κ) → Prop
  | _, [] => True
  | session, input :: rest => P session input ∧ Each P (session.take input) rest

variable {P : Session κ → Input κ → Prop} {Q inv : Session κ → Prop} {session : Session κ}
  {inputs : List (Input κ)}

theorem Always.head (h : Always Q session inputs) : Q session := by
  cases inputs with
  | nil => exact h
  | cons input rest => exact h.1

/-- What every input keeps holds all along. -/
theorem Always.of_each (hstep : ∀ session input, inv session → P session input →
      inv (session.take input))
    (hstart : inv session) (h : Each P session inputs) : Always inv session inputs := by
  induction inputs generalizing session with
  | nil => exact hstart
  | cons input rest ih => exact ⟨hstart, ih (hstep _ _ hstart h.1) h.2⟩

theorem Always.mono (himp : ∀ session, inv session → Q session)
    (h : Always inv session inputs) : Always Q session inputs := by
  induction inputs generalizing session with
  | nil => exact himp _ h
  | cons input rest ih => exact ⟨himp _ h.1, ih h.2⟩

theorem Always.each (hstep : ∀ session input, Q session → Q (session.take input) → P session input)
    (h : Always Q session inputs) : Each P session inputs := by
  induction inputs generalizing session with
  | nil => trivial
  | cons input rest ih => exact ⟨hstep _ _ h.1 h.2.head, ih h.2⟩

theorem Each.and {P' : Session κ → Input κ → Prop} (h : Each P session inputs)
    (h' : Each P' session inputs) :
    Each (fun session input => P session input ∧ P' session input) session inputs := by
  induction inputs generalizing session with
  | nil => trivial
  | cons input rest ih => exact ⟨⟨h.1, h'.1⟩, ih h.2 h'.2⟩

end Session

end EventContract.Client
