import EventContract.Proofs.ClientSession
import Mathlib.Data.List.DropRight

/-! # Counting attempts

While a client is reconnecting, the number of its attempt is the number of streams it has lost since
it was last not reconnecting. Every one of those losses has scheduled a retry, one attempt after the
other, and the loss after the last attempt allowed makes the client give up.

An attempt is counted in 32 bits. With a limit below the largest such number the count is exact;
with the largest number for a limit it stays there, and no client gives up.
-/

namespace EventContract.Client

/-! ## Retries -/

/-- The attempt and the delay of a retry that is asked for. -/
def Effect.retry? : Effect → Option (UInt32 × Duration)
  | .scheduleRetry attempt delay => some (attempt, delay)
  | _ => none

/-- The retry that comes at a place among others, counted from 1. -/
def Backoff.retry (backoff : Backoff) (place : Nat) : UInt32 × Duration :=
  let attempt := UInt32.ofNat (min place 4294967295)
  (attempt, backoff.delay attempt)

theorem Backoff.retry_eq {backoff : Backoff} {attempt : UInt32} {place : Nat}
    (hattempt : attempt.toNat = min place 4294967295) :
    backoff.retry place = (attempt, backoff.delay attempt) := by
  rw [retry, ← hattempt, UInt32.ofNat_toNat]

namespace Connection

variable {backoff : Backoff} {state : Connection} {signals : List Signal}

/-- The retries that steps schedule, in order. -/
def retries (steps : List Step) : List (UInt32 × Duration) :=
  (steps.flatMap Step.effects).filterMap Effect.retry?

/-- How many streams are lost in steps. -/
def losses (steps : List Step) : Nat :=
  steps.countP fun step => step.signal = .streamLost

/-- The steps since the connection was last not reconnecting. -/
def wait (backoff : Backoff) (signals : List Signal) : List Step :=
  (idle.steps backoff signals).rtakeWhile fun step => step.after.isReconnecting

theorem wait_append_singleton (backoff : Backoff) (signals : List Signal) (signal : Signal) :
    wait backoff (signals ++ [signal]) =
      let step := (idle.reached backoff signals).step backoff signal
      if step.after.isReconnecting then wait backoff signals ++ [step] else [] := by
  rw [wait, steps_append_singleton, List.rtakeWhile_concat]
  rfl

theorem wait_eq_nil (h : (idle.reached backoff signals).isReconnecting = false) :
    wait backoff signals = [] := by
  induction signals using List.reverseRecOn with
  | nil => rfl
  | append_singleton signals signal _ =>
      rw [reached_append_singleton] at h
      rw [wait_append_singleton]
      exact if_neg (by simp [step, h])

@[simp] theorem retries_append_singleton (steps : List Step) (step : Step) :
    retries (steps ++ [step]) = retries steps ++ step.effects.filterMap Effect.retry? := by
  simp [retries]

@[simp] theorem losses_append_singleton (steps : List Step) (step : Step) :
    losses (steps ++ [step]) = losses steps + if step.signal = .streamLost then 1 else 0 := by
  simp [losses, List.countP_append, List.countP_singleton]

/-- What the steps of a wait amount to when it has come to an attempt. -/
structure Waited (backoff : Backoff) (attempt : UInt32) (steps : List Step) : Prop where
  begun : 0 < losses steps
  counted : attempt.toNat = min (losses steps) 4294967295
  allowed : attempt ≤ backoff.maxAttempts
  scheduled : retries steps = (List.range (losses steps)).map fun i => backoff.retry (i + 1)

theorem Waited.first {step : Step} (hsignal : step.signal = .streamLost)
    (heffects : step.effects = [.closeStream, .scheduleRetry 1 (backoff.delay 1)])
    (hallowed : 1 ≤ backoff.maxAttempts) : Waited backoff 1 [step] where
  begun := by simp [losses, hsignal]
  counted := by simp [losses, hsignal]
  allowed := hallowed
  scheduled := by
    have hlosses : losses [step] = 1 := by simp [losses, hsignal]
    have hretry : backoff.retry 1 = (1, backoff.delay 1) := Backoff.retry_eq rfl
    simp only [retries, List.flatMap_singleton, heffects, hlosses]
    exact congrArg (fun retry => [retry]) hretry.symm

/-- A further loss schedules the next retry. -/
theorem Waited.lose {attempt : UInt32} {steps : List Step} {step : Step}
    (h : Waited backoff attempt steps) (hsignal : step.signal = .streamLost)
    (heffects : step.effects =
      [.closeStream, .scheduleRetry (nextAttempt attempt) (backoff.delay (nextAttempt attempt))])
    (hallowed : nextAttempt attempt ≤ backoff.maxAttempts) :
    Waited backoff (nextAttempt attempt) (steps ++ [step]) := by
  have hlosses : losses (steps ++ [step]) = losses steps + 1 := by simp [hsignal]
  have hcounted : (nextAttempt attempt).toNat = min (losses steps + 1) 4294967295 := by
    rw [toNat_nextAttempt, h.counted]
    omega
  refine ⟨by omega, by rw [hlosses, hcounted], hallowed, ?_⟩
  rw [hlosses, retries_append_singleton, h.scheduled, List.range_succ, List.map_append, heffects,
    List.map_singleton, Backoff.retry_eq hcounted]
  rfl

theorem Waited.stay {attempt : UInt32} {steps : List Step} {step : Step}
    (h : Waited backoff attempt steps) (hsignal : step.signal ≠ .streamLost)
    (heffects : step.effects.filterMap Effect.retry? = []) :
    Waited backoff attempt (steps ++ [step]) := by
  have hlosses : losses (steps ++ [step]) = losses steps := by simp [hsignal]
  refine ⟨hlosses ▸ h.begun, hlosses ▸ h.counted, h.allowed, ?_⟩
  rw [hlosses, retries_append_singleton, h.scheduled, heffects, List.append_nil]

theorem waited_of_reached {attempt : UInt32}
    (hreached : idle.reached backoff signals = .reconnecting attempt) :
    Waited backoff attempt (wait backoff signals) := by
  induction signals using List.reverseRecOn generalizing attempt with
  | nil => cases hreached
  | append_singleton signals signal ih =>
      have hnil : (idle.reached backoff signals).isReconnecting = false →
        wait backoff signals = [] := wait_eq_nil
      have hmove := move_next backoff (idle.reached backoff signals) signal
      rw [reached_append_singleton] at hreached
      rw [wait_append_singleton]
      simp only [step, hreached, isReconnecting, if_true]
      rw [hreached] at hmove
      generalize idle.reached backoff signals = before at ih hnil hmove
      generalize (before.next backoff signal).2 = effects at hmove
      cases hmove with
      | ignored hignores =>
          refine (ih rfl).stay ?_ rfl
          rintro rfl
          cases hignores
      | reopens => exact (ih rfl).stay (by simp) rfl
      | retries hstate hattempt =>
          have hallowed : before.dueAttempt ≤ backoff.maxAttempts := UInt32.not_lt.mp hattempt
          cases before with
          | idle => rw [hnil rfl]; exact .first rfl rfl hallowed
          | connected => rw [hnil rfl]; exact .first rfl rfl hallowed
          | reconnecting attempt => exact (ih rfl).lose rfl rfl hallowed
          | disconnected => exact absurd rfl hstate

/-- Below the largest number an attempt is the number of losses. -/
theorem Waited.attempt_eq {attempt : UInt32} {steps : List Step} (h : Waited backoff attempt steps)
    (hlimit : backoff.maxAttempts < 4294967295) : attempt.toNat = losses steps := by
  have hallowed := UInt32.le_iff_toNat_le.mp h.allowed
  have hcounted := h.counted
  replace hlimit : backoff.maxAttempts.toNat < 4294967295 := UInt32.lt_iff_toNat_lt.mp hlimit
  omega

/-! ## Giving up -/

/-- As long as no stream is reported open and nobody disconnects, the attempt that is due counts the
losses. -/
theorem toNat_dueAttempt_reached (hstate : state = idle ∨ state = connected)
    (hopened : .opened ∉ signals) (hdisconnect : .disconnect ∉ signals)
    (hlosses : signals.count .streamLost ≤ backoff.maxAttempts.toNat) :
    state.reached backoff signals ≠ disconnected ∧
      (state.reached backoff signals).dueAttempt.toNat =
        min (signals.count .streamLost + 1) 4294967295 := by
  induction signals using List.reverseRecOn with
  | nil => rcases hstate with rfl | rfl <;> exact ⟨by simp [reached], rfl⟩
  | append_singleton signals signal ih =>
      simp only [List.mem_append, List.mem_singleton, not_or] at hopened hdisconnect
      rw [List.count_append, List.count_singleton] at hlosses ⊢
      obtain ⟨hbefore, hdue⟩ := ih hopened.1 hdisconnect.1 (by omega)
      have hmove := move_next backoff (state.reached backoff signals) signal
      rw [reached_append_singleton]
      generalize state.reached backoff signals = before at hbefore hdue hmove ⊢
      generalize (before.next backoff signal).1 = after at hmove ⊢
      generalize (before.next backoff signal).2 = effects at hmove
      cases hmove with
      | ignored hignores =>
          refine ⟨hbefore, ?_⟩
          rcases signal_of_ignores hbefore hignores with rfl | rfl
          · simpa using hdue
          · simpa using hdue
      | opens hstate =>
          obtain rfl : before = idle := hstate.resolve_right hbefore
          exact ⟨hbefore, by simpa using hdue⟩
      | reopens => exact ⟨hbefore, by simpa using hdue⟩
      | connects => exact absurd rfl hopened.2
      | late => exact absurd rfl hbefore
      | retries hstate hattempt =>
          refine ⟨by simp, ?_⟩
          have hnext : (reconnecting before.dueAttempt).dueAttempt.toNat =
              min (before.dueAttempt.toNat + 1) 4294967295 := toNat_nextAttempt _
          rw [hnext, hdue, if_pos (beq_self_eq_true _)]
          omega
      | givesUp hstate hattempt =>
          rw [UInt32.lt_iff_toNat_lt, hdue] at hattempt
          simp only [beq_self_eq_true, if_true] at hlosses
          omega
      | closes => exact absurd rfl hdisconnect.2
      | cancels => exact absurd rfl hdisconnect.2

/-- Signals that end in a stretch with a number of losses. It begins where the connection is idle or
connected, and in it no stream is reported open and nobody disconnects. -/
def EndsInLosses (backoff : Backoff) (signals : List Signal) (count : Nat) : Prop :=
  ∃ before stretch, signals = before ++ stretch ∧
    (idle.reached backoff before = idle ∨ idle.reached backoff before = connected) ∧
    .opened ∉ stretch ∧ .disconnect ∉ stretch ∧ stretch.count .streamLost = count

theorem EndsInLosses.of_resting
    (h : idle.reached backoff signals = idle ∨ idle.reached backoff signals = connected) :
    EndsInLosses backoff signals 0 :=
  ⟨signals, [], by simp, h, by simp, by simp, rfl⟩

theorem EndsInLosses.extend {count : Nat} {signal : Signal} (h : EndsInLosses backoff signals count)
    (hopened : signal ≠ .opened) (hdisconnect : signal ≠ .disconnect) :
    EndsInLosses backoff (signals ++ [signal])
      (count + if signal = .streamLost then 1 else 0) := by
  obtain ⟨before, stretch, rfl, hstart, hnoOpened, hnoDisconnect, rfl⟩ := h
  refine ⟨before, stretch ++ [signal], by simp, hstart, ?_, ?_, ?_⟩
  · simpa [hnoOpened] using hopened.symm
  · simpa [hnoDisconnect] using hdisconnect.symm
  · simp [List.count_append, List.count_singleton]

theorem EndsInLosses.toNat_dueAttempt {count : Nat} (h : EndsInLosses backoff signals count)
    (hcount : count ≤ backoff.maxAttempts.toNat) :
    idle.reached backoff signals ≠ disconnected ∧
      (idle.reached backoff signals).dueAttempt.toNat = min (count + 1) 4294967295 := by
  obtain ⟨before, stretch, rfl, hstart, hnoOpened, hnoDisconnect, rfl⟩ := h
  rw [reached_append]
  exact toNat_dueAttempt_reached hstart hnoOpened hnoDisconnect hcount

/-- What a client has lost and not given up on, it has lost in one stretch. -/
theorem exists_endsInLosses (hlimit : backoff.maxAttempts < 4294967295)
    (hreached : idle.reached backoff signals ≠ disconnected) :
    ∃ count ≤ backoff.maxAttempts.toNat, EndsInLosses backoff signals count := by
  induction signals using List.reverseRecOn with
  | nil => exact ⟨0, Nat.zero_le _, .of_resting (.inl rfl)⟩
  | append_singleton signals signal ih =>
      have hmove := move_next backoff (idle.reached backoff signals) signal
      rw [← reached_append_singleton] at hmove
      generalize hafter : idle.reached backoff (signals ++ [signal]) = after at hreached hmove
      generalize hbefore : idle.reached backoff signals = before at ih hmove
      generalize (before.next backoff signal).2 = effects at hmove
      cases hmove with
      | ignored hignores =>
          obtain ⟨count, hcount, hends⟩ := ih hreached
          refine ⟨count, hcount, ?_⟩
          rcases signal_of_ignores hreached hignores with rfl | rfl
          · exact hends.extend (by simp) (by simp)
          · exact hends.extend (by simp) (by simp)
      | opens hstate => exact ⟨0, Nat.zero_le _, .of_resting (.inl hafter)⟩
      | reopens =>
          obtain ⟨count, hcount, hends⟩ := ih (by simp)
          exact ⟨count, hcount, hends.extend (by simp) (by simp)⟩
      | connects hstate => exact ⟨0, Nat.zero_le _, .of_resting (.inr hafter)⟩
      | late => exact absurd rfl hreached
      | retries hstate hattempt =>
          obtain ⟨count, hcount, hends⟩ := ih hstate
          have hdue := (hends.toNat_dueAttempt hcount).2
          rw [UInt32.lt_iff_toNat_lt] at hattempt hlimit
          rw [hbefore] at hdue
          replace hlimit : backoff.maxAttempts.toNat < 4294967295 := hlimit
          exact ⟨count + 1, by omega, hends.extend (by simp) (by simp)⟩
      | givesUp => exact absurd rfl hreached
      | closes => exact absurd rfl hreached
      | cancels => exact absurd rfl hreached

theorem gaveUp_mem_iff_endsInLosses (hlimit : backoff.maxAttempts < 4294967295) (signal : Signal) :
    .gaveUp ∈ ((idle.reached backoff signals).next backoff signal).2 ↔
      signal = .streamLost ∧ EndsInLosses backoff signals backoff.maxAttempts.toNat := by
  rw [gaveUp_mem_iff]
  replace hlimit : backoff.maxAttempts.toNat < 4294967295 := UInt32.lt_iff_toNat_lt.mp hlimit
  refine and_congr_right fun _ => ⟨?_, fun hends => ?_⟩
  · rintro ⟨hstate, hattempt⟩
    obtain ⟨count, hcount, hends⟩ := exists_endsInLosses (UInt32.lt_iff_toNat_lt.mpr hlimit) hstate
    rw [UInt32.lt_iff_toNat_lt, (hends.toNat_dueAttempt hcount).2] at hattempt
    obtain rfl : count = backoff.maxAttempts.toNat := by omega
    exact hends
  · obtain ⟨hstate, hdue⟩ := hends.toNat_dueAttempt (Nat.le_refl _)
    exact ⟨hstate, by rw [UInt32.lt_iff_toNat_lt, hdue]; omega⟩

/-! ## The account -/

/-- What holds of the retries of a connection after some signals. -/
structure RetryAccount (backoff : Backoff) (signals : List Signal) : Prop where
  allowed : ∀ attempt, idle.reached backoff signals = .reconnecting attempt →
    1 ≤ attempt ∧ attempt ≤ backoff.maxAttempts
  /-- The retries of a wait are numbered in order, each with the delay of its attempt. -/
  numbered : ∀ place retry, (retries (wait backoff signals))[place]? = some retry →
    retry = backoff.retry (place + 1)
  last : ∀ attempt, idle.reached backoff signals = .reconnecting attempt →
    (retries (wait backoff signals)).getLast? = some (attempt, backoff.delay attempt)
  counted : backoff.maxAttempts < 4294967295 →
    ∀ attempt, idle.reached backoff signals = .reconnecting attempt →
      attempt.toNat = losses (wait backoff signals)
  bounded : backoff.maxAttempts < 4294967295 →
    (retries (wait backoff signals)).length ≤ backoff.maxAttempts.toNat
  /-- The client gives up on the loss after those of all attempts allowed and at no other
  signal. -/
  gaveUp_iff : backoff.maxAttempts < 4294967295 →
    ∀ signal, .gaveUp ∈ ((idle.reached backoff signals).next backoff signal).2 ↔
      signal = .streamLost ∧ EndsInLosses backoff signals backoff.maxAttempts.toNat
  ended : ∀ signal, .gaveUp ∈ ((idle.reached backoff signals).next backoff signal).2 →
    ((idle.reached backoff signals).next backoff signal).1 = disconnected
  /-- Without a limit that can be exceeded no client gives up. -/
  unlimited : backoff.maxAttempts = 4294967295 →
    ∀ signal, .gaveUp ∉ ((idle.reached backoff signals).next backoff signal).2

theorem retries_wait (backoff : Backoff) (signals : List Signal) :
    retries (wait backoff signals) =
      (List.range (losses (wait backoff signals))).map fun i => backoff.retry (i + 1) := by
  cases hreached : idle.reached backoff signals with
  | reconnecting attempt => exact (waited_of_reached hreached).scheduled
  | idle | connected | disconnected =>
      rw [wait_eq_nil (by rw [hreached]; rfl)]
      rfl

theorem retries_accounted (backoff : Backoff) (signals : List Signal) :
    RetryAccount backoff signals where
  allowed attempt hreached := by
    have hwaited := waited_of_reached hreached
    refine ⟨?_, hwaited.allowed⟩
    have hbegun := hwaited.begun
    have hcounted := hwaited.counted
    rw [UInt32.le_iff_toNat_le, UInt32.toNat_one]
    omega
  numbered place retry hretry := by
    rw [retries_wait, List.getElem?_map, Option.map_eq_some_iff] at hretry
    obtain ⟨found, hfound, rfl⟩ := hretry
    obtain ⟨_, heq⟩ := List.getElem?_eq_some_iff.mp hfound
    rw [← heq, List.getElem_range]
  last attempt hreached := by
    have hwaited := waited_of_reached hreached
    obtain ⟨count, hcount⟩ := Nat.exists_eq_add_one.mpr hwaited.begun
    have hcounted := hwaited.counted
    rw [hcount] at hcounted
    rw [retries_wait, hcount, List.range_succ, List.map_append, List.map_singleton,
      List.getLast?_concat, Backoff.retry_eq hcounted]
  counted hlimit attempt hreached := (waited_of_reached hreached).attempt_eq hlimit
  bounded hlimit := by
    rw [retries_wait, List.length_map, List.length_range]
    cases hreached : idle.reached backoff signals with
    | reconnecting attempt =>
        have hwaited := waited_of_reached hreached
        rw [← hwaited.attempt_eq hlimit]
        exact UInt32.le_iff_toNat_le.mp hwaited.allowed
    | idle | connected | disconnected =>
        rw [wait_eq_nil (by rw [hreached]; rfl)]
        exact Nat.zero_le _
  gaveUp_iff hlimit signal := gaveUp_mem_iff_endsInLosses hlimit signal
  ended signal := disconnected_of_gaveUp
  unlimited hlimit signal := by
    rw [gaveUp_mem_iff, hlimit]
    rintro ⟨-, -, hattempt⟩
    have hlt := (idle.reached backoff signals).dueAttempt.toNat_lt
    replace hattempt : 4294967295 < (idle.reached backoff signals).dueAttempt.toNat :=
      UInt32.lt_iff_toNat_lt.mp hattempt
    omega

end Connection

end EventContract.Client
