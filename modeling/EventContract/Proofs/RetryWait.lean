import EventContract.Proofs.ClientSession

/-! # The retry timer

The timer is there for the wait between two attempts. It is armed only while a client is
reconnecting, as long as no wait is ended behind its back.
-/

namespace EventContract.Client

namespace Session

variable {κ : Type}

/-- The input takes a client out of reconnecting without the caller's doing: a stream is reported
open, or one is lost and no attempt is left. -/
def EndsWait (session : Session κ) (input : Input κ) : Prop :=
  session.client.connection.isReconnecting ∧
    (input = .signal .opened ∨ input = .signal .streamLost ∧
      session.client.backoff.maxAttempts < session.client.connection.dueAttempt)

/-- The timer is armed for nothing but an attempt to come. -/
def TimerInPlace (session : Session κ) : Prop :=
  session.timerArmed → session.client.connection.isReconnecting

theorem TimerInPlace.take {session : Session κ} {input : Input κ} (hplace : session.TimerInPlace)
    (hends : session.EndsWait input → ¬ session.timerArmed) :
    (session.take input).TimerInPlace := by
  cases input with
  | callbacks registry => exact hplace
  | signal signal =>
      obtain ⟨state, effects, hmove, heq⟩ := session.exists_move signal
      rw [heq]
      obtain ⟨⟨url, backoff, connection, registry⟩, tasks, armed, reported⟩ := session
      simp only [TimerInPlace, EndsWait, moved] at hplace hends hmove ⊢
      cases hmove with
      | ignored hignores =>
          intro harmed
          exact hplace (Bool.and_eq_true_iff.mp harmed).1
      | opens hstate =>
          -- Neither state before it has a timer.
          intro harmed
          have hwait := hplace (Bool.and_eq_true_iff.mp harmed).1
          rcases hstate with rfl | rfl
          · cases hwait
          · cases hwait
      | reopens => exact fun _ => rfl
      | connects hstate =>
          intro harmed
          have hbefore := (Bool.and_eq_true_iff.mp harmed).1
          exact absurd hbefore (hends ⟨hplace hbefore, .inl rfl⟩)
      | late =>
          intro harmed
          cases hplace (Bool.and_eq_true_iff.mp harmed).1
      | retries hstate hattempt => exact fun _ => rfl
      | givesUp hstate hattempt =>
          intro harmed
          have hbefore := (Bool.and_eq_true_iff.mp harmed).1
          exact absurd hbefore (hends ⟨hplace hbefore, .inr ⟨rfl, hattempt⟩⟩)
      | closes hstate =>
          intro harmed
          have hwait := hplace (Bool.and_eq_true_iff.mp harmed).1
          rcases hstate with rfl | rfl
          · cases hwait
          · cases hwait
      | cancels =>
          intro harmed
          cases harmed

/-- No timer ran where ending a wait leaves none out of place. -/
theorem TimerInPlace.not_armed {session : Session κ} {input : Input κ}
    (hafter : (session.take input).TimerInPlace) (hends : session.EndsWait input) :
    ¬ session.timerArmed := by
  intro harmed
  obtain ⟨hwait, hinput⟩ := hends
  obtain ⟨⟨url, backoff, connection, registry⟩, tasks, armed, reported⟩ := session
  obtain rfl : armed = true := harmed
  cases connection with
  | idle => cases hwait
  | connected => cases hwait
  | disconnected => cases hwait
  | reconnecting attempt =>
      rcases hinput with rfl | ⟨rfl, hattempt⟩
      · cases hafter rfl
      · obtain ⟨state, effects, hmove, heq⟩ :=
          exists_move ⟨⟨url, backoff, .reconnecting attempt, registry⟩, tasks, true, reported⟩
            .streamLost
        rw [heq] at hafter
        cases hmove with
        | ignored hignores => cases hignores
        | retries hstate hkept => exact hkept hattempt
        | givesUp => cases hafter rfl

/-- Along every list of inputs the retry timer is armed only while the client is reconnecting,
exactly if no wait is ended while its timer runs. -/
theorem timer_in_place_iff (url : String) (backoff : Backoff) (inputs : List (Input κ)) :
    Always (fun session => session.timerArmed → session.client.connection.isReconnecting)
        (start url backoff) inputs ↔
      Each (fun session input => session.EndsWait input → ¬ session.timerArmed)
        (start url backoff) inputs := by
  constructor
  · exact Always.each fun _ _ _ hafter => TimerInPlace.not_armed hafter
  · exact Always.of_each (fun _ _ hplace => TimerInPlace.take hplace) (by simp [start])

/-- A late report ends a wait and leaves its timer, which not even disconnecting stops then; so does
a loss in the wait for the last attempt. -/
theorem timer_outlives_wait :
    let reported : List (Input Unit) := [.signal .connect, .signal .streamLost, .signal .opened]
    let lost : List (Input Unit) := [.signal .connect, .signal .streamLost, .signal .streamLost]
    let late : Session Unit := (start "/events" .default).run reported
    let hasty : Session Unit := (start "/events" ⟨.ofMillis 250, 1⟩).run lost
    (late.timerArmed ∧ late.client.isConnected) ∧
      ((late.take (.signal .disconnect)).timerArmed ∧
        (late.take (.signal .disconnect)).client.connection = .disconnected) ∧
      (hasty.timerArmed ∧ hasty.client.connection = .disconnected) := by
  decide

end Session

end EventContract.Client
