import EventContract.Proofs.ClientSession

/-! # The stream that a client owns

A client asks its owner to open and to close streams. Streams are opened one at a time as long as
nobody connects twice in a row, and a client that says it is connected has a live stream as long as
no stream is reported open after it was closed for another attempt.
-/

namespace EventContract.Client

variable {tasks more : List Task} {url : String}

/-! ## Openings and closings among tasks -/

/-- A stream was opened and has not been closed since. -/
def StreamLive (tasks : List Task) : Prop :=
  ∃ before url after, tasks = before ++ .openStream url :: after ∧ .closeStream ∉ after

/-- Between any two openings there is a closing. -/
def OneAtATime (tasks : List Task) : Prop :=
  ∀ before first between second after,
    tasks = before ++ .openStream first :: (between ++ .openStream second :: after) →
      .closeStream ∈ between

/-- An opening among some tasks and more of them is among either. -/
theorem opening_of_append {before after : List Task}
    (h : tasks ++ more = before ++ .openStream url :: after) :
    (∃ rest, tasks = before ++ .openStream url :: rest ∧ after = rest ++ more) ∨
      ∃ rest, before = tasks ++ rest ∧ more = rest ++ .openStream url :: after := by
  rcases List.append_eq_append_iff.mp h with ⟨rest, hbefore, hmore⟩ | ⟨rest, htasks, hafter⟩
  · exact .inr ⟨rest, hbefore, hmore⟩
  · cases rest with
    | nil => exact .inr ⟨[], by simpa using htasks.symm, by simpa using hafter.symm⟩
    | cons task rest =>
        obtain ⟨rfl, rfl⟩ := List.cons.inj hafter
        exact .inl ⟨rest, htasks, rfl⟩

theorem not_opens_append {before after : List Task} (hmore : ∀ task ∈ more, task.opens = false) :
    more ≠ before ++ .openStream url :: after := by
  rintro rfl
  cases hmore (.openStream url) (by simp)

theorem streamLive_append_open (tasks : List Task) (url : String) :
    StreamLive (tasks ++ [.openStream url]) :=
  ⟨tasks, url, [], rfl, by simp⟩

theorem not_streamLive_nil : ¬ StreamLive [] := by
  rintro ⟨before, url, after, heq, -⟩
  simp at heq

theorem not_streamLive_append_close (tasks : List Task) (hclose : .closeStream ∈ more)
    (hmore : ∀ task ∈ more, task.opens = false) : ¬ StreamLive (tasks ++ more) := by
  rintro ⟨before, url, after, heq, hafter⟩
  rcases opening_of_append heq with ⟨rest, -, rfl⟩ | ⟨rest, -, hopening⟩
  · exact hafter (List.mem_append_right rest hclose)
  · exact not_opens_append hmore hopening

/-- No opening comes upon a stream that is live. -/
theorem oneAtATime_iff : OneAtATime tasks ↔
    ∀ before url after, tasks = before ++ .openStream url :: after → ¬ StreamLive before := by
  constructor
  · rintro h _ second after heq ⟨before, first, between, rfl, hbetween⟩
    exact hbetween (h before first between second after (by simpa using heq))
  · intro h before first between second after heq
    by_contra hclose
    exact h (before ++ .openStream first :: between) second after (by simpa using heq)
      ⟨before, first, between, rfl, hclose⟩

theorem oneAtATime_append_open :
    OneAtATime (tasks ++ [.openStream url]) ↔ OneAtATime tasks ∧ ¬ StreamLive tasks := by
  simp only [oneAtATime_iff]
  constructor
  · intro h
    exact ⟨fun before url' after heq => h before url' (after ++ [.openStream url]) (by simp [heq]),
      h tasks url [] rfl⟩
  · rintro ⟨h, hlive⟩ before url' after heq
    rcases opening_of_append heq with ⟨rest, htasks, -⟩ | ⟨rest, rfl, hopening⟩
    · exact h before url' rest htasks
    · obtain ⟨rfl, -, -⟩ : rest = [] ∧ _ := by
        simpa [List.singleton_eq_append_iff] using hopening
      simpa using hlive

theorem OneAtATime.append (h : OneAtATime tasks) (hmore : ∀ task ∈ more, task.opens = false) :
    OneAtATime (tasks ++ more) := by
  rw [oneAtATime_iff] at h ⊢
  intro before url after heq
  rcases opening_of_append heq with ⟨rest, htasks, -⟩ | ⟨rest, -, hopening⟩
  · exact h before url rest htasks
  · exact absurd hopening (not_opens_append hmore)

namespace Session

variable {κ : Type} {session : Session κ} {input : Input κ}

/-! ## At most one stream -/

/-- What holds while a client owns one stream at most. -/
structure OwnsOne (session : Session κ) : Prop where
  apart : OneAtATime session.tasks
  ended : session.client.connection = .disconnected → ¬ StreamLive session.tasks
  /-- The stream is closed while the timer runs, for the timer will open the next one. -/
  waiting : session.timerArmed → session.client.connection.isReconnecting →
    ¬ StreamLive session.tasks

theorem OwnsOne.of_closed (hapart : OneAtATime session.tasks)
    (hclosed : ¬ StreamLive session.tasks) : session.OwnsOne :=
  ⟨hapart, fun _ => hclosed, fun _ _ => hclosed⟩

/-- Effects that close the stream and open none leave a client without one. -/
theorem OwnsOne.moved_closing (howns : session.OwnsOne) (signal : Signal) (state : Connection)
    {effects : List Effect} (hclose : .closeStream ∈ effects) (hopen : .openStream ∉ effects) :
    (session.moved signal state effects).OwnsOne := by
  have htasks : ∀ task ∈ effects.flatMap (Effect.tasks session.client.url), task.opens = false := by
    intro task htask
    obtain ⟨effect, heffect, htask⟩ := List.mem_flatMap.mp htask
    cases effect with
    | openStream => exact absurd heffect hopen
    | closeStream => cases List.mem_singleton.mp htask; rfl
    | scheduleRetry => cases List.mem_singleton.mp htask; rfl
    | cancelRetry => cases List.mem_singleton.mp htask; rfl
    | gaveUp => cases htask
  apply of_closed
  · exact howns.apart.append htasks
  · exact not_streamLive_append_close _
      (List.mem_flatMap.mpr ⟨.closeStream, hclose, List.mem_singleton_self _⟩) htasks

theorem OwnsOne.take (howns : session.OwnsOne)
    (htimer : input = .signal .retryTimerFired → session.timerArmed)
    (hconnect : input = .signal .connect → session.client.connection = .idle →
      ¬ StreamLive session.tasks) : (session.take input).OwnsOne := by
  cases input with
  | callbacks registry => exact ⟨howns.apart, howns.ended, howns.waiting⟩
  | signal signal =>
      obtain ⟨state, effects, hmove, heq⟩ := session.exists_move signal
      rw [heq]
      generalize hbefore : session.client.connection = before at hmove hconnect
      cases hmove with
      | ignored hignores =>
          refine ⟨?_, ?_, ?_⟩
          · simpa [moved] using howns.apart
          · intro hover
            simpa [moved] using howns.ended (hbefore.trans hover)
          · intro harmed hwait
            rw [← hbefore] at hwait
            simpa [moved] using howns.waiting (Bool.and_eq_true_iff.mp harmed).1 hwait
      | opens hstate =>
          have hclosed : ¬ StreamLive session.tasks := by
            rcases hstate with rfl | rfl
            · exact hconnect rfl rfl
            · exact howns.ended hbefore
          exact ⟨oneAtATime_append_open.mpr ⟨howns.apart, hclosed⟩, by simp [moved],
            by simp [moved, Connection.isReconnecting]⟩
      | reopens =>
          have hclosed : ¬ StreamLive session.tasks :=
            howns.waiting (htimer rfl) (by rw [hbefore]; rfl)
          exact ⟨oneAtATime_append_open.mpr ⟨howns.apart, hclosed⟩, by simp [moved],
            by simp [moved, Effect.tasks, Task.setsTimer]⟩
      | connects hstate =>
          refine ⟨?_, by simp [moved], by simp [moved, Connection.isReconnecting]⟩
          simpa [moved] using howns.apart
      | late => exact howns.moved_closing _ _ (by simp) (by simp)
      | retries hstate hattempt => exact howns.moved_closing _ _ (by simp) (by simp)
      | givesUp hstate hattempt => exact howns.moved_closing _ _ (by simp) (by simp)
      | closes hstate => exact howns.moved_closing _ _ (by simp) (by simp)
      | cancels => exact howns.moved_closing _ _ (by simp) (by simp)

theorem OwnsOne.start (url : String) (backoff : Backoff) :
    (start url backoff : Session κ).OwnsOne :=
  of_closed (by simp [Session.start, OneAtATime]) not_streamLive_nil

/-- The timer expires only while it is armed. -/
def ExpiresArmed (session : Session κ) (input : Input κ) : Prop :=
  input = .signal .retryTimerFired → session.timerArmed

/-- Along every list of inputs in which the timer expires only while it is armed, streams are opened
one at a time, exactly if no caller connects anew while a first stream is opening. -/
theorem one_at_a_time_iff (url : String) (backoff : Backoff) (inputs : List (Input κ))
    (htimer : Each ExpiresArmed (start url backoff) inputs) :
    Always (fun session => OneAtATime session.tasks) (start url backoff) inputs ↔
      Each (fun session input => input = .signal .connect →
        session.client.connection = .idle → ¬ StreamLive session.tasks)
        (start url backoff) inputs := by
  constructor
  · apply Always.each
    rintro session input - hafter rfl hidle
    have htasks : (session.take (.signal .connect)).tasks =
        session.tasks ++ [.openStream session.client.url] := by
      simp [Session.take, Subscriber.signal, hidle, Connection.next, Effect.tasks]
    rw [htasks] at hafter
    exact (oneAtATime_append_open.mp hafter).2
  · intro hconnect
    have howns : Always OwnsOne (start url backoff) inputs :=
      Always.of_each (fun _ _ howns h => howns.take h.1 h.2) (OwnsOne.start url backoff)
        (htimer.and hconnect)
    exact howns.mono fun _ => OwnsOne.apart

/-- One stream after another: at the end of a wait, and anew after a disconnection. -/
theorem one_at_a_time_retrying :
    let inputs : List (Input Unit) := [.signal .connect, .signal .streamLost,
      .signal .retryTimerFired, .signal .disconnect, .signal .connect, .signal .opened]
    Each ExpiresArmed (start "/events" .default) inputs ∧
      Always (fun session => OneAtATime session.tasks) (start "/events" .default) inputs := by
  intro inputs
  have htimer : Each ExpiresArmed (start "/events" .default) inputs := by
    simp [inputs, Each, ExpiresArmed]
    rfl
  refine ⟨htimer, (one_at_a_time_iff _ _ _ htimer).mpr ?_⟩
  refine ⟨fun _ _ => not_streamLive_nil, ?_, ?_, ?_, fun _ hidle => ?_, ?_, trivial⟩
  · rintro ⟨⟩
  · rintro ⟨⟩
  · rintro ⟨⟩
  · cases hidle
  · rintro ⟨⟩

/-- Connecting twice opens two streams and closes none. -/
theorem two_streams_of_two_connects :
    let inputs : List (Input Unit) := [.signal .connect, .signal .connect]
    Each ExpiresArmed (start "/events" .default) inputs ∧
      ¬ OneAtATime ((start "/events" .default).run inputs).tasks := by
  refine ⟨by simp [Each, ExpiresArmed], fun h => ?_⟩
  have hclose := h [] "/events" [] "/events" [] rfl
  cases hclose

/-! ## Being connected -/

/-- What holds while a client is connected to nothing but a live stream. -/
structure FollowsStream (session : Session κ) : Prop where
  connected : session.client.connection = .connected → StreamLive session.tasks
  /-- An idle client has a stream opening, or has never asked for one. -/
  idle : session.client.connection = .idle →
    StreamLive session.tasks ∨ session.tasks.countP Task.opens = 0

theorem FollowsStream.of_live (hlive : StreamLive session.tasks) : session.FollowsStream :=
  ⟨fun _ => hlive, fun _ => .inl hlive⟩

theorem FollowsStream.of_resting (hconnected : session.client.connection ≠ .connected)
    (hidle : session.client.connection ≠ .idle) : session.FollowsStream :=
  ⟨fun h => absurd h hconnected, fun h => absurd h hidle⟩

theorem FollowsStream.take (hfollows : session.FollowsStream)
    (hreport : input = .signal .opened → session.reported < session.tasks.countP Task.opens)
    (hlive : input = .signal .opened → session.client.connection.isReconnecting →
      StreamLive session.tasks) : (session.take input).FollowsStream := by
  cases input with
  | callbacks registry => exact ⟨hfollows.connected, hfollows.idle⟩
  | signal signal =>
      obtain ⟨state, effects, hmove, heq⟩ := session.exists_move signal
      rw [heq]
      generalize hbefore : session.client.connection = before at hmove hlive
      cases hmove with
      | ignored hignores =>
          refine ⟨fun hconnected => ?_, fun hidle => ?_⟩
          · simpa [moved] using hfollows.connected (hbefore.trans hconnected)
          · simpa [moved] using hfollows.idle (hbefore.trans hidle)
      | opens hstate => exact .of_live (streamLive_append_open session.tasks _)
      | reopens => exact .of_live (streamLive_append_open session.tasks _)
      | connects hstate =>
          have hopen : StreamLive session.tasks := by
            cases before with
            | idle =>
                refine (hfollows.idle hbefore).resolve_right fun hnone => ?_
                have hsome := hreport rfl
                omega
            | connected => exact hfollows.connected hbefore
            | reconnecting attempt => exact hlive rfl rfl
            | disconnected => exact absurd rfl hstate
          exact .of_live (by simpa [moved] using hopen)
      | late => exact .of_resting (by simp [moved]) (by simp [moved])
      | retries hstate hattempt => exact .of_resting (by simp [moved]) (by simp [moved])
      | givesUp hstate hattempt => exact .of_resting (by simp [moved]) (by simp [moved])
      | closes hstate => exact .of_resting (by simp [moved]) (by simp [moved])
      | cancels => exact .of_resting (by simp [moved]) (by simp [moved])

theorem FollowsStream.start (url : String) (backoff : Backoff) :
    (start url backoff : Session κ).FollowsStream :=
  ⟨fun hconnected => (by cases hconnected), fun _ => .inr rfl⟩

/-- A stream is reported open at most once, at whatever time after it was opened. -/
def ReportsOnce (session : Session κ) (input : Input κ) : Prop :=
  input = .signal .opened → session.reported < session.tasks.countP Task.opens

/-- Along every list of inputs in which streams are reported open at most once each, a client that
says it is connected has a live stream, exactly if no report comes for a closed stream while the
client waits to open the next one. -/
theorem connected_live_iff (url : String) (backoff : Backoff) (inputs : List (Input κ))
    (hreport : Each ReportsOnce (start url backoff) inputs) :
    Always (fun session => session.client.isConnected → StreamLive session.tasks)
        (start url backoff) inputs ↔
      Each (fun session input => input = .signal .opened →
        session.client.connection.isReconnecting → StreamLive session.tasks)
        (start url backoff) inputs := by
  constructor
  · apply Always.each
    rintro session input - hafter rfl hwait
    cases hbefore : session.client.connection with
    | idle => simp [hbefore, Connection.isReconnecting] at hwait
    | connected => simp [hbefore, Connection.isReconnecting] at hwait
    | disconnected => simp [hbefore, Connection.isReconnecting] at hwait
    | reconnecting attempt =>
        simpa [Session.take, Subscriber.signal, Subscriber.isConnected_iff, hbefore,
          Connection.next] using hafter
  · intro hlive
    have hfollows : Always FollowsStream (start url backoff) inputs :=
      Always.of_each (fun _ _ hfollows h => hfollows.take h.1 h.2) (FollowsStream.start url backoff)
        (hreport.and hlive)
    exact hfollows.mono fun _ h hconnected => h.connected (Subscriber.isConnected_iff.mp hconnected)

/-- A report that comes late, for a stream given up before the one that is opening, and one for a
stream opened at the end of a wait. -/
theorem connected_live_reconnecting :
    let inputs : List (Input Unit) := [.signal .connect, .signal .disconnect, .signal .connect,
      .signal .opened, .signal .streamLost, .signal .retryTimerFired, .signal .opened]
    Each ReportsOnce (start "/events" .default) inputs ∧
      Always (fun session => session.client.isConnected → StreamLive session.tasks)
        (start "/events" .default) inputs := by
  intro inputs
  have hreport : Each ReportsOnce (start "/events" .default) inputs := by
    simp [inputs, Each, ReportsOnce]
    decide
  refine ⟨hreport, (connected_live_iff _ _ _ hreport).mpr ?_⟩
  refine ⟨?_, ?_, ?_, fun _ hwait => ?_, ?_, ?_, fun _ _ => ?_, trivial⟩
  · rintro ⟨⟩
  · rintro ⟨⟩
  · rintro ⟨⟩
  · cases hwait
  · rintro ⟨⟩
  · rintro ⟨⟩
  · exact streamLive_append_open _ _

/-- A report of a stream that was lost before it came connects the client to nothing. -/
theorem connected_to_closed_stream :
    let inputs : List (Input Unit) := [.signal .connect, .signal .streamLost, .signal .opened]
    Each ReportsOnce (start "/events" .default) inputs ∧
      ((start "/events" .default).run inputs).client.isConnected ∧
      ¬ StreamLive ((start "/events" .default).run inputs).tasks := by
  refine ⟨by simp [Each, ReportsOnce]; decide, rfl, ?_⟩
  have htasks : ((start "/events" .default : Session Unit).run
      [.signal .connect, .signal .streamLost, .signal .opened]).tasks =
        [.openStream "/events"] ++ [.closeStream, .schedule (Backoff.default.delay 1)] := by
    decide
  rw [htasks]
  exact not_streamLive_append_close _ (by simp) (by simp [Task.opens])

end Session

end EventContract.Client
