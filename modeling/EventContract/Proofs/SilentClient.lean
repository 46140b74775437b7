import EventContract.Proofs.ClientSession
import EventContract.Proofs.RegistrationLog

/-! # The silence of a client that is done

A client is done when it is told to disconnect and when it gives up. Signals, events and changes of
callbacks may still reach it, late or out of order: until it is told to connect again it opens no
stream, sets no timer and calls no callback, and all it asks for is that streams reported open late
are closed.
-/

namespace EventContract.Client

variable {κ π σ : Type}

/-! ## The life of a client -/

/-- What is done to a client. -/
inductive Act (κ π : Type) where
  | signal (signal : Signal)
  | change (change : Change κ)
  | receive (event : String) (payload : π)

namespace Act

/-- An event is delivered. -/
def delivers : Act κ π → Bool
  | .receive _ _ => true
  | _ => false

/-- A stream is reported open. -/
def reportsOpen : Act κ π → Bool
  | .signal .opened => true
  | _ => false

end Act

/-- A client with what is seen of it: the state that its callbacks share, the tasks it gave, how
many callbacks it called for each event delivered, and what these did. -/
structure Life (κ π σ : Type) where
  client : Subscriber κ
  state : σ
  tasks : List Task
  called : List Nat
  happenings : Array (Happening κ π)

namespace Life

/-- The life after an act, with callbacks that behave as given. -/
def act (behaviour : Behaviour κ π σ) (depth : Nat) (life : Life κ π σ) :
    Act κ π → Option (Life κ π σ)
  | .signal signal =>
    let (client, tasks) := life.client.signal signal
    some { life with client, tasks := life.tasks ++ tasks }
  | .change change =>
    let (_, registry) := life.client.registry.change change
    some { life with client := { life.client with registry } }
  | .receive event payload => do
    let (called, client, state, happenings) ←
      life.client.receive behaviour depth event payload life.state
    return { life with
      client, state
      called := life.called ++ [called]
      happenings := life.happenings ++ happenings }

/-- The life after one act after the other. -/
def live (behaviour : Behaviour κ π σ) (depth : Nat) (life : Life κ π σ)
    (acts : List (Act κ π)) : Option (Life κ π σ) :=
  acts.foldlM (act behaviour depth) life

/-- The client was done and has done nothing since but to have late streams closed, with as many
answers as events were delivered. -/
structure SilentSince (ended : Life κ π σ) (acts : List (Act κ π)) (later : Life κ π σ) :
    Prop where
  connection : later.client.connection = .disconnected
  tasks : later.tasks = ended.tasks ++ List.replicate (acts.countP Act.reportsOpen) .closeStream
  called : later.called = ended.called ++ List.replicate (acts.countP Act.delivers) 0
  state : later.state = ended.state
  happenings : later.happenings = ended.happenings

variable {life : Life κ π σ}

theorem SilentSince.cons {ended between later : Life κ π σ} {act : Act κ π} {acts : List (Act κ π)}
    (hfirst : ended.SilentSince [act] between) (hrest : between.SilentSince acts later) :
    ended.SilentSince (act :: acts) later where
  connection := hrest.connection
  tasks := by
    rw [hrest.tasks, hfirst.tasks, List.append_assoc, List.replicate_append_replicate,
      ← List.countP_append, List.singleton_append]
  called := by
    rw [hrest.called, hfirst.called, List.append_assoc, List.replicate_append_replicate,
      ← List.countP_append, List.singleton_append]
  state := hrest.state.trans hfirst.state
  happenings := hrest.happenings.trans hfirst.happenings

theorem disconnected_of_ending {backoff : Backoff} {connection : Connection} {ending : Signal}
    (hending : ending = .disconnect ∨ .gaveUp ∈ (connection.next backoff ending).2) :
    (connection.next backoff ending).1 = .disconnected := by
  rcases hending with rfl | hgaveUp
  · cases connection <;> rfl
  · exact Connection.disconnected_of_gaveUp hgaveUp

theorem signal_of_disconnected {client : Subscriber κ} (hended : client.connection = .disconnected)
    {signal : Signal} (hconnect : signal ≠ .connect) :
    client.signal signal = (client, if signal = .opened then [.closeStream] else []) := by
  obtain ⟨url, backoff, connection, registry⟩ := client
  cases hended
  cases signal with
  | connect => exact absurd rfl hconnect
  | opened | streamLost | retryTimerFired | disconnect => rfl

/-- A client that is done stays silent at every act that does not connect it. -/
theorem silentSince_act (behaviour : Behaviour κ π σ) (depth : Nat)
    (hended : life.client.connection = .disconnected) (act : Act κ π)
    (hconnect : act ≠ .signal .connect) :
    ∃ later, life.act behaviour depth act = some later ∧ life.SilentSince [act] later := by
  cases act with
  | signal signal =>
      have hsignal := signal_of_disconnected hended (mt (congrArg Act.signal) hconnect)
      refine ⟨{ life with tasks := life.tasks ++ if signal = .opened then [.closeStream] else [] },
        ?_, hended, ?_, ?_, rfl, rfl⟩
      · rw [Life.act, hsignal]
      · cases signal <;> rfl
      · simp [Act.delivers]
  | change change =>
      refine ⟨_, rfl, hended, ?_, ?_, rfl, rfl⟩
      · simp [Act.reportsOpen]
      · simp [Act.delivers]
  | receive event payload =>
      have hclosed : ¬ life.client.isConnected := by
        rw [Subscriber.isConnected_iff, hended]
        exact Connection.noConfusion
      refine ⟨{ life with called := life.called ++ [0] }, ?_, hended, ?_, rfl, rfl, rfl⟩
      · simp [Life.act, Subscriber.receive, hclosed]
      · simp [Act.reportsOpen]

theorem silentSince_live (behaviour : Behaviour κ π σ) (depth : Nat)
    (hended : life.client.connection = .disconnected) (acts : List (Act κ π))
    (hconnect : .signal .connect ∉ acts) :
    ∃ later, life.live behaviour depth acts = some later ∧ life.SilentSince acts later := by
  induction acts generalizing life with
  | nil => exact ⟨life, rfl, hended, by simp, by simp, rfl, rfl⟩
  | cons act acts ih =>
      obtain ⟨hact, hacts⟩ := not_or.mp (mt List.mem_cons.mpr hconnect)
      obtain ⟨between, hbetween, hfirst⟩ :=
        silentSince_act behaviour depth hended act (Ne.symm hact)
      obtain ⟨later, hlater, hrest⟩ := ih hfirst.connection hacts
      refine ⟨later, ?_, hfirst.cons hrest⟩
      rw [live, List.foldlM_cons, hbetween]
      exact hlater

/-- Whatever came before, once a client is told to disconnect or gives up it is silent until it is
told to connect. -/
theorem silent_after_end (behaviour : Behaviour κ π σ) (depth : Nat) (life : Life κ π σ)
    {ending : Signal} {acts : List (Act κ π)}
    (hending : ending = .disconnect ∨
      .gaveUp ∈ (life.client.connection.next life.client.backoff ending).2)
    (hconnect : .signal .connect ∉ acts) :
    ∃ ended later, life.act behaviour depth (.signal ending) = some ended ∧
      ended.live behaviour depth acts = some later ∧ ended.SilentSince acts later := by
  let ended : Life κ π σ := { life with
    client := (life.client.signal ending).1
    tasks := life.tasks ++ (life.client.signal ending).2 }
  have hended : ended.client.connection = .disconnected := disconnected_of_ending hending
  obtain ⟨later, hlater, hsilent⟩ := silentSince_live behaviour depth hended acts hconnect
  exact ⟨ended, later, rfl, hlater, hsilent⟩

/-- A client that has made its last attempt is silent whether it is told to disconnect or loses the
stream again, with an expiry, an opening, an event and a loss coming late. -/
theorem silent_after_last_attempt :
    let life : Life Unit Unit Nat :=
      ⟨⟨"/events", ⟨.ofMillis 250, 1⟩, .reconnecting 1, (Registry.empty.onAll ()).2⟩, 0,
        [.openStream "/events", .closeStream, .schedule (.ofMillis 250)], [], #[]⟩
    let acts : List (Act Unit Unit) :=
      [.signal .retryTimerFired, .signal .opened, .receive "saved" (), .signal .streamLost,
        .change (.register (some "saved") ())]
    let behaviour : Behaviour Unit Unit Nat := Run.quiet fun _ calls => calls + 1
    .signal .connect ∉ acts ∧
      .gaveUp ∈ (life.client.connection.next life.client.backoff .streamLost).2 ∧
      ∀ ending ∈ [Signal.disconnect, Signal.streamLost],
        ∃ ended later, life.act behaviour 1 (.signal ending) = some ended ∧
          ended.live behaviour 1 acts = some later ∧ ended.SilentSince acts later := by
  intro life acts behaviour
  have hconnect : .signal .connect ∉ acts := by simp [acts]
  have hgaveUp : .gaveUp ∈ (life.client.connection.next life.client.backoff .streamLost).2 := by
    decide
  refine ⟨hconnect, hgaveUp, fun ending hending => ?_⟩
  rcases List.mem_cons.mp hending with rfl | hending
  · exact silent_after_end behaviour 1 life (.inl rfl) hconnect
  · cases List.mem_singleton.mp hending
    exact silent_after_end behaviour 1 life (.inr hgaveUp) hconnect

end Life

end EventContract.Client
