import EventContract.Consumption.Script
/-!
# The connection logic of the generated client

The state machine that every consumption module carries, as a script: from a state and a signal to
the next state and the effects to perform.
-/

namespace EventContract.Consumption

open Expression Statement

def kindOnly (kind : String) : Expression :=
  record [("kind", text kind)]

def outcome (state : Expression) (effects : List Expression) : Statement :=
  returns (record [("state", state), ("effects", list effects)])

/-- The condition that the current state is of a kind. -/
def stateIs (kind : String) : Expression :=
  binary .equal (member (name "state") "kind") (text kind)

/-- The condition that the signal is the given one. -/
def signalIs (signal : String) : Expression :=
  binary .equal (name "signal") (text signal)

/-- The states without an attempt. -/
def restingStates : List Constant :=
  [⟨"IDLE", "ConnectionState", kindOnly "idle"⟩,
    ⟨"CONNECTED", "ConnectionState", kindOnly "connected"⟩,
    ⟨"DISCONNECTED", "ConnectionState", kindOnly "disconnected"⟩]

/-- How long to wait before a retry. -/
def retryDelayFunction : Function where
  doc := some "Delay before retry number `attempt` (starting at 1)."
  exported := true
  name := "retryDelayMs"
  parameters := [("policy", "BackoffPolicy"), ("attempt", "number")]
  result := "number"
  body :=
    [returns (binary .times (member (name "policy") "baseDelayMs")
      (binary .power (number 2) (binary .minus (name "attempt") (number 1))))]

/-- What to do about a lost stream: retry, or give up. -/
def retryFunction : Function where
  doc := none
  exported := false
  name := "retry"
  parameters := [("attempt", "number"), ("policy", "BackoffPolicy")]
  result := "Transition"
  body :=
    [when (binary .greater (name "attempt") (member (name "policy") "maxAttempts"))
      [outcome (name "DISCONNECTED") [kindOnly "closeStream", kindOnly "gaveUp"]],
      outcome (record [("kind", text "reconnecting"), ("attempt", name "attempt")])
        [kindOnly "closeStream",
          record [("kind", text "scheduleRetry"), ("attempt", name "attempt"),
            ("delayMs", call "retryDelayMs" [name "policy", name "attempt"])]]]

def transitionFunction : Function where
  doc := some "Next state and the effects to perform, for one signal."
  exported := true
  name := "transition"
  parameters := [("state", "ConnectionState"), ("signal", "ConnectionSignal"),
    ("policy", "BackoffPolicy")]
  result := "Transition"
  body :=
    [when (signalIs "disconnect")
      [when (stateIs "disconnected") [outcome (name "state") []],
        when (stateIs "reconnecting")
          [outcome (name "DISCONNECTED") [kindOnly "cancelRetry", kindOnly "closeStream"]],
        outcome (name "DISCONNECTED") [kindOnly "closeStream"]],
      when (signalIs "connect")
        [when (binary .or (stateIs "idle") (stateIs "disconnected"))
          [outcome (name "IDLE") [kindOnly "openStream"]],
          outcome (name "state") []],
      when (signalIs "opened")
        [note "A stream that finished opening after teardown.",
          when (stateIs "disconnected") [outcome (name "state") [kindOnly "closeStream"]],
          outcome (name "CONNECTED") []],
      when (signalIs "streamLost")
        [when (binary .or (stateIs "idle") (stateIs "connected"))
          [returns (call "retry" [number 1, name "policy"])],
          when (stateIs "reconnecting")
            [returns (call "retry"
              [binary .plus (member (name "state") "attempt") (number 1), name "policy"])],
          outcome (name "state") []],
      when (stateIs "reconnecting") [outcome (name "state") [kindOnly "openStream"]],
      outcome (name "state") []]

def connectionScript : Script :=
  ⟨restingStates, [retryDelayFunction, retryFunction, transitionFunction]⟩

end EventContract.Consumption
