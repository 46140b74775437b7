import EventContract.Client.Backoff
/-!
# The connection of a client

The state of a client's connection and what each signal does to it. `next` is a function from the
state and a signal to the next state and the effects that the client's owner has to perform; it
performs nothing itself.
-/

namespace EventContract.Client

/-- How a client stands to its stream. -/
inductive Connection where
  /-- Not connected yet; a stream may be opening. -/
  | idle
  | connected
  /-- The stream is lost; `attempt` counts the attempts to open it again. -/
  | reconnecting (attempt : UInt32)
  | disconnected
  deriving DecidableEq, Repr

/-- What reaches the connection. -/
inductive Signal where
  | connect
  | opened
  | streamLost
  | retryTimerFired
  | disconnect
  deriving DecidableEq, Repr

/-- What a transition asks for. -/
inductive Effect where
  | openStream
  | closeStream
  | scheduleRetry (attempt : UInt32) (delay : Duration)
  | cancelRetry
  | gaveUp
  deriving DecidableEq

namespace Connection

/-- The attempt after the given one; the count stops at its largest value. -/
def nextAttempt (attempt : UInt32) : UInt32 :=
  if attempt = 4294967295 then attempt else attempt + 1

/-- What a lost stream leads to when the given attempt is due: the attempt, or giving up. -/
def afterLoss (backoff : Backoff) (attempt : UInt32) : Connection × List Effect :=
  if backoff.maxAttempts < attempt then (disconnected, [.closeStream, .gaveUp])
  else (reconnecting attempt,
    [.closeStream, .scheduleRetry attempt (backoff.delay attempt)])

/-- The next state, and the effects to perform in order. -/
def next (backoff : Backoff) : Connection → Signal → Connection × List Effect
  | disconnected, .disconnect => (disconnected, [])
  | reconnecting _, .disconnect => (disconnected, [.cancelRetry, .closeStream])
  | _, .disconnect => (disconnected, [.closeStream])
  | idle, .connect => (idle, [.openStream])
  | disconnected, .connect => (idle, [.openStream])
  | state, .connect => (state, [])
  -- A stream that finished opening after it was given up.
  | disconnected, .opened => (disconnected, [.closeStream])
  | _, .opened => (connected, [])
  | idle, .streamLost => afterLoss backoff 1
  | connected, .streamLost => afterLoss backoff 1
  | reconnecting attempt, .streamLost => afterLoss backoff (nextAttempt attempt)
  | disconnected, .streamLost => (disconnected, [])
  | reconnecting attempt, .retryTimerFired => (reconnecting attempt, [.openStream])
  | state, .retryTimerFired => (state, [])

end Connection

end EventContract.Client
