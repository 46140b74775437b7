import EventContract.Client.Connection
import EventContract.Client.Dispatch
/-!
# A client of the event stream

A client ties the connection to a registry of callbacks. The stream and the timer belong to its
owner: each signal gives a list of things for the owner to do, in order, and an event reaches the
callbacks only while the client is connected.
-/

namespace EventContract.Client

/-- What the owner of a client has to do. -/
inductive Task where
  | openStream (url : String)
  | closeStream
  | schedule (delay : Duration)
  | cancelTimer
  deriving DecidableEq

/-- What an effect means for the owner. Giving up needs nothing done. -/
def Effect.tasks (url : String) : Effect → List Task
  | .openStream => [.openStream url]
  | .closeStream => [.closeStream]
  | .scheduleRetry _ delay => [.schedule delay]
  | .cancelRetry => [.cancelTimer]
  | .gaveUp => []

/-- A client with its callbacks. -/
structure Subscriber (κ : Type) where
  url : String
  backoff : Backoff
  connection : Connection
  registry : Registry κ

namespace Subscriber

variable {κ π σ : Type}

/-- A client that has not connected yet. -/
def new (url : String) (backoff : Backoff) : Subscriber κ :=
  ⟨url, backoff, .idle, .empty⟩

/-- The client counts as connected. -/
def isConnected (client : Subscriber κ) : Bool :=
  client.connection = .connected

/-- Takes in a signal. -/
def signal (client : Subscriber κ) (signal : Signal) : Subscriber κ × List Task :=
  let (connection, effects) := client.connection.next client.backoff signal
  ({ client with connection }, effects.flatMap (Effect.tasks client.url))

/-- Takes in an event of the stream, with callbacks that behave as given and share a state. Gives
the number of callbacks called, the client and the state after it, and what happened. -/
def receive (behaviour : Behaviour κ π σ) (depth : Nat) (client : Subscriber κ)
    (event : String) (payload : π) (state : σ) :
    Option (Nat × Subscriber κ × σ × Array (Happening κ π)) :=
  if client.isConnected then do
    let (called, run) ← Run.dispatch behaviour depth 0 event payload ⟨client.registry, state, #[]⟩
    return (called, { client with registry := run.registry }, run.state, run.log)
  else some (0, client, state, #[])

end Subscriber

end EventContract.Client
