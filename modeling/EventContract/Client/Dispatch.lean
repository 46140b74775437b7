import EventContract.Client.Registry
/-!
# Dispatching events

Dispatching an event calls the callbacks registered for it and then those registered for every
event, each group in the order of registration. A callback may itself register, take back and
dispatch while it runs; which callbacks a dispatch calls is settled when it starts, so what a
callback changes counts from the next dispatch on.

What a callback does is a `Reaction`: request after request to the registry, each chosen with the
earlier answers in hand. Callbacks may also share a state. Nested dispatches are bounded by a depth,
beyond which there is no result.
-/

namespace EventContract.Client

/-- What a running callback asks of the registry. -/
inductive Request (κ π : Type) where
  | on (event : String) (callback : κ)
  | onAll (callback : κ)
  | off (event : String) (id : Nat)
  | offAll (id : Nat)
  | dispatch (event : String) (payload : π)
  | count (event : String)
  | wildcardCount
  | summary

/-- What the registry answers. -/
inductive Answer where
  /-- The number of a new registration. -/
  | registered (id : Nat)
  /-- Whether there was a registration to take back. -/
  | removed (found : Bool)
  /-- The number to take back was never given out. -/
  | unknownId
  /-- How many callbacks were called, or are registered. -/
  | number (n : Nat)
  | text (shown : String)
  deriving DecidableEq, Repr

/-- One call of a callback. -/
structure Call (κ π : Type) where
  id : Nat
  callback : κ
  /-- The callback is registered for every event. -/
  wildcard : Bool
  event : String
  payload : π

/-- What a callback does: it leaves the shared state as given and is done, or it asks something and
goes on with the answer and the state it finds then. -/
inductive Reaction (κ π σ : Type) where
  | done (state : σ)
  | ask (state : σ) (request : Request κ π) (resume : Answer → σ → Reaction κ π σ)

/-- What every callback does when it is called. -/
abbrev Behaviour (κ π σ : Type) := Call κ π → σ → Reaction κ π σ

/-- What happened during dispatches. The level counts the dispatches around it. -/
inductive Happening (κ π : Type) where
  | called (level : Nat) (call : Call κ π)
  | answered (level : Nat) (request : Request κ π) (answer : Answer)

/-- The registry and the shared state during a dispatch, and what has happened, in order. -/
structure Run (κ π σ : Type) where
  registry : Registry κ
  state : σ
  log : Array (Happening κ π)

namespace Run

variable {κ π σ : Type}

/-- A further thing that happened. -/
def record (run : Run κ π σ) (happening : Happening κ π) : Run κ π σ :=
  { run with log := run.log.push happening }

/-- The registry changed by a registration. -/
def register (run : Run κ π σ) (change : Nat × Registry κ) : Answer × Run κ π σ :=
  (.registered change.1, { run with registry := change.2 })

/-- The registry changed by taking back a registration of the given number. -/
def takeBack (run : Run κ π σ) (id : Nat) (change : Bool × Registry κ) : Answer × Run κ π σ :=
  if run.registry.hasIssued id then (.removed change.1, { run with registry := change.2 })
  else (.unknownId, run)

/-- Does what is asked, with a way to dispatch given. -/
def perform (dispatch : String → π → Run κ π σ → Option (Nat × Run κ π σ)) (run : Run κ π σ) :
    Request κ π → Option (Answer × Run κ π σ)
  | .on event callback => some (run.register (run.registry.on event callback))
  | .onAll callback => some (run.register (run.registry.onAll callback))
  | .off event id => some (run.takeBack id (run.registry.off event id))
  | .offAll id => some (run.takeBack id (run.registry.offAll id))
  | .dispatch event payload =>
    (dispatch event payload run).map fun (called, run) => (.number called, run)
  | .count event => some (.number (run.registry.count event), run)
  | .wildcardCount => some (.number run.registry.wildcardCount, run)
  | .summary => some (.text run.registry.summary, run)

/-- Follows a reaction to its end. -/
def follow (dispatch : String → π → Run κ π σ → Option (Nat × Run κ π σ)) (level : Nat) :
    Reaction κ π σ → Run κ π σ → Option (Run κ π σ)
  | .done state, run => some { run with state }
  | .ask state request resume, run => do
    let (answer, run) ← perform dispatch { run with state } request
    follow dispatch level (resume answer run.state) (run.record (.answered level request answer))

/-- The calls that dispatching an event makes, settled from the registry as it stands. -/
def dueCalls (registry : Registry κ) (event : String) (payload : π) : List (Call κ π) :=
  (registry.specific event).map (fun (id, callback) => ⟨id, callback, false, event, payload⟩) ++
    registry.wildcard.map fun (id, callback) => ⟨id, callback, true, event, payload⟩

/-- Dispatches an event with at most `depth` dispatches one inside the other, and gives the number
of callbacks called. -/
def dispatch (behaviour : Behaviour κ π σ) :
    Nat → Nat → String → π → Run κ π σ → Option (Nat × Run κ π σ)
  | 0, _, _, _, _ => none
  | depth + 1, level, event, payload, run => do
    let due := dueCalls run.registry event payload
    let run ← due.foldlM
      (fun run call =>
        follow (dispatch behaviour depth (level + 1)) level (behaviour call run.state)
          (run.record (.called level call)))
      run
    return (due.length, run)

end Run

end EventContract.Client
