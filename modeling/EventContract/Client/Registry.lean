import EventContract.Table
/-!
# Registered callbacks

A registry holds the callbacks of a client: those of single events, each event's in the order in
which they were registered, and those for every event. Each registration has a number of its own,
counted over both kinds, by which it is taken back.
-/

namespace EventContract.Client

/-- A registration: its number and the callback. -/
abbrev Registration (κ : Type) := Nat × κ

/-- The callbacks of a client. An event without callbacks has no entry. -/
structure Registry (κ : Type) where
  /-- How many numbers have been given out. -/
  issued : Nat
  byEvent : Table (List (Registration κ))
  wildcard : List (Registration κ)

namespace Registry

variable {κ : Type}

/-- Without callbacks. -/
def empty : Registry κ := ⟨0, [], []⟩

/-- The registrations for one event, in order. -/
def specific (registry : Registry κ) (event : String) : List (Registration κ) :=
  (registry.byEvent.get? event).getD []

/-- Registers a callback for one event. -/
def on (registry : Registry κ) (event : String) (callback : κ) : Nat × Registry κ :=
  let id := registry.issued + 1
  (id, { registry with
    issued := id
    byEvent := registry.byEvent.put event (registry.specific event ++ [(id, callback)]) })

/-- Registers a callback for every event. -/
def onAll (registry : Registry κ) (callback : κ) : Nat × Registry κ :=
  let id := registry.issued + 1
  (id, { registry with issued := id, wildcard := registry.wildcard ++ [(id, callback)] })

/-- The registrations but those of a number. -/
def without (id : Nat) (registrations : List (Registration κ)) : List (Registration κ) :=
  registrations.filter fun registration => registration.1 ≠ id

/-- Takes back a registration for one event; says whether there was one. -/
def off (registry : Registry κ) (event : String) (id : Nat) : Bool × Registry κ :=
  match registry.byEvent.get? event with
  | none => (false, registry)
  | some registrations =>
    let kept := without id registrations
    let byEvent :=
      if kept.isEmpty then registry.byEvent.remove event else registry.byEvent.put event kept
    (kept.length ≠ registrations.length, { registry with byEvent })

/-- Takes back a registration for every event; says whether there was one. -/
def offAll (registry : Registry κ) (id : Nat) : Bool × Registry κ :=
  let kept := without id registry.wildcard
  (kept.length ≠ registry.wildcard.length, { registry with wildcard := kept })

/-- Number of callbacks for one event; those for every event do not count. -/
def count (registry : Registry κ) (event : String) : Nat :=
  (registry.specific event).length

/-- Number of callbacks for every event. -/
def wildcardCount (registry : Registry κ) : Nat :=
  registry.wildcard.length

/-- The number was given to some registration, taken back or not. -/
def hasIssued (registry : Registry κ) (id : Nat) : Bool :=
  0 < id && id ≤ registry.issued

/-- The numbers of events with callbacks and of callbacks for every event, in words. -/
def summary (registry : Registry κ) : String :=
  "Subscriptions \x7b events: " ++ toString registry.byEvent.length ++ ", wildcard: " ++
    toString registry.wildcardCount ++ " \x7d"

end Registry

end EventContract.Client
