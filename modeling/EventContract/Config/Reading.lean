import EventContract.Config.Basic
import EventContract.Toml.Reader
/-!
# Configurations from TOML

A configuration file has four tables of settings. A name it does not know or a value of another kind
makes the whole file invalid. Wherever a table of settings is due, its values may also be given as
an array, in the order in which they are listed here; values beyond the last setting are passed
over.
-/

namespace EventContract.Config

open Toml

/-- A group of settings and what is set in it; none if it is not well-formed. -/
abbrev Setter := Value → Config → Option Config

def asText : Value → Option String
  | .string text => some text
  | _ => none

/-- An integer below a bound that is not negative. -/
def asNatural (bound : Nat) : Value → Option Nat
  | .integer n => if 0 ≤ n && n < bound then some n.toNat else none
  | _ => none

/-- A value without parts. -/
def isEmptyValue : Value → Bool
  | .array items => items.isEmpty
  | .table _ members => members.isEmpty
  | _ => false

def guardOfWord? (word : String) : Option Emission.Guard :=
  if word = "pragma-once" then some .pragmaOnce
  else if word = "macro" then some .defined
  else none

/-- A kind of guard: a word, or a table with the word as its only key and nothing under it. -/
def asGuard : Value → Option Emission.Guard
  | .string word => guardOfWord? word
  | .table _ [(word, value)] => if isEmptyValue value then guardOfWord? word else none
  | _ => none

/-- Settings by name, from a table or in order from an array. -/
def readGroup (setters : List (String × Setter)) : Setter
  | .table _ members, config =>
    members.foldlM
      (fun config (name, value) => do
        let setter ← Table.get? setters name
        setter value config)
      config
  | .array values, config =>
    (setters.zip values).foldlM (fun config ((_, setter), value) => setter value config) config
  | .tables tables, config =>
    (setters.zip tables).foldlM
      (fun config ((_, setter), members) => setter (.table .opened members) config) config
  | _, _ => none

def outputSettings : List (String × Setter) :=
  [("dir", fun v c => (asText v).map fun s => { c with outputDirectory := some s })]

def emissionSettings : List (String × Setter) :=
  [("output_name", fun v c => (asText v).map fun s => { c with emissionName := some s }),
    ("namespace", fun v c => (asText v).map fun s => { c with enclosing := some s }),
    ("transport_include", fun v c => (asText v).map fun s => { c with transportInclude := some s }),
    ("json_include", fun v c => (asText v).map fun s => { c with jsonInclude := some s }),
    ("guard", fun v c => (asGuard v).map fun g => { c with guard := some g })]

def consumptionSettings : List (String × Setter) :=
  [("output_name", fun v c => (asText v).map fun s => { c with consumptionName := some s }),
    ("config_module", fun v c => (asText v).map fun s => { c with configModule := some s }),
    ("base_url_symbol", fun v c => (asText v).map fun s => { c with baseUrlSymbol := some s })]

def clientSettings : List (String × Setter) :=
  [("base_delay_ms", fun v c =>
      (asNatural UInt64.size v).map fun n => { c with baseDelayMillis := some (UInt64.ofNat n) }),
    ("max_attempts", fun v c =>
      (asNatural UInt32.size v).map fun n => { c with maxAttempts := some (UInt32.ofNat n) })]

def groups : List (String × Setter) :=
  [("output", readGroup outputSettings), ("emission", readGroup emissionSettings),
    ("consumption", readGroup consumptionSettings), ("client", readGroup clientSettings)]

def ofText? (text : String) : Option Config := do
  let members ← Toml.read text
  readGroup groups (.table .opened members) empty

end EventContract.Config
