import EventContract.Table
/-!
# TOML values

What a TOML text declares. A table remembers how it came about, because that decides what may be
added to it later: a table that was opened by its own header is complete once the next one begins, a
table that only appears on the way to another one may still be opened, a table made by dotted keys
grows by dotted keys, and an inline table is complete at once.
-/

namespace EventContract.Toml

/-- How a table came about. -/
inductive Making where
  /-- By a header of its own, or as the whole text. -/
  | opened
  /-- On the way to a table with a header. -/
  | implied
  /-- By keys with dots. -/
  | dotted
  /-- Between braces. -/
  | inline
  deriving DecidableEq, Repr

/-- A value. Numbers with a fraction, dates and times have none that matters here. -/
inductive Value where
  | string (text : String)
  | integer (value : Int)
  | float
  | boolean (value : Bool)
  | moment
  | array (items : List Value)
  | table (making : Making) (members : List (String × Value))
  /-- An array of tables, each opened by a header in double brackets. -/
  | tables (all : List (List (String × Value)))
  deriving Inhabited

/-- A table under construction. -/
structure Grown where
  making : Making
  members : Table Value

namespace Grown

def fresh (making : Making) : Grown := ⟨making, []⟩

def value (t : Grown) : Value := .table t.making t.members

/-- Changes the table that a path of keys leads to, making tables that are missing on the way. Keys
with dots may go only through tables that have no header. Through an array of tables the way leads
to its last one. -/
def change (dotted : Bool) (edit : Grown → Option Grown) (t : Grown) :
    List String → Option Grown
  | [] => edit t
  | key :: path =>
    let into (child : Grown) : Option Grown := change dotted edit child path
    match t.members.get? key with
    | none =>
      (into (fresh (if dotted then .dotted else .implied))).map fun child =>
        { t with members := t.members.put key child.value }
    | some (.table making members) =>
      if making = .inline || (dotted && making = .opened) then none
      else (into ⟨making, members⟩).map fun child =>
        { t with members := t.members.put key child.value }
    | some (.tables all) =>
      match all.reverse with
      | [] => none
      | last :: before =>
        (into ⟨.opened, last⟩).map fun child =>
          { t with members := t.members.put key (.tables (before.reverse ++ [child.members])) }
    | some _ => none

/-- A new member. A key is given once, and keys with dots add only to tables made by such keys. -/
def addMember (path : List String) (key : String) (value : Value) (t : Grown) : Option Grown :=
  t.change true
    (fun t =>
      if decide (t.making = .dotted) == path.isEmpty then none
      else if (t.members.get? key).isSome then none
      else some { t with members := t.members.put key value })
    path

/-- Opens a table by a header. One that is only implied so far becomes open. -/
def openTable (path : List String) (key : String) (t : Grown) : Option Grown :=
  t.change false
    (fun t =>
      match t.members.get? key with
      | none => some { t with members := t.members.put key (.table .opened []) }
      | some (.table .implied members) =>
        some { t with members := t.members.put key (.table .opened members) }
      | some _ => none)
    path

/-- Opens a further table of an array of tables. -/
def openTables (path : List String) (key : String) (t : Grown) : Option Grown :=
  t.change false
    (fun t =>
      match t.members.get? key with
      | none => some { t with members := t.members.put key (.tables [[]]) }
      | some (.tables all) => some { t with members := t.members.put key (.tables (all ++ [[]])) }
      | some _ => none)
    path

end Grown

end EventContract.Toml
