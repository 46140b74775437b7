import EventContract.Consumption.Script
import EventContract.Table
/-!
# Evaluating scripts

What the functions of a script compute, with exact integers for numbers. `Script.call` applies a
function to arguments; it has no result where a name is not bound, an operand is of another kind
than its operator needs, or a body ends without returning.

A function calls only functions that are declared before it, so evaluation follows the structure of
the script and needs no other bound.
-/

namespace EventContract.Consumption

/-- What an expression comes to. -/
inductive Value where
  | text (value : String)
  | number (value : Int)
  | truth (value : Bool)
  | record (members : List (String × Value))
  | list (items : List Value)
  deriving Inhabited

/-- Names and what they stand for. -/
abbrev Scope := Table Value

/-- What functions do, by name. -/
abbrev Callable := String → List Value → Option Value

/-- An operator on the values of both its operands. -/
def Operator.apply : Operator → Value → Value → Option Value
  | .equal, .text a, .text b => some (.truth (a = b))
  | .equal, .number a, .number b => some (.truth (a = b))
  | .greater, .number a, .number b => some (.truth (b < a))
  | .plus, .number a, .number b => some (.number (a + b))
  | .minus, .number a, .number b => some (.number (a - b))
  | .times, .number a, .number b => some (.number (a * b))
  | .power, .number a, .number b => if 0 ≤ b then some (.number (a.pow b.toNat)) else none
  | _, _, _ => none

def Value.member? : Value → String → Option Value
  | .record members, key => Table.get? members key
  | _, _ => none

namespace Expression

mutual

/-- The value of an expression. The right side of a disjunction counts only if the left one is
false. -/
def eval (calls : Callable) (scope : Scope) : Expression → Option Value
  | .name identifier => scope.get? identifier
  | .text value => some (.text value)
  | .number value => some (.number value)
  | .member of key => do (← eval calls scope of).member? key
  | .binary .or left right => do
    match ← eval calls scope left with
    | .truth true => return .truth true
    | .truth false => eval calls scope right
    | _ => none
  | .binary op left right => do op.apply (← eval calls scope left) (← eval calls scope right)
  | .call function arguments => do calls function (← evalItems calls scope arguments)
  | .record members => do return .record (← evalMembers calls scope members)
  | .list items => do return .list (← evalItems calls scope items)

def evalItems (calls : Callable) (scope : Scope) : List Expression → Option (List Value)
  | [] => some []
  | item :: rest => do
    let value ← eval calls scope item
    return value :: (← evalItems calls scope rest)

def evalMembers (calls : Callable) (scope : Scope) :
    List (String × Expression) → Option (List (String × Value))
  | [] => some []
  | (key, value) :: rest => do
    let result ← eval calls scope value
    return (key, result) :: (← evalMembers calls scope rest)

end

end Expression

/-- How a statement ends. -/
inductive Completion where
  | returned (value : Value)
  /-- The next statement is due. -/
  | passed

mutual

/-- Runs a statement. -/
def Statement.run (calls : Callable) (scope : Scope) : Statement → Option Completion
  | .note _ => some .passed
  | .returns value => (value.eval calls scope).map .returned
  | .when condition body =>
    match condition.eval calls scope with
    | some (.truth true) => Statement.runBlock calls scope body
    | some (.truth false) => some .passed
    | _ => none

/-- Runs statements up to the first one that returns. -/
def Statement.runBlock (calls : Callable) (scope : Scope) : List Statement → Option Completion
  | [] => some .passed
  | statement :: rest =>
    match statement.run calls scope with
    | some .passed => Statement.runBlock calls scope rest
    | other => other

end

/-- Applies a function: its parameters go before the constants of the same name. -/
def Function.apply (calls : Callable) (constants : Scope) (function : Function)
    (arguments : List Value) : Option Value :=
  if arguments.length ≠ function.parameters.length then none
  else
    let bound := (function.parameters.map Prod.fst).zip arguments
    match Statement.runBlock calls (bound ++ constants) function.body with
    | some (.returned value) => some value
    | _ => none

/-- What functions do, the last one declared first, each with those declared before it. -/
def callable (constants : Scope) : List Function → Callable
  | [], _, _ => none
  | function :: earlier, name, arguments =>
    if function.name = name then function.apply (callable constants earlier) constants arguments
    else callable constants earlier name arguments

/-- The values of constants, none of which calls a function. -/
def constantScope : Scope → List Constant → Option Scope
  | scope, [] => some scope
  | scope, constant :: rest => do
    let value ← constant.value.eval (fun _ _ => none) scope
    constantScope (scope.put constant.name value) rest

/-- Applies a function of a script to arguments. -/
def Script.call (script : Script) : Callable := fun name arguments => do
  let constants ← constantScope [] script.constants
  callable constants script.functions.reverse name arguments

end EventContract.Consumption
