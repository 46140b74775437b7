import EventContract.Consumption.Literal
import EventContract.Text.Lines
/-!
# Scripts

The part of TypeScript that the consumption module's connection logic is written in: expressions
over records and lists, blocks of conditions and returns, constants and functions. A script is a
value, so that it can be evaluated as well as written out.

The written form breaks a record, a list or a parameter list into lines exactly where it does not
fit into 100 columns, and puts parentheses only where the operators need them.
-/

namespace EventContract.Consumption

/-- A binary operator. -/
inductive Operator where
  | or
  | equal
  | greater
  | plus
  | minus
  | times
  | power
  deriving DecidableEq, Repr

namespace Operator

def symbol : Operator → String
  | .or => "||"
  | .equal => "==="
  | .greater => ">"
  | .plus => "+"
  | .minus => "-"
  | .times => "*"
  | .power => "**"

/-- How tightly an operator binds. -/
def strength : Operator → Nat
  | .or => 1
  | .equal => 2
  | .greater => 3
  | .plus => 4
  | .minus => 4
  | .times => 5
  | .power => 6

/-- The least strength that the left operand may have without parentheses. -/
def leftStrength : Operator → Nat
  | .power => 7
  | op => op.strength

/-- The least strength that the right operand may have without parentheses. -/
def rightStrength : Operator → Nat
  | .power => 6
  | op => op.strength + 1

end Operator

/-- An expression. -/
inductive Expression where
  | name (identifier : String)
  | text (value : String)
  | number (value : Nat)
  | member (of : Expression) (key : String)
  | binary (op : Operator) (left right : Expression)
  | call (function : String) (arguments : List Expression)
  | record (members : List (String × Expression))
  | list (items : List Expression)

/-- A statement. -/
inductive Statement where
  | note (text : String)
  | returns (value : Expression)
  | when (condition : Expression) (body : List Statement)

/-- A constant with its type. -/
structure Constant where
  name : String
  type : String
  value : Expression

/-- A function, with its comment if it has one. -/
structure Function where
  doc : Option String
  exported : Bool
  name : String
  /-- The parameters with their types. -/
  parameters : List (String × String)
  result : String
  body : List Statement

/-- Constants and functions. A function calls only those before it. -/
structure Script where
  constants : List Constant
  functions : List Function

def lineWidth : Nat := 100

def margin (level : Nat) : String :=
  String.ofList (List.replicate (2 * level) ' ')

namespace Expression

/-- How tightly the outermost part of an expression binds. -/
def strength : Expression → Nat
  | .binary op _ _ => op.strength
  | _ => 10

mutual

def flat : Expression → String
  | .name identifier => identifier
  | .text value => literal value
  | .number value => toString value
  | .member of key => flat of ++ "." ++ key
  | .binary op left right =>
    (if left.strength < op.leftStrength then "(" ++ flat left ++ ")" else flat left) ++
      " " ++ op.symbol ++ " " ++
      (if right.strength < op.rightStrength then "(" ++ flat right ++ ")" else flat right)
  | .call function arguments => function ++ "(" ++ Text.joined ", " (flatItems arguments) ++ ")"
  | .record members => "\x7b " ++ Text.joined ", " (flatMembers members) ++ " \x7d"
  | .list items => "[" ++ Text.joined ", " (flatItems items) ++ "]"

def flatItems : List Expression → List String
  | [] => []
  | item :: rest => flat item :: flatItems rest

/-- Members of a record, each on one line. A variable under its own name is written once. -/
def flatMembers : List (String × Expression) → List String
  | [] => []
  | (key, value) :: rest =>
    (if flat value = key then key else key ++ ": " ++ flat value) :: flatMembers rest

end

def memberLead (key : String) (value : Expression) : String :=
  if value.flat = key then "" else key ++ ": "

mutual

/-- The expression between `lead` and `tail`, on one line if it fits there. -/
def laidOut (level : Nat) (lead : String) (value : Expression) (tail : String) : List String :=
  let line := margin level ++ lead ++ value.flat ++ tail
  if line.length ≤ lineWidth then [line]
  else match value with
    | .record members =>
      [margin level ++ lead ++ "\x7b"] ++ laidOutMembers (level + 1) members ++
        [margin level ++ "\x7d" ++ tail]
    | .list items =>
      [margin level ++ lead ++ "["] ++ laidOutItems (level + 1) items ++
        [margin level ++ "]" ++ tail]
    | _ => [line]

/-- The members of a broken record, each closed by a comma. -/
def laidOutMembers (level : Nat) : List (String × Expression) → List String
  | [] => []
  | (key, value) :: rest =>
    laidOut level (memberLead key value) value "," ++ laidOutMembers level rest

/-- The items of a broken list, each closed by a comma. -/
def laidOutItems (level : Nat) : List Expression → List String
  | [] => []
  | item :: rest => laidOut level "" item "," ++ laidOutItems level rest

end

end Expression

mutual

def Statement.lines (level : Nat) : Statement → List String
  | .note text => [margin level ++ "// " ++ text]
  | .returns value => value.laidOut level "return " ";"
  | .when condition body =>
    [margin level ++ "if (" ++ condition.flat ++ ") \x7b"] ++
      Statement.blockLines (level + 1) body ++ [margin level ++ "\x7d"]

def Statement.blockLines (level : Nat) : List Statement → List String
  | [] => []
  | statement :: rest => statement.lines level ++ Statement.blockLines level rest

end

def Constant.line (constant : Constant) : String :=
  "const " ++ constant.name ++ ": " ++ constant.type ++ " = " ++ constant.value.flat ++ ";"

namespace Function

def declarations (function : Function) : List String :=
  function.parameters.map fun (name, type) => name ++ ": " ++ type

def opening (function : Function) : List String :=
  let lead := (if function.exported then "export " else "") ++ "function " ++ function.name ++ "("
  let tail := "): " ++ function.result ++ " \x7b"
  let line := lead ++ Text.joined ", " function.declarations ++ tail
  if line.length ≤ lineWidth then [line]
  else [lead] ++ function.declarations.map (fun text => margin 1 ++ text ++ ",") ++ [tail]

/-- The lines of a function, and an empty one behind it. -/
def lines (function : Function) : List String :=
  (match function.doc with
    | none => []
    | some text => ["/** " ++ text ++ " */"]) ++
    function.opening ++ Statement.blockLines 1 function.body ++ ["\x7d", ""]

end Function

/-- The lines of a script: the constants, an empty line, and the functions. -/
def Script.lines (script : Script) : List String :=
  script.constants.map Constant.line ++ [""] ++ script.functions.flatMap Function.lines

end EventContract.Consumption
