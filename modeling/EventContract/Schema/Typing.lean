import EventContract.Artifact
import EventContract.Consumption.Literal
import EventContract.Schema.Basic
import EventContract.Text.Lines
/-!
# Field types at both ends

Each field type has one type in the emission header and one in the consumption module. Values that
are restricted narrow the type of the consumption module to a union of literals; the header takes
any text.
-/

namespace EventContract

/-- A field type as written for one target. -/
structure TargetType where
  text : String
  /-- Parameters of the type are taken by constant reference. -/
  byReference : Bool
  deriving DecidableEq, Repr

/-- A parameter of the type in C++. -/
def TargetType.parameter (type : TargetType) (name : String) : String :=
  if type.byReference then "const " ++ type.text ++ "& " ++ name
  else type.text ++ " " ++ name

namespace FieldType

/-- The type in the emission header. -/
def inEmission : FieldType → TargetType
  | .number => ⟨"int", false⟩
  | .string => ⟨"std::string", true⟩
  | .boolean => ⟨"bool", false⟩
  | .numberList => ⟨"std::vector<int>", true⟩
  | .stringList => ⟨"std::vector<std::string>", true⟩
  | .object => ⟨"nlohmann::json", true⟩

/-- The type in the consumption module. -/
def inConsumption : FieldType → TargetType
  | .number => ⟨"number", false⟩
  | .string => ⟨"string", false⟩
  | .boolean => ⟨"boolean", false⟩
  | .numberList => ⟨"number[]", false⟩
  | .stringList => ⟨"string[]", false⟩
  | .object => ⟨"Record<string, unknown>", false⟩

/-- The type for a target. -/
def forTarget (type : FieldType) : Target → TargetType
  | .emission => type.inEmission
  | .consumption => type.inConsumption

end FieldType

namespace Field

/-- The type that allows exactly the given texts. -/
def literalUnion (values : List String) : TargetType :=
  ⟨Text.joined " | " (values.map Consumption.literal), false⟩

/-- The type of a field for a target. -/
def typeFor (field : Field) : Target → TargetType
  | .emission => field.type.inEmission
  | .consumption =>
    match field.allowed with
    | some (value :: more) => literalUnion (value :: more)
    | _ => field.type.inConsumption

end Field

end EventContract
