import Kql.Text.Blank

/-!
The scalar types of the query language and their names.
-/

namespace Kql

inductive ScalarType where
  | string
  | int
  | long
  | real
  | decimal
  | bool
  | datetime
  | timespan
  | guid
  | dynamic
deriving DecidableEq

namespace ScalarType

def name : ScalarType → String
  | string => "string"
  | int => "int"
  | long => "long"
  | real => "real"
  | decimal => "decimal"
  | bool => "bool"
  | datetime => "datetime"
  | timespan => "timespan"
  | guid => "guid"
  | dynamic => "dynamic"

/-- The type of a name in lower case. Some types have synonyms. -/
def ofLowerCase? : String → Option ScalarType
  | "string" => some string
  | "int" => some int
  | "long" => some long
  | "real" | "double" => some real
  | "decimal" => some decimal
  | "bool" | "boolean" => some bool
  | "datetime" | "date" => some datetime
  | "timespan" | "time" => some timespan
  | "guid" | "uuid" | "uniqueid" => some guid
  | "dynamic" => some dynamic
  | _ => none

/-- The type of a name. White space around the name and the case of its ASCII letters do not
matter. -/
def ofName? (name : String) : Option ScalarType :=
  ofLowerCase? (String.ofList ((Text.trim name).toList.map Char.toLower))

end ScalarType
end Kql
