/-!
JSON values. A number without fraction and exponent stays an integer as long as 64 bits hold it; any
other number is a double. The fields of an object are kept in ascending order of their names, one
field a name.
-/

namespace Kql

inductive Json where
  | null
  | bool (b : Bool)
  | integer (n : Int)
  | real (x : Float)
  | string (s : String)
  | array (items : List Json)
  | object (fields : List (String × Json))

namespace Json

/-- Adds a field at its place in ascending order. A field of the same name is replaced. -/
def insertField (name : String) (value : Json) : List (String × Json) → List (String × Json)
  | [] => [(name, value)]
  | (k, v) :: rest =>
    if name < k then (name, value) :: (k, v) :: rest
    else if name = k then (name, value) :: rest
    else (k, v) :: insertField name value rest

/-- The object of these fields, of which a later one replaces an earlier one of the same name. -/
def ofFields (fields : List (String × Json)) : Json :=
  .object (fields.foldl (fun sorted (name, value) => insertField name value sorted) [])

def field? (name : String) : Json → Option Json
  | .object fields => fields.lookup name
  | _ => none

def asString? : Json → Option String
  | .string s => some s
  | _ => none

end Json
end Kql
