import Kql.Error
import Kql.Schema.Basic

/-!
Schemas from JSON: an object of names and type names, or a list of objects each with a `name` and a
`type`.
-/

namespace Kql.Schema

def typeOfJson (given : Json) : Except Error ScalarType :=
  match given.asString? with
  | some name => ScalarType.named name
  | none => .error (.schema (.notTypeName given))

def columnOfField (name : String) (type : Json) : Except Error Column := do
  return ⟨name, ← typeOfJson type⟩

def columnOfEntry (entry : Json) : Except Error Column :=
  match entry.field? "name" >>= Json.asString? with
  | none => .error (.schema (.unnamedColumn entry))
  | some name =>
    match entry.field? "type" with
    | none => .error (.schema (.untypedColumn name))
    | some type => columnOfField name type

/-- The closed schema that a JSON value describes. The first wrong entry is complained of. -/
def ofJson : Json → Except Error Schema
  | .object fields => return ofColumns (← fields.mapM fun (name, type) => columnOfField name type)
  | .array entries => return ofColumns (← entries.mapM columnOfEntry)
  | given => .error (.schema (.notColumns given))

theorem ofJson_object (fields : List (String × Json)) :
    ofJson (.object fields) =
      (fields.mapM fun field => columnOfField field.1 field.2).map ofColumns := by
  rw [ofJson]
  cases fields.mapM fun field => columnOfField field.1 field.2 <;> rfl

theorem ofJson_array (entries : List Json) :
    ofJson (.array entries) = (entries.mapM columnOfEntry).map ofColumns := by
  rw [ofJson]
  cases entries.mapM columnOfEntry <;> rfl

end Kql.Schema
