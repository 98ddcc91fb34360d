import Kql.Json.Printer
import Kql.ScalarType

/-!
What can go wrong while a query is built, rendered or run, and how each of these is told. What an
engine answers when it fails is of a type of its own, and is carried along as it is.
-/

namespace Kql

/-- Why a value does not describe a schema. -/
inductive SchemaFault where
  /-- An entry of the list has no name, or one that is not a string. -/
  | unnamedColumn (entry : Json)
  | untypedColumn (name : String)
  /-- Something other than a string stands where a type name is due. -/
  | notTypeName (given : Json)
  | notColumns (given : Json)
  | described (text : String)

inductive TemplateError where
  | missingParameter (name : String)
deriving DecidableEq

/-- An engine fails with an `ε`. Where nothing is run it does not matter which type that is. -/
inductive Error (ε : Type := String) where
  | schema (fault : SchemaFault)
  | unknownColumn (table column : String)
  /-- A field was taken from a value that is not dynamic. -/
  | invalidPropertyAccess (column : String) (type : ScalarType) (field : String)
  | unknownType (name : String)
  | unknownJoinKind (name : String)
  | template (cause : TemplateError)
  /-- The engine failed with this. -/
  | execution (failure : ε)

def SchemaFault.message : SchemaFault → String
  | unnamedColumn entry => "column entry without a name: " ++ entry.print
  | untypedColumn name => "column '" ++ name ++ "' has no type"
  | notTypeName given => "type must be a type name, got " ++ given.print
  | notColumns given => "columns must be an object or a list of columns, got " ++ given.print
  | described text => text

def TemplateError.message : TemplateError → String
  | missingParameter name => "no value supplied for parameter '" ++ name ++ "'"

namespace Error

variable {ε : Type} [ToString ε]

def message : Error ε → String
  | schema fault => "Schema error: " ++ fault.message
  | unknownColumn table column =>
    "Unknown column: '" ++ column ++ "' is not in the schema of '" ++ table ++ "'"
  | invalidPropertyAccess column type field =>
    "Invalid property access: '" ++ column ++ "." ++ field ++ "' requires a dynamic column, but '"
      ++ column ++ "' is " ++ type.name
  | unknownType name => "Unknown type: '" ++ name ++ "'"
  | unknownJoinKind name => "Unknown join kind: '" ++ name ++ "'"
  | template cause => "Template error: " ++ cause.message
  | execution failure => "Execution error: " ++ toString failure

/-- The message of the error behind this one, if there is one. -/
def cause? : Error ε → Option String
  | template cause => some cause.message
  | execution failure => some (toString failure)
  | _ => none

end Error

/-- The type of a name, or the complaint that there is none. -/
def ScalarType.named (name : String) : Except Error ScalarType :=
  match ofName? name with
  | some type => .ok type
  | none => .error (.unknownType name)

end Kql
