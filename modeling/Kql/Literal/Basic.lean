import Kql.Decimal.Fixed
import Kql.ScalarType

/-!
The constants that stand in a query.
-/

namespace Kql

inductive Literal where
  | null
  | bool (b : Bool)
  | long (n : Int64)
  | real (x : Float)
  | decimal (d : Decimal.Fixed)
  | string (s : String)
  | array (items : List Literal)
  /-- Keys with values, in order. A key may occur more than once. -/
  | bag (pairs : List (String × Literal))

def Literal.type : Literal → ScalarType
  | null | array _ | bag _ => .dynamic
  | bool _ => .bool
  | long _ => .long
  | real _ => .real
  | decimal _ => .decimal
  | string _ => .string

end Kql
