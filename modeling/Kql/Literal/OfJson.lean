import Kql.Json.Basic
import Kql.Literal.Basic

/-!
The literals that JSON values stand for.
-/

namespace Kql.Literal

/-- A whole number is a `long` if 64 bits with a sign hold it, and otherwise the nearest real. -/
def ofInteger (n : Int) : Literal :=
  if Int64.minValue.toInt ≤ n ∧ n ≤ Int64.maxValue.toInt then long (.ofInt n) else real (.ofInt n)

mutual

def ofJson : Json → Literal
  | .null => null
  | .bool b => bool b
  | .integer n => ofInteger n
  | .real x => real x
  | .string s => string s
  | .array items => array (ofItems items)
  | .object fields => bag (ofFields fields)

def ofItems : List Json → List Literal
  | [] => []
  | item :: rest => ofJson item :: ofItems rest

def ofFields : List (String × Json) → List (String × Literal)
  | [] => []
  | (name, value) :: rest => (name, ofJson value) :: ofFields rest

end

theorem ofItems_eq_map (items : List Json) : ofItems items = items.map ofJson := by
  induction items with
  | nil => rfl
  | cons item rest ih => rw [ofItems, ih, List.map_cons]

end Kql.Literal
