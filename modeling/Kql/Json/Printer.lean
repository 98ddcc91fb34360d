import Kql.Decimal.Layout
import Kql.Json.Basic

/-!
The compact text of a JSON value: no white space, and no escapes but the necessary ones.
-/

namespace Kql.Json

/-- Numbers are written without an exponent from `0.00001` to below `10 ^ 16`. -/
def realLayout : Decimal.Layout where
  plainFrom := -5
  plainTo := 15
  plusSign := true
  tie := .toEven

def hexChar (n : Nat) : Char := Nat.digitChar n

/-- A character in a string. Quotes, backslashes and control characters are escaped. -/
def printChar (c : Char) : String :=
  if c = '"' then "\\\""
  else if c = '\\' then "\\\\"
  else if c = '\x08' then "\\b"
  else if c = '\t' then "\\t"
  else if c = '\n' then "\\n"
  else if c = '\x0c' then "\\f"
  else if c = '\r' then "\\r"
  else if c.toNat < 0x20 then
    "\\u00" ++ String.ofList [hexChar (c.toNat / 16), hexChar (c.toNat % 16)]
  else c.toString

def printString (s : String) : String :=
  "\"" ++ String.join (s.toList.map printChar) ++ "\""

mutual

def print : Json → String
  | .null => "null"
  | .bool true => "true"
  | .bool false => "false"
  | .integer n => n.repr
  | .real x => realLayout.text x
  | .string s => printString s
  | .array items => "[" ++ ",".intercalate (printItems items) ++ "]"
  | .object fields => "\x7b" ++ ",".intercalate (printFields fields) ++ "\x7d"

def printItems : List Json → List String
  | [] => []
  | item :: rest => item.print :: printItems rest

def printFields : List (String × Json) → List String
  | [] => []
  | (name, value) :: rest => (printString name ++ ":" ++ value.print) :: printFields rest

end

end Kql.Json
