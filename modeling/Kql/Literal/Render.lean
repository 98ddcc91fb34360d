import Kql.Decimal.Layout
import Kql.Literal.Basic

/-!
The text of a literal. As code a string stands in single quotes; its characters are written as they
are, so a quote in it ends it. As plain text a string stands for itself. An array is written as a
dynamic list and a bag as a table of keys and values.
-/

namespace Kql.Literal

/-- Reals are written without an exponent from `0.0001` to below `10 ^ 16`. -/
def realLayout : Decimal.Layout where
  plainFrom := -4
  plainTo := 15
  plusSign := false
  tie := .up

/-- A dynamic list of these items, one a line. -/
def listOf : List String → String
  | [] => "dynamic([])"
  | items => "dynamic([\n\t" ++ ",\n\t".intercalate items ++ "\n])"

/-- A row of a table of keys and values, both written as strings. -/
def rowOf (key value : String) : String := "'" ++ key ++ "', '" ++ value ++ "',"

/-- A table of these rows, one a line. -/
def tableOf (rows : List String) : String :=
  "datatable(key: string, value: string)[\n    " ++ "\n\t".intercalate rows ++ "\n]"

mutual

def render : Literal → String
  | null => "dynamic(null)"
  | bool true => "true"
  | bool false => "false"
  | long n => n.toInt.repr
  | real x => realLayout.text x
  | decimal d => "decimal(" ++ d.text ++ ")"
  | string s => "'" ++ s ++ "'"
  | array items => listOf (itemTexts items)
  | bag pairs => tableOf (rowTexts pairs)

def text : Literal → String
  | null => "null"
  | bool true => "true"
  | bool false => "false"
  | long n => n.toInt.repr
  | real x => realLayout.text x
  | decimal d => d.text
  | string s => s
  | array items => listOf (itemTexts items)
  | bag pairs => tableOf (rowTexts pairs)

def itemTexts : List Literal → List String
  | [] => []
  | item :: rest => item.render :: itemTexts rest

def rowTexts : List (String × Literal) → List String
  | [] => []
  | (key, value) :: rest => rowOf key value.text :: rowTexts rest

end

def renderList (items : List Literal) : String := listOf (items.map render)

def renderTable (pairs : List (String × Literal)) : String :=
  tableOf (pairs.map fun (key, value) => rowOf key value.text)

theorem itemTexts_eq_map (items : List Literal) : itemTexts items = items.map render := by
  induction items with
  | nil => rfl
  | cons item rest ih => simp only [itemTexts, List.map_cons, ih]

theorem rowTexts_eq_map (pairs : List (String × Literal)) :
    rowTexts pairs = pairs.map fun (key, value) => rowOf key value.text := by
  induction pairs with
  | nil => rfl
  | cons pair rest ih => simp only [rowTexts, List.map_cons, ih]

theorem render_array (items : List Literal) : (array items).render = renderList items := by
  simp only [render, itemTexts_eq_map, renderList]

theorem render_bag (pairs : List (String × Literal)) : (bag pairs).render = renderTable pairs := by
  simp only [render, rowTexts_eq_map, renderTable]

theorem text_array (items : List Literal) : (array items).text = renderList items := by
  simp only [text, itemTexts_eq_map, renderList]

theorem text_bag (pairs : List (String × Literal)) : (bag pairs).text = renderTable pairs := by
  simp only [text, rowTexts_eq_map, renderTable]

end Kql.Literal
