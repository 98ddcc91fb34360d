import Kql.Expr.Basic
import Kql.Literal.Render
import Kql.Text.Alphanumeric

/-!
The text of an expression, and the name that a column gets from it when none is given.
-/

namespace Kql.Expr

mutual

/-- The expression as code. Only the operands of `and` and `or`, the right side of a membership test
and the terms of a function stand in parentheses. -/
def render : Expr → String
  | column c => c.name
  | property object field => object.render ++ "." ++ field
  | literal value => value.render
  | binary .isIn left right => left.render ++ " in (" ++ right.render ++ ")"
  | binary .notIn left right => left.render ++ " !in (" ++ right.render ++ ")"
  | binary op left right =>
    if op.isConnective then "(" ++ left.render ++ ") " ++ op.symbol ++ " (" ++ right.render ++ ")"
    else left.render ++ " " ++ op.symbol ++ " " ++ right.render
  | apply op terms _ => op.symbol ++ "(" ++ ", ".intercalate (renderTerms terms) ++ ")"

def renderTerms : List Expr → List String
  | [] => []
  | term :: rest => term.render :: renderTerms rest

end

/-- A name of letters, digits and underscores made from any text. -/
def nameOf (text : String) : String :=
  String.ofList (text.toList.map fun c => if Text.isAlphanumeric c || c == '_' then c else '_')

/-- The name of a column that holds the expression: the function with its first term, or else the
text of the expression. -/
def defaultName : Expr → String
  | apply op [] _ => nameOf (op.symbol ++ "_")
  | apply op (first :: _) _ => nameOf (op.symbol ++ "_" ++ first.render)
  | e => nameOf e.render

theorem renderTerms_eq_map (terms : List Expr) : renderTerms terms = terms.map render := by
  induction terms with
  | nil => rfl
  | cons term rest ih => simp only [renderTerms, List.map_cons, ih]

end Kql.Expr
