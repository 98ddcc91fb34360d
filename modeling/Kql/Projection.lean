import Kql.Expr.Render

/-!
What a `project` clause lists: expressions as they are, then expressions under new names.
-/

namespace Kql

structure Projection where
  items : List Expr
  renames : List (String × Expr)

namespace Projection

def ofColumns (columns : List Column) : Projection := ⟨columns.map Expr.column, []⟩

def entries (p : Projection) : List String :=
  p.items.map Expr.render ++ p.renames.map fun (name, e) => name ++ " = " ++ e.render

end Projection
end Kql
