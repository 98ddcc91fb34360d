import Kql.Literal.Basic
import Kql.Operator

/-!
Columns, and the expressions built from columns and literals.
-/

namespace Kql

structure Column where
  name : String
  type : ScalarType
deriving DecidableEq

def Column.renamed (c : Column) (name : String) : Column := { c with name }

inductive Expr where
  | column (c : Column)
  /-- A field of a dynamic value. -/
  | property (object : Expr) (field : String)
  | literal (value : Literal)
  | binary (op : Operator) (left right : Expr)
  /-- An operator or function applied to its terms. `aggregate` marks a result that stands for many
  rows. -/
  | apply (op : Operator) (terms : List Expr) (aggregate : Bool)

instance : Coe Column Expr := ⟨.column⟩

instance : Coe Literal Expr := ⟨.literal⟩

namespace Expr

/-- The type of the value. A binary expression has the type of its left side. -/
def type : Expr → ScalarType
  | column c => c.type
  | property _ _ => .dynamic
  | literal value => value.type
  | binary _ left _ => left.type
  | apply .count _ _ | apply .dcount _ _ => .long
  | apply .avg _ _ => .real
  | apply .strcat _ _ => .string
  | apply .bagUnpack _ _ => .dynamic
  | apply _ [] _ => .long
  | apply _ (first :: _) _ => first.type

def isAggregate : Expr → Bool
  | apply _ _ aggregate => aggregate
  | _ => false

end Expr
end Kql
