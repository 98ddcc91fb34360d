import Kql.Error
import Kql.Expr.Render

/-!
How expressions are put together: comparisons, connectives, arithmetic, aggregates, functions and
fields. Only taking a field is checked.
-/

namespace Kql

namespace Expr

/-- An operator or function applied to terms. The result is an aggregate if the operator is one. -/
def call (op : Operator) (terms : List Expr) : Expr := apply op terms op.isAggregate

def eq (l r : Expr) : Expr := binary .eq l r

def ne (l r : Expr) : Expr := binary .ne l r

def lt (l r : Expr) : Expr := binary .lt l r

def le (l r : Expr) : Expr := binary .le l r

def gt (l r : Expr) : Expr := binary .gt l r

def ge (l r : Expr) : Expr := binary .ge l r

def contains (l r : Expr) : Expr := binary .contains l r

def notContains (l r : Expr) : Expr := binary .notContains l r

def has (l r : Expr) : Expr := binary .has l r

def notHas (l r : Expr) : Expr := binary .notHas l r

def startsWith (l r : Expr) : Expr := binary .startsWith l r

def endsWith (l r : Expr) : Expr := binary .endsWith l r

def isIn (e : Expr) (values : List Literal) : Expr := binary .isIn e (literal (.array values))

def notIn (e : Expr) (values : List Literal) : Expr := binary .notIn e (literal (.array values))

def and (l r : Expr) : Expr := binary .and l r

def or (l r : Expr) : Expr := binary .or l r

def not (e : Expr) : Expr := call .not [e]

instance : AndOp Expr := ⟨and⟩

instance : OrOp Expr := ⟨or⟩

instance : Complement Expr := ⟨not⟩

instance : Add Expr := ⟨binary .add⟩

instance : Sub Expr := ⟨binary .sub⟩

instance : Mul Expr := ⟨binary .mul⟩

instance : Div Expr := ⟨binary .div⟩

instance : Mod Expr := ⟨binary .mod⟩

def field (e : Expr) (name : String) : Except Error Expr :=
  if e.type = .dynamic then .ok (property e name)
  else .error (.invalidPropertyAccess e.render e.type name)

def strcat (terms : List Expr) : Expr := call .strcat terms

/-- A bag's keys as columns. -/
def bagUnpack (e : Expr) : Expr := call .bagUnpack [e]

def count : Expr := call .count []

end Expr

namespace Column

def sum (c : Column) : Expr := .call .sum [c]

def avg (c : Column) : Expr := .call .avg [c]

def min (c : Column) : Expr := .call .min [c]

def max (c : Column) : Expr := .call .max [c]

/-- The number of different values, counted with the given accuracy. -/
def dcountWith (c : Column) (accuracy : Int64) : Expr :=
  .call .dcount [c, Literal.long accuracy]

def dcount (c : Column) : Expr := c.dcountWith 1

def bagUnpack (c : Column) : Expr := .bagUnpack c

end Column

inductive SortOrder where
  | ascending
  | descending
deriving DecidableEq

def SortOrder.symbol : SortOrder → String
  | ascending => "asc"
  | descending => "desc"

/-- An expression to sort by. Without a direction the engine chooses its own. -/
structure SortKey where
  expr : Expr
  order : Option SortOrder

instance : Coe Expr SortKey := ⟨fun e => ⟨e, none⟩⟩

def SortKey.render (key : SortKey) : String :=
  match key.order with
  | none => key.expr.render
  | some order => key.expr.render ++ " " ++ order.symbol

def Expr.asc (e : Expr) : SortKey := ⟨e, some .ascending⟩

def Expr.desc (e : Expr) : SortKey := ⟨e, some .descending⟩

end Kql
