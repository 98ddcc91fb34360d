import Kql.Expr.Basic
import Kql.Keyed

/-!
What is known of the columns of a table. A closed schema lists every column; an open one lists some
and admits that there are others. Column names do not repeat: a column takes the place of an earlier
one with its name.
-/

namespace Kql

structure Schema where
  columns : List Column
  isOpen : Bool
deriving DecidableEq

namespace Schema

def empty : Schema := ⟨[], false⟩

def undeclared : Schema := ⟨[], true⟩

/-- The same columns, with the admission that there are others. -/
def opened (s : Schema) : Schema := { s with isOpen := true }

/-- Adds a column at the end, or in the place of the column of the same name. -/
def insert (s : Schema) (c : Column) : Schema :=
  { s with columns := Keyed.put Column.name c s.columns }

def ofColumns (columns : List Column) : Schema := columns.foldl insert empty

def ofPairs (pairs : List (String × ScalarType)) : Schema :=
  ofColumns (pairs.map fun (name, type) => ⟨name, type⟩)

def get? (s : Schema) (name : String) : Option Column := Keyed.find? Column.name name s.columns

def contains (s : Schema) (name : String) : Bool := (s.get? name).isSome

def names (s : Schema) : List String := s.columns.map Column.name

def size (s : Schema) : Nat := s.columns.length

def isEmpty (s : Schema) : Bool := s.columns.isEmpty

end Schema
end Kql
