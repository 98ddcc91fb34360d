/-!
The operators, aggregates and functions of the query language, each with its symbol and what is
known of it.
-/

namespace Kql

inductive Operator where
  | eq | ne | lt | le | gt | ge
  | contains | notContains | has | notHas | startsWith | endsWith | isIn | notIn
  | and | or | not
  | add | sub | mul | div | mod
  | sum | avg | min | max | count | dcount
  | strcat | bagUnpack
deriving DecidableEq

namespace Operator

inductive Category where
  | comparison
  | boolean
  | arithmetic
  | aggregate
  | function
deriving DecidableEq

inductive Arity where
  | unary
  | binary
  | variadic
deriving DecidableEq

def symbol : Operator → String
  | eq => "=="
  | ne => "!="
  | lt => "<"
  | le => "<="
  | gt => ">"
  | ge => ">="
  | contains => "contains"
  | notContains => "!contains"
  | has => "has"
  | notHas => "!has"
  | startsWith => "startswith"
  | endsWith => "endswith"
  | isIn => "in"
  | notIn => "!in"
  | and => "and"
  | or => "or"
  | not => "not"
  | add => "+"
  | sub => "-"
  | mul => "*"
  | div => "/"
  | mod => "%"
  | sum => "sum"
  | avg => "avg"
  | min => "min"
  | max => "max"
  | count => "count"
  | dcount => "dcount"
  | strcat => "strcat"
  | bagUnpack => "bag_unpack"

def category : Operator → Category
  | eq | ne | lt | le | gt | ge => .comparison
  | contains | notContains | has | notHas | startsWith | endsWith | isIn | notIn => .comparison
  | and | or | not => .boolean
  | add | sub | mul | div | mod => .arithmetic
  | sum | avg | min | max | count | dcount => .aggregate
  | strcat | bagUnpack => .function

def arity (op : Operator) : Arity :=
  match op.category, op with
  | .boolean, not => .unary
  | .function, bagUnpack => .unary
  | .comparison, _ | .arithmetic, _ | .boolean, _ => .binary
  | .aggregate, _ | .function, _ => .variadic

def isAggregate (op : Operator) : Bool := op.category = .aggregate

/-- Operators whose operands are written in parentheses. -/
def isConnective : Operator → Bool
  | and | or => true
  | _ => false

def Category.name : Category → String
  | .comparison => "comparison"
  | .boolean => "boolean"
  | .arithmetic => "arithmetic"
  | .aggregate => "aggregate"
  | .function => "function"

def Arity.name : Arity → String
  | .unary => "unary"
  | .binary => "binary"
  | .variadic => "variadic"

end Operator
end Kql
