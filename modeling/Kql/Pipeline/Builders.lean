import Kql.Pipeline.Basic

/-!
How pipelines grow. Every builder returns a new pipeline with one clause more and with the schema of
what comes out of that clause. Names are checked against a closed schema and let through by an open
one.
-/

namespace Kql.Pipeline

/-- Adds a clause behind which the columns are those of `schema`. -/
def push (p : Pipeline) (clause : Clause) (schema : Schema) : Pipeline :=
  { p with clauses := p.clauses.push clause, schema }

def column (p : Pipeline) (name : String) : Except Error Column :=
  match p.schema.get? name with
  | some c => .ok c
  | none => .error (.unknownColumn p.table name)

/-- The column that the schema has under the name of `c`, or `c` itself if the schema is open and
does not have it. -/
def resolveColumn (p : Pipeline) (c : Column) : Except Error Column :=
  match p.schema.get? c.name with
  | some known => .ok known
  | none => if p.schema.isOpen then .ok c else .error (.unknownColumn p.table c.name)

/-- The column of a name. Where an open schema does not have it, it is taken to be dynamic. -/
def resolve (p : Pipeline) (name : String) : Except Error Column :=
  p.resolveColumn ⟨name, .dynamic⟩

/-- Keeps the listed columns and the renamed ones. A listed expression that is not a column has no
name to enter into the schema. -/
def project (p : Pipeline) (projection : Projection) : Except Error Pipeline := do
  let handles := projection.items.filterMap fun
    | .column c => some c
    | _ => none
  let kept ← handles.mapM p.resolveColumn
  let renamed := projection.renames.map fun (name, e) => Column.mk name e.type
  return p.push (.project projection) (.ofColumns (kept ++ renamed))

def projectNames (p : Pipeline) (names : List String) : Except Error Pipeline := do
  p.project (.ofColumns (← names.mapM p.resolve))

/-- Keeps the rows that meet all conditions. Without conditions there is no clause. -/
def filter (p : Pipeline) (conditions : List Expr) : Pipeline :=
  if conditions.isEmpty then p else p.push (.filter conditions) p.schema

def distinctColumn (p : Pipeline) : Expr → Except Error Column
  | .column c => p.resolveColumn c
  | e => .ok ⟨e.defaultName, e.type⟩

def distinct (p : Pipeline) (items : List Expr) : Except Error Pipeline := do
  return p.push (.distinct items) (.ofColumns (← items.mapM p.distinctColumn))

def distinctNames (p : Pipeline) (names : List String) : Except Error Pipeline := do
  p.distinct ((← names.mapM p.resolve).map Expr.column)

def count (p : Pipeline) : Pipeline := p.push .count (.ofPairs [("Count", .long)])

/-- A key of a join must be known on both sides. -/
def checkKey (left right : Pipeline) (key : String) : Except Error Unit := do
  discard (left.resolve key)
  discard (right.resolve key)

def join (p right : Pipeline) (on : List String) (kind : JoinKind)
    (strategy : Option JoinStrategy) : Except Error Pipeline := do
  on.forM (checkKey p right)
  return p.push (.join right on kind strategy) (.join kind p.schema right.schema)

/-- Aggregates groups of rows. The columns to group by come first. -/
def summarize (p : Pipeline) (s : Summarize) : Except Error Pipeline := do
  let groups ← s.groupKeys.mapM p.resolve
  discard (s.shuffleKeys.mapM p.resolve)
  let aggregates := s.aggregates.map fun (name, e) => Column.mk name e.type
  return p.push (.summarize s) (.ofColumns (groups ++ aggregates))

/-- Adds computed columns. Without assignments there is no clause. -/
def extend (p : Pipeline) (assignments : List (String × Expr)) : Pipeline :=
  if assignments.isEmpty then p
  else p.push (.extend assignments)
    (assignments.foldl (fun s (name, e) => s.insert ⟨name, e.type⟩) p.schema)

/-- Sorts the rows. Without keys there is no clause. -/
def order (p : Pipeline) (keys : List SortKey) : Pipeline :=
  if keys.isEmpty then p else p.push (.order keys) p.schema

def limit (p : Pipeline) (n : UInt64) : Pipeline := p.push (.limit n) p.schema

def take (p : Pipeline) (n : UInt64) : Pipeline := p.limit n

/-- Calls a plugin, whose columns are not known. -/
def evaluate (p : Pipeline) (plugin : Expr) : Pipeline := p.push (.evaluate plugin) p.schema.opened

end Kql.Pipeline
