import Kql.Pipeline.Builders
import Kql.SetCommand

/-!
A database that runs queries and commands. How they reach an engine is left to an executor, which
answers in a monad of its own and fails with errors of its own; a source of schemas tells the columns
of a table.
-/

namespace Kql

/-- What runs queries and commands on a named database. A failure is an `ε`, a result is an `α`, and
neither is looked into. -/
structure Executor (m : Type → Type) (ε α : Type) where
  runQuery : (database query : String) → m (Except ε α)
  runCommand : (database command : String) → m (Except ε α) := runQuery

/-- What knows the columns of a table in a named database. -/
structure SchemaSource (m : Type → Type) (ε : Type) where
  columns : (database table : String) → m (Except ε (List (String × ScalarType)))

structure Database (m : Type → Type) (ε α : Type) where
  cluster : String
  name : String
  executor : Executor m ε α

namespace Database

variable {m : Type → Type} {ε α : Type}

def uri (db : Database m ε α) : String := "https://" ++ db.cluster ++ ".kusto.windows.net"

def reference (db : Database m ε α) : DatabaseRef := ⟨db.cluster, db.name⟩

def table (db : Database m ε α) (name : String) : Pipeline :=
  .ofTable name db.reference .undeclared

def tableWithSchema (db : Database m ε α) (name : String) (schema : Schema) : Pipeline :=
  .ofTable name db.reference schema

variable [Monad m]

/-- A table with the columns that the source tells. -/
def inspectTable (db : Database m ε α) (source : SchemaSource m ε) (name : String) :
    m (Except (Error ε) Pipeline) := do
  match ← source.columns db.name name with
  | .ok columns => return .ok (db.tableWithSchema name (.ofPairs columns))
  | .error failure => return .error (.execution failure)

/-- Runs a text on this database: as a command if it starts with a point, otherwise as a query. -/
def executeRendered (db : Database m ε α) (text : String) : m (Except (Error ε) α) := do
  let run := if text.toList.head? = some '.' then db.executor.runCommand else db.executor.runQuery
  return (← run db.name text).mapError .execution

/-- Runs what the rendering of a template came to, if it came to anything. -/
def executeResult (db : Database m ε α) : Except TemplateError String → m (Except (Error ε) α)
  | .ok text => db.executeRendered text
  | .error cause => return .error (.template cause)

def execute (db : Database m ε α) (template : String) (params : Params) : m (Except (Error ε) α) :=
  db.executeResult (Template.render template params)

/-- Stores the result of a template in a table. -/
def set (db : Database m ε α) (template : String) (command : SetCommand) (params : Params) :
    m (Except (Error ε) α) :=
  db.executeResult (command.render template params)

/-- Runs a pipeline on this database, whatever database its tables are in. -/
def collect (db : Database m ε α) (p : Pipeline) : m (Except (Error ε) α) :=
  db.executeRendered p.render

inductive Request where
  | execute (template : String) (params : Params)
  | executeRendered (text : String)
  | set (template : String) (command : SetCommand) (params : Params)
  | collect (p : Pipeline)

def perform (db : Database m ε α) : Request → m (Except (Error ε) α)
  | .execute template params => db.execute template params
  | .executeRendered text => db.executeRendered text
  | .set template command params => db.set template command params
  | .collect p => db.collect p

end Database
end Kql
