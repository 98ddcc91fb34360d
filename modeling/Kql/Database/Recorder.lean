import Kql.Database.Basic

/-!
An executor that keeps a record of what it was asked to run.
-/

namespace Kql.Database

inductive CallKind where
  | query
  | command
deriving DecidableEq

def CallKind.name : CallKind → String
  | query => "query"
  | command => "command"

structure LoggedCall where
  kind : CallKind
  database : String
  text : String
deriving DecidableEq

/-- The calls so far, oldest first. -/
abbrev Recorded := StateM (AppendList LoggedCall)

variable {ε α : Type}

def record (answer : LoggedCall → Except ε α) (call : LoggedCall) : Recorded (Except ε α) := do
  modify (·.push call)
  return answer call

def recorder (answer : LoggedCall → Except ε α) : Executor Recorded ε α where
  runQuery database text := record answer ⟨.query, database, text⟩
  runCommand database text := record answer ⟨.command, database, text⟩

/-- Records queries, and runs commands as queries. -/
def queryRecorder (answer : LoggedCall → Except ε α) : Executor Recorded ε α where
  runQuery database text := record answer ⟨.query, database, text⟩

end Kql.Database
