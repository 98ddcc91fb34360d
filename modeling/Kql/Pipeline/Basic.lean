import Kql.AppendList
import Kql.Join
import Kql.Projection
import Kql.Summarize

/-!
Pipelines: a source table, the clauses applied to it in order, and what is known of the columns that
come out. A join holds a whole pipeline as its right side. Every clause is written on lines of its
own behind the name of the source, and summed up on one line for logs.
-/

namespace Kql

structure DatabaseRef where
  cluster : String
  database : String
deriving DecidableEq

mutual

inductive Clause where
  | project (projection : Projection)
  | filter (conditions : List Expr)
  | distinct (items : List Expr)
  | count
  | limit (n : UInt64)
  | join (right : Pipeline) (on : List String) (kind : JoinKind) (strategy : Option JoinStrategy)
  | summarize (s : Summarize)
  | extend (assignments : List (String × Expr))
  | order (keys : List SortKey)
  | evaluate (plugin : Expr)

structure Pipeline where
  table : String
  database : DatabaseRef
  schema : Schema
  clauses : AppendList Clause

end

def DatabaseRef.anchor (db : DatabaseRef) (table : String) : String :=
  "cluster('" ++ db.cluster ++ "').database('" ++ db.database ++ "').['" ++ table ++ "']"

def JoinStrategy.hint : Option JoinStrategy → String
  | some strategy => "hint.strategy=" ++ strategy.name ++ " "
  | none => ""

def assignmentTexts (assignments : List (String × Expr)) : List String :=
  assignments.map fun (name, e) => name ++ "=" ++ e.render

mutual

/-- The text of a clause. Entries of `project` and `distinct` start a line, those of `extend`,
`order` and `summarize` a line and a tab. -/
def Clause.render : Clause → String
  | .project projection => "| project " ++ ",\n".intercalate projection.entries
  | .filter conditions => "| where " ++ " and ".intercalate (conditions.map Expr.render)
  | .distinct items => "| distinct " ++ ",\n".intercalate (items.map Expr.render)
  | .count => "| count"
  | .limit n => "| limit " ++ n.toNat.repr
  | .join right on kind strategy =>
    "| join kind=" ++ kind.name ++ " " ++ JoinStrategy.hint strategy ++ "(\n\t" ++ right.render
      ++ ") on " ++ ", ".intercalate on
  | .summarize s => s.render
  | .extend assignments => "| extend\n\t" ++ ",\n\t".intercalate (assignmentTexts assignments)
  | .order keys => "| order by\n\t" ++ ",\n\t".intercalate (keys.map SortKey.render)
  | .evaluate plugin => "| evaluate " ++ plugin.render

/-- The text of a query: the full name of the table, then each clause, every one with a line feed
behind it. -/
def Pipeline.render : Pipeline → String
  | ⟨table, database, _, clauses⟩ => database.anchor table ++ "\n" ++ renderClauses clauses

def renderClauses : AppendList Clause → String
  | ⟨newestFirst, _⟩ => renderNewestFirst newestFirst

def renderNewestFirst : List Clause → String
  | [] => ""
  | clause :: older => renderNewestFirst older ++ clause.render ++ "\n"

end

/-! The text of each kind of clause. -/

namespace Clause

theorem render_project (projection : Projection) :
    (project projection).render = "| project " ++ ",\n".intercalate projection.entries :=
  rfl

theorem render_filter (conditions : List Expr) :
    (filter conditions).render = "| where " ++ " and ".intercalate (conditions.map Expr.render) :=
  rfl

theorem render_distinct (items : List Expr) :
    (distinct items).render = "| distinct " ++ ",\n".intercalate (items.map Expr.render) :=
  rfl

theorem render_count : count.render = "| count" :=
  rfl

theorem render_limit (n : UInt64) : (limit n).render = "| limit " ++ n.toNat.repr :=
  rfl

theorem render_join (right : Pipeline) (on : List String) (kind : JoinKind)
    (strategy : Option JoinStrategy) :
    (join right on kind strategy).render =
      "| join kind=" ++ kind.name ++ " " ++ JoinStrategy.hint strategy ++ "(\n\t" ++ right.render
        ++ ") on " ++ ", ".intercalate on :=
  rfl

theorem render_summarize (s : Summarize) : (summarize s).render = s.render :=
  rfl

theorem render_extend (assignments : List (String × Expr)) :
    (extend assignments).render =
      "| extend\n\t" ++ ",\n\t".intercalate (assignmentTexts assignments) :=
  rfl

theorem render_order (keys : List SortKey) :
    (order keys).render = "| order by\n\t" ++ ",\n\t".intercalate (keys.map SortKey.render) :=
  rfl

theorem render_evaluate (plugin : Expr) :
    (evaluate plugin).render = "| evaluate " ++ plugin.render :=
  rfl

end Clause

def Clause.summary : Clause → String
  | .project projection => "Project(" ++ ", ".intercalate projection.entries ++ ")"
  | .filter conditions => "Where(" ++ " and ".intercalate (conditions.map Expr.render) ++ ")"
  | .distinct items => "Distinct(" ++ ", ".intercalate (items.map Expr.render) ++ ")"
  | .count => "Count()"
  | .limit n => "Limit(" ++ n.toNat.repr ++ ")"
  | .join _ on kind _ => "Join(" ++ kind.name ++ ", on " ++ ", ".intercalate on ++ ")"
  | .summarize s => "Summarize(by " ++ ", ".intercalate s.groupKeys ++ ")"
  | .extend assignments => "Extend(" ++ ", ".intercalate (assignmentTexts assignments) ++ ")"
  | .order keys => "Order(" ++ ", ".intercalate (keys.map SortKey.render) ++ ")"
  | .evaluate plugin => "Evaluate(" ++ plugin.render ++ ")"

namespace Pipeline

def ofTable (table : String) (database : DatabaseRef) (schema : Schema) : Pipeline :=
  ⟨table, database, schema, ∅⟩

def anchor (p : Pipeline) : String := p.database.anchor p.table

theorem renderNewestFirst_eq (l : List Clause) :
    renderNewestFirst l = String.join (l.reverse.map fun c => c.render ++ "\n") := by
  induction l with
  | nil => rfl
  | cons c l ih => simp [renderNewestFirst, ih, String.append_assoc]

/-- A query is its table followed by its clauses, the oldest first. -/
theorem render_eq (p : Pipeline) :
    p.render =
      p.anchor ++ "\n" ++ String.join (p.clauses.toList.map fun c => c.render ++ "\n") := by
  obtain ⟨_, _, _, ⟨_, _⟩⟩ := p
  simp only [render, renderClauses, renderNewestFirst_eq, anchor, AppendList.toList]

end Pipeline
end Kql
