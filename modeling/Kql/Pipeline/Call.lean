import Kql.Pipeline.Builders

/-!
Builder calls as data, and the pipelines that a sequence of calls leads to.
-/

namespace Kql.Pipeline

inductive Call where
  | project (projection : Projection)
  | projectNames (names : List String)
  | filter (conditions : List Expr)
  | distinct (items : List Expr)
  | distinctNames (names : List String)
  | count
  | join (right : Pipeline) (on : List String) (kind : JoinKind) (strategy : Option JoinStrategy)
  | summarize (s : Summarize)
  | extend (assignments : List (String × Expr))
  | order (keys : List SortKey)
  | limit (n : UInt64)
  | take (n : UInt64)
  | evaluate (plugin : Expr)

def perform (p : Pipeline) : Call → Except Error Pipeline
  | .project projection => p.project projection
  | .projectNames names => p.projectNames names
  | .filter conditions => .ok (p.filter conditions)
  | .distinct items => p.distinct items
  | .distinctNames names => p.distinctNames names
  | .count => .ok p.count
  | .join right on kind strategy => p.join right on kind strategy
  | .summarize s => p.summarize s
  | .extend assignments => .ok (p.extend assignments)
  | .order keys => .ok (p.order keys)
  | .limit n => .ok (p.limit n)
  | .take n => .ok (p.take n)
  | .evaluate plugin => .ok (p.evaluate plugin)

/-- Performs the calls one after another, up to the first that fails. -/
def performAll (p : Pipeline) (calls : List Call) : Except Error Pipeline := calls.foldlM perform p

end Kql.Pipeline
