import Kql.Pipeline.Call
import Kql.Proofs.ExprReader

/-!
Columns without their types. Every part of a pipeline has an untyped form, in which all columns are
dynamic, and the same text as this form. So nothing of a type is left in a text, nor in the names that
aggregates get from their expressions.
-/

namespace Kql

namespace Keyed

variable {α β κ : Type} [DecidableEq κ] {f : α → β} {key : α → κ} {key' : β → κ}

theorem put_map (h : ∀ a, key' (f a) = key a) (entry : α) (l : List α) :
    put key' (f entry) (l.map f) = (put key entry l).map f := by
  induction l with
  | nil => rfl
  | cons e rest ih =>
      simp only [put, List.map_cons, h, ih]
      split <;> rfl

theorem putAll_map (h : ∀ a, key' (f a) = key a) (entries l : List α) :
    putAll key' (entries.map f) (l.map f) = (putAll key entries l).map f := by
  induction entries generalizing l with
  | nil => rfl
  | cons e rest ih => rw [List.map_cons, putAll_cons, put_map h, ih, putAll_cons]

end Keyed

def Column.untyped (c : Column) : Column := ⟨c.name, .dynamic⟩

def Schema.untyped (s : Schema) : Schema := { s with columns := s.columns.map Column.untyped }

namespace Expr

theorem map_render_untyped (es : List Expr) : (es.map untyped).map render = es.map render := by
  rw [List.map_map]
  exact List.map_congr_left fun e _ => render_untyped e

theorem defaultName_untyped (e : Expr) : e.untyped.defaultName = e.defaultName := by
  cases e with
  | apply op terms aggregate =>
      cases terms with
      | nil => rfl
      | cons first rest => simp only [untyped, untypedTerms, defaultName, render_untyped]
  | column _ | literal _ => rfl
  | property object field => exact congrArg nameOf (render_untyped (.property object field))
  | binary op left right => exact congrArg nameOf (render_untyped (.binary op left right))

end Expr

/-- The same names for the untyped expressions. -/
def untypedAssignments (assignments : List (String × Expr)) : List (String × Expr) :=
  assignments.map (Prod.map id Expr.untyped)

theorem map_text_untypedAssignments (between : String) (assignments : List (String × Expr)) :
    ((untypedAssignments assignments).map fun a => a.1 ++ between ++ a.2.render) =
      assignments.map fun a => a.1 ++ between ++ a.2.render := by
  rw [untypedAssignments, List.map_map]
  exact List.map_congr_left fun a _ => congrArg (a.1 ++ between ++ ·) a.2.render_untyped

def Projection.untyped (p : Projection) : Projection :=
  ⟨p.items.map Expr.untyped, untypedAssignments p.renames⟩

theorem Projection.entries_untyped (p : Projection) : p.untyped.entries = p.entries :=
  congrArg₂ (· ++ ·) (Expr.map_render_untyped p.items) (map_text_untypedAssignments " = " p.renames)

def SortKey.untyped (key : SortKey) : SortKey := { key with expr := key.expr.untyped }

theorem SortKey.render_untyped (key : SortKey) : key.untyped.render = key.render := by
  simp only [render, untyped, Expr.render_untyped]

namespace Summarize

def untyped (s : Summarize) : Summarize :=
  { s with unnamed := untypedAssignments s.unnamed, named := untypedAssignments s.named }

theorem aggregates_untyped (s : Summarize) :
    s.untyped.aggregates = untypedAssignments s.aggregates :=
  Keyed.putAll_map (fun _ => rfl) s.named s.unnamed

theorem render_untyped (s : Summarize) : s.untyped.render = s.render := by
  have aggregates := map_text_untypedAssignments "=" s.aggregates
  rw [← aggregates_untyped] at aggregates
  exact congrArg (fun texts => "| summarize" ++ s.hints
    ++ (if texts = [] then "" else "\n\t" ++ ",\n\t".intercalate texts)
    ++ (if s.groupKeys = [] then "" else "\n\tby " ++ ", ".intercalate s.groupKeys)) aggregates

def Call.untyped : Call → Call
  | aggregate e => aggregate e.untyped
  | aggregateAs name e => aggregateAs name e.untyped
  | groupBy names => groupBy names
  | shuffle shuffled => shuffle shuffled
  | shuffleBy names => shuffleBy names
  | partitionInto n => partitionInto n

theorem put_untypedAssignments (name : String) (e : Expr) (assignments : List (String × Expr)) :
    Keyed.put Prod.fst (name, e.untyped) (untypedAssignments assignments) =
      untypedAssignments (Keyed.put Prod.fst (name, e) assignments) :=
  Keyed.put_map (f := Prod.map id Expr.untyped) (fun _ => rfl) (name, e) assignments

theorem perform_untyped (s : Summarize) (call : Call) :
    s.untyped.perform call.untyped = (s.perform call).untyped := by
  cases call with
  | aggregate e =>
      simp only [Call.untyped, perform, aggregate, untyped, Expr.defaultName_untyped,
        put_untypedAssignments]
  | aggregateAs name e =>
      simp only [Call.untyped, perform, aggregateAs, untyped, put_untypedAssignments]
  | groupBy _ | shuffle _ | shuffleBy _ | partitionInto _ => rfl

/-- Aggregates are told apart by names that do not depend on types. -/
theorem ofCalls_untyped (calls : List Call) :
    ofCalls (calls.map Call.untyped) = (ofCalls calls).untyped := by
  rw [ofCalls, List.foldl_map]
  change calls.foldl _ (untyped ∅) = _
  exact List.foldl_hom untyped perform_untyped

end Summarize

/-! ## Clauses and pipelines -/

mutual

def Clause.untyped : Clause → Clause
  | .project projection => .project projection.untyped
  | .filter conditions => .filter (conditions.map Expr.untyped)
  | .distinct items => .distinct (items.map Expr.untyped)
  | .count => .count
  | .limit n => .limit n
  | .join right on kind strategy => .join right.untyped on kind strategy
  | .summarize s => .summarize s.untyped
  | .extend assignments => .extend (untypedAssignments assignments)
  | .order keys => .order (keys.map SortKey.untyped)
  | .evaluate plugin => .evaluate plugin.untyped

/-- The pipeline with all columns dynamic: those of its schema, those in its clauses, and those of the
pipelines that it joins with. -/
def Pipeline.untyped : Pipeline → Pipeline
  | ⟨table, database, schema, clauses⟩ => ⟨table, database, schema.untyped, untypedClauses clauses⟩

def untypedClauses : AppendList Clause → AppendList Clause
  | ⟨newestFirst, size⟩ => ⟨untypedNewestFirst newestFirst, size⟩

def untypedNewestFirst : List Clause → List Clause
  | [] => []
  | clause :: older => clause.untyped :: untypedNewestFirst older

end

theorem assignmentTexts_untypedAssignments (assignments : List (String × Expr)) :
    assignmentTexts (untypedAssignments assignments) = assignmentTexts assignments :=
  map_text_untypedAssignments "=" assignments

mutual

theorem Clause.render_untyped : (c : Clause) → c.untyped.render = c.render
  | .project projection => by
      rw [Clause.untyped, Clause.render_project, Clause.render_project, Projection.entries_untyped]
  | .filter conditions => by
      rw [Clause.untyped, Clause.render_filter, Clause.render_filter, Expr.map_render_untyped]
  | .distinct items => by
      rw [Clause.untyped, Clause.render_distinct, Clause.render_distinct, Expr.map_render_untyped]
  | .count | .limit _ => rfl
  | .join right on kind strategy => by
      rw [Clause.untyped, Clause.render_join, Clause.render_join, Pipeline.render_untyped right]
  | .summarize s => by
      rw [Clause.untyped, Clause.render_summarize, Clause.render_summarize, Summarize.render_untyped]
  | .extend assignments => by
      rw [Clause.untyped, Clause.render_extend, Clause.render_extend,
        assignmentTexts_untypedAssignments]
  | .order keys => by
      rw [Clause.untyped, Clause.render_order, Clause.render_order, List.map_map]
      exact congrArg _ (congrArg _ (List.map_congr_left fun key _ => key.render_untyped))
  | .evaluate plugin => by
      rw [Clause.untyped, Clause.render_evaluate, Clause.render_evaluate, Expr.render_untyped]

theorem Pipeline.render_untyped : (p : Pipeline) → p.untyped.render = p.render
  | ⟨_, _, _, ⟨newestFirst, _⟩⟩ => by
      simp only [Pipeline.untyped, untypedClauses, Pipeline.render, renderClauses,
        renderNewestFirst_untyped newestFirst]

theorem renderNewestFirst_untyped :
    (l : List Clause) → renderNewestFirst (untypedNewestFirst l) = renderNewestFirst l
  | [] => rfl
  | clause :: older => by
      simp only [untypedNewestFirst, renderNewestFirst, Clause.render_untyped clause,
        renderNewestFirst_untyped older]

end

namespace Pipeline

theorem untypedNewestFirst_eq_map (l : List Clause) :
    untypedNewestFirst l = l.map Clause.untyped := by
  induction l with
  | nil => rfl
  | cons clause older ih => rw [untypedNewestFirst, ih, List.map_cons]

@[simp] theorem table_untyped (p : Pipeline) : p.untyped.table = p.table := by
  cases p
  rfl

@[simp] theorem database_untyped (p : Pipeline) : p.untyped.database = p.database := by
  cases p
  rfl

@[simp] theorem schema_untyped (p : Pipeline) : p.untyped.schema = p.schema.untyped := by
  cases p
  rfl

theorem clauses_untyped (p : Pipeline) :
    p.untyped.clauses.toList = p.clauses.toList.map Clause.untyped := by
  obtain ⟨_, _, _, ⟨newestFirst, _⟩⟩ := p
  simp only [untyped, untypedClauses, AppendList.toList, untypedNewestFirst_eq_map, List.map_reverse]

def Call.untyped : Call → Call
  | project projection => project projection.untyped
  | projectNames names => projectNames names
  | filter conditions => filter (conditions.map Expr.untyped)
  | distinct items => distinct (items.map Expr.untyped)
  | distinctNames names => distinctNames names
  | count => count
  | join right on kind strategy => join right.untyped on kind strategy
  | summarize s => summarize s.untyped
  | extend assignments => extend (untypedAssignments assignments)
  | order keys => order (keys.map SortKey.untyped)
  | limit n => limit n
  | take n => take n
  | evaluate plugin => evaluate plugin.untyped

end Pipeline

end Kql
