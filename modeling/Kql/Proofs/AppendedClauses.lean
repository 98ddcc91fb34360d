import Kql.Proofs.JoinColumns
import Kql.Proofs.Relaxation

/-!
Queries grow at their end. A call adds one clause to those that were there, or none if it has nothing to
say, and no call looks at the earlier clauses or at the table. So what a run of calls adds follows from
the calls and the schema, its text from the calls alone, and all runs from one pipeline have the text of
that pipeline in front.
-/

namespace Kql

namespace Pipeline

variable {p q r : Pipeline}

/-- The call has an empty list where a clause lists something, and adds no clause. -/
def Call.isSkipped : Call → Bool
  | .filter conditions => conditions.isEmpty
  | .extend assignments => assignments.isEmpty
  | .order keys => keys.isEmpty
  | _ => false

/-- The clause is what the call adds. Columns that are named by their names stand in it with the types
that they were found with. -/
inductive Call.Writes : Call → Clause → Prop
  | project (projection : Projection) : Writes (.project projection) (.project projection)
  | projectNames {names : List String} {columns : List Column} : columns.map Column.name = names →
      Writes (.projectNames names) (.project (.ofColumns columns))
  | filter (conditions : List Expr) : Writes (.filter conditions) (.filter conditions)
  | distinct (items : List Expr) : Writes (.distinct items) (.distinct items)
  | distinctNames {names : List String} {columns : List Column} : columns.map Column.name = names →
      Writes (.distinctNames names) (.distinct (columns.map Expr.column))
  | count : Writes .count .count
  | join (right : Pipeline) (on : List String) (kind : JoinKind) (strategy : Option JoinStrategy) :
      Writes (.join right on kind strategy) (.join right on kind strategy)
  | summarize (s : Summarize) : Writes (.summarize s) (.summarize s)
  | extend (assignments : List (String × Expr)) : Writes (.extend assignments) (.extend assignments)
  | order (keys : List SortKey) : Writes (.order keys) (.order keys)
  | limit (n : UInt64) : Writes (.limit n) (.limit n)
  | take (n : UInt64) : Writes (.take n) (.limit n)
  | evaluate (plugin : Expr) : Writes (.evaluate plugin) (.evaluate plugin)

/-- The clauses are what the calls add, one for each call that is not skipped. -/
def Writes (calls : List Call) (clauses : List Clause) : Prop :=
  List.Forall₂ Call.Writes (calls.filter fun call => !call.isSkipped) clauses

/-- Adds the clauses one after another, behind which the columns are those of `schema`. -/
def pushAll (p : Pipeline) (clauses : List Clause) (schema : Schema) : Pipeline :=
  { p with clauses := clauses.foldl AppendList.push p.clauses, schema }

/-- The text of clauses, each of them on lines of its own. -/
def lines (clauses : List Clause) : String := String.join (clauses.map fun c => c.render ++ "\n")

/-! ## Adding clauses -/

theorem pushAll_nil {s : Schema} (same : p.schema = s) : p.pushAll [] s = p := by
  cases p
  cases same
  rfl

theorem toList_pushAll (p : Pipeline) (clauses : List Clause) (s : Schema) :
    (p.pushAll clauses s).clauses.toList = p.clauses.toList ++ clauses :=
  AppendList.toList_foldl_push clauses p.clauses

theorem pushAll_append (p : Pipeline) (clauses more : List Clause) (s t : Schema) :
    p.pushAll (clauses ++ more) t = (p.pushAll clauses s).pushAll more t := by
  rw [pushAll, List.foldl_append]
  rfl

theorem lines_append (clauses more : List Clause) :
    lines (clauses ++ more) = lines clauses ++ lines more := by
  rw [lines, List.map_append, String.join_append]
  rfl

theorem render_pushAll (p : Pipeline) (clauses : List Clause) (s : Schema) :
    (p.pushAll clauses s).render = p.render ++ lines clauses := by
  have text : (p.pushAll clauses s).render =
      p.anchor ++ "\n" ++ lines (p.pushAll clauses s).clauses.toList := render_eq _
  rw [text, toList_pushAll, lines_append, ← String.append_assoc]
  exact congrArg (· ++ lines clauses) p.render_eq.symm

/-! ## What a call adds -/

/-- A table with the same schema knows the same columns. -/
theorem resolveColumn_of_schema (same : r.schema = p.schema) (c d : Column)
    (h : p.resolveColumn c = .ok d) : r.resolveColumn c = .ok d := by
  rw [resolveColumn_eq_ok, same]
  exact resolveColumn_eq_ok.mp h

theorem resolve_of_schema (same : r.schema = p.schema) (name : String) (c : Column)
    (h : p.resolve name = .ok c) : r.resolve name = .ok c :=
  resolveColumn_of_schema same _ c h

theorem project_of_schema (same : r.schema = p.schema) {projection : Projection}
    (h : p.project projection = .ok q) :
    r.project projection = .ok (r.pushAll [.project projection] q.schema) := by
  obtain ⟨kept, found, rfl⟩ := project_eq_ok.mp h
  exact project_eq_ok.mpr ⟨kept, mapM_eq_ok_of_step (resolveColumn_of_schema same) found, rfl⟩

theorem distinct_of_schema (same : r.schema = p.schema) {items : List Expr}
    (h : p.distinct items = .ok q) :
    r.distinct items = .ok (r.pushAll [.distinct items] q.schema) := by
  obtain ⟨columns, found, rfl⟩ := distinct_eq_ok.mp h
  refine distinct_eq_ok.mpr ⟨columns, mapM_eq_ok_of_step ?_ found, rfl⟩
  intro e c h
  cases e with
  | column d => exact resolveColumn_of_schema same d c h
  | _ => exact h

/-- A call that has succeeded on one pipeline adds the same clause to any other with the same schema. -/
theorem exists_writes {call : Call} (h : p.perform call = .ok q) :
    ∃ added, Writes [call] added ∧
      ∀ r : Pipeline, r.schema = p.schema → r.perform call = .ok (r.pushAll added q.schema) := by
  cases call with
  | project projection =>
      exact ⟨_, .cons (.project projection) .nil, fun r same => project_of_schema same h⟩
  | distinct items =>
      exact ⟨_, .cons (.distinct items) .nil, fun r same => distinct_of_schema same h⟩
  | projectNames names =>
      obtain ⟨columns, found, h⟩ := projectNames_eq_ok.mp h
      refine ⟨_, .cons (.projectNames (map_name_of_mapM_resolve found)) .nil, fun r same => ?_⟩
      exact projectNames_eq_ok.mpr
        ⟨columns, mapM_eq_ok_of_step (resolve_of_schema same) found, project_of_schema same h⟩
  | distinctNames names =>
      obtain ⟨columns, found, h⟩ := distinctNames_eq_ok.mp h
      refine ⟨_, .cons (.distinctNames (map_name_of_mapM_resolve found)) .nil, fun r same => ?_⟩
      exact distinctNames_eq_ok.mpr
        ⟨columns, mapM_eq_ok_of_step (resolve_of_schema same) found, distinct_of_schema same h⟩
  | join right on kind strategy =>
      obtain ⟨known, rfl⟩ := join_eq_ok.mp h
      refine ⟨_, .cons (.join right on kind strategy) .nil, fun r same => ?_⟩
      refine join_eq_ok.mpr ⟨fun key hkey => ?_, ?_⟩
      · obtain ⟨⟨c, hc⟩, hright⟩ := known key hkey
        exact ⟨⟨c, resolve_of_schema same key c hc⟩, hright⟩
      · rw [same]
        rfl
  | summarize s =>
      obtain ⟨groups, hgroups, ⟨keys, hkeys⟩, rfl⟩ := summarize_eq_ok.mp h
      refine ⟨_, .cons (.summarize s) .nil, fun r same => ?_⟩
      exact summarize_eq_ok.mpr ⟨groups, mapM_eq_ok_of_step (resolve_of_schema same) hgroups,
        ⟨keys, mapM_eq_ok_of_step (resolve_of_schema same) hkeys⟩, rfl⟩
  | filter conditions =>
      cases h
      cases conditions with
      | nil => exact ⟨[], .nil, fun r same => congrArg Except.ok (pushAll_nil same).symm⟩
      | cons e more => exact ⟨_, .cons (.filter (e :: more)) .nil, fun r same => same ▸ rfl⟩
  | order keys =>
      cases h
      cases keys with
      | nil => exact ⟨[], .nil, fun r same => congrArg Except.ok (pushAll_nil same).symm⟩
      | cons key more => exact ⟨_, .cons (.order (key :: more)) .nil, fun r same => same ▸ rfl⟩
  | extend assignments =>
      cases h
      cases assignments with
      | nil => exact ⟨[], .nil, fun r same => congrArg Except.ok (pushAll_nil same).symm⟩
      | cons a more =>
          refine ⟨_, .cons (.extend (a :: more)) .nil, fun r same => ?_⟩
          have schema : (p.extend (a :: more)).schema = (r.extend (a :: more)).schema := by
            rw [extend_eq rfl, extend_eq rfl, push, push, same]
          rw [schema]
          rfl
  | count =>
      cases h
      exact ⟨_, .cons .count .nil, fun r same => rfl⟩
  | limit n =>
      cases h
      exact ⟨_, .cons (.limit n) .nil, fun r same => same ▸ rfl⟩
  | take n =>
      cases h
      exact ⟨_, .cons (.take n) .nil, fun r same => same ▸ rfl⟩
  | evaluate plugin =>
      cases h
      refine ⟨_, .cons (.evaluate plugin) .nil, fun r same => ?_⟩
      rw [evaluate, push, ← same]
      rfl

theorem Reachable.sized (h : p.Reachable) : p.clauses.Sized := by
  induction h with
  | ofTable table database _ => exact AppendList.sized_empty
  | @perform p q call _ _ h ih _ =>
      obtain ⟨added, -, adds⟩ := exists_writes h
      have grown : q = p.pushAll added q.schema := Except.ok.inj (h.symm.trans (adds p rfl))
      rw [grown]
      exact ih.foldl_push added

/-! ## What a run adds -/

theorem Writes.append {calls more : List Call} {clauses others : List Clause}
    (h : Writes calls clauses) (hmore : Writes more others) :
    Writes (calls ++ more) (clauses ++ others) := by
  rw [Writes, List.filter_append]
  exact List.rel_append h hmore

theorem exists_writes_run {calls : List Call} (h : p.performAll calls = .ok q) :
    ∃ added, Writes calls added ∧ ∀ r : Pipeline, r.schema = p.schema →
      r.performAll calls = .ok (r.pushAll added q.schema) := by
  induction calls generalizing p with
  | nil =>
      cases h
      exact ⟨[], .nil, fun r same => congrArg Except.ok (pushAll_nil same).symm⟩
  | cons call more ih =>
      obtain ⟨next, hnext, h⟩ := bind_eq_ok.mp h
      obtain ⟨first, writesFirst, addsFirst⟩ := exists_writes hnext
      obtain ⟨rest, writesRest, addsRest⟩ := ih h
      refine ⟨first ++ rest, writesFirst.append writesRest, fun r same => ?_⟩
      rw [r.pushAll_append first rest next.schema]
      exact bind_eq_ok.mpr ⟨_, addsFirst r same, addsRest _ rfl⟩

/-- Types are not shown. -/
theorem Call.Writes.render_eq {call : Call} {c d : Clause} (hc : call.Writes c)
    (hd : call.Writes d) : d.render = c.render := by
  have texts (columns : List Column) :
      (columns.map Expr.column).map Expr.render = columns.map Column.name := List.map_map
  cases hc with
  | projectNames named =>
      cases hd with
      | projectNames named' =>
          simp only [Clause.render_project, Projection.entries, Projection.ofColumns, texts, named,
            named']
  | distinctNames named =>
      cases hd with
      | distinctNames named' =>
          rw [Clause.render_distinct, Clause.render_distinct, texts, texts, named, named']
  | _ =>
      cases hd
      rfl

/-- The text is that of a clause that the call can add. -/
def Call.Shows (call : Call) (text : String) : Prop := ∃ c, call.Writes c ∧ text = c.render

theorem Call.rightUnique_shows : Relator.RightUnique Call.Shows := by
  rintro call _ _ ⟨c, hc, rfl⟩ ⟨d, hd, rfl⟩
  exact hd.render_eq hc

theorem Writes.shows {calls : List Call} {clauses : List Clause} (h : Writes calls clauses) :
    List.Forall₂ Call.Shows (calls.filter fun call => !call.isSkipped) (clauses.map Clause.render) :=
  List.forall₂_map_right_iff.mpr (h.imp fun _ c hc => ⟨c, hc, rfl⟩)

theorem Writes.lines_eq {calls : List Call} {clauses others : List Clause}
    (h : Writes calls clauses) (hothers : Writes calls others) : lines others = lines clauses := by
  have texts : others.map Clause.render = clauses.map Clause.render :=
    Call.rightUnique_shows.forall₂ hothers.shows h.shows
  have each (clauses : List Clause) :
      lines clauses = String.join ((clauses.map Clause.render).map (· ++ "\n")) := by
    rw [List.map_map]
    rfl
  rw [each, each, texts]

/-- What a run adds stands behind the clauses that were there: one clause for each call that is not
skipped, in the order of the calls. The same run adds the same clauses to any other table that has the
schema, and the same text to any that it succeeds on. So the queries that are built from one pipeline all
start with its text, and go on with what their own calls have added. -/
theorem clauses_appended (built : p.Reachable) {calls : List Call}
    (h : p.performAll calls = .ok q) :
    ∃ added, Writes calls added ∧ q.clauses.toList = p.clauses.toList ++ added ∧
      q.clauses.size = q.clauses.toList.length ∧ q.render = p.render ++ lines added ∧
      (∀ r : Pipeline, r.schema = p.schema → ∃ s, r.performAll calls = .ok s ∧
        s.clauses.toList = r.clauses.toList ++ added) ∧
      ∀ r s : Pipeline, r.performAll calls = .ok s → s.render = r.render ++ lines added := by
  obtain ⟨added, writes, adds⟩ := exists_writes_run h
  have grown : q = p.pushAll added q.schema := Except.ok.inj (h.symm.trans (adds p rfl))
  refine ⟨added, writes, ?_, ?_, ?_, fun r same => ?_, fun r s hs => ?_⟩
  · rw [grown, toList_pushAll]
  · rw [grown]
    exact built.sized.foldl_push added
  · rw [grown, render_pushAll]
  · exact ⟨_, adds r same, r.toList_pushAll added q.schema⟩
  · obtain ⟨others, writesOthers, addsOthers⟩ := exists_writes_run hs
    have grownOther : s = r.pushAll others s.schema :=
      Except.ok.inj (hs.symm.trans (addsOthers r rfl))
    rw [grownOther, render_pushAll, writes.lines_eq writesOthers]

/-- Two branches of one pipeline. Sorting by nothing adds nothing, and the clause that limits the right
side of the join stands within that of the join. -/
theorem clauses_appended_to_branches :
    ∃ p q r, p = (declared "t" [⟨"a", .long⟩]).limit 9 ∧
      p.performAll [.order [], .projectNames ["a", "a"], .take 5] = .ok q ∧
      p.performAll [.join p ["a"] .leftSemi none] = .ok r ∧
      q.clauses.size = 3 ∧ q.render = p.render ++ "| project a,\na\n| limit 5\n" ∧
      r.clauses.size = 2 ∧
      r.render = p.render ++ "| join kind=leftsemi (\n\t" ++ p.render ++ ") on a\n" := by
  obtain ⟨p, hp⟩ : ∃ p, p = (declared "t" [⟨"a", .long⟩]).limit 9 := ⟨_, rfl⟩
  have built : p.Reachable := by
    rw [hp]
    refine @Reachable.perform _ _ (.limit 9) (reachable_declared "t" [⟨"a", .long⟩]) ?_ rfl
    rintro right ⟨⟩
  have one : p.clauses.toList.length = 1 := by
    rw [hp]
    rfl
  obtain ⟨q, hq⟩ : ∃ q, p.performAll [.order [], .projectNames ["a", "a"], .take 5] = .ok q := by
    rw [hp]
    exact ⟨_, rfl⟩
  obtain ⟨r, hr⟩ : ∃ r, p.performAll [.join p ["a"] .leftSemi none] = .ok r := by
    rw [hp]
    exact ⟨_, rfl⟩
  obtain ⟨added, writes, clauses, size, text, -⟩ := clauses_appended built hq
  obtain ⟨joined, writesJoin, clausesJoin, sizeJoin, textJoin, -⟩ := clauses_appended built hr
  have two : added.length = 2 := writes.length_eq.symm
  have single : joined.length = 1 := writesJoin.length_eq.symm
  refine ⟨p, q, r, hp, hq, hr, ?_, ?_, ?_, ?_⟩
  · rw [size, clauses, List.length_append, one, two]
  · have named : [Column.mk "a" .long, ⟨"a", .long⟩].map Column.name = ["a", "a"] := rfl
    have projected : Writes [.order [], .projectNames ["a", "a"], .take 5] _ :=
      .cons (.projectNames named) (.cons (.take 5) .nil)
    rw [text, projected.lines_eq writes]
    exact congrArg (p.render ++ ·) (by decide +kernel)
  · rw [sizeJoin, clausesJoin, List.length_append, one, single]
  · have whole : Writes [.join p ["a"] .leftSemi none] _ := .cons (.join p ["a"] .leftSemi none) .nil
    rw [textJoin, whole.lines_eq writesJoin, hp]
    decide +kernel

end Pipeline
end Kql
