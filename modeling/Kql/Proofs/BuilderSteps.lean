import Kql.Pipeline.Call
import Kql.Proofs.FallibleSteps

/-!
What a builder has done when it succeeds. Every builder that can fail is opened here once; later
proofs start from these equations, and those about runs from `perform_schema`, which lists the
schemas that a call can lead to.
-/

namespace Kql.Pipeline

variable {p q right : Pipeline}

/-! ## Lookups -/

/-- A column is found under its name, or else let through by an open schema. -/
theorem resolveColumn_eq_ok {c d : Column} :
    p.resolveColumn c = .ok d ↔
      p.schema.get? c.name = some d ∨
        p.schema.get? c.name = none ∧ p.schema.isOpen = true ∧ d = c := by
  unfold resolveColumn
  cases p.schema.get? c.name with
  | some known => simp
  | none => cases p.schema.isOpen <;> simp [eq_comm]

theorem resolveColumn_eq_error {c : Column} {e : Error} :
    p.resolveColumn c = .error e ↔
      p.schema.get? c.name = none ∧ p.schema.isOpen = false ∧ e = .unknownColumn p.table c.name := by
  unfold resolveColumn
  cases p.schema.get? c.name with
  | some known => simp
  | none => cases p.schema.isOpen <;> simp [eq_comm]

/-- The column that stands for `c`: the one that the schema has under its name, or else `c` itself. -/
def known (p : Pipeline) (c : Column) : Column := (p.schema.get? c.name).getD c

theorem name_known (p : Pipeline) (c : Column) : (p.known c).name = c.name := by
  unfold known
  cases found : p.schema.get? c.name with
  | none => rfl
  | some d => simpa using List.find?_some found

theorem eq_known_of_resolveColumn {c d : Column} (h : p.resolveColumn c = .ok d) :
    d = p.known c := by
  rw [known]
  rcases resolveColumn_eq_ok.mp h with found | ⟨unknown, -, rfl⟩
  · rw [found, Option.getD_some]
  · rw [unknown, Option.getD_none]

/-- The column that stands for a name. -/
def namedColumn (p : Pipeline) (name : String) : Column := p.known ⟨name, .dynamic⟩

theorem name_namedColumn (p : Pipeline) (name : String) : (p.namedColumn name).name = name :=
  p.name_known ⟨name, .dynamic⟩

theorem map_name_namedColumn (p : Pipeline) (names : List String) :
    (names.map p.namedColumn).map Column.name = names := by
  rw [List.map_map]
  exact List.map_id'' p.name_namedColumn names

theorem eq_map_of_mapM_resolve {names : List String} {columns : List Column}
    (h : names.mapM p.resolve = .ok columns) : columns = names.map p.namedColumn :=
  eq_map_of_mapM_eq_ok (fun _ _ => eq_known_of_resolveColumn) h

theorem map_name_of_mapM_resolve {names : List String} {columns : List Column}
    (h : names.mapM p.resolve = .ok columns) : columns.map Column.name = names := by
  rw [eq_map_of_mapM_resolve h, map_name_namedColumn]

/-! ## Builders that succeed -/

def handles (projection : Projection) : List Column :=
  projection.items.filterMap fun
    | .column c => some c
    | _ => none

theorem project_eq_ok {projection : Projection} :
    p.project projection = .ok q ↔
      ∃ kept, (handles projection).mapM p.resolveColumn = .ok kept ∧
        p.push (.project projection) (.ofColumns (kept ++
          projection.renames.map fun (name, e) => Column.mk name e.type)) = q := by
  simp only [project, bind_eq_ok, pure, Except.pure, Except.ok.injEq]
  exact Iff.rfl

theorem projectNames_eq_ok {names : List String} :
    p.projectNames names = .ok q ↔
      ∃ columns, names.mapM p.resolve = .ok columns ∧ p.project (.ofColumns columns) = .ok q := by
  simp only [projectNames, bind_eq_ok]

theorem distinct_eq_ok {items : List Expr} :
    p.distinct items = .ok q ↔
      ∃ columns, items.mapM p.distinctColumn = .ok columns ∧
        p.push (.distinct items) (.ofColumns columns) = q := by
  simp only [distinct, bind_eq_ok, pure, Except.pure, Except.ok.injEq]

theorem distinctNames_eq_ok {names : List String} :
    p.distinctNames names = .ok q ↔
      ∃ columns, names.mapM p.resolve = .ok columns ∧
        p.distinct (columns.map Expr.column) = .ok q := by
  simp only [distinctNames, bind_eq_ok]

theorem checkKey_eq_ok {key : String} {u : Unit} :
    checkKey p right key = .ok u ↔ (∃ c, p.resolve key = .ok c) ∧ ∃ c, right.resolve key = .ok c := by
  simp only [checkKey, bind_eq_ok, discard_eq_ok, exists_const]

theorem join_eq_ok {on : List String} {kind : JoinKind} {strategy : Option JoinStrategy} :
    p.join right on kind strategy = .ok q ↔
      (∀ key ∈ on, (∃ c, p.resolve key = .ok c) ∧ ∃ c, right.resolve key = .ok c) ∧
        p.push (.join right on kind strategy) (.join kind p.schema right.schema) = q := by
  simp only [join, bind_eq_ok, forM_eq_ok, checkKey_eq_ok, pure, Except.pure, Except.ok.injEq,
    exists_const]

theorem summarize_eq_ok {s : Summarize} :
    p.summarize s = .ok q ↔
      ∃ groups, s.groupKeys.mapM p.resolve = .ok groups ∧
        (∃ keys, s.shuffleKeys.mapM p.resolve = .ok keys) ∧
        p.push (.summarize s) (.ofColumns (groups ++
          s.aggregates.map fun (name, e) => Column.mk name e.type)) = q := by
  simp only [summarize, bind_eq_ok, discard_eq_ok, pure, Except.pure, Except.ok.injEq,
    exists_const]

def assigned (assignments : List (String × Expr)) : List Column :=
  assignments.map fun (name, e) => ⟨name, e.type⟩

theorem extend_eq {assignments : List (String × Expr)} (h : assignments.isEmpty = false) :
    p.extend assignments =
      p.push (.extend assignments) ((assigned assignments).foldl Schema.insert p.schema) := by
  rw [extend, if_neg (by simp [h]), assigned, List.foldl_map]

/-- A call keeps the schema, opens it, adds columns to it, replaces it, or joins it with that of
the right side. -/
theorem perform_schema {call : Call} (h : p.perform call = .ok q) :
    q.schema = p.schema ∨ q.schema = p.schema.opened ∨
      (∃ columns : List Column, q.schema = columns.foldl Schema.insert p.schema) ∨
      (∃ columns, q.schema = .ofColumns columns) ∨
      ∃ right on kind strategy, call = .join right on kind strategy ∧
        q.schema = .join kind p.schema right.schema := by
  cases call with
  | project projection =>
      obtain ⟨kept, -, rfl⟩ := project_eq_ok.mp h
      exact .inr (.inr (.inr (.inl ⟨_, rfl⟩)))
  | projectNames names =>
      obtain ⟨columns, -, h⟩ := projectNames_eq_ok.mp h
      obtain ⟨kept, -, rfl⟩ := project_eq_ok.mp h
      exact .inr (.inr (.inr (.inl ⟨_, rfl⟩)))
  | distinct items =>
      obtain ⟨columns, -, rfl⟩ := distinct_eq_ok.mp h
      exact .inr (.inr (.inr (.inl ⟨_, rfl⟩)))
  | distinctNames names =>
      obtain ⟨_, -, h⟩ := distinctNames_eq_ok.mp h
      obtain ⟨columns, -, rfl⟩ := distinct_eq_ok.mp h
      exact .inr (.inr (.inr (.inl ⟨_, rfl⟩)))
  | summarize s =>
      obtain ⟨groups, -, -, rfl⟩ := summarize_eq_ok.mp h
      exact .inr (.inr (.inr (.inl ⟨_, rfl⟩)))
  | join right on kind strategy =>
      obtain ⟨-, rfl⟩ := join_eq_ok.mp h
      exact .inr (.inr (.inr (.inr ⟨right, on, kind, strategy, rfl, rfl⟩)))
  | count =>
      cases h
      exact .inr (.inr (.inr (.inl ⟨_, rfl⟩)))
  | evaluate plugin =>
      cases h
      exact .inr (.inl rfl)
  | limit n | take n =>
      cases h
      exact .inl rfl
  | filter conditions | order conditions =>
      cases h
      left
      simp only [filter, order]
      split <;> rfl
  | extend assignments =>
      cases h
      right; right; left
      refine ⟨assigned assignments, ?_⟩
      cases he : assignments.isEmpty with
      | true =>
          rw [List.isEmpty_iff.mp he]
          rfl
      | false => rw [extend_eq he, push]

end Kql.Pipeline
