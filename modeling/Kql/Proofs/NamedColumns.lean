import Kql.Proofs.HandleTypes

/-!
Columns that are listed by name. A name is looked up in the schema for a handle, and the handle is looked
up again by the clause that lists it. The second lookup gives back what the first one has found, so it
comes to the same whether names are given or the handles that they stand for, and `project` and
`distinct` lead to the same columns.
-/

namespace Kql.Pipeline

variable {p q : Pipeline} {names : List String}

theorem found_of_resolve {name : String} {c : Column} (h : p.resolve name = .ok c) :
    p.schema.get? c.name = some c ∨
      p.schema.get? c.name = none ∧ p.schema.isOpen = true ∧ c.type = .dynamic := by
  rcases resolveColumn_eq_ok.mp h with found | ⟨unknown, isOpen, rfl⟩
  · have named : c.name = name := by simpa using List.find?_some found
    rw [named]
    exact .inl found
  · exact .inr ⟨unknown, isOpen, rfl⟩

/-- A column that was found is found again. -/
theorem resolveColumn_of_resolve (name : String) (c : Column) (h : p.resolve name = .ok c) :
    p.resolveColumn c = .ok c :=
  resolveColumn_eq_ok.mpr ((found_of_resolve h).imp_right fun ⟨unknown, isOpen, _⟩ =>
    ⟨unknown, isOpen, rfl⟩)

theorem resolve_of_column (name : String) (c : Column) (h : p.column name = .ok c) :
    p.resolve name = .ok c :=
  resolveColumn_eq_ok.mpr (.inl (column_eq_ok_iff.mp h))

theorem projectNames_eq (p : Pipeline) (names : List String) :
    p.projectNames names = (names.mapM p.resolve).map fun columns =>
      p.push (.project (.ofColumns columns)) (.ofColumns columns) := by
  unfold projectNames
  cases found : names.mapM p.resolve with
  | error e => rfl
  | ok columns =>
      refine project_eq_ok.mpr ⟨columns, ?_, ?_⟩
      · rw [handles_ofColumns]
        exact mapM_eq_ok_again resolveColumn_of_resolve found
      · exact congrArg (fun kept => p.push (.project (.ofColumns columns)) (.ofColumns kept))
          (List.append_nil columns)

theorem distinctNames_eq (p : Pipeline) (names : List String) :
    p.distinctNames names = (names.mapM p.resolve).map fun columns =>
      p.push (.distinct (columns.map Expr.column)) (.ofColumns columns) := by
  unfold distinctNames
  cases found : names.mapM p.resolve with
  | error e => rfl
  | ok columns =>
      refine distinct_eq_ok.mpr ⟨columns, ?_, rfl⟩
      rw [mapM_distinctColumn_column]
      exact mapM_eq_ok_again resolveColumn_of_resolve found

/-- The schema behind a clause that lists columns by name. -/
theorem listed_of_mapM_resolve {columns : List Column} (h : names.mapM p.resolve = .ok columns) :
    (Schema.ofColumns columns).names = names.eraseDups ∧
      ∀ c ∈ (Schema.ofColumns columns).columns, p.schema.get? c.name = some c ∨
        p.schema.get? c.name = none ∧ p.schema.isOpen = true ∧ c.type = .dynamic := by
  constructor
  · rw [Schema.names_ofColumns, map_name_of_mapM_resolve h]
  · intro c hc
    rw [Schema.columns_ofColumns] at hc
    have listed : c ∈ columns := (Keyed.mem_putAll hc).resolve_right List.not_mem_nil
    obtain ⟨name, found⟩ := exists_of_mem_mapM h c listed
    exact found_of_resolve found

/-- Names are let through and refused by `project` as they are by `distinct`, and lead to the same columns:
each name once, in the order of first mention, with the column that the schema has under it, or a dynamic
one where an open schema has none. The handles that names stand for lead to where the names lead. -/
theorem names_listed_as_handles (p : Pipeline) (names : List String) :
    (p.projectNames names).map schema = (p.distinctNames names).map schema ∧
      (∀ q, p.projectNames names = .ok q → q.schema.isOpen = false ∧
        q.schema.names = names.eraseDups ∧
        ∀ c ∈ q.schema.columns, p.schema.get? c.name = some c ∨
          p.schema.get? c.name = none ∧ p.schema.isOpen = true ∧ c.type = .dynamic) ∧
      ∀ handles, names.mapM p.column = .ok handles →
        ∃ q r, p.projectNames names = .ok q ∧ p.project (.ofColumns handles) = .ok q ∧
          p.distinctNames names = .ok r ∧ p.distinct (handles.map Expr.column) = .ok r := by
  refine ⟨?_, fun q hq => ?_, fun handles hhandles => ?_⟩
  · rw [projectNames_eq, distinctNames_eq]
    cases names.mapM p.resolve <;> rfl
  · rw [projectNames_eq] at hq
    obtain ⟨columns, found, rfl⟩ := map_eq_ok.mp hq
    exact ⟨Schema.isOpen_ofColumns columns, listed_of_mapM_resolve found⟩
  · have resolved : names.mapM p.resolve = .ok handles :=
      mapM_eq_ok_of_step resolve_of_column hhandles
    have listed := projectNames_eq p names
    have distinct := distinctNames_eq p names
    rw [resolved] at listed distinct
    refine ⟨_, _, listed, ?_, distinct, ?_⟩
    · rw [projectNames, resolved] at listed
      exact listed
    · rw [distinctNames, resolved] at distinct
      exact distinct

theorem repeated_names_listed :
    ∃ p handles q r, p = declared "t" [⟨"a", .long⟩, ⟨"b", .real⟩] ∧
      ["b", "a", "b"].mapM p.column = .ok handles ∧ p.projectNames ["b", "a", "b"] = .ok q ∧
      p.project (.ofColumns handles) = .ok q ∧ p.distinctNames ["b", "a", "b"] = .ok r ∧
      p.distinct (handles.map Expr.column) = .ok r ∧ q.schema.names = ["b", "a"] := by
  obtain ⟨p, hp⟩ : ∃ p, p = declared "t" [⟨"a", .long⟩, ⟨"b", .real⟩] := ⟨_, rfl⟩
  obtain ⟨handles, hhandles⟩ : ∃ handles, ["b", "a", "b"].mapM p.column = .ok handles := by
    rw [hp]
    exact ⟨_, rfl⟩
  obtain ⟨-, schemas, listed⟩ := names_listed_as_handles p ["b", "a", "b"]
  obtain ⟨q, r, hq, hproject, hr, hdistinct⟩ := listed handles hhandles
  obtain ⟨-, names, -⟩ := schemas q hq
  refine ⟨p, handles, q, r, hp, hhandles, hq, hproject, hr, hdistinct, names.trans ?_⟩
  decide

end Kql.Pipeline
