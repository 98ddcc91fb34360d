import Kql.Proofs.JoinColumns

/-!
Declaring the columns of a table only makes builder calls fail. A run on a table with a declared schema
is compared with the run of the same calls on the table without it. Their schemas drift apart, as a
join may rename columns in one run and not in the other, but the second one stays open, or else both
are closed and have the same names. So the second run goes on as long as the first, and since no text
depends on a type, it leads to the same text.
-/

namespace Kql

/-- The columns differ in nothing but their types. -/
abbrev Column.SameName (c c' : Column) : Prop := c'.name = c.name

namespace Schema

variable {s t : Schema} {columns columns' : List Column}

/-- The schema `t` lets every name through that `s` does: it is open, or both are closed and have the
same names. -/
def Relaxes (s t : Schema) : Prop := t.isOpen = true ∨ s.isOpen = false ∧ t.names = s.names

theorem relaxes_refl (s : Schema) : s.Relaxes s := by
  cases h : s.isOpen with
  | false => exact .inr ⟨h, rfl⟩
  | true => exact .inl h

/-! ## Names and openness through the operations -/

theorem names_insert (s : Schema) (c : Column) :
    (s.insert c).names = if c.name ∈ s.names then s.names else s.names ++ [c.name] :=
  Keyed.map_put Column.name c s.columns

theorem names_foldl_insert_congr (h : t.names = s.names)
    (same : List.Forall₂ Column.SameName columns columns') :
    (columns'.foldl insert t).names = (columns.foldl insert s).names := by
  induction same generalizing s t with
  | nil => exact h
  | cons hc _ ih =>
      apply ih
      rw [names_insert, names_insert, h, hc]

theorem names_foldl_insertJoined_congr (h : t.names = s.names)
    (same : List.Forall₂ Column.SameName columns columns') :
    (columns'.foldl insertJoined t).names = (columns.foldl insertJoined s).names := by
  induction same generalizing s t with
  | nil => exact h
  | cons hc _ ih =>
      apply ih
      rw [names_insertJoined, names_insertJoined, h, hc]

theorem names_join_congr (h : t.names = s.names) (kind : JoinKind) {right right' : Schema}
    (same : List.Forall₂ Column.SameName right.columns right'.columns) :
    (join kind t right').names = (join kind s right).names := by
  have kept : (if kind.keepsLeft then t else empty).names =
      (if kind.keepsLeft then s else empty).names := by
    cases kind.keepsLeft with
    | false => rfl
    | true => exact h
  rw [names, names, columns_join, columns_join]
  cases kind.keepsRight with
  | false => exact kept
  | true => exact names_foldl_insertJoined_congr kept same

theorem isOpen_foldl_insertJoined (s : Schema) (right : List Column) :
    (right.foldl insertJoined s).isOpen = s.isOpen := by
  induction right generalizing s with
  | nil => rfl
  | cons c more ih =>
      rw [List.foldl_cons, ih, insertJoined_eq]
      rfl

theorem isOpen_join (kind : JoinKind) (left right : Schema) :
    (join kind left right).isOpen =
      (kind.keepsLeft && left.isOpen || kind.keepsRight && right.isOpen) := by
  have kept : (if kind.keepsLeft then left else empty).isOpen = (kind.keepsLeft && left.isOpen) := by
    cases kind.keepsLeft <;> rfl
  unfold join
  cases kind.keepsRight with
  | false => simp [kept]
  | true =>
      cases hr : right.isOpen with
      | false => simp [isOpen_foldl_insertJoined, kept]
      | true => simp [opened]

namespace Relaxes

theorem ofColumns (same : List.Forall₂ Column.SameName columns columns') :
    Relaxes (.ofColumns columns) (.ofColumns columns') :=
  .inr ⟨isOpen_ofColumns columns, names_foldl_insert_congr rfl same⟩

theorem foldl_insert (h : s.Relaxes t) (columns : List Column) :
    Relaxes (columns.foldl insert s) (columns.foldl insert t) := by
  rw [Relaxes, isOpen_foldl_insert, isOpen_foldl_insert]
  refine h.imp_right fun ⟨closed, names⟩ => ⟨closed, names_foldl_insert_congr names ?_⟩
  exact List.forall₂_same.mpr fun _ _ => rfl

theorem join (h : s.Relaxes t) (kind : JoinKind) (right : Schema) :
    Relaxes (.join kind s right) (.join kind t right) := by
  by_cases dropped : kind.keepsLeft = false
  · -- nothing of the two schemas is left
    have same : Schema.join kind t right = Schema.join kind s right := by
      simp only [Schema.join, dropped, Bool.false_eq_true, if_false]
    rw [same]
    exact relaxes_refl _
  · by_cases opens : (kind.keepsRight && right.isOpen) = true
    · left
      rw [isOpen_join, opens, Bool.or_true]
    · rcases h with isOpen | ⟨closed, names⟩
      · left
        simp [isOpen_join, isOpen, dropped]
      · right
        refine ⟨?_, names_join_congr names kind (List.forall₂_same.mpr fun _ _ => rfl)⟩
        simp [isOpen_join, closed, opens]

end Relaxes

end Schema

namespace Pipeline

variable {p q r : Pipeline}

/-! ## What is let through -/

theorem exists_resolveColumn_iff {c : Column} :
    (∃ d, p.resolveColumn c = .ok d) ↔ p.schema.isOpen = true ∨ c.name ∈ p.schema.names := by
  simp only [resolveColumn_eq_ok, ← Schema.exists_get?_iff]
  cases p.schema.get? c.name <;> simp

theorem name_of_resolveColumn {c d : Column} (h : p.resolveColumn c = .ok d) : d.name = c.name := by
  rw [eq_known_of_resolveColumn h, name_known]

theorem handles_ofColumns (columns : List Column) : handles (.ofColumns columns) = columns := by
  rw [handles, Projection.ofColumns, List.filterMap_map]
  exact List.filterMap_some

theorem mapM_distinctColumn_column (columns : List Column) :
    (columns.map Expr.column).mapM p.distinctColumn = columns.mapM p.resolveColumn := by
  rw [List.mapM_map]
  rfl

theorem map_render_column {columns columns' : List Column}
    (same : List.Forall₂ Column.SameName columns columns') :
    (columns'.map Expr.column).map Expr.render = (columns.map Expr.column).map Expr.render := by
  induction same with
  | nil => rfl
  | cons hc _ ih => rw [List.map_cons, List.map_cons, Expr.render, hc, ih]; rfl

theorem render_congr (anchor : r.anchor = p.anchor)
    (texts : r.clauses.toList.map Clause.render = p.clauses.toList.map Clause.render) :
    r.render = p.render := by
  have lines (clauses : List Clause) :
      clauses.map (fun c => c.render ++ "\n") = (clauses.map Clause.render).map (· ++ "\n") := by
    rw [List.map_map]
    rfl
  rw [render_eq, render_eq, anchor, lines, lines, texts]

theorem texts_push (h : r.clauses.toList.map Clause.render = p.clauses.toList.map Clause.render)
    {clause clause' : Clause} (same : clause'.render = clause.render) (s t : Schema) :
    (r.push clause' t).clauses.toList.map Clause.render =
      (p.push clause s).clauses.toList.map Clause.render := by
  simp only [push, AppendList.toList_push, List.map_append, List.map_cons, List.map_nil, h, same]

/-! ## One step and whole runs -/

/-- The pipelines have the same text, and the schema of `r` lets every name through that of `p` does. -/
structure Relaxes (p r : Pipeline) : Prop where
  anchor : r.anchor = p.anchor
  texts : r.clauses.toList.map Clause.render = p.clauses.toList.map Clause.render
  schema : p.schema.Relaxes r.schema

namespace Relaxes

theorem render (h : p.Relaxes r) : r.render = p.render := render_congr h.anchor h.texts

theorem push (h : p.Relaxes r) {clause clause' : Clause} {s t : Schema}
    (same : clause'.render = clause.render) (hs : s.Relaxes t) :
    (p.push clause s).Relaxes (r.push clause' t) :=
  ⟨h.anchor, texts_push h.texts same s t, hs⟩

theorem resolveColumn (h : p.Relaxes r) (c c' d : Column) (same : c.SameName c')
    (hd : p.resolveColumn c = .ok d) : ∃ d', r.resolveColumn c' = .ok d' ∧ d.SameName d' := by
  have accepted : r.schema.isOpen = true ∨ c'.name ∈ r.schema.names := by
    rcases h.schema with isOpen | ⟨closed, names⟩
    · exact .inl isOpen
    · rcases exists_resolveColumn_iff.mp ⟨d, hd⟩ with isOpen | known
      · rw [closed] at isOpen
        cases isOpen
      · rw [names, same]
        exact .inr known
  obtain ⟨d', hd'⟩ := exists_resolveColumn_iff.mpr accepted
  refine ⟨d', hd', ?_⟩
  rw [Column.SameName, name_of_resolveColumn hd', name_of_resolveColumn hd, same]

theorem resolve (h : p.Relaxes r) {name : String} {d : Column} (hd : p.resolve name = .ok d) :
    ∃ d', r.resolve name = .ok d' ∧ d.SameName d' :=
  h.resolveColumn _ _ d rfl hd

theorem mapM_resolve (h : p.Relaxes r) {names : List String} {columns : List Column}
    (hc : names.mapM p.resolve = .ok columns) :
    ∃ columns', names.mapM r.resolve = .ok columns' ∧
      List.Forall₂ Column.SameName columns columns' := by
  have step (name name' : String) (d : Column) (same : name = name') (hd : p.resolve name = .ok d) :=
    same ▸ h.resolve hd
  exact exists_mapM_eq_ok step (List.forall₂_same.mpr fun _ _ => rfl) hc

theorem distinctColumn (h : p.Relaxes r) (e e' : Expr) (c : Column) (same : e = e')
    (hc : p.distinctColumn e = .ok c) : ∃ c', r.distinctColumn e' = .ok c' ∧ c.SameName c' := by
  subst same
  cases e with
  | column d => exact h.resolveColumn d d c rfl hc
  | _ =>
      cases hc
      exact ⟨_, rfl, rfl⟩

theorem project (h : p.Relaxes r) {projection projection' : Projection}
    (same : List.Forall₂ Column.SameName (handles projection) (handles projection'))
    (renames : projection'.renames = projection.renames)
    (text : (Clause.project projection').render = (Clause.project projection).render)
    (hq : p.project projection = .ok q) :
    ∃ r', r.project projection' = .ok r' ∧ q.Relaxes r' := by
  obtain ⟨kept, hkept, rfl⟩ := project_eq_ok.mp hq
  obtain ⟨kept', hkept', sameKept⟩ := exists_mapM_eq_ok h.resolveColumn same hkept
  refine ⟨_, project_eq_ok.mpr ⟨kept', hkept', rfl⟩, h.push text (.ofColumns ?_)⟩
  rw [renames]
  exact List.rel_append sameKept (List.forall₂_same.mpr fun _ _ => rfl)

/-- The columns that the names are resolved to may differ in their types, which the clause does not
show. -/
theorem projectNames (h : p.Relaxes r) {names : List String} (hq : p.projectNames names = .ok q) :
    ∃ r', r.projectNames names = .ok r' ∧ q.Relaxes r' := by
  obtain ⟨columns, hcolumns, hq⟩ := projectNames_eq_ok.mp hq
  obtain ⟨columns', hcolumns', same⟩ := h.mapM_resolve hcolumns
  have text : (Clause.project (.ofColumns columns')).render =
      (Clause.project (.ofColumns columns)).render := by
    simp only [Clause.render_project, Projection.entries, Projection.ofColumns, map_render_column same]
  rw [← handles_ofColumns columns, ← handles_ofColumns columns'] at same
  obtain ⟨r', hr', relaxes⟩ := h.project same rfl text hq
  exact ⟨r', projectNames_eq_ok.mpr ⟨columns', hcolumns', hr'⟩, relaxes⟩

theorem distinctNames (h : p.Relaxes r) {names : List String} (hq : p.distinctNames names = .ok q) :
    ∃ r', r.distinctNames names = .ok r' ∧ q.Relaxes r' := by
  obtain ⟨columns, hcolumns, hq⟩ := distinctNames_eq_ok.mp hq
  obtain ⟨columns', hcolumns', same⟩ := h.mapM_resolve hcolumns
  obtain ⟨kept, hkept, rfl⟩ := distinct_eq_ok.mp hq
  rw [mapM_distinctColumn_column] at hkept
  obtain ⟨kept', hkept', sameKept⟩ := exists_mapM_eq_ok h.resolveColumn same hkept
  rw [← mapM_distinctColumn_column] at hkept'
  have hr' := distinct_eq_ok.mpr ⟨kept', hkept', rfl⟩
  refine ⟨_, distinctNames_eq_ok.mpr ⟨columns', hcolumns', hr'⟩, h.push ?_ (.ofColumns sameKept)⟩
  rw [Clause.render_distinct, Clause.render_distinct, map_render_column same]

/-- What a call does to a pipeline it does to one that lets through as much. -/
theorem perform (h : p.Relaxes r) {call : Call} (hq : p.perform call = .ok q) :
    ∃ r', r.perform call = .ok r' ∧ q.Relaxes r' := by
  cases call with
  | project projection => exact h.project (List.forall₂_same.mpr fun _ _ => rfl) rfl rfl hq
  | projectNames names => exact h.projectNames hq
  | distinct items =>
      obtain ⟨columns, hcolumns, rfl⟩ := distinct_eq_ok.mp hq
      obtain ⟨columns', hcolumns', same⟩ :=
        exists_mapM_eq_ok h.distinctColumn (List.forall₂_same.mpr fun _ _ => rfl) hcolumns
      exact ⟨_, distinct_eq_ok.mpr ⟨columns', hcolumns', rfl⟩, h.push rfl (.ofColumns same)⟩
  | distinctNames names => exact h.distinctNames hq
  | join right on kind strategy =>
      obtain ⟨known, rfl⟩ := join_eq_ok.mp hq
      have known' : ∀ key ∈ on, (∃ c, r.resolve key = .ok c) ∧ ∃ c, right.resolve key = .ok c := by
        intro key hkey
        obtain ⟨⟨c, hc⟩, hright⟩ := known key hkey
        obtain ⟨c', hc', _⟩ := h.resolve hc
        exact ⟨⟨c', hc'⟩, hright⟩
      exact ⟨_, join_eq_ok.mpr ⟨known', rfl⟩, h.push rfl (h.schema.join kind right.schema)⟩
  | summarize s =>
      obtain ⟨groups, hgroups, ⟨keys, hkeys⟩, rfl⟩ := summarize_eq_ok.mp hq
      obtain ⟨groups', hgroups', same⟩ := h.mapM_resolve hgroups
      obtain ⟨keys', hkeys', _⟩ := h.mapM_resolve hkeys
      have hr' := summarize_eq_ok.mpr ⟨groups', hgroups', ⟨keys', hkeys'⟩, rfl⟩
      refine ⟨_, hr', h.push rfl (.ofColumns ?_)⟩
      exact List.rel_append same (List.forall₂_same.mpr fun _ _ => rfl)
  | extend assignments =>
      cases hq
      refine ⟨_, rfl, ?_⟩
      cases he : assignments.isEmpty with
      | true =>
          rw [List.isEmpty_iff.mp he]
          exact h
      | false =>
          rw [extend_eq he, extend_eq he]
          exact h.push rfl (h.schema.foldl_insert _)
  | filter conditions | order conditions =>
      cases hq
      refine ⟨_, rfl, ?_⟩
      simp only [filter, order]
      split
      · exact h
      · exact h.push rfl h.schema
  | count =>
      cases hq
      exact ⟨_, rfl, h.push rfl (Schema.relaxes_refl _)⟩
  | limit n | take n =>
      cases hq
      exact ⟨_, rfl, h.push rfl h.schema⟩
  | evaluate plugin =>
      cases hq
      exact ⟨_, rfl, h.push rfl (.inl rfl)⟩

theorem performAll (h : p.Relaxes r) {calls : List Call} (hq : p.performAll calls = .ok q) :
    ∃ r', r.performAll calls = .ok r' ∧ q.Relaxes r' := by
  induction calls generalizing p r with
  | nil =>
      cases hq
      exact ⟨r, rfl, h⟩
  | cons call more ih =>
      obtain ⟨next, hnext, hq⟩ := bind_eq_ok.mp hq
      obtain ⟨next', hnext', relaxes⟩ := h.perform hnext
      obtain ⟨r', hr', final⟩ := ih relaxes hq
      exact ⟨r', bind_eq_ok.mpr ⟨next', hnext', hr'⟩, final⟩

end Relaxes

/-- Calls that succeed on a table with declared columns succeed on the table without them, and make the
same text. -/
theorem performAll_undeclared {table : String} {database : DatabaseRef} {schema : Schema}
    {calls : List Call} (h : (ofTable table database schema).performAll calls = .ok q) :
    ∃ r, (ofTable table database .undeclared).performAll calls = .ok r ∧ r.render = q.render := by
  have start : (ofTable table database schema).Relaxes (ofTable table database .undeclared) :=
    ⟨rfl, rfl, .inl rfl⟩
  obtain ⟨r, hr, relaxes⟩ := start.performAll h
  exact ⟨r, hr, relaxes.render⟩

/-- The join renames the right column `x` only where the left one is declared. -/
theorem joined_undeclared :
    ∃ q, (ofTable "l" ⟨"c", "d"⟩ (.ofPairs [("x", .string), ("a", .long)])).performAll
        [.join (ofTable "r" ⟨"c", "d"⟩ (.ofPairs [("x", .long)])) ["x"] .fullOuter none,
          .distinctNames ["x1"], .limit 3] = .ok q ∧
      ∃ r, (ofTable "l" ⟨"c", "d"⟩ .undeclared).performAll
        [.join (ofTable "r" ⟨"c", "d"⟩ (.ofPairs [("x", .long)])) ["x"] .fullOuter none,
          .distinctNames ["x1"], .limit 3] = .ok r ∧ r.render = q.render := by
  obtain ⟨q, h⟩ : ∃ q, (ofTable "l" ⟨"c", "d"⟩ (.ofPairs [("x", .string), ("a", .long)])).performAll
      [.join (ofTable "r" ⟨"c", "d"⟩ (.ofPairs [("x", .long)])) ["x"] .fullOuter none,
        .distinctNames ["x1"], .limit 3] = .ok q := ⟨_, rfl⟩
  exact ⟨q, h, performAll_undeclared h⟩

end Pipeline

end Kql
