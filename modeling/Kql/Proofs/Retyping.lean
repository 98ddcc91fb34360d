import Kql.Proofs.Relaxation
import Kql.Proofs.TypeErasure

/-!
Types do not decide what happens. A run is compared with the run of the same calls on the same table
after the types of columns were changed anywhere: in the schema, in the expressions, in the tables to
join with. Names are looked up, put in order and suffixed without regard to types, so both runs go
equally far, fail for the same name, and have the same text and column names at every step.
-/

namespace Kql

theorem forall₂_map {α β : Type} {R : α → β → Prop} {f : α → β} (h : ∀ a, R a (f a)) (l : List α) :
    List.Forall₂ R l (l.map f) :=
  List.forall₂_map_right_iff.mpr (List.forall₂_same.mpr fun a _ => h a)

theorem forall₂_of_map_eq {α γ : Type} {f : α → γ} {l l' : List α} (h : l'.map f = l.map f) :
    List.Forall₂ (fun a a' => f a' = f a) l l' := by
  have flipped : List.Forall₂ (fun a' a => f a' = f a) l' l := by
    rw [← List.forall₂_map_left_iff (f := f) (R := fun c a => c = f a),
      ← List.forall₂_map_right_iff (f := f) (R := Eq), List.forall₂_eq_eq_eq]
    exact h
  exact flipped.flip

theorem Column.sameName_untyped (c : Column) : c.SameName c.untyped := rfl

namespace Schema

variable {s t : Schema} {columns columns' : List Column}

/-- The schemas have the same names in the same order, and both are open or both are closed. -/
structure Alike (s t : Schema) : Prop where
  names : t.names = s.names
  isOpen : t.isOpen = s.isOpen

theorem alike_untyped (s : Schema) : s.Alike s.untyped where
  names := by
    rw [names, untyped, List.map_map]
    rfl
  isOpen := rfl

namespace Alike

theorem sameNames (h : s.Alike t) : List.Forall₂ Column.SameName s.columns t.columns :=
  forall₂_of_map_eq h.names

theorem ofColumns (same : List.Forall₂ Column.SameName columns columns') :
    Alike (.ofColumns columns) (.ofColumns columns') where
  names := names_foldl_insert_congr rfl same
  isOpen := by rw [Schema.ofColumns, Schema.ofColumns, isOpen_foldl_insert, isOpen_foldl_insert]

theorem foldl_insert (h : s.Alike t) (same : List.Forall₂ Column.SameName columns columns') :
    Alike (columns.foldl insert s) (columns'.foldl insert t) where
  names := names_foldl_insert_congr h.names same
  isOpen := by rw [isOpen_foldl_insert, isOpen_foldl_insert, h.isOpen]

theorem opened (h : s.Alike t) : s.opened.Alike t.opened := ⟨h.names, rfl⟩

theorem join (h : s.Alike t) (kind : JoinKind) {right right' : Schema} (hr : right.Alike right') :
    Alike (.join kind s right) (.join kind t right') where
  names := names_join_congr h.names kind hr.sameNames
  isOpen := by rw [isOpen_join, isOpen_join, h.isOpen, hr.isOpen]

end Alike

end Schema

namespace Pipeline

/-- Both fail for the same name that the same table does not have, or both succeed with results that are
related. -/
inductive SameOutcome {α β : Type} (R : α → β → Prop) : Except Error α → Except Error β → Prop
  | unknown (table column : String) :
      SameOutcome R (.error (.unknownColumn table column)) (.error (.unknownColumn table column))
  | ok {a : α} {b : β} : R a b → SameOutcome R (.ok a) (.ok b)

namespace SameOutcome

variable {α α' β β' : Type} {R : α → α' → Prop} {S : β → β' → Prop}
  {x : Except Error α} {x' : Except Error α'}

theorem bind {f : α → Except Error β} {f' : α' → Except Error β'} (hx : SameOutcome R x x')
    (hf : ∀ a a', R a a' → SameOutcome S (f a) (f' a')) : SameOutcome S (x >>= f) (x' >>= f') := by
  cases hx with
  | unknown table column => exact .unknown table column
  | ok related => exact hf _ _ related

theorem discard (hx : SameOutcome R x x') :
    SameOutcome (fun _ _ => True) (discard x) (discard x') := by
  cases hx with
  | unknown table column => exact .unknown table column
  | ok _ => exact .ok trivial

theorem mapM {f : α → Except Error β} {f' : α' → Except Error β'} {as : List α} {as' : List α'}
    (has : List.Forall₂ R as as') (hf : ∀ a a', R a a' → SameOutcome S (f a) (f' a')) :
    SameOutcome (List.Forall₂ S) (as.mapM f) (as'.mapM f') := by
  induction has with
  | nil => exact .ok .nil
  | cons ha _ ih =>
      rw [List.mapM_cons, List.mapM_cons]
      exact (hf _ _ ha).bind fun _ _ hb => ih.bind fun _ _ hbs => .ok (.cons hb hbs)

theorem forM {f f' : α → Except Error Unit}
    (hf : ∀ a, SameOutcome (fun _ _ => True) (f a) (f' a)) (as : List α) :
    SameOutcome (fun _ _ => True) (as.forM f) (as.forM f') := by
  induction as with
  | nil => exact .ok trivial
  | cons a rest ih => exact (hf a).bind fun _ _ _ => ih

/-- Two results that go as a third one does. -/
theorem compare {T : α → β → Prop} {U : β' → β → Prop} {V : α → β' → Prop}
    {y : Except Error β'} {z : Except Error β} (hx : SameOutcome T x z) (hy : SameOutcome U y z)
    (h : ∀ a b' b, T a b → U b' b → V a b') : SameOutcome V x y := by
  cases hx with
  | unknown table column =>
      cases hy
      exact .unknown table column
  | ok ht =>
      cases hy with
      | ok hu => exact .ok (h _ _ _ ht hu)

end SameOutcome

variable {p r right right' : Pipeline}

/-- The pipelines have the same text, and schemas that differ in nothing but types. -/
structure Alike (p r : Pipeline) : Prop where
  table : r.table = p.table
  database : r.database = p.database
  texts : r.clauses.toList.map Clause.render = p.clauses.toList.map Clause.render
  schema : p.schema.Alike r.schema

theorem alike_untyped (p : Pipeline) : p.Alike p.untyped where
  table := table_untyped p
  database := database_untyped p
  texts := by
    rw [clauses_untyped, List.map_map]
    exact List.map_congr_left fun c _ => c.render_untyped
  schema := by
    rw [schema_untyped]
    exact p.schema.alike_untyped

namespace Alike

theorem render (h : p.Alike r) : r.render = p.render :=
  render_congr (by rw [anchor, anchor, h.table, h.database]) h.texts

theorem push (h : p.Alike r) {clause clause' : Clause} {s t : Schema}
    (same : clause'.render = clause.render) (hs : s.Alike t) :
    (p.push clause s).Alike (r.push clause' t) :=
  ⟨h.table, h.database, texts_push h.texts same s t, hs⟩

theorem resolveColumn (h : p.Alike r) {c c' : Column} (same : c.SameName c') :
    SameOutcome Column.SameName (p.resolveColumn c) (r.resolveColumn c') := by
  have known : (∃ d, r.resolveColumn c' = .ok d) ↔ ∃ d, p.resolveColumn c = .ok d := by
    rw [exists_resolveColumn_iff, exists_resolveColumn_iff, h.schema.isOpen, h.schema.names, same]
  cases hp : p.resolveColumn c with
  | ok d =>
      obtain ⟨d', hr⟩ := known.mpr ⟨d, hp⟩
      rw [hr]
      refine .ok ?_
      rw [Column.SameName, name_of_resolveColumn hr, name_of_resolveColumn hp, same]
  | error e =>
      cases hr : r.resolveColumn c' with
      | ok d' =>
          obtain ⟨d, hd⟩ := known.mp ⟨d', hr⟩
          rw [hp] at hd
          cases hd
      | error e' =>
          obtain ⟨-, -, rfl⟩ := resolveColumn_eq_error.mp hp
          obtain ⟨-, -, rfl⟩ := resolveColumn_eq_error.mp hr
          rw [h.table, same]
          exact .unknown p.table c.name

theorem mapM_resolveColumn (h : p.Alike r) {columns columns' : List Column}
    (same : List.Forall₂ Column.SameName columns columns') :
    SameOutcome (List.Forall₂ Column.SameName) (columns.mapM p.resolveColumn)
      (columns'.mapM r.resolveColumn) :=
  .mapM same fun _ _ => h.resolveColumn

theorem resolve (h : p.Alike r) (name : String) :
    SameOutcome Column.SameName (p.resolve name) (r.resolve name) :=
  h.resolveColumn rfl

theorem mapM_resolve (h : p.Alike r) (names : List String) :
    SameOutcome (List.Forall₂ Column.SameName) (names.mapM p.resolve) (names.mapM r.resolve) := by
  refine .mapM (List.forall₂_same.mpr fun _ _ => rfl) ?_
  rintro name _ rfl
  exact h.resolve name

theorem project (h : p.Alike r) {projection projection' : Projection}
    (same : List.Forall₂ Column.SameName (handles projection) (handles projection'))
    (renamed : List.Forall₂ Column.SameName (assigned projection.renames)
      (assigned projection'.renames))
    (text : projection'.entries = projection.entries) :
    SameOutcome Alike (p.project projection) (r.project projection') := by
  refine (h.mapM_resolveColumn same).bind fun kept kept' sameKept => .ok (h.push ?_ ?_)
  · rw [Clause.render_project, Clause.render_project, text]
  · exact .ofColumns (List.rel_append sameKept renamed)

theorem projectNames (h : p.Alike r) (names : List String) :
    SameOutcome Alike (p.projectNames names) (r.projectNames names) := by
  refine (h.mapM_resolve names).bind fun columns columns' same => h.project ?_ .nil ?_
  · rwa [handles_ofColumns, handles_ofColumns]
  · simp only [Projection.entries, Projection.ofColumns, map_render_column same]

theorem distinct (h : p.Alike r) {items items' : List Expr}
    (same : SameOutcome (List.Forall₂ Column.SameName) (items.mapM p.distinctColumn)
      (items'.mapM r.distinctColumn))
    (texts : items'.map Expr.render = items.map Expr.render) :
    SameOutcome Alike (p.distinct items) (r.distinct items') := by
  refine same.bind fun columns columns' sameColumns => .ok (h.push ?_ (.ofColumns sameColumns))
  rw [Clause.render_distinct, Clause.render_distinct, texts]

theorem distinctNames (h : p.Alike r) (names : List String) :
    SameOutcome Alike (p.distinctNames names) (r.distinctNames names) := by
  refine (h.mapM_resolve names).bind fun columns columns' same => h.distinct ?_ ?_
  · rw [mapM_distinctColumn_column, mapM_distinctColumn_column]
    exact h.mapM_resolveColumn same
  · exact map_render_column same

theorem join (h : p.Alike r) (hr : right.Alike right') (on : List String) (kind : JoinKind)
    (strategy : Option JoinStrategy) :
    SameOutcome Alike (p.join right on kind strategy) (r.join right' on kind strategy) := by
  have keys : SameOutcome (fun _ _ => True) (on.forM (checkKey p right))
      (on.forM (checkKey r right')) :=
    .forM (fun key => (h.resolve key).discard.bind fun _ _ _ => (hr.resolve key).discard) on
  refine keys.bind fun _ _ _ => .ok (h.push ?_ (h.schema.join kind hr.schema))
  rw [Clause.render_join, Clause.render_join, hr.render]

theorem summarize (h : p.Alike r) {s s' : Summarize} (groupKeys : s'.groupKeys = s.groupKeys)
    (shuffleKeys : s'.shuffleKeys = s.shuffleKeys)
    (aggregated : List.Forall₂ Column.SameName (assigned s.aggregates) (assigned s'.aggregates))
    (text : s'.render = s.render) : SameOutcome Alike (p.summarize s) (r.summarize s') := by
  unfold Pipeline.summarize
  rw [groupKeys, shuffleKeys]
  exact (h.mapM_resolve s.groupKeys).bind fun _ _ sameGroups =>
    (h.mapM_resolve s.shuffleKeys).discard.bind fun _ _ _ =>
      .ok (h.push text (.ofColumns (List.rel_append sameGroups aggregated)))

/-! ### Calls with their columns untyped -/

theorem sameNames_assigned (assignments : List (String × Expr)) :
    List.Forall₂ Column.SameName (assigned assignments)
      (assigned (untypedAssignments assignments)) := by
  rw [assigned, assigned, untypedAssignments, List.map_map, List.forall₂_map_left_iff,
    List.forall₂_map_right_iff]
  exact List.forall₂_same.mpr fun _ _ => rfl

theorem handles_untyped (projection : Projection) :
    handles projection.untyped = (handles projection).map Column.untyped := by
  rw [handles, Projection.untyped, handles, List.filterMap_map, List.map_filterMap]
  refine List.filterMap_congr fun e _ => ?_
  cases e <;> rfl

theorem distinctColumn (h : p.Alike r) (e : Expr) :
    SameOutcome Column.SameName (p.distinctColumn e) (r.distinctColumn e.untyped) := by
  have named := e.defaultName_untyped
  cases e with
  | column c => exact h.resolveColumn rfl
  | _ => exact .ok named

theorem extend (h : p.Alike r) (assignments : List (String × Expr)) :
    (p.extend assignments).Alike (r.extend (untypedAssignments assignments)) := by
  cases assignments with
  | nil => exact h
  | cons a more =>
      rw [extend_eq rfl, extend_eq rfl]
      exact h.push (Clause.render_untyped (.extend (a :: more)))
        (h.schema.foldl_insert (sameNames_assigned (a :: more)))

/-- A call goes as it goes with the types erased. -/
theorem perform (h : p.Alike r) (call : Call) :
    SameOutcome Alike (p.perform call) (r.perform call.untyped) := by
  cases call with
  | project projection =>
      refine h.project ?_ (sameNames_assigned projection.renames) projection.entries_untyped
      rw [handles_untyped]
      exact forall₂_map Column.sameName_untyped (handles projection)
  | projectNames names => exact h.projectNames names
  | distinct items =>
      refine h.distinct (.mapM (forall₂_map (R := fun e e' => e' = e.untyped) (fun _ => rfl) items) ?_)
        (Expr.map_render_untyped items)
      rintro e _ rfl
      exact h.distinctColumn e
  | distinctNames names => exact h.distinctNames names
  | join right on kind strategy => exact h.join right.alike_untyped on kind strategy
  | summarize s =>
      refine h.summarize rfl rfl ?_ s.render_untyped
      rw [Summarize.aggregates_untyped]
      exact sameNames_assigned s.aggregates
  | extend assignments => exact .ok (h.extend assignments)
  | filter conditions =>
      cases conditions with
      | nil => exact .ok h
      | cons c more => exact .ok (h.push (Clause.render_untyped (.filter (c :: more))) h.schema)
  | order keys =>
      cases keys with
      | nil => exact .ok h
      | cons key more => exact .ok (h.push (Clause.render_untyped (.order (key :: more))) h.schema)
  | count => exact .ok (h.push rfl ⟨rfl, rfl⟩)
  | limit n | take n => exact .ok (h.push rfl h.schema)
  | evaluate plugin => exact .ok (h.push (Clause.render_untyped (.evaluate plugin)) h.schema.opened)

theorem performAll (h : p.Alike r) (calls : List Call) :
    SameOutcome Alike (p.performAll calls) (r.performAll (calls.map Call.untyped)) := by
  induction calls generalizing p r with
  | nil => exact .ok h
  | cons call more ih => exact (h.perform call).bind fun _ _ next => ih next

end Alike

/-- Where two tables and two sequences of calls are the same but for the types of columns, so is what
comes of them: up to every call they have the same text and column names, or fail for the same name. -/
theorem performAll_retyped {p p' : Pipeline} {calls calls' : List Call}
    (start : p'.untyped = p.untyped) (same : calls'.map Call.untyped = calls.map Call.untyped)
    (n : ℕ) :
    SameOutcome
      (fun q q' => q'.render = q.render ∧ q'.schema.names = q.schema.names ∧
        q'.schema.isOpen = q.schema.isOpen)
      (p.performAll (calls.take n)) (p'.performAll (calls'.take n)) := by
  have run := p.alike_untyped.performAll (calls.take n)
  have run' := p'.alike_untyped.performAll (calls'.take n)
  rw [start, List.map_take, same, ← List.map_take] at run'
  refine run.compare run' fun q q' u h h' => ⟨?_, ?_, ?_⟩
  · rw [← h'.render, h.render]
  · rw [← h'.schema.names, h.schema.names]
  · rw [← h'.schema.isOpen, h.schema.isOpen]

/-- The sum is named after its column and the right key gets a suffix, whatever their types are. -/
theorem joined_retyped :
    ∃ q q', (ofTable "l" ⟨"c", "d"⟩ (.ofPairs [("k", .string), ("a", .long)])).performAll
        [.join (ofTable "r" ⟨"c", "d"⟩ (.ofPairs [("k", .string)])) ["k"] .inner none,
          .summarize (.ofCalls [.aggregate (Column.sum ⟨"a", .long⟩), .groupBy ["k1"]])] = .ok q ∧
      (ofTable "l" ⟨"c", "d"⟩ (.ofPairs [("k", .guid), ("a", .real)])).performAll
        [.join (ofTable "r" ⟨"c", "d"⟩ (.ofPairs [("k", .int)])) ["k"] .inner none,
          .summarize (.ofCalls [.aggregate (Column.sum ⟨"a", .bool⟩), .groupBy ["k1"]])] = .ok q' ∧
      q'.schema ≠ q.schema ∧ q'.schema.names = q.schema.names ∧ q'.render = q.render := by
  have start : (ofTable "l" ⟨"c", "d"⟩ (.ofPairs [("k", .guid), ("a", .real)])).untyped =
      (ofTable "l" ⟨"c", "d"⟩ (.ofPairs [("k", .string), ("a", .long)])).untyped := rfl
  have same :
      [Call.join (ofTable "r" ⟨"c", "d"⟩ (.ofPairs [("k", .int)])) ["k"] .inner none,
          .summarize (.ofCalls [.aggregate (Column.sum ⟨"a", .bool⟩), .groupBy ["k1"]])].map
          Call.untyped =
        [Call.join (ofTable "r" ⟨"c", "d"⟩ (.ofPairs [("k", .string)])) ["k"] .inner none,
          .summarize (.ofCalls [.aggregate (Column.sum ⟨"a", .long⟩), .groupBy ["k1"]])].map
          Call.untyped := by
    simp only [List.map_cons, List.map_nil, Call.untyped, ← Summarize.ofCalls_untyped]
    rfl
  have retyped := performAll_retyped start same 2
  refine ⟨_, _, rfl, rfl, by decide, ?_⟩
  cases retyped with
  | ok faces => exact ⟨faces.2.1, faces.1⟩

end Pipeline
end Kql
