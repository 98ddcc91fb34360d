import Kql.Proofs.ColumnLookup
import Kql.Proofs.OutputColumns

/-!
Which type a column gets when it is listed by a handle. A handle that is listed only names a column, and
the schema says of which type it is. A handle that defines a new name is an expression, with the type it
was made with. The two differ once the column of that name was replaced by one of another type, so a
column that is renamed to itself is the one that is listed as long as its handle is not out of date.
-/

namespace Kql.Pipeline

variable {p : Pipeline} {handles : List Column}

/-- The handle is the column that the schema has under its name. -/
def Current (p : Pipeline) (c : Column) : Prop := p.schema.get? c.name = some c

/-- Each column under its own name. -/
def selfRenames (handles : List Column) : Projection :=
  ⟨[], handles.map fun c => (c.name, .column c)⟩

theorem current_of_column {c : Column} {name : String} (h : p.column name = .ok c) : p.Current c := by
  have found := column_eq_ok_iff.mp h
  have named : c.name = name := by simpa using List.find?_some found
  rw [Current, named, found]

theorem known_eq_self_iff {c : Column} (present : c.name ∈ p.schema.names) :
    p.known c = c ↔ p.Current c := by
  obtain ⟨d, found⟩ := Schema.exists_get?_iff.mpr present
  rw [known, Current, found, Option.getD_some, Option.some_inj]

theorem assigned_selfRenames (handles : List Column) :
    assigned (selfRenames handles).renames = handles := by
  rw [assigned, selfRenames, List.map_map]
  exact List.map_id'' (fun _ => rfl) handles

theorem exists_project_listed (present : ∀ c ∈ handles, c.name ∈ p.schema.names) :
    ∃ q, p.project (.ofColumns handles) = .ok q := by
  rw [(p.checked_project _).exists_ok_iff]
  intro l hl rejected
  obtain ⟨c, hc, rfl⟩ := List.mem_map.mp hl
  have listed : c ∈ handles := by
    rwa [← handles_ofColumns handles]
  exact rejected.2 (present c listed)

/-- The schema behind a `project` whose columns have different names. -/
theorem schema_eq_of_project {projection : Projection} {columns : List Column} {q : Pipeline}
    (h : p.project projection = .ok q)
    (listed : (plainColumns projection.items).map p.known ++ assigned projection.renames = columns)
    (distinct : (columns.map Column.name).Nodup) : q.schema = ⟨columns, false⟩ := by
  have whole := schema_project h
  rw [listed] at whole
  rw [whole, ← Schema.isOpen_ofColumns columns]
  exact congrArg (Schema.mk · _) (Schema.columns_ofColumns_of_nodup distinct)

/-- Both ways of listing columns of the schema give the same names in the same order. Listed columns have
the types of the schema and renamed ones those of their handles, so the schemas are the same exactly
when every handle is current. -/
theorem project_selfRenames_iff (distinct : (handles.map Column.name).Nodup)
    (present : ∀ c ∈ handles, c.name ∈ p.schema.names) :
    ∃ listed renamed, p.project (.ofColumns handles) = .ok listed ∧
      p.project (selfRenames handles) = .ok renamed ∧
      listed.schema = ⟨handles.map p.known, false⟩ ∧ renamed.schema = ⟨handles, false⟩ ∧
      (listed.schema = renamed.schema ↔ ∀ c ∈ handles, p.Current c) := by
  obtain ⟨listed, hlisted⟩ := exists_project_listed present
  obtain ⟨renamed, hrenamed⟩ : ∃ q, p.project (selfRenames handles) = .ok q := ⟨_, rfl⟩
  have schemaListed : listed.schema = ⟨handles.map p.known, false⟩ := by
    refine schema_eq_of_project hlisted ?_ ?_
    · exact (List.append_nil _).trans (congrArg (List.map p.known) (handles_ofColumns handles))
    · rwa [map_name_known]
  have schemaRenamed : renamed.schema = ⟨handles, false⟩ :=
    schema_eq_of_project hrenamed (assigned_selfRenames handles) distinct
  refine ⟨listed, renamed, hlisted, hrenamed, schemaListed, schemaRenamed, ?_⟩
  have pointwise : handles.map p.known = handles ↔ ∀ c ∈ handles, p.known c = c := by
    simpa using List.map_inj_left (l := handles) (f := p.known) (g := id)
  rw [schemaListed, schemaRenamed, Schema.mk.injEq, and_iff_left rfl, pointwise]
  exact forall₂_congr fun c hc => known_eq_self_iff (present c hc)

/-- The column `a` is replaced by a text, and a handle from before that still holds its number. -/
theorem stale_handle_renamed :
    ¬ ∀ (p : Pipeline) (handles : List Column), p.Reachable → (handles.map Column.name).Nodup →
      (∀ c ∈ handles, c.name ∈ p.schema.names) →
      ∃ listed renamed, p.project (.ofColumns handles) = .ok listed ∧
        p.project (selfRenames handles) = .ok renamed ∧ listed.schema = renamed.schema := by
  intro agree
  have reached : ((declared "t" [⟨"a", .long⟩]).extend
      [("a", .literal (.string "x"))]).Reachable := by
    refine @Reachable.perform _ _ (.extend _) (reachable_declared "t" _) ?_ rfl
    rintro right ⟨⟩
  obtain ⟨listed, renamed, hlisted, hrenamed, same⟩ :=
    agree _ [⟨"a", .long⟩] reached (by decide) (by decide)
  cases hlisted
  cases hrenamed
  revert same
  decide

theorem current_handles_renamed :
    ∃ p c, (declared "t" [⟨"a", .long⟩, ⟨"b", .real⟩]).extend
        [("a", .literal (.string "x"))] = p ∧ p.column "a" = .ok c ∧ p.Current c ∧
      ∃ listed renamed, p.project (.ofColumns [⟨"b", .real⟩, c]) = .ok listed ∧
        p.project (selfRenames [⟨"b", .real⟩, c]) = .ok renamed ∧ listed.schema = renamed.schema := by
  obtain ⟨p, extended⟩ : ∃ p, (declared "t" [⟨"a", .long⟩, ⟨"b", .real⟩]).extend
      [("a", .literal (.string "x"))] = p := ⟨_, rfl⟩
  have known : p.column "a" = .ok ⟨"a", .string⟩ := by
    rw [← extended]
    rfl
  have current := current_of_column known
  have currentB : p.Current ⟨"b", .real⟩ := by
    rw [← extended]
    rfl
  have present : ∀ c ∈ [Column.mk "b" .real, ⟨"a", .string⟩], c.name ∈ p.schema.names := by
    rw [← extended]
    decide
  obtain ⟨listed, renamed, hlisted, hrenamed, -, -, same⟩ :=
    @project_selfRenames_iff p [⟨"b", .real⟩, ⟨"a", .string⟩] (by decide) present
  refine ⟨p, _, extended, known, current, listed, renamed, hlisted, hrenamed, same.mpr ?_⟩
  simp [current, currentB]

end Kql.Pipeline
