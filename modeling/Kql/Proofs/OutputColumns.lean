import Kql.Proofs.Lookups

/-!
The columns that come out of the clauses that list them. `project`, `distinct` and `summarize` make a
closed schema of a list of columns, in which a later column takes the place of an earlier one of its
name, while the clause still lists both. So the schema has a column for everything that is listed
exactly when the names differ. A `summarize` loses a column to group by when an aggregate has its name.
-/

namespace Kql

/-- The name that stands for a listed expression: that of the column, or one made from the text. -/
def Expr.listedName : Expr → String
  | column c => c.name
  | e => e.defaultName

namespace Summarize

def aggregateNames (s : Summarize) : List String := s.aggregates.map Prod.fst

/-- No two aggregates have one name, and none has that of a column to group by. -/
def NamesApart (s : Summarize) : Prop :=
  s.aggregateNames.Nodup ∧ ∀ name ∈ s.aggregateNames, name ∉ s.groupKeys

theorem nodup_unnamed_foldl {s : Summarize} (h : (s.unnamed.map Prod.fst).Nodup)
    (calls : List Call) : ((calls.foldl perform s).unnamed.map Prod.fst).Nodup := by
  induction calls generalizing s with
  | nil => exact h
  | cons call rest ih =>
      apply ih
      cases call with
      | aggregate e => exact Keyed.nodup_map_put Prod.fst _ s.unnamed h
      | aggregateAs _ _ | groupBy _ | shuffle _ | shuffleBy _ | partitionInto _ => exact h

theorem nodup_aggregateNames_ofCalls (calls : List Call) : (ofCalls calls).aggregateNames.Nodup :=
  Keyed.nodup_map_putAll Prod.fst _ (nodup_unnamed_foldl (s := ∅) List.nodup_nil calls)

end Summarize

namespace Pipeline

variable {p q : Pipeline}

/-! ## The schemas of the clauses -/

def listedColumn (p : Pipeline) : Expr → Column
  | .column c => p.known c
  | e => ⟨e.defaultName, e.type⟩

theorem name_listedColumn (p : Pipeline) (e : Expr) : (p.listedColumn e).name = e.listedName := by
  cases e with
  | column c => exact p.name_known c
  | _ => rfl

theorem eq_listedColumn_of_distinctColumn {e : Expr} {c : Column} (h : p.distinctColumn e = .ok c) :
    c = p.listedColumn e := by
  cases e with
  | column c => exact eq_known_of_resolveColumn h
  | _ =>
      cases h
      rfl

theorem schema_project {items : List Expr} {renames : List (String × Expr)}
    (h : p.project ⟨items, renames⟩ = .ok q) :
    q.schema = .ofColumns ((plainColumns items).map p.known ++ assigned renames) := by
  obtain ⟨kept, found, rfl⟩ := project_eq_ok.mp h
  rw [eq_map_of_mapM_eq_ok (fun _ _ => eq_known_of_resolveColumn) found]
  rfl

theorem schema_distinct {items : List Expr} (h : p.distinct items = .ok q) :
    q.schema = .ofColumns (items.map p.listedColumn) := by
  obtain ⟨columns, found, rfl⟩ := distinct_eq_ok.mp h
  rw [eq_map_of_mapM_eq_ok (fun _ _ => eq_listedColumn_of_distinctColumn) found]
  rfl

theorem map_name_assigned (assignments : List (String × Expr)) :
    (assigned assignments).map Column.name = assignments.map Prod.fst :=
  List.map_map

theorem map_name_known (p : Pipeline) (columns : List Column) :
    (columns.map p.known).map Column.name = columns.map Column.name := by
  rw [List.map_map]
  exact List.map_congr_left fun c _ => p.name_known c

theorem map_name_listedColumn (p : Pipeline) (items : List Expr) :
    (items.map p.listedColumn).map Column.name = items.map Expr.listedName := by
  rw [List.map_map]
  exact List.map_congr_left fun e _ => p.name_listedColumn e

/-! ## What `summarize` keeps -/

/-- The columns to group by, each of them once. -/
def groupColumns (p : Pipeline) (s : Summarize) : List Column :=
  s.groupKeys.eraseDups.map p.namedColumn

/-- What comes out of the clause, if its names are let through. -/
def summarizedSchema (p : Pipeline) (s : Summarize) : Schema :=
  .ofColumns (s.groupKeys.map p.namedColumn ++ assigned s.aggregates)

section

variable (p) (s : Summarize)

theorem map_name_groupColumns : (p.groupColumns s).map Column.name = s.groupKeys.eraseDups :=
  p.map_name_namedColumn s.groupKeys.eraseDups

theorem putAll_groupColumns :
    Keyed.putAll Column.name (s.groupKeys.map p.namedColumn) [] = p.groupColumns s :=
  Keyed.putAll_map_nil p.name_namedColumn s.groupKeys

theorem nodup_name_groupColumns : ((p.groupColumns s).map Column.name).Nodup := by
  rw [← putAll_groupColumns]
  exact Keyed.nodup_map_putAll Column.name _ List.nodup_nil

theorem nodup_summarized_iff :
    ((p.groupColumns s ++ assigned s.aggregates).map Column.name).Nodup ↔ s.NamesApart := by
  have groups := p.nodup_name_groupColumns s
  rw [map_name_groupColumns] at groups
  rw [List.map_append, map_name_groupColumns, map_name_assigned, List.nodup_append]
  constructor
  · rintro ⟨-, aggregates, apart⟩
    refine ⟨aggregates, fun name aggregate group => ?_⟩
    exact apart name (List.mem_eraseDups.mpr group) name aggregate rfl
  · rintro ⟨aggregates, apart⟩
    refine ⟨groups, aggregates, ?_⟩
    rintro name group _ aggregate rfl
    exact apart name aggregate (List.mem_eraseDups.mp group)

theorem columns_summarizedSchema :
    (p.summarizedSchema s).columns =
      Keyed.putAll Column.name (assigned s.aggregates) (p.groupColumns s) := by
  rw [summarizedSchema, Schema.columns_ofColumns, Keyed.putAll_append, putAll_groupColumns]

theorem names_summarizedSchema :
    (p.summarizedSchema s).names = (s.groupKeys ++ s.aggregateNames).eraseDups := by
  rw [summarizedSchema, Schema.names_ofColumns, List.map_append, map_name_namedColumn,
    map_name_assigned]
  rfl

theorem get?_summarizedSchema (name : String) :
    (p.summarizedSchema s).get? name =
      ((assigned s.aggregates).reverse.find? fun c => c.name = name).or
        (if name ∈ s.groupKeys then some (p.namedColumn name) else none) := by
  have group := Keyed.find?_map p.name_namedColumn name s.groupKeys.reverse
  simp only [List.mem_reverse] at group
  rw [summarizedSchema, Schema.get?_ofColumns, List.reverse_append, Keyed.find?, List.find?_append,
    ← List.map_reverse, ← group]
  rfl

theorem columns_summarizedSchema_eq_iff :
    (p.summarizedSchema s).columns = p.groupColumns s ++ assigned s.aggregates ↔ s.NamesApart := by
  rw [columns_summarizedSchema, Keyed.putAll_eq_append_iff (p.nodup_name_groupColumns s),
    nodup_summarized_iff]

theorem size_summarizedSchema_eq_iff :
    (p.summarizedSchema s).size = s.groupKeys.eraseDups.length + s.aggregates.length ↔
      s.NamesApart := by
  have groups : s.groupKeys.eraseDups.length = (p.groupColumns s).length := by
    rw [groupColumns, List.length_map]
  have aggregates : s.aggregates.length = (assigned s.aggregates).length := by
    rw [assigned, List.length_map]
  rw [Schema.size, columns_summarizedSchema, groups, aggregates,
    Keyed.length_putAll_iff (p.nodup_name_groupColumns s), nodup_summarized_iff]

end

theorem schema_summarize {s : Summarize} (h : p.summarize s = .ok q) :
    q.schema = p.summarizedSchema s := by
  obtain ⟨groups, found, -, rfl⟩ := summarize_eq_ok.mp h
  rw [eq_map_of_mapM_resolve found]
  rfl

/-- Names stand in the order of first mention, those to group by before those of the aggregates. The
column of a name is the last aggregate of that name, or the column to group by where there is none. So
all columns come out exactly when the names are apart, and there are too few of them otherwise. A clause
that is put together by calls names its aggregates apart from each other, so that only a column to group
by can have the name of one. -/
theorem summarize_keepsColumns_iff {s : Summarize} (h : p.summarize s = .ok q) :
    q.schema.isOpen = false ∧
      q.schema.names = (s.groupKeys ++ s.aggregateNames).eraseDups ∧
      (∀ name, q.schema.get? name =
        ((assigned s.aggregates).reverse.find? fun c => c.name = name).or
          (if name ∈ s.groupKeys then some (p.namedColumn name) else none)) ∧
      (q.schema.columns = p.groupColumns s ++ assigned s.aggregates ↔ s.NamesApart) ∧
      (q.schema.size = s.groupKeys.eraseDups.length + s.aggregates.length ↔ s.NamesApart) ∧
      ∀ calls, s = .ofCalls calls →
        (s.NamesApart ↔ ∀ name ∈ s.aggregateNames, name ∉ s.groupKeys) := by
  rw [schema_summarize h]
  refine ⟨Schema.isOpen_ofColumns _, p.names_summarizedSchema s, p.get?_summarizedSchema s,
    p.columns_summarizedSchema_eq_iff s, p.size_summarizedSchema_eq_iff s, ?_⟩
  rintro calls rfl
  exact and_iff_right (Summarize.nodup_aggregateNames_ofCalls calls)

theorem summarize_keeps_repeated_group :
    ∃ q, (declared "t" [⟨"foo", .string⟩, ⟨"bar", .int⟩]).summarize (.ofCalls
        [.groupBy ["foo", "foo"], .aggregateAs "total" (Column.sum ⟨"bar", .int⟩),
          .aggregate (Column.dcount ⟨"bar", .int⟩)]) = .ok q ∧
      q.schema.columns = [⟨"foo", .string⟩, ⟨"dcount_bar", .long⟩, ⟨"total", .int⟩] := by
  obtain ⟨q, h⟩ : ∃ q, (declared "t" [⟨"foo", .string⟩, ⟨"bar", .int⟩]).summarize (.ofCalls
      [.groupBy ["foo", "foo"], .aggregateAs "total" (Column.sum ⟨"bar", .int⟩),
        .aggregate (Column.dcount ⟨"bar", .int⟩)]) = .ok q := ⟨_, rfl⟩
  obtain ⟨-, -, -, columns, -, apart⟩ := summarize_keepsColumns_iff h
  have free := (apart _ rfl).mpr (by decide +kernel)
  refine ⟨q, h, (columns.mpr free).trans ?_⟩
  decide +kernel

/-- The sum stands in the place of the column `foo` to group by, though the text lists both. -/
theorem summarize_loses_group_column :
    ∃ s q, s = Summarize.ofCalls [.aggregateAs "foo" (Column.sum ⟨"bar", .long⟩), .groupBy ["foo"]] ∧
      (declared "t" [⟨"foo", .string⟩, ⟨"bar", .long⟩]).summarize s = .ok q ∧
      s.render = "| summarize\n\tfoo=sum(bar)\n\tby foo" ∧ q.schema.columns = [⟨"foo", .long⟩] ∧
      q.schema.size ≠ s.groupKeys.eraseDups.length + s.aggregates.length :=
  ⟨_, _, rfl, rfl, by decide +kernel, by decide, by decide⟩

/-! ## What `project` and `distinct` keep -/

theorem length_plainColumns (items : List Expr) :
    (plainColumns items).length + (items.filter fun e => e.column?.isNone).length =
      items.length := by
  induction items with
  | nil => rfl
  | cons e rest ih =>
      unfold plainColumns at ih ⊢
      cases plain : e.column? with
      | none => simp [plain, ← ih, Nat.add_assoc]
      | some c => simp [plain, ← ih, Nat.add_right_comm]

/-- Where the names differ, the schema behind a `project` lists the plain columns and the new names, and
nothing that the clause lists is missing but what it computes without a name. The schema behind a
`distinct` lists what is computed, too. -/
theorem listed_columns_complete (p : Pipeline) (items : List Expr) (renames : List (String × Expr)) :
    (∀ q, p.project ⟨items, renames⟩ = .ok q →
      ((plainColumns items).map Column.name ++ renames.map Prod.fst).Nodup →
        q.schema.isOpen = false ∧
          q.schema.columns = (plainColumns items).map p.known ++ assigned renames ∧
          q.schema.size + (items.filter fun e => e.column?.isNone).length =
            (Projection.entries ⟨items, renames⟩).length) ∧
      ∀ q, p.distinct items = .ok q → (items.map Expr.listedName).Nodup →
        q.schema.isOpen = false ∧ q.schema.columns = items.map p.listedColumn := by
  constructor
  · intro q h distinct
    have columns : q.schema.columns = (plainColumns items).map p.known ++ assigned renames := by
      rw [schema_project h]
      apply Schema.columns_ofColumns_of_nodup
      rwa [List.map_append, map_name_known, map_name_assigned]
    refine ⟨?_, columns, ?_⟩
    · rw [schema_project h]
      exact Schema.isOpen_ofColumns _
    · have plain := length_plainColumns items
      simp only [Schema.size, columns, Projection.entries, assigned, List.length_append, List.length_map]
      omega
  · intro q h distinct
    rw [schema_distinct h]
    refine ⟨Schema.isOpen_ofColumns _, Schema.columns_ofColumns_of_nodup ?_⟩
    rwa [map_name_listedColumn]

theorem listed_sum_complete :
    (∃ q, (declared "t" [⟨"a", .long⟩, ⟨"b", .real⟩]).project
        ⟨[Expr.column ⟨"b", .real⟩, Expr.column ⟨"a", .long⟩ + Expr.literal (.long 1)],
          [("c", .column ⟨"a", .long⟩)]⟩ = .ok q ∧
      q.schema.columns = [⟨"b", .real⟩, ⟨"c", .long⟩]) ∧
    ∃ q, (declared "t" [⟨"a", .long⟩, ⟨"b", .real⟩]).distinct
        [Expr.column ⟨"b", .real⟩, Expr.column ⟨"a", .long⟩ + Expr.literal (.long 1)] = .ok q ∧
      q.schema.columns = [⟨"b", .real⟩, ⟨"a___1", .long⟩] := by
  obtain ⟨projected, distinct⟩ := listed_columns_complete
    (declared "t" [⟨"a", .long⟩, ⟨"b", .real⟩])
    [Expr.column ⟨"b", .real⟩, Expr.column ⟨"a", .long⟩ + Expr.literal (.long 1)]
    [("c", .column ⟨"a", .long⟩)]
  refine ⟨⟨_, rfl, ?_⟩, ⟨_, rfl, ?_⟩⟩
  · exact (projected _ rfl (by decide)).2.1
  · refine (distinct _ rfl (by decide +kernel)).2.trans ?_
    decide +kernel

/-- A sum that is listed has no column behind `project`. A sum and a difference have the same one behind
`distinct`, and so have two handles of one name behind `project`. -/
theorem listed_columns_missing :
    (∃ q, (declared "t" [⟨"a", .long⟩, ⟨"b", .long⟩]).project
        ⟨[Expr.column ⟨"a", .long⟩ + Expr.literal (.long 1)], []⟩ = .ok q ∧
      q.schema = .empty) ∧
    (Expr.column ⟨"a", .long⟩ + Expr.column ⟨"b", .long⟩ ≠
        Expr.column ⟨"a", .long⟩ - Expr.column ⟨"b", .long⟩ ∧
      ∃ q, (declared "t" [⟨"a", .long⟩, ⟨"b", .long⟩]).distinct
          [Expr.column ⟨"a", .long⟩ + Expr.column ⟨"b", .long⟩,
            Expr.column ⟨"a", .long⟩ - Expr.column ⟨"b", .long⟩] = .ok q ∧
        q.schema.isOpen = false ∧ q.schema.columns = [⟨"a___b", .long⟩]) ∧
    (Expr.column ⟨"a", .long⟩ ≠ Expr.column ⟨"a", .string⟩ ∧
      ∃ q, (declared "t" [⟨"a", .long⟩, ⟨"b", .long⟩]).project
          ⟨[Expr.column ⟨"a", .long⟩, Expr.column ⟨"a", .string⟩], []⟩ = .ok q ∧
        q.schema.isOpen = false ∧ q.schema.columns = [⟨"a", .long⟩]) :=
  ⟨⟨_, rfl, rfl⟩, ⟨by rintro ⟨⟩, _, rfl, rfl, by decide +kernel⟩,
    ⟨by rintro ⟨⟩, _, rfl, rfl, by decide⟩⟩

end Pipeline
end Kql
