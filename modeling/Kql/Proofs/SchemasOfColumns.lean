import Kql.Proofs.SchemaNames

/-!
The schema of a list of columns. Columns are added one after another, and one that is mentioned again
takes the place of the one before it. So the order is that of first mention and the type that of last
mention, wherever the list is cut.
-/

namespace Kql.Schema

theorem mem_columns_ofColumns_iff {columns : List Column} {c : Column} :
    c ∈ (ofColumns columns).columns ↔ Keyed.IsLast Column.name c columns := by
  rw [columns_ofColumns, Keyed.mem_putAll_iff (l := []) List.nodup_nil]
  simp only [List.not_mem_nil, and_false, or_false]

theorem ofColumns_append (columns more : List Column) :
    ofColumns (columns ++ more) = more.foldl insert (ofColumns columns) :=
  List.foldl_append

/-! ## Pairs of a name and a type -/

theorem names_ofPairs (pairs : List (String × ScalarType)) :
    (ofPairs pairs).names = (pairs.map Prod.fst).eraseDups := by
  rw [ofPairs, names_ofColumns, List.map_map]
  rfl

theorem mem_columns_ofPairs_iff {pairs : List (String × ScalarType)} {c : Column} :
    c ∈ (ofPairs pairs).columns ↔ Keyed.IsLast Prod.fst (c.name, c.type) pairs := by
  rw [ofPairs, mem_columns_ofColumns_iff, Keyed.isLast_map_iff]
  constructor
  · rintro ⟨⟨name, type⟩, rfl, last⟩
    exact last
  · intro last
    exact ⟨(c.name, c.type), rfl, last⟩

/-! ## Whole lists -/

/-- The schema is closed, has every name that is listed once, in the order of first mention, and under
each name the last column that is listed with it. Columns that are added to it come to what they come
to at the end of the list. -/
theorem schema_of_listed (columns more : List Column) (pairs : List (String × ScalarType)) :
    ((ofColumns columns).isOpen = false ∧
      (ofColumns columns).names = (columns.map Column.name).eraseDups ∧
      (∀ c, c ∈ (ofColumns columns).columns ↔ Keyed.IsLast Column.name c columns) ∧
      more.foldl insert (ofColumns columns) = ofColumns (columns ++ more)) ∧
    (ofPairs pairs).isOpen = false ∧
      (ofPairs pairs).names = (pairs.map Prod.fst).eraseDups ∧
      ∀ c, c ∈ (ofPairs pairs).columns ↔ Keyed.IsLast Prod.fst (c.name, c.type) pairs := by
  refine ⟨⟨?_, ?_, ?_, ?_⟩, ?_, ?_, ?_⟩
  · exact isOpen_ofColumns columns
  · exact names_ofColumns columns
  · exact fun c => mem_columns_ofColumns_iff
  · exact (ofColumns_append columns more).symm
  · exact isOpen_ofColumns _
  · exact names_ofPairs pairs
  · exact fun c => mem_columns_ofPairs_iff

-- The second `a` gives its type to the first one.
example : ofPairs [("a", .long), ("b", .real), ("a", .string)] =
    ⟨[⟨"a", .string⟩, ⟨"b", .real⟩], false⟩ := by
  decide

end Kql.Schema
