import Kql.Join
import Kql.Proofs.FallibleSteps
import Kql.Proofs.KeyedEntries
import Kql.Schema.OfJson

/-!
Column names never repeat. A schema can be made only by the operations listed in `Constructed`, and
each of them puts a column in the place of the one with its name, so no name comes twice.
-/

namespace Kql

namespace Schema

/-- The schemas that can be made. -/
inductive Constructed : Schema → Prop
  | empty : Constructed empty
  | undeclared : Constructed undeclared
  | ofColumns (columns : List Column) : Constructed (ofColumns columns)
  | ofPairs (pairs : List (String × ScalarType)) : Constructed (ofPairs pairs)
  | ofJson {json : Json} {s : Schema} : ofJson json = .ok s → Constructed s
  | insert {s : Schema} (c : Column) : Constructed s → Constructed (s.insert c)
  | opened {s : Schema} : Constructed s → Constructed s.opened

/-! ## Lookups -/

theorem contains_iff {s : Schema} {name : String} : s.contains name = true ↔ name ∈ s.names := by
  simp [contains, get?, Keyed.find?, names]

theorem get?_eq_none_iff {s : Schema} {name : String} : s.get? name = none ↔ name ∉ s.names := by
  rw [← contains_iff, contains, Bool.not_eq_true, Option.isSome_eq_false_iff, Option.isNone_iff_eq_none]

theorem exists_get?_iff {s : Schema} {name : String} :
    (∃ c, s.get? name = some c) ↔ name ∈ s.names := by
  rw [← contains_iff, contains, Option.isSome_iff_exists]

/-! ## Columns that are added -/

theorem nodup_names_insert {s : Schema} (h : s.names.Nodup) (c : Column) :
    (s.insert c).names.Nodup :=
  Keyed.nodup_map_put Column.name c s.columns h

theorem columns_foldl_insert (s : Schema) (columns : List Column) :
    (columns.foldl insert s).columns = Keyed.putAll Column.name columns s.columns := by
  induction columns generalizing s with
  | nil => rfl
  | cons c rest ih => exact ih (s.insert c)

theorem nodup_names_foldl_insert {s : Schema} (h : s.names.Nodup) (columns : List Column) :
    (columns.foldl insert s).names.Nodup := by
  rw [names, columns_foldl_insert]
  exact Keyed.nodup_map_putAll Column.name columns h

theorem isOpen_foldl_insert (s : Schema) (columns : List Column) :
    (columns.foldl insert s).isOpen = s.isOpen := by
  induction columns generalizing s with
  | nil => rfl
  | cons c more ih => exact ih (s.insert c)

theorem foldl_insert_eq (s : Schema) (columns : List Column) :
    columns.foldl insert s = ⟨Keyed.putAll Column.name columns s.columns, s.isOpen⟩ := by
  rw [← columns_foldl_insert, ← isOpen_foldl_insert s columns]

/-! ## The schema of a list of columns -/

theorem isOpen_ofColumns (columns : List Column) : (ofColumns columns).isOpen = false :=
  isOpen_foldl_insert empty columns

theorem columns_ofColumns (columns : List Column) :
    (ofColumns columns).columns = Keyed.putAll Column.name columns [] :=
  columns_foldl_insert empty columns

theorem nodup_names_ofColumns (columns : List Column) : (ofColumns columns).names.Nodup :=
  nodup_names_foldl_insert (s := empty) List.nodup_nil columns

theorem names_ofColumns (columns : List Column) :
    (ofColumns columns).names = (columns.map Column.name).eraseDups := by
  rw [names, columns_ofColumns, Keyed.map_putAll_nil]

/-- The last column of a name counts. -/
theorem get?_ofColumns (columns : List Column) (name : String) :
    (ofColumns columns).get? name = Keyed.find? Column.name name columns.reverse := by
  rw [get?, columns_ofColumns, Keyed.find?_putAll]
  exact Option.or_none

theorem ofColumns_of_nodup {columns : List Column} (h : (columns.map Column.name).Nodup) :
    ofColumns columns = ⟨columns, false⟩ :=
  (foldl_insert_eq empty columns).trans (congrArg (mk · false) (Keyed.putAll_eq_append h))

theorem columns_ofColumns_of_nodup {columns : List Column}
    (h : (columns.map Column.name).Nodup) : (ofColumns columns).columns = columns := by
  rw [ofColumns_of_nodup h]

/-! ## The schemas that can be made -/

/-- A description in JSON is read into a list of columns first. -/
theorem exists_columns_of_ofJson {json : Json} {s : Schema} (h : ofJson json = .ok s) :
    ∃ columns, s = ofColumns columns := by
  cases json with
  | object fields =>
      rw [ofJson_object] at h
      obtain ⟨columns, -, rfl⟩ := map_eq_ok.mp h
      exact ⟨columns, rfl⟩
  | array entries =>
      rw [ofJson_array] at h
      obtain ⟨columns, -, rfl⟩ := map_eq_ok.mp h
      exact ⟨columns, rfl⟩
  | _ => cases h

theorem Constructed.nodup_names {s : Schema} (h : s.Constructed) : s.names.Nodup := by
  induction h with
  | empty | undeclared => exact List.nodup_nil
  | ofColumns columns => exact nodup_names_ofColumns columns
  | ofPairs pairs => exact nodup_names_ofColumns _
  | ofJson h =>
      obtain ⟨columns, rfl⟩ := exists_columns_of_ofJson h
      exact nodup_names_ofColumns columns
  | insert c _ ih => exact nodup_names_insert ih c
  | opened _ ih => exact ih

/-- Whatever name a column of the right side gets, it is put in by its name. -/
theorem nodup_names_foldl_insertJoined {s : Schema} (h : s.names.Nodup) (columns : List Column) :
    (columns.foldl insertJoined s).names.Nodup := by
  induction columns generalizing s with
  | nil => exact h
  | cons c rest ih =>
      apply ih
      unfold insertJoined
      split
      · exact nodup_names_insert h _
      · exact nodup_names_insert h c

/-- An open right side opens the result and changes none of its columns. -/
theorem columns_join (kind : JoinKind) (left right : Schema) :
    (join kind left right).columns =
      (if kind.keepsRight then
        right.columns.foldl insertJoined (if kind.keepsLeft then left else empty)
      else if kind.keepsLeft then left else empty).columns := by
  unfold join
  cases kind.keepsRight with
  | false => rfl
  | true => cases right.isOpen <;> rfl

theorem nodup_names_join {left : Schema} (h : left.names.Nodup) (kind : JoinKind)
    (right : Schema) : (join kind left right).names.Nodup := by
  have kept : (if kind.keepsLeft then left else empty).names.Nodup := by
    split
    · exact h
    · exact List.nodup_nil
  rw [names, columns_join]
  split
  · exact nodup_names_foldl_insertJoined kept right.columns
  · exact kept

end Schema
end Kql
