import Kql.Proofs.JoinColumns
import Mathlib.Data.Finset.Card

/-!
A name identifies a column. The columns are held as a list, and looking up a name takes the first one
that has it. That this is the only one rests on the names not repeating, in every schema that can be
made and behind every run of builder calls.
-/

namespace Kql

namespace Schema

/-- Every column is the only one of its name, and it is the one that its name finds. -/
structure Identified (s : Schema) : Prop where
  distinct : s.names.Nodup
  size_eq : s.size = s.names.toFinset.card
  found : ∀ name, (∃ c, s.get? name = some c) ↔ name ∈ s.names
  only : ∀ name c, s.get? name = some c ↔ s.columns.filter (fun d => d.name = name) = [c]

variable {s : Schema}

theorem identified_of_nodup (h : s.names.Nodup) : s.Identified where
  distinct := h
  size_eq := by rw [List.toFinset_card_of_nodup h, size_eq_length_names]
  found _ := exists_get?_iff
  only _ _ := Keyed.find?_eq_some_iff h

end Schema

namespace Pipeline

variable {p : Pipeline} {name : String}

theorem column_eq_ok_iff {c : Column} : p.column name = .ok c ↔ p.schema.get? name = some c := by
  unfold column
  cases p.schema.get? name <;> simp

theorem column_eq_error_iff {e : Error} :
    p.column name = .error e ↔ p.schema.get? name = none ∧ e = .unknownColumn p.table name := by
  unfold column
  cases p.schema.get? name <;> simp [eq_comm]

/-- In a schema that was made, and in that of a pipeline that was built, no name comes twice, and what
a name finds is the one column that has it. A name that no column has is refused. -/
theorem names_identify_columns :
    (∀ s : Schema, s.Constructed → s.Identified) ∧
      ∀ p : Pipeline, p.Reachable → p.schema.Identified ∧ ∀ name,
        (∀ c, p.column name = .ok c ↔
          p.schema.columns.filter (fun d => d.name = name) = [c]) ∧
        ∀ e, p.column name = .error e ↔
          name ∉ p.schema.names ∧ e = .unknownColumn p.table name := by
  refine ⟨fun s made => Schema.identified_of_nodup made.nodup_names, fun p built => ?_⟩
  have identified := Schema.identified_of_nodup built.nodup_names
  refine ⟨identified, fun name => ⟨fun c => ?_, fun e => ?_⟩⟩
  · rw [column_eq_ok_iff]
    exact identified.only name c
  · rw [column_eq_error_iff, Schema.get?_eq_none_iff]

/-- The right `x` was put over the left `x1`, which leaves one column of that name. -/
theorem joined_columns_identified :
    (Schema.ofPairs [("x", .string), ("x", .long)]).Identified ∧
      ∃ q, (declared "l" [⟨"x", .string⟩, ⟨"x1", .long⟩]).join (declared "r" [⟨"x", .string⟩]) ["x"]
          .inner none = .ok q ∧
        q.schema.size = 2 ∧ q.column "x1" = .ok ⟨"x1", .string⟩ ∧ ¬ ∃ c, q.column "x11" = .ok c := by
  obtain ⟨made, built⟩ := names_identify_columns
  obtain ⟨q, h⟩ : ∃ q, (declared "l" [⟨"x", .string⟩, ⟨"x1", .long⟩]).join
      (declared "r" [⟨"x", .string⟩]) ["x"] .inner none = .ok q := ⟨_, rfl⟩
  have reached : q.Reachable := by
    refine @Reachable.perform _ q (.join _ _ _ _) (reachable_declared "l" _) ?_ h
    rintro right ⟨⟩
    exact reachable_declared "r" _
  obtain ⟨identified, columns⟩ := built q reached
  refine ⟨made _ (.ofPairs _), q, h, ?_, ?_, ?_⟩
  · rw [identified.size_eq]
    cases h
    decide
  · rw [(columns "x1").1]
    cases h
    decide
  · have refused : q.column "x11" = .error (.unknownColumn "l" "x11") := by
      rw [(columns "x11").2]
      cases h
      exact ⟨by decide, rfl⟩
    simp [refused]

end Pipeline
end Kql
