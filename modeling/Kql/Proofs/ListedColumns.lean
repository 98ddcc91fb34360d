import Kql.Proofs.Lookups

/-!
Which columns `project` and `distinct` check. Both look up the plain columns that they list and do not
look into other expressions, as no builder does: a column nested in one is left to the engine. When
they fail, they complain of a column that is listed and that the schema does not have.
-/

namespace Kql

namespace Expr

mutual

/-- The columns in the expression, at any depth. -/
def columns : Expr → List Column
  | column c => [c]
  | property object _ => object.columns
  | literal _ => []
  | binary _ left right => left.columns ++ right.columns
  | apply _ terms _ => termColumns terms

def termColumns : List Expr → List Column
  | [] => []
  | term :: rest => term.columns ++ termColumns rest

end

end Expr

/-- The columns in what is listed and in what defines the new names. -/
def Projection.columns (p : Projection) : List Column :=
  p.items.flatMap Expr.columns ++ p.renames.flatMap fun rename => rename.2.columns

namespace Pipeline

variable {p : Pipeline}

open Lookup

/-- If this fails, it is for one of the columns, which the schema does not have. -/
def FailsFor (p : Pipeline) (columns : List Column) (x : Except Error Pipeline) : Prop :=
  ∀ e, x = .error e → ∃ c ∈ columns, c.name ∉ p.schema.names ∧ e = .unknownColumn p.table c.name

theorem mem_columns_of_mem_plainColumns {items : List Expr} {c : Column}
    (h : c ∈ plainColumns items) : c ∈ items.flatMap Expr.columns := by
  obtain ⟨e, he, plain⟩ := List.mem_filterMap.mp h
  refine List.mem_flatMap.mpr ⟨e, he, ?_⟩
  cases e with
  | column d =>
      cases plain
      exact List.mem_singleton_self c
  | _ => cases plain

theorem not_rejected_iff (closed : p.schema.isOpen = false) {columns : List Column} :
    (∀ l ∈ columns.map fun c => ⟨p, c.name⟩, ¬ Rejected l) ↔
      ∀ c ∈ columns, c.name ∈ p.schema.names := by
  simp [Rejected, closed]

theorem Checked.failsFor {columns listed : List Column} {x : Except Error Pipeline}
    (h : Checked (columns.map fun c => ⟨p, c.name⟩) x) (sub : columns ⊆ listed) :
    p.FailsFor listed x := by
  intro e he
  obtain ⟨l, first, rfl⟩ := h.error_iff.mp he
  obtain ⟨member, rejected⟩ := mem_of_firstRejected? first
  obtain ⟨c, hc, rfl⟩ := List.mem_map.mp member
  exact ⟨c, sub hc, rejected.2, rfl⟩

/-- What is checked against a closed schema are the plain columns. A `project` that also renames checks
them as well, and whatever else it may check, it fails only for a column that it holds. -/
theorem plain_columns_checked (closed : p.schema.isOpen = false) (items : List Expr)
    (renames : List (String × Expr)) :
    (∀ q, p.project ⟨items, renames⟩ = .ok q → ∀ c ∈ plainColumns items, c.name ∈ p.schema.names) ∧
      p.FailsFor (Projection.columns ⟨items, renames⟩) (p.project ⟨items, renames⟩) ∧
      ((∃ q, p.project ⟨items, []⟩ = .ok q) ↔
        ∀ c ∈ plainColumns items, c.name ∈ p.schema.names) ∧
      ((∃ q, p.distinct items = .ok q) ↔ ∀ c ∈ plainColumns items, c.name ∈ p.schema.names) ∧
      p.FailsFor (items.flatMap Expr.columns) (p.distinct items) := by
  have listed : plainColumns items ⊆ items.flatMap Expr.columns :=
    fun c hc => mem_columns_of_mem_plainColumns hc
  refine ⟨fun q hq => ?_, ?_, ?_, ?_, ?_⟩
  · exact (not_rejected_iff closed).mp ((p.checked_project _).exists_ok_iff.mp ⟨q, hq⟩)
  · exact (p.checked_project ⟨items, renames⟩).failsFor fun c hc => List.mem_append_left _ (listed hc)
  · exact (p.checked_project ⟨items, []⟩).exists_ok_iff.trans (not_rejected_iff closed)
  · exact (p.checked_distinct items).exists_ok_iff.trans (not_rejected_iff closed)
  · exact (p.checked_distinct items).failsFor listed

/-- The sum is let through, but not the column behind it. -/
theorem plain_column_behind_sum_checked :
    (Schema.ofPairs [("a", .long)]).isOpen = false ∧
      ¬ ∃ q, (ofTable "t" ⟨"c", "d"⟩ (.ofPairs [("a", .long)])).distinct
        [Expr.column ⟨"b", .long⟩ + Expr.column ⟨"a", .long⟩, Expr.column ⟨"b", .long⟩] = .ok q := by
  refine ⟨rfl, fun success => ?_⟩
  have checked := plain_columns_checked (p := ofTable "t" ⟨"c", "d"⟩ (.ofPairs [("a", .long)])) rfl
    [Expr.column ⟨"b", .long⟩ + Expr.column ⟨"a", .long⟩, Expr.column ⟨"b", .long⟩] []
  have known := checked.2.2.2.1.mp success ⟨"b", .long⟩ List.mem_cons_self
  revert known
  decide

/-- A column that was dropped is let through within a sum, by `project` and by `distinct`, and as what
defines a new name. -/
theorem nested_column_not_checked :
    ∃ p, (ofTable "t" ⟨"c", "d"⟩ (.ofPairs [("a", .long), ("b", .long)])).projectNames ["a"] = .ok p ∧
      p.schema.isOpen = false ∧
      (⟨"b", .long⟩ : Column) ∈ (Expr.column ⟨"b", .long⟩ + .literal (.long 1)).columns ∧
      "b" ∉ p.schema.names ∧
      (∃ q, p.project ⟨[Expr.column ⟨"b", .long⟩ + .literal (.long 1)], []⟩ = .ok q) ∧
      (∃ q, p.distinct [Expr.column ⟨"b", .long⟩ + .literal (.long 1)] = .ok q) ∧
      ∃ q, p.project ⟨[.column ⟨"a", .long⟩], [("x", .column ⟨"b", .long⟩)]⟩ = .ok q :=
  ⟨_, rfl, rfl, List.mem_cons_self, by decide, ⟨_, rfl⟩, ⟨_, rfl⟩, ⟨_, rfl⟩⟩

end Pipeline
end Kql
