import Kql.Proofs.FallibleSteps
import Kql.Proofs.FieldText

/-!
Fields of fields. Only a dynamic value has fields, and a field is dynamic itself, so the first step
settles whether a chain of fields can be taken. In an expression that the builders put together, all
fields are therefore fields of dynamic values, however deep they stand in it.
-/

namespace Kql.Expr

/-- What the builders make of columns and literals. Each of them puts an operator between two
expressions, applies an operator or function to terms, or takes a field, which is checked. -/
inductive Composed : Expr → Prop
  | column (c : Column) : Composed (column c)
  | literal (value : Literal) : Composed (literal value)
  | binary (op : Operator) {left right : Expr} : Composed left → Composed right →
      Composed (binary op left right)
  | call (op : Operator) {terms : List Expr} : (∀ t ∈ terms, Composed t) → Composed (call op terms)
  | field {e p : Expr} {name : String} : Composed e → e.field name = .ok p → Composed p

/-- The expression stands somewhere in another one, or is that one. -/
inductive PartOf (part : Expr) : Expr → Prop
  | whole : PartOf part part
  | object {object : Expr} {name : String} : PartOf part object → PartOf part (property object name)
  | left {op : Operator} {left right : Expr} : PartOf part left → PartOf part (binary op left right)
  | right {op : Operator} {left right : Expr} : PartOf part right → PartOf part (binary op left right)
  | term {op : Operator} {terms : List Expr} {aggregate : Bool} {t : Expr} : t ∈ terms →
      PartOf part t → PartOf part (apply op terms aggregate)

/-- Takes the field of the first name, then the field of the second name of what that gives, and so on. -/
def fields (e : Expr) (names : List String) : Except Error Expr := names.foldlM field e

variable {e object : Expr} {name : String}

theorem Composed.type_object (h : e.Composed) (part : PartOf (property object name) e) :
    object.type = .dynamic := by
  induction h with
  | column _ | literal _ => cases part
  | binary op _ _ ihl ihr =>
      cases part with
      | left inside => exact ihl inside
      | right inside => exact ihr inside
  | call op _ ih =>
      cases part with
      | term hm inside => exact ih _ hm inside
  | field _ taken ih =>
      obtain ⟨dynamic, rfl⟩ := field_eq_ok_iff.mp taken
      cases part with
      | whole => exact dynamic
      | object inside => exact ih inside

/-! ## Chains -/

theorem field_eq_error_iff {error : Error} :
    e.field name = .error error ↔
      e.type ≠ .dynamic ∧ error = .invalidPropertyAccess e.render e.type name := by
  unfold field
  split
  · next h => simp [h]
  · next h => simp [h, eq_comm]

/-- A field has fields, so no step behind it fails. -/
theorem fields_property (object : Expr) (name : String) (names : List String) :
    (property object name).fields names = .ok (names.foldl property (property object name)) := by
  induction names generalizing object name with
  | nil => rfl
  | cons next more ih => exact ih (property object name) next

theorem fields_cons_eq_map (e : Expr) (first : String) (rest : List String) :
    e.fields (first :: rest) = (e.field first).map (rest.foldl property) := by
  rw [fields, List.foldlM_cons]
  cases taken : e.field first with
  | error _ => rfl
  | ok p =>
      obtain ⟨-, rfl⟩ := field_eq_ok_iff.mp taken
      exact fields_property e first rest

theorem fields_cons_eq_ok_iff {first : String} {rest : List String} {p : Expr} :
    e.fields (first :: rest) = .ok p ↔
      e.type = .dynamic ∧ p = (first :: rest).foldl property e := by
  simp only [fields_cons_eq_map, map_eq_ok, field_eq_ok_iff, List.foldl_cons]
  constructor
  · rintro ⟨_, ⟨dynamic, rfl⟩, rfl⟩
    exact ⟨dynamic, rfl⟩
  · rintro ⟨dynamic, rfl⟩
    exact ⟨_, ⟨dynamic, rfl⟩, rfl⟩

theorem type_foldl_property (h : e.type = .dynamic) (names : List String) :
    (names.foldl property e).type = .dynamic := by
  induction names generalizing e with
  | nil => exact h
  | cons next more ih => exact ih rfl

theorem render_foldl_property (e : Expr) (names : List String) :
    (names.foldl property e).render = e.render ++ String.join (names.map fun name => "." ++ name) := by
  induction names generalizing e with
  | nil => exact String.append_empty.symm
  | cons next more ih =>
      rw [List.foldl_cons, ih, render, List.map_cons, String.join_cons]
      simp only [String.append_assoc]

/-- In what the builders make, every field is that of a dynamic value. A chain of fields can be taken
from any expression that is dynamic, and from no other. It is dynamic, and its names stand behind the
text of the expression, each after a point. Otherwise the complaint is about the expression itself and
the first name. -/
theorem field_chains (e : Expr) (first : String) (rest : List String) :
    (e.Composed → ∀ object name, PartOf (property object name) e → object.type = .dynamic) ∧
      ((∃ p, e.fields (first :: rest) = .ok p) ↔ e.type = .dynamic) ∧
      (∀ p, e.fields (first :: rest) = .ok p → p.type = .dynamic ∧
        p.render = e.render ++ String.join ((first :: rest).map fun name => "." ++ name)) ∧
      ∀ error, e.fields (first :: rest) = .error error ↔
        e.type ≠ .dynamic ∧ error = .invalidPropertyAccess e.render e.type first := by
  refine ⟨fun composed _ _ => composed.type_object, ?_, fun p taken => ?_, fun error => ?_⟩
  · simp only [fields_cons_eq_ok_iff, exists_and_left, exists_eq, and_true]
  · obtain ⟨dynamic, rfl⟩ := fields_cons_eq_ok_iff.mp taken
    exact ⟨type_foldl_property dynamic _, render_foldl_property e _⟩
  · rw [fields_cons_eq_map, map_eq_error, field_eq_error_iff]

/-- The sum of a field and of something that is not dynamic counts as dynamic. -/
theorem field_chains_of_sums :
    ∃ e p, e = property (bag "a") "b" + Column.sum ⟨"n", .long⟩ ∧ e.Composed ∧
      (bag "a").type = .dynamic ∧ e.fields ["c", "d"] = .ok p ∧ p.type = .dynamic ∧
      p.render = "a.b + sum(n).c.d" ∧
      (Column.sum ⟨"n", .long⟩).fields ["c", "d"] =
        .error (.invalidPropertyAccess "sum(n)" .long "c") := by
  have sum : (Column.sum ⟨"n", .long⟩).Composed := .call .sum (List.forall_mem_singleton.mpr (.column _))
  have composed : (property (bag "a") "b" + Column.sum ⟨"n", .long⟩).Composed :=
    .binary .add (@Composed.field (bag "a") _ "b" (.column _) rfl) sum
  obtain ⟨objects, taken, chain, -⟩ :=
    field_chains (property (bag "a") "b" + Column.sum ⟨"n", .long⟩) "c" ["d"]
  obtain ⟨-, -, -, refused⟩ := field_chains (Column.sum ⟨"n", .long⟩) "c" ["d"]
  obtain ⟨p, hp⟩ := taken.mpr rfl
  obtain ⟨dynamic, text⟩ := chain p hp
  refine ⟨_, p, rfl, composed, ?_, hp, dynamic, text.trans ?_, (refused _).mpr ⟨by decide, ?_⟩⟩
  · exact objects composed (bag "a") "b" (.left .whole)
  · decide +kernel
  · rfl

end Kql.Expr
