import Kql.Proofs.FallibleSteps
import Kql.Schema.OfJson

/-!
The two ways of describing a schema in JSON. A field of an object says as much as the entry of a list that
holds its name and its value, so an object and the list of such entries describe the same schema, or are
both refused for the same field: the first one whose value is no string, or not the name of a type.
-/

namespace Kql.Schema

/-- The entry of a list that describes the column that this field of an object describes. -/
def entryOf (field : String × Json) : Json :=
  .ofFields [("name", .string field.1), ("type", field.2)]

/-- The field describes the column. -/
def Describes (field : String × Json) (c : Column) : Prop :=
  c.name = field.1 ∧ ∃ name, field.2 = .string name ∧ ScalarType.ofName? name = some c.type

/-- What is wrong with a value that stands where a type is due. -/
inductive Refused : Json → Error → Prop
  | notTypeName {given : Json} : given.asString? = none →
      Refused given (.schema (.notTypeName given))
  | unknownType {name : String} : ScalarType.ofName? name = none →
      Refused (.string name) (.unknownType name)

/-! ## The value that names a type -/

theorem asString?_eq_some {given : Json} {text : String} :
    given.asString? = some text ↔ given = .string text := by
  cases given <;> simp [Json.asString?]

theorem named_eq_ok {name : String} {type : ScalarType} :
    ScalarType.named name = .ok type ↔ ScalarType.ofName? name = some type := by
  unfold ScalarType.named
  cases ScalarType.ofName? name <;> simp

theorem named_eq_error {name : String} {e : Error} :
    ScalarType.named name = .error e ↔ ScalarType.ofName? name = none ∧ e = .unknownType name := by
  unfold ScalarType.named
  cases ScalarType.ofName? name <;> simp [eq_comm]

theorem typeOfJson_eq_ok {given : Json} {type : ScalarType} :
    typeOfJson given = .ok type ↔
      ∃ name, given = .string name ∧ ScalarType.ofName? name = some type := by
  simp only [← asString?_eq_some, ← named_eq_ok, typeOfJson]
  cases given.asString? <;> simp

theorem typeOfJson_eq_error {given : Json} {e : Error} :
    typeOfJson given = .error e ↔ Refused given e := by
  rw [typeOfJson]
  constructor
  · intro h
    cases text : given.asString? with
    | none =>
        rw [text] at h
        cases h
        exact .notTypeName text
    | some name =>
        simp only [text, named_eq_error] at h
        obtain ⟨unknown, rfl⟩ := h
        rw [asString?_eq_some.mp text]
        exact .unknownType unknown
  · rintro (noText | unknown)
    · rw [noText]
    · exact named_eq_error.mpr ⟨unknown, rfl⟩

/-! ## One column -/

theorem columnOfField_eq_map (name : String) (given : Json) :
    columnOfField name given = (typeOfJson given).map (Column.mk name) := by
  rw [columnOfField]
  cases typeOfJson given <;> rfl

theorem columnOfField_eq_ok {field : String × Json} {c : Column} :
    columnOfField field.1 field.2 = .ok c ↔ Describes field c := by
  rw [Describes, ← typeOfJson_eq_ok, columnOfField_eq_map, map_eq_ok]
  constructor
  · rintro ⟨type, h, rfl⟩
    exact ⟨rfl, h⟩
  · rintro ⟨named, h⟩
    obtain ⟨name, type⟩ := c
    cases named
    exact ⟨type, h, rfl⟩

theorem columnOfField_eq_error {name : String} {given : Json} {e : Error} :
    columnOfField name given = .error e ↔ Refused given e := by
  rw [columnOfField_eq_map, map_eq_error, typeOfJson_eq_error]

theorem columnOfEntry_entryOf (field : String × Json) :
    columnOfEntry (entryOf field) = columnOfField field.1 field.2 := by
  have fields : entryOf field = .object [("name", .string field.1), ("type", field.2)] := by
    rfl
  rw [columnOfEntry, fields]
  rfl

/-! ## Whole descriptions -/

/-- Both descriptions come to the same schema or to the same error. It is the schema of the columns that
the fields describe, in their order, or the error of the first field that describes none. -/
theorem forms_describe_alike (fields : List (String × Json)) :
    ofJson (.array (fields.map entryOf)) = ofJson (.object fields) ∧
      (∀ s, ofJson (.object fields) = .ok s ↔
        ∃ columns, List.Forall₂ Describes fields columns ∧ s = ofColumns columns) ∧
      ∀ e, ofJson (.object fields) = .error e ↔
        ∃ before field after, fields = before ++ field :: after ∧
          (∀ f ∈ before, ∃ c, Describes f c) ∧ Refused field.2 e := by
  refine ⟨?_, fun s => ?_, fun e => ?_⟩
  · rw [ofJson_array, ofJson_object, List.mapM_map]
    exact congrArg (fun read => (fields.mapM read).map ofColumns) (funext columnOfEntry_entryOf)
  · simp only [ofJson_object, map_eq_ok, mapM_eq_ok, columnOfField_eq_ok]
  · simp only [ofJson_object, map_eq_error, mapM_eq_error, columnOfField_eq_ok,
      columnOfField_eq_error]

-- Blanks and capitals do not matter in the name of a type, and the third field comes too late to be
-- complained of.
example : ofJson (.object [("a", .string " Long "), ("b", .null), ("c", .string "x")]) =
    .error (.schema (.notTypeName .null)) := by
  rfl

end Kql.Schema
