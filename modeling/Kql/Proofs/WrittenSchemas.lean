import Kql.Proofs.JoinColumns
import Kql.Proofs.SchemaForms
import Kql.Proofs.Tokens

/-!
Schemas that are written down in JSON and read again. The list holds an entry for each column, with its
name and the name of its type. No name comes twice in the schema of a pipeline, so each entry gives a
column of its own, and the columns come back as they were. The letters of a type name may be of either
case, with white space around them. What is not written is whether the schema is open.
-/

namespace Kql

open Text

/-! ## Names of types -/

theorem trim_surrounded {before body after : List Char} (hb : ∀ c ∈ before, isBlank c = true)
    (ha : ∀ c ∈ after, isBlank c = true) (h : ∀ c ∈ body, isBlank c = false) (hn : body ≠ []) :
    trim (String.ofList (before ++ (body ++ after))) = String.ofList body := by
  have front : Ends isBlank (body ++ after) := by
    rw [Ends, List.head?_append_of_ne_nil _ hn]
    exact ends_of_forall h
  have back : Ends isBlank body.reverse := ends_of_forall fun c hc => h c (List.mem_reverse.mp hc)
  have behind : ∀ c ∈ after.reverse, isBlank c = true := fun c hc => ha c (List.mem_reverse.mp hc)
  rw [trim, String.toList_ofList, (takeWhile_append_of_ends hb front).2, trimEnd, String.toList_ofList,
    List.reverse_append, (takeWhile_append_of_ends behind back).2, List.reverse_reverse]

/-- There are no letters among the white space. -/
theorem toLower_of_isBlank {c : Char} (h : isBlank c = true) : c.toLower = c := by
  delta Char.toLower
  rw [dif_neg]
  rintro ⟨first, last⟩
  have upper : 65 ≤ c.toNat ∧ c.toNat ≤ 90 := ⟨first, last⟩
  simp only [isBlank, Ranges.holds, blankRanges, List.any_cons, List.any_nil, Bool.or_eq_true,
    Bool.and_eq_true, decide_eq_true_eq, Bool.or_false] at h
  omega

namespace ScalarType

theorem ofLowerCase?_name (type : ScalarType) : ofLowerCase? type.name = some type := by
  cases type <;> rfl

theorem toLower_name (type : ScalarType) : type.name.toList.map Char.toLower = type.name.toList := by
  cases type <;> decide

theorem isBlank_of_mem_name {type : ScalarType} : ∀ c ∈ type.name.toList, isBlank c = false := by
  have all : (type.name.toList.all fun c => !isBlank c) = true := by cases type <;> decide
  simpa using all

/-- A text that stands for the type: its name in letters of either case, between white space. -/
structure Spelling (type : ScalarType) where
  before : List Char
  letters : List Char
  after : List Char
  blank_before : before.all isBlank = true
  blank_after : after.all isBlank = true
  toLower_letters : letters.map Char.toLower = type.name.toList

namespace Spelling

variable {type : ScalarType}

def text (s : Spelling type) : String := String.ofList (s.before ++ (s.letters ++ s.after))

theorem isBlank_of_mem_letters (s : Spelling type) : ∀ c ∈ s.letters, isBlank c = false := by
  intro c hc
  have lower : c.toLower ∈ type.name.toList := by
    rw [← s.toLower_letters]
    exact List.mem_map_of_mem hc
  rw [Bool.eq_false_iff]
  intro blank
  rw [toLower_of_isBlank blank] at lower
  simp [isBlank_of_mem_name c lower] at blank

theorem letters_ne_nil (s : Spelling type) : s.letters ≠ [] := by
  intro nothing
  have name := s.toLower_letters
  rw [nothing] at name
  cases type <;> cases name

theorem ofName?_text (s : Spelling type) : ofName? s.text = some type := by
  have trimmed := trim_surrounded (List.all_eq_true.mp s.blank_before)
    (List.all_eq_true.mp s.blank_after) s.isBlank_of_mem_letters s.letters_ne_nil
  rw [ofName?, text, trimmed, String.toList_ofList, s.toLower_letters, String.ofList_toList,
    ofLowerCase?_name]

end Spelling

/-- The name as it is. -/
def plain (type : ScalarType) : Spelling type where
  before := []
  letters := type.name.toList
  after := []
  blank_before := rfl
  blank_after := rfl
  toLower_letters := type.toLower_name

theorem text_plain (type : ScalarType) : type.plain.text = type.name := by
  rw [Spelling.text, plain, List.nil_append, List.append_nil, String.ofList_toList]

end ScalarType

/-! ## Entries -/

/-- A column as it is written down. -/
structure WrittenColumn where
  column : Column
  spelling : column.type.Spelling

namespace WrittenColumn

def entry (w : WrittenColumn) : Json := Schema.entryOf (w.column.name, .string w.spelling.text)

theorem columnOfEntry_entry (w : WrittenColumn) : Schema.columnOfEntry w.entry = .ok w.column := by
  rw [entry, Schema.columnOfEntry_entryOf, Schema.columnOfField_eq_ok]
  exact ⟨rfl, w.spelling.text, rfl, w.spelling.ofName?_text⟩

end WrittenColumn

namespace Schema

/-- The list that says of each column what it is called and of which type it is. -/
def written (s : Schema) : Json :=
  .array (s.columns.map fun c => entryOf (c.name, .string c.type.name))

theorem written_eq (s : Schema) :
    s.written = .array ((s.columns.map fun c => ⟨c, c.type.plain⟩).map WrittenColumn.entry) := by
  rw [written, List.map_map]
  refine congrArg Json.array (List.map_congr_left fun c _ => ?_)
  rw [Function.comp_apply, WrittenColumn.entry, ScalarType.text_plain]

theorem ofJson_entries (columns : List WrittenColumn) :
    ofJson (.array (columns.map WrittenColumn.entry)) =
      .ok (ofColumns (columns.map WrittenColumn.column)) := by
  rw [ofJson_array, map_eq_ok]
  refine ⟨columns.map WrittenColumn.column, ?_, rfl⟩
  rw [mapM_eq_ok, List.forall₂_map_left_iff, List.forall₂_map_right_iff, List.forall₂_same]
  exact fun w _ => w.columnOfEntry_entry

/-- Opening what was read gives an open schema back. -/
theorem reopened (s : Schema) :
    (if s.isOpen then opened ⟨s.columns, false⟩ else ⟨s.columns, false⟩) = s := by
  obtain ⟨columns, isOpen⟩ := s
  cases isOpen <;> rfl

end Schema

namespace Pipeline

/-- What is known of the columns that come out of a pipeline can be written down and read again,
however the types are spelled. The schema that is read is closed. -/
theorem schema_read_back {p : Pipeline} (built : p.Reachable) :
    ∃ s, s.columns = p.schema.columns ∧ s.isOpen = false ∧
      (if p.schema.isOpen then s.opened else s) = p.schema ∧
      Schema.ofJson p.schema.written = .ok s ∧
      ∀ columns : List WrittenColumn, columns.map WrittenColumn.column = p.schema.columns →
        Schema.ofJson (.array (columns.map WrittenColumn.entry)) = .ok s := by
  have read (columns : List WrittenColumn)
      (all : columns.map WrittenColumn.column = p.schema.columns) :
      Schema.ofJson (.array (columns.map WrittenColumn.entry)) = .ok ⟨p.schema.columns, false⟩ := by
    rw [Schema.ofJson_entries, all, Schema.ofColumns_of_nodup built.nodup_names]
  refine ⟨⟨p.schema.columns, false⟩, rfl, rfl, p.schema.reopened, ?_, read⟩
  rw [Schema.written_eq]
  apply read
  rw [List.map_map]
  exact List.map_id' _

/-- A join with a table whose columns were not declared opens the schema, and the name of the second
column is no identifier. -/
theorem joined_schema_read_back :
    ∃ q, (declared "l" [⟨"x", .string⟩, ⟨"n: 'ö'", .long⟩]).join (ofTable "r" ⟨"c", "d"⟩ .undeclared)
        ["x"] .inner none = .ok q ∧ q.Reachable ∧ q.schema.isOpen = true ∧
      ∃ s, Schema.ofJson (.array [.object [("name", .string "x"), ("type", .string "\u3000String")],
          .object [("name", .string "n: 'ö'"), ("type", .string " LONG\t\n")]]) = .ok s ∧
        s.opened = q.schema := by
  obtain ⟨q, h⟩ : ∃ q, (declared "l" [⟨"x", .string⟩, ⟨"n: 'ö'", .long⟩]).join
      (ofTable "r" ⟨"c", "d"⟩ .undeclared) ["x"] .inner none = .ok q := ⟨_, rfl⟩
  have reached : q.Reachable := by
    refine @Reachable.perform _ q (.join _ _ _ _) (reachable_declared "l" _) ?_ h
    rintro right ⟨⟩
    exact .ofTable "r" _ .undeclared
  have isOpen : q.schema.isOpen = true := by
    cases h
    rfl
  have columns : [Column.mk "x" .string, ⟨"n: 'ö'", .long⟩] = q.schema.columns := by
    cases h
    rfl
  obtain ⟨s, -, -, opened, -, read⟩ := schema_read_back reached
  rw [if_pos isOpen] at opened
  refine ⟨q, h, reached, isOpen, s, ?_, opened⟩
  exact read [⟨⟨"x", .string⟩, ['\u3000'], "String".toList, [], rfl, rfl, rfl⟩,
    ⟨⟨"n: 'ö'", .long⟩, [' '], "LONG".toList, ['\t', '\n'], rfl, rfl, rfl⟩] columns

end Pipeline
end Kql
