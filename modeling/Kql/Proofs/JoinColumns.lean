import Kql.Proofs.Reachable
import Mathlib.Data.List.Induction
import Mathlib.Data.List.Nodup

/-!
The columns that come out of a join. A join that keeps both sides loses a column exactly when the
suffixed name of a clashing right column is taken as well; a semi or anti join keeps the schema of
the left side where it selects from the left, and no column at all where it selects from the right.
-/

namespace Kql

/-- The name that a right column gets where the names `taken` are in use before it. -/
def joinedName (taken : List String) (name : String) : String :=
  if name ∈ taken then name ++ "1" else name

/-- The left names, followed by the names that the right columns get one after another. -/
def joinedNames (left right : List String) : List String :=
  right.foldl (fun taken name => taken ++ [joinedName taken name]) left

/-- The suffixed name of a right column that clashes is neither that of a left column nor that of a
right column before it. -/
def SuffixesFree (left right : List String) : Prop :=
  ∀ before name after, right = before ++ name :: after → name ∈ joinedNames left before →
    name ++ "1" ∉ left ∧ name ++ "1" ∉ before

/-- The right column `c`, which stands behind `before`, comes out at its place and with its type. -/
def JoinedAt (left result before : List Column) (c : Column) : Prop :=
  ∃ earlier later,
    result = earlier ++ c.renamed (joinedName (earlier.map Column.name) c.name) :: later ∧
      earlier.length = left.length + before.length

/-- Every column of both sides comes out: the left ones as they were, then the right ones in order. -/
structure KeepsColumns (left right result : List Column) : Prop where
  length_eq : result.length = left.length + right.length
  kept : left <+: result
  joined : ∀ before c after, right = before ++ c :: after → JoinedAt left result before c
  distinct : (result.map Column.name).Nodup

private theorem forall_split_concat {α : Type} {P : List α → α → Prop} {l : List α} {x : α} :
    (∀ before a after, l ++ [x] = before ++ a :: after → P before a) ↔
      (∀ before a after, l = before ++ a :: after → P before a) ∧ P l x := by
  constructor
  · intro h
    refine ⟨?_, h l x [] rfl⟩
    rintro before a after rfl
    exact h before a (after ++ [x]) (by simp)
  · rintro ⟨h, hx⟩ before a after heq
    rcases List.eq_nil_or_concat after with rfl | ⟨after, y, rfl⟩
    · obtain ⟨rfl, h₁⟩ := List.append_inj' heq rfl
      cases h₁
      exact hx
    · rw [List.concat_eq_append, ← List.cons_append, ← List.append_assoc] at heq
      obtain ⟨rfl, -⟩ := List.append_inj' heq rfl
      exact h before a after rfl

private theorem notMem_of_nodup_concat {α : Type} {l : List α} {x : α} (h : (l ++ [x]).Nodup) :
    x ∉ l := by
  rw [← List.concat_eq_append, List.nodup_concat] at h
  exact h.1

/-! ## The names of a join -/

theorem joinedNames_concat (left before : List String) (name : String) :
    joinedNames left (before ++ [name]) =
      joinedNames left before ++ [joinedName (joinedNames left before) name] := by
  simp [joinedNames]

theorem mem_joinedNames_of_left {left : List String} {name : String} (h : name ∈ left)
    (right : List String) : name ∈ joinedNames left right := by
  induction right using List.reverseRecOn with
  | nil => exact h
  | append_singleton before _ ih =>
      rw [joinedNames_concat]
      exact List.mem_append_left _ ih

/-- A right column that does not come out under its name found that name taken. -/
theorem mem_joinedNames_of_right (left : List String) {right : List String} {name : String}
    (h : name ∈ right) : name ∈ joinedNames left right := by
  induction right using List.reverseRecOn with
  | nil => cases h
  | append_singleton before last ih =>
      rw [joinedNames_concat, List.mem_append, List.mem_singleton]
      rcases List.mem_append.mp h with h | h
      · exact .inl (ih h)
      · rw [List.mem_singleton] at h
        subst h
        unfold joinedName
        split
        · next taken => exact .inl taken
        · exact .inr rfl

theorem mem_joinedNames {left right : List String} {name : String}
    (h : name ∈ joinedNames left right) :
    name ∈ left ∨ name ∈ right ∨ ∃ other ∈ right, name = other ++ "1" := by
  induction right using List.reverseRecOn with
  | nil => exact .inl h
  | append_singleton before last ih =>
      rw [joinedNames_concat, List.mem_append, List.mem_singleton] at h
      rcases h with h | rfl
      · rcases ih h with h | h | ⟨other, hm, h⟩
        · exact .inl h
        · exact .inr (.inl (List.mem_append_left _ h))
        · exact .inr (.inr ⟨other, List.mem_append_left _ hm, h⟩)
      · unfold joinedName
        split
        · exact .inr (.inr ⟨last, by simp, rfl⟩)
        · exact .inr (.inl (by simp))

theorem suffixed_mem_joinedNames {left before : List String} {name : String}
    (h : name ∉ before) : name ++ "1" ∈ joinedNames left before ↔
      name ++ "1" ∈ left ∨ name ++ "1" ∈ before := by
  constructor
  · intro hm
    rcases mem_joinedNames hm with hl | hb | ⟨other, ho, heq⟩
    · exact .inl hl
    · exact .inr hb
    · rw [String.append_left_inj] at heq
      exact absurd (heq ▸ ho) h
  · rintro (hl | hb)
    · exact mem_joinedNames_of_left hl before
    · exact mem_joinedNames_of_right left hb

theorem nodup_joinedNames_iff {left right : List String} (hl : left.Nodup) (hr : right.Nodup) :
    (joinedNames left right).Nodup ↔ SuffixesFree left right := by
  induction right using List.reverseRecOn with
  | nil => simp [joinedNames, SuffixesFree, hl]
  | append_singleton before name ih =>
      rw [← List.concat_eq_append, List.nodup_concat] at hr
      have free : joinedName (joinedNames left before) name ∉ joinedNames left before ↔
          (name ∈ joinedNames left before → name ++ "1" ∉ left ∧ name ++ "1" ∉ before) := by
        rw [← not_or, ← suffixed_mem_joinedNames hr.1]
        unfold joinedName
        split
        · next taken => simp [taken]
        · next fresh => simp [fresh]
      rw [joinedNames_concat, ← List.concat_eq_append, List.nodup_concat, and_comm, ih hr.2, free]
      exact forall_split_concat.symm

/-! ## The columns of a join -/

namespace Schema

theorem insertJoined_eq (s : Schema) (c : Column) :
    s.insertJoined c = s.insert (c.renamed (joinedName s.names c.name)) := by
  simp only [insertJoined, contains_iff, joinedName]
  split <;> rfl

theorem columns_insertJoined_of_free {s : Schema} {c : Column}
    (h : joinedName s.names c.name ∉ s.names) :
    (s.insertJoined c).columns = s.columns ++ [c.renamed (joinedName s.names c.name)] := by
  rw [insertJoined_eq]
  exact Keyed.put_of_notMem Column.name _ s.columns h

theorem names_insertJoined (s : Schema) (c : Column) :
    (s.insertJoined c).names =
      if joinedName s.names c.name ∈ s.names then s.names
      else s.names ++ [joinedName s.names c.name] := by
  rw [insertJoined_eq]
  exact Keyed.map_put Column.name _ s.columns

theorem size_eq_length_names (s : Schema) : s.size = s.names.length := by
  simp [size, names]

/-- A join never has more columns than its sides, and when it has as many, the names went as
intended. -/
theorem names_foldl_insertJoined (s : Schema) (right : List Column) :
    (right.foldl insertJoined s).size ≤ s.size + right.length ∧
      ((right.foldl insertJoined s).size = s.size + right.length →
        (right.foldl insertJoined s).names =
          joinedNames s.names (right.map Column.name)) := by
  induction right using List.reverseRecOn with
  | nil => exact ⟨Nat.le_refl _, fun _ => rfl⟩
  | append_singleton before c ih =>
      obtain ⟨hle, heq⟩ := ih
      rw [List.foldl_append, List.foldl_cons, List.foldl_nil, List.map_append, List.map_singleton,
        joinedNames_concat, List.length_append, List.length_singleton]
      rw [size_eq_length_names (insertJoined _ c), names_insertJoined]
      split
      · rw [← size_eq_length_names]
        exact ⟨by omega, by omega⟩
      · rw [List.length_append, List.length_singleton, ← size_eq_length_names]
        refine ⟨by omega, ?_⟩
        intro h
        rw [heq (by omega)]

theorem keepsColumns_insertJoined {left before : List Column} {s : Schema} {c : Column}
    (keeps : KeepsColumns left before s.columns)
    (h : (s.names ++ [joinedName s.names c.name]).Nodup) :
    KeepsColumns left (before ++ [c]) (s.insertJoined c).columns := by
  rw [columns_insertJoined_of_free (notMem_of_nodup_concat h)]
  refine ⟨?_, ?_, ?_, ?_⟩
  · simp only [List.length_append, List.length_singleton, keeps.length_eq, Nat.add_assoc]
  · exact keeps.kept.trans (List.prefix_append _ _)
  · apply (forall_split_concat (P := JoinedAt left _)).mpr
    refine ⟨?_, s.columns, [], rfl, keeps.length_eq⟩
    intro first d after hsplit
    obtain ⟨earlier, later, heq, hlen⟩ := keeps.joined first d after hsplit
    refine ⟨earlier, later ++ [c.renamed (joinedName s.names c.name)], ?_, hlen⟩
    rw [heq, List.append_assoc, List.cons_append]
  · rw [List.map_append]
    exact h

theorem keepsColumns_foldl_insertJoined {s : Schema} {right : List Column}
    (h : (joinedNames s.names (right.map Column.name)).Nodup) :
    (right.foldl insertJoined s).names = joinedNames s.names (right.map Column.name) ∧
      KeepsColumns s.columns right (right.foldl insertJoined s).columns := by
  induction right using List.reverseRecOn with
  | nil => exact ⟨rfl, rfl, List.prefix_rfl, by simp, h⟩
  | append_singleton before c ih =>
      rw [List.map_append, List.map_singleton, joinedNames_concat] at h ⊢
      obtain ⟨hnames, keeps⟩ := ih (List.Nodup.of_append_left h)
      rw [List.foldl_append, List.foldl_cons, List.foldl_nil]
      rw [← hnames] at h ⊢
      refine ⟨?_, keepsColumns_insertJoined keeps h⟩
      rw [names_insertJoined, if_neg (notMem_of_nodup_concat h)]

theorem keepsColumns_foldl_iff {left : Schema} {right : List Column} (hl : left.names.Nodup)
    (hr : (right.map Column.name).Nodup) :
    (KeepsColumns left.columns right (right.foldl insertJoined left).columns ↔
        SuffixesFree left.names (right.map Column.name)) ∧
      ((right.foldl insertJoined left).size = left.size + right.length ↔
        SuffixesFree left.names (right.map Column.name)) := by
  have sized (h : (right.foldl insertJoined left).size = left.size + right.length) :
      SuffixesFree left.names (right.map Column.name) := by
    rw [← nodup_joinedNames_iff hl hr, ← (names_foldl_insertJoined left right).2 h]
    exact nodup_names_foldl_insertJoined hl right
  have keeps (h : SuffixesFree left.names (right.map Column.name)) :=
    (keepsColumns_foldl_insertJoined ((nodup_joinedNames_iff hl hr).mpr h)).2
  exact ⟨⟨fun h => sized h.length_eq, keeps⟩, ⟨sized, fun h => (keeps h).length_eq⟩⟩

end Schema

namespace JoinKind

/-- The kinds of joins that keep the columns of both sides. -/
def twoSided : List JoinKind := [.inner, .innerUnique, .leftOuter, .rightOuter, .fullOuter]

/-- The kind of the same join with its sides exchanged. -/
def mirrored : JoinKind → JoinKind
  | leftOuter => rightOuter
  | rightOuter => leftOuter
  | leftSemi => rightSemi
  | rightSemi => leftSemi
  | leftAnti => rightAnti
  | rightAnti => leftAnti
  | kind => kind

theorem keeps_of_mem_twoSided {kind : JoinKind} (h : kind ∈ twoSided) :
    kind.keepsLeft = true ∧ kind.keepsRight = true := by
  revert h
  cases kind <;> decide

end JoinKind

namespace Pipeline

variable {left right q : Pipeline} {on : List String} {kind : JoinKind}
  {strategy : Option JoinStrategy}

/-- A join keeps all columns of both sides exactly when the suffixed names are free, and not even
the number of columns is right otherwise. -/
theorem join_keepsColumns_iff (hl : left.Reachable) (hr : right.Reachable)
    (hk : kind ∈ JoinKind.twoSided) (h : left.join right on kind strategy = .ok q) :
    (KeepsColumns left.schema.columns right.schema.columns q.schema.columns ↔
        SuffixesFree left.schema.names right.schema.names) ∧
      (q.schema.size = left.schema.size + right.schema.size ↔
        SuffixesFree left.schema.names right.schema.names) := by
  obtain ⟨-, rfl⟩ := join_eq_ok.mp h
  obtain ⟨keepsLeft, keepsRight⟩ := JoinKind.keeps_of_mem_twoSided hk
  have columns : (Schema.join kind left.schema right.schema).columns =
      (right.schema.columns.foldl Schema.insertJoined left.schema).columns := by
    rw [Schema.columns_join, if_pos keepsRight, if_pos keepsLeft]
  simp only [push, Schema.size, columns]
  exact Schema.keepsColumns_foldl_iff hl.nodup_names hr.nodup_names

def declared (table : String) (columns : List Column) : Pipeline :=
  ofTable table ⟨"test", "testdb"⟩ (.ofColumns columns)

theorem reachable_declared (table : String) (columns : List Column) :
    (declared table columns).Reachable :=
  .ofTable table _ (.ofColumns columns)

theorem join_keepsColumns_of_suffix_chain :
    ∃ q, (declared "l" [⟨"x", .string⟩]).join (declared "r" [⟨"x", .long⟩, ⟨"x1", .real⟩]) ["x"]
        .fullOuter none = .ok q ∧
      KeepsColumns [⟨"x", .string⟩] [⟨"x", .long⟩, ⟨"x1", .real⟩] q.schema.columns := by
  obtain ⟨q, h⟩ : ∃ q, (declared "l" [⟨"x", .string⟩]).join
      (declared "r" [⟨"x", .long⟩, ⟨"x1", .real⟩]) ["x"] .fullOuter none = .ok q := ⟨_, rfl⟩
  have free : SuffixesFree ["x"] ["x", "x1"] :=
    (nodup_joinedNames_iff (by decide) (by decide)).mp (by decide)
  exact ⟨q, h, (join_keepsColumns_iff (reachable_declared "l" _) (reachable_declared "r" _)
    (by decide) h).1.mpr free⟩

/-- The column `x` of the right side is renamed to `x1` and put over the left column `x1`. -/
theorem join_loses_suffixed_column :
    ∃ q, (declared "l" [⟨"x", .string⟩, ⟨"x1", .long⟩]).join (declared "r" [⟨"x", .string⟩]) ["x"]
        .inner none = .ok q ∧
      q.schema.columns = [⟨"x", .string⟩, ⟨"x1", .string⟩] ∧
      ¬ KeepsColumns [⟨"x", .string⟩, ⟨"x1", .long⟩] [⟨"x", .string⟩] q.schema.columns :=
  ⟨_, rfl, by decide, fun h => absurd h.length_eq (by decide)⟩

/-! ## Joins that select rows of one side -/

/-- A join that selects from the left has the schema of the left side. One that selects from the
right has no columns, so it has the schema of the right side only where that is empty and closed,
and otherwise differs from its mirror image. -/
theorem join_schema_of_selecting (h : left.join right on kind strategy = .ok q) :
    (kind ∈ [.leftSemi, .leftAnti] → q.schema = left.schema) ∧
      (kind ∈ [.rightSemi, .rightAnti] →
        q.schema = .empty ∧ (q.schema = right.schema ↔ right.schema = .empty) ∧
          ∀ mirroredStrategy, ∃ mirrored,
            right.join left on kind.mirrored mirroredStrategy = .ok mirrored ∧
              (q.schema = mirrored.schema ↔ right.schema = .empty)) := by
  obtain ⟨known, rfl⟩ := join_eq_ok.mp h
  constructor
  · intro hk
    rcases List.mem_pair.mp hk with rfl | rfl <;> rfl
  · intro hk
    have none : (left.push (.join right on kind strategy)
        (.join kind left.schema right.schema)).schema = .empty := by
      rcases List.mem_pair.mp hk with rfl | rfl <;> rfl
    have selected : Schema.join kind.mirrored right.schema left.schema = right.schema := by
      rcases List.mem_pair.mp hk with rfl | rfl <;> rfl
    rw [none]
    refine ⟨rfl, eq_comm, ?_⟩
    intro mirroredStrategy
    refine ⟨_, join_eq_ok.mpr ⟨fun key hkey => (known key hkey).symm, rfl⟩, ?_⟩
    rw [eq_comm]
    exact Eq.congr_left selected

theorem anti_join_of_empty_right :
    ∃ q, (declared "l" []).join (declared "r" []) [] .rightAnti none = .ok q ∧
      q.schema = (declared "r" []).schema := by
  obtain ⟨q, h⟩ : ∃ q, (declared "l" []).join (declared "r" []) [] .rightAnti none = .ok q :=
    ⟨_, rfl⟩
  exact ⟨q, h, ((join_schema_of_selecting h).2 (by decide)).2.1.mpr rfl⟩

/-- Nothing is left of the columns `k` and `b` that the selected rows have. -/
theorem right_semi_join_has_no_columns :
    ∃ q, (declared "l" [⟨"k", .string⟩, ⟨"a", .long⟩]).join
        (declared "r" [⟨"k", .string⟩, ⟨"b", .real⟩]) ["k"] .rightSemi none = .ok q ∧
      q.schema = .empty ∧ q.schema ≠ (declared "r" [⟨"k", .string⟩, ⟨"b", .real⟩]).schema :=
  ⟨_, rfl, rfl, by decide⟩

end Pipeline
end Kql
