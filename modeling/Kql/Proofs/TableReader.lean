import Kql.Proofs.ExprTokens
import Kql.Proofs.NumberTexts

/-!
How a table of keys and values is read: a row holds two quoted fields, and a field ends at the next
quote. A value is put into its field as plain text, but a list or a table in a field keeps the quotes of
its strings, and the first of them ends the field. So the rows are read as they were written exactly
when every value is a string or holds none.
-/

namespace Kql

open Text

/-- The tokens in front of the rows. -/
def tableHead : List Token :=
  [.word "datatable", .mark '(', .word "key", .mark ':', .word "string", .mark ',', .word "value",
    .mark ':', .word "string", .mark ')', .mark '[']

def readRows : List Token → Option (List (String × String))
  | [.mark ']'] => some []
  | .quoted key :: .mark ',' :: .quoted value :: .mark ',' :: rest =>
    (readRows rest).map ((key, value) :: ·)
  | _ => none

/-- The rows of a table, each with its key and its value. -/
def readTable (text : String) : Option (List (String × String)) :=
  let tokens := scan text.toList
  if tableHead <+: tokens then readRows (tokens.drop tableHead.length) else none

namespace Literal

/-- No string in the literal holds a quote. -/
inductive Quoteless : Literal → Prop
  | null : Quoteless null
  | bool (b : Bool) : Quoteless (bool b)
  | long (n : Int64) : Quoteless (long n)
  | real (x : Float) : Quoteless (real x)
  | decimal (d : Decimal.Fixed) : Quoteless (decimal d)
  | string {s : String} : '\'' ∉ s.toList → Quoteless (string s)
  | array {items : List Literal} : (∀ item ∈ items, Quoteless item) → Quoteless (array items)
  | bag {pairs : List (String × Literal)} : (∀ pair ∈ pairs, Quoteless pair.2) →
      Quoteless (bag pairs)

/-- The literal is a string, or a list or a table with a string in it at any depth. Keys are strings. -/
inductive HoldsString : Literal → Prop
  | string (s : String) : HoldsString (string s)
  | array {item : Literal} {items : List Literal} : item ∈ items → HoldsString item →
      HoldsString (array items)
  | bag {pairs : List (String × Literal)} : pairs ≠ [] → HoldsString (bag pairs)

/-! ## Quotes in the text of a literal -/

theorem mem_intercalate_iff {c : Char} {separator : String} (hs : c ∉ separator.toList)
    (texts : List String) :
    c ∈ (separator.intercalate texts).toList ↔ ∃ text ∈ texts, c ∈ text.toList := by
  induction texts with
  | nil => simp [String.intercalate_nil]
  | cons text more ih =>
      cases more with
      | nil => simp [String.intercalate_singleton]
      | cons other more =>
          rw [String.intercalate_cons_cons, String.toList_append, String.toList_append,
            List.mem_append, List.mem_append, ih]
          simp only [hs, or_false, List.mem_cons, exists_eq_or_imp]

theorem mem_between_iff {c : Char} {front back : String} (hf : c ∉ front.toList)
    (hb : c ∉ back.toList) (text : String) :
    c ∈ (front ++ text ++ back).toList ↔ c ∈ text.toList := by
  rw [String.toList_append, String.toList_append, List.mem_append, List.mem_append,
    or_iff_left hb, or_iff_right hf]

theorem mem_listOf_iff (items : List String) :
    '\'' ∈ (listOf items).toList ↔ ∃ item ∈ items, '\'' ∈ item.toList := by
  cases items with
  | nil => simp [listOf]
  | cons item more =>
      have framed := mem_between_iff (by decide : '\'' ∉ "dynamic([\n\t".toList)
        (by decide : '\'' ∉ "\n])".toList) (",\n\t".intercalate (item :: more))
      exact framed.trans (mem_intercalate_iff (by decide) _)

theorem mem_tableOf_iff (rows : List String) :
    '\'' ∈ (tableOf rows).toList ↔ ∃ row ∈ rows, '\'' ∈ row.toList := by
  have front : '\'' ∉ "datatable(key: string, value: string)[\n    ".toList := by decide +kernel
  have framed := mem_between_iff front (by decide : '\'' ∉ "\n]".toList) ("\n\t".intercalate rows)
  exact framed.trans (mem_intercalate_iff (by decide) rows)

theorem mem_rowOf (key value : String) : '\'' ∈ (rowOf key value).toList := by
  simp [rowOf]

theorem mem_render_iff : (value : Literal) → ('\'' ∈ value.render.toList ↔ value.HoldsString)
  | null => iff_of_false (by decide) (by rintro ⟨⟩)
  | bool true => iff_of_false (by decide) (by rintro ⟨⟩)
  | bool false => iff_of_false (by decide) (by rintro ⟨⟩)
  | long n =>
    iff_of_false (notMem_of_isNumeral (isNumeral_intRepr n.toInt) (by decide)) (by rintro ⟨⟩)
  | real x =>
    iff_of_false (notMem_of_isNumeral (realLayout.isNumeral_text x) (by decide)) (by rintro ⟨⟩)
  | decimal d => by
    have digits := notMem_of_isNumeral d.isNumeral_text (by decide : isNumeralChar '\'' = false)
    exact iff_of_false (by simp [render, digits]) (by rintro ⟨⟩)
  | string s => iff_of_true (by simp [render]) (.string s)
  | array items => by
    have each : ∀ item ∈ items, ('\'' ∈ item.render.toList ↔ item.HoldsString) :=
      fun item _ => mem_render_iff item
    rw [render_array, renderList, mem_listOf_iff]
    constructor
    · rintro ⟨text, htext, found⟩
      obtain ⟨item, hitem, rfl⟩ := List.mem_map.mp htext
      exact .array hitem ((each item hitem).mp found)
    · intro h
      cases h with
      | array hitem holds => exact ⟨_, List.mem_map_of_mem hitem, (each _ hitem).mpr holds⟩
  | bag pairs => by
    rw [render_bag, renderTable, mem_tableOf_iff]
    constructor
    · rintro ⟨row, hrow, -⟩
      obtain ⟨pair, hpair, -⟩ := List.mem_map.mp hrow
      exact .bag (List.ne_nil_of_mem hpair)
    · intro h
      cases h with
      | bag nonempty =>
          obtain ⟨pair, hpair⟩ := List.exists_mem_of_ne_nil _ nonempty
          exact ⟨_, List.mem_map_of_mem hpair, mem_rowOf _ _⟩

/-- Plain text only leaves out the quotes around a string. -/
theorem Quoteless.notMem_text_iff {value : Literal} (h : value.Quoteless) :
    '\'' ∉ value.text.toList ↔ (value.HoldsString → ∃ s, value = .string s) := by
  have number {v : Literal} (digits : isNumeral v.text = true) (none : ¬ v.HoldsString) :
      '\'' ∉ v.text.toList ↔ (v.HoldsString → ∃ s, v = .string s) :=
    iff_of_true (notMem_of_isNumeral digits (by decide)) fun holds => absurd holds none
  cases h with
  | null => exact number (by decide) (by rintro ⟨⟩)
  | bool b => exact number (by cases b <;> decide) (by rintro ⟨⟩)
  | long n => exact number (isNumeral_intRepr n.toInt) (by rintro ⟨⟩)
  | real x => exact number (realLayout.isNumeral_text x) (by rintro ⟨⟩)
  | decimal d => exact number d.isNumeral_text (by rintro ⟨⟩)
  | @string s h => exact iff_of_true h fun _ => ⟨s, rfl⟩
  | array _ =>
      rw [text_array, ← render_array, mem_render_iff]
      simp
  | bag _ =>
      rw [text_bag, ← render_bag, mem_render_iff]
      simp

end Literal

/-! ## Reading rows -/

/-- A field ends at the first quote, so it is read as it was written only if it holds none. -/
theorem notMem_of_scan_quote {s : String} {rest : List Char} {more : List Token}
    (h : scan ('\'' :: (s.toList ++ rest)) = .quoted s :: more) : '\'' ∉ s.toList := by
  rw [scan, if_neg (by decide), if_neg (by decide), if_neg (by decide), if_pos rfl, List.cons.injEq,
    Token.quoted.injEq, ← String.toList_inj, String.toList_ofList] at h
  intro found
  rw [← h.1] at found
  simpa using List.mem_takeWhile_imp found

theorem scan_rowOf (key value : String) (rest : List Char) :
    scan ((Literal.rowOf key value).toList ++ rest) =
      scan ('\'' :: (key.toList ++ '\'' :: ',' :: ' ' :: '\'' ::
        (value.toList ++ '\'' :: ',' :: rest))) := by
  simp [Literal.rowOf]

theorem exists_of_readRows {tokens : List Token} {pair : String × String}
    {rows : List (String × String)} (h : readRows tokens = some (pair :: rows)) :
    ∃ rest, tokens = .quoted pair.1 :: .mark ',' :: .quoted pair.2 :: .mark ',' :: rest := by
  unfold readRows at h
  split at h
  · cases h
  · next key value rest =>
    obtain ⟨_, _, same⟩ := Option.map_eq_some_iff.mp h
    cases same
    exact ⟨rest, rfl⟩
  · cases h

/-- The row is read as it was written exactly when neither field holds a quote. -/
theorem readRows_rowOf_iff {key value : String} {rest : List Char} {rows : List (String × String)} :
    readRows (scan ((Literal.rowOf key value).toList ++ rest)) = some ((key, value) :: rows) ↔
      ('\'' ∉ key.toList ∧ '\'' ∉ value.toList) ∧ readRows (scan rest) = some rows := by
  have fields (hk : '\'' ∉ key.toList) : scan ((Literal.rowOf key value).toList ++ rest) =
      .quoted key :: .mark ',' :: scan ('\'' :: (value.toList ++ '\'' :: ',' :: rest)) := by
    rw [scan_rowOf, scan_quoted hk, scan_comma, scan_space]
  have whole (hk : '\'' ∉ key.toList) (hv : '\'' ∉ value.toList) :
      readRows (scan ((Literal.rowOf key value).toList ++ rest)) =
        (readRows (scan rest)).map ((key, value) :: ·) := by
    rw [fields hk, scan_quoted hv, scan_comma, readRows]
  constructor
  · intro h
    obtain ⟨_, tokens⟩ := exists_of_readRows h
    -- Where the second field starts is known only once the first one ends where it was written to end.
    have hk : '\'' ∉ key.toList := notMem_of_scan_quote (scan_rowOf key value rest ▸ tokens)
    rw [fields hk] at tokens
    injection tokens with _ tokens
    injection tokens with _ tokens
    have hv : '\'' ∉ value.toList := notMem_of_scan_quote tokens
    rw [whole hk hv, Option.map_eq_some_iff] at h
    obtain ⟨read, hread, same⟩ := h
    cases same
    exact ⟨⟨hk, hv⟩, hread⟩
  · rintro ⟨⟨hk, hv⟩, h⟩
    rw [whole hk hv, h]
    rfl

/-! ## Reading a table -/

/-- The rows with blanks between them, and the end of the table. -/
def rowLines (pairs : List (String × Literal)) : String :=
  "\n\t".intercalate (pairs.map fun (key, value) => Literal.rowOf key value.text) ++ "\n]"

theorem scan_rowLines_cons (pair : String × Literal) (more : List (String × Literal)) :
    ∃ rest, (rowLines (pair :: more)).toList = (Literal.rowOf pair.1 pair.2.text).toList ++ rest ∧
      scan rest = scan (rowLines more).toList := by
  cases more with
  | nil =>
      refine ⟨"\n]".toList, ?_, ?_⟩
      · simp [rowLines]
      · simp [rowLines]
  | cons other more =>
      refine ⟨'\n' :: '\t' :: (rowLines (other :: more)).toList, ?_, ?_⟩
      · simp [rowLines, String.intercalate_cons_cons]
      · rw [scan_newline, scan_tab]

theorem readRows_rowLines_iff (pairs : List (String × Literal)) :
    readRows (scan (rowLines pairs).toList) = some (pairs.map (Prod.map id Literal.text)) ↔
      ∀ pair ∈ pairs, '\'' ∉ pair.1.toList ∧ '\'' ∉ pair.2.text.toList := by
  induction pairs with
  | nil =>
      have ending : scan (rowLines []).toList = [.mark ']'] := by
        have text : (rowLines []).toList = ['\n', ']'] := rfl
        rw [text, scan_newline, scan_bracket_close, scan]
      rw [ending]
      exact iff_of_true rfl (List.forall_mem_nil _)
  | cons pair more ih =>
      obtain ⟨rest, text, blanks⟩ := scan_rowLines_cons pair more
      rw [text, List.map_cons, List.forall_mem_cons, ← ih, ← blanks]
      exact readRows_rowOf_iff

theorem scan_renderTable (pairs : List (String × Literal)) :
    scan (Literal.renderTable pairs).toList = tableHead ++ scan (rowLines pairs).toList := by
  have front : "datatable(key: string, value: string)[\n    ".toList =
      "datatable".toList ++ '(' :: ("key".toList ++ ':' :: ' ' :: ("string".toList ++ ',' :: ' ' ::
        ("value".toList ++ ':' :: ' ' :: ("string".toList ++ ')' :: '[' :: '\n' ::
          ' ' :: ' ' :: ' ' :: [' '])))) := by
    decide +kernel
  have text : (Literal.renderTable pairs).toList =
      "datatable(key: string, value: string)[\n    ".toList ++ (rowLines pairs).toList := by
    rw [← String.toList_append, rowLines, ← String.append_assoc]
    rfl
  have colon (rest : List Char) : scan (':' :: rest) = .mark ':' :: scan rest :=
    scan_mark (by decide) (by decide) (by decide) (by decide) rest
  have word (name : String) (h : isIdentifier name = true) {c : Char} (hc : isNameChar c = false)
      (rest : List Char) : scan (name.toList ++ c :: rest) = .word name :: scan (c :: rest) :=
    scan_word h (ends_cons hc rest)
  rw [text, front]
  simp only [List.append_assoc, List.cons_append, List.nil_append]
  rw [word "datatable" (by decide) (by decide), scan_parenthesis_open,
    word "key" (by decide) (by decide), colon, scan_space,
    word "string" (by decide) (by decide), scan_comma, scan_space,
    word "value" (by decide) (by decide), colon, scan_space,
    word "string" (by decide) (by decide), scan_parenthesis_close, scan_bracket_open, scan_newline,
    scan_space, scan_space, scan_space, scan_space]
  rfl

theorem readTable_renderTable (pairs : List (String × Literal)) :
    readTable (Literal.renderTable pairs) = readRows (scan (rowLines pairs).toList) := by
  simp only [readTable, scan_renderTable]
  rw [if_pos (List.prefix_append _ _), List.drop_left]

/-- The rows of a table without quotes in keys and strings come back, in order, exactly if every value
that holds a string is one. -/
theorem readTable_exact_iff {pairs : List (String × Literal)}
    (keys : ∀ pair ∈ pairs, '\'' ∉ pair.1.toList) (values : ∀ pair ∈ pairs, pair.2.Quoteless) :
    readTable (Literal.renderTable pairs) = some (pairs.map (Prod.map id Literal.text)) ↔
      ∀ pair ∈ pairs, pair.2.HoldsString → ∃ s, pair.2 = .string s := by
  rw [readTable_renderTable, readRows_rowLines_iff]
  refine forall₂_congr fun pair hpair => ?_
  rw [and_iff_right (keys pair hpair), (values pair hpair).notMem_text_iff]

/-- A string may look like the end of a row. A list without strings stands in its field as it is. -/
theorem flat_table_read :
    (∀ pair ∈ [("a", Literal.string "x, y],"), ("n", .array [.long 1, .array []])],
      '\'' ∉ pair.1.toList ∧ pair.2.Quoteless) ∧
    readTable (Literal.renderTable [("a", .string "x, y],"), ("n", .array [.long 1, .array []])]) =
      some [("a", "x, y],"), ("n", "dynamic([\n\t1,\n\tdynamic([])\n])")] := by
  have numbers : (Literal.array [.long 1, .array []]).Quoteless := by
    refine .array (List.forall_mem_cons.mpr ⟨.long 1, List.forall_mem_singleton.mpr ?_⟩)
    exact .array (List.forall_mem_nil _)
  have quoteless : ∀ pair ∈ [("a", Literal.string "x, y],"), ("n", .array [.long 1, .array []])],
      '\'' ∉ pair.1.toList ∧ pair.2.Quoteless :=
    List.forall_mem_cons.mpr ⟨⟨by decide, .string (by decide)⟩,
      List.forall_mem_singleton.mpr ⟨by decide, numbers⟩⟩
  have noString : ¬ (Literal.array [.long 1, .array []]).HoldsString := by
    rw [← Literal.mem_render_iff]
    decide +kernel
  refine ⟨quoteless, (readTable_exact_iff (fun pair h => (quoteless pair h).1)
    (fun pair h => (quoteless pair h).2)).mpr ?_⟩
  exact List.forall_mem_cons.mpr ⟨fun _ => ⟨_, rfl⟩,
    List.forall_mem_singleton.mpr fun holds => absurd holds noString⟩

/-- The field ends at the quote in front of the item. -/
theorem listed_string_cut_short :
    (∀ pair ∈ [("k", Literal.array [.string "a"])], '\'' ∉ pair.1.toList ∧ pair.2.Quoteless) ∧
      readTable (Literal.renderTable [("k", .array [.string "a"])]) ≠
        some ([("k", Literal.array [.string "a"])].map (Prod.map id Literal.text)) := by
  have item : (Literal.array [.string "a"]).Quoteless :=
    .array (List.forall_mem_singleton.mpr (.string (by decide)))
  refine ⟨List.forall_mem_singleton.mpr ⟨by decide, item⟩, ?_⟩
  rw [readTable_renderTable, ne_eq, readRows_rowLines_iff, List.forall_mem_singleton]
  exact fun fields => fields.2 (by decide +kernel)

end Kql
