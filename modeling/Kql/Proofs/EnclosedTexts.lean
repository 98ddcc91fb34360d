import Kql.Proofs.Brackets
import Kql.Proofs.ExprTokens
import Kql.Proofs.NumberTexts

/-!
The brackets in the texts of literals and expressions. Where no name and no string holds a bracket or
a bar, brackets pair up, and there are no bars outside of them. Numbers hold neither.
-/

namespace Kql

open Text

/-! ## Texts without brackets and bars -/

namespace Text

theorem isUnmarkedChar_of_isNumeralChar {c : Char} (h : isNumeralChar c = true) :
    isUnmarkedChar c = true := by
  have different (mark : Char) (hm : isNumeralChar mark = false) : c ≠ mark := by
    rintro rfl
    rw [h] at hm
    cases hm
  simp [isUnmarkedChar, weight, isOpening, isClosing, different '(' (by decide),
    different ')' (by decide), different '[' (by decide), different ']' (by decide),
    different '|' (by decide)]

theorem isUnmarked_of_isNameChar {cs : List Char} (h : ∀ c ∈ cs, isNameChar c = true) :
    isUnmarked (String.ofList cs) = true := by
  rw [isUnmarked, String.toList_ofList, List.all_eq_true]
  intro c hc
  apply isUnmarkedChar_of_isNumeralChar
  rw [isNumeralChar, h c hc]
  rfl

theorem enclosed_of_isNumeral {s : String} (h : isNumeral s = true) : Enclosed s := by
  apply enclosed_of_isUnmarked
  rw [isNumeral, List.all_eq_true] at h
  rw [isUnmarked, List.all_eq_true]
  exact fun c hc => isUnmarkedChar_of_isNumeralChar (h c hc)

theorem enclosed_call {name s : String} (hn : isUnmarked name = true) (h : Enclosed s) :
    Enclosed (name ++ ("(" ++ s ++ ")")) :=
  (Enclosed.round h.barred).behind hn

end Text

/-! ## Literals -/

namespace Literal

/-- No string and no key in the literal holds a bracket or a bar. -/
inductive Unmarked : Literal → Prop
  | null : Unmarked null
  | bool (b : Bool) : Unmarked (bool b)
  | long (n : Int64) : Unmarked (long n)
  | real (x : Float) : Unmarked (real x)
  | decimal (d : Decimal.Fixed) : Unmarked (decimal d)
  | string {s : String} : isUnmarked s = true → Unmarked (string s)
  | array {items : List Literal} : (∀ item ∈ items, Unmarked item) → Unmarked (array items)
  | bag {pairs : List (String × Literal)} : (∀ pair ∈ pairs, isUnmarked pair.1 = true) →
      (∀ pair ∈ pairs, Unmarked pair.2) → Unmarked (bag pairs)

theorem enclosed_listOf {items : List String} (h : ∀ item ∈ items, Enclosed item) :
    Enclosed (listOf items) := by
  have framed {s : String} (hs : Enclosed s) :
      Enclosed ("dynamic" ++ ("(" ++ ("[" ++ s ++ "]") ++ ")")) :=
    enclosed_call (by decide) (.square hs.barred)
  cases items with
  | nil => exact framed (enclosed_of_isUnmarked (by decide : isUnmarked "" = true))
  | cons item more =>
      have text : listOf (item :: more) =
          "dynamic" ++ ("(" ++ ("[" ++ ("\n\t" ++ ",\n\t".intercalate (item :: more) ++ "\n")
            ++ "]") ++ ")") := by
        simp [← String.toList_inj, listOf]
      rw [text]
      exact framed ((Enclosed.intercalate (by decide) h).between (by decide) (by decide))

theorem enclosed_tableOf {rows : List String} (h : ∀ row ∈ rows, Enclosed row) :
    Enclosed (tableOf rows) := by
  have opening : "datatable(key: string, value: string)[\n    " =
      "datatable" ++ "(" ++ "key: string, value: string" ++ ")" ++ "[" ++ "\n    " := by
    decide +kernel
  have closing : "\n]" = "\n" ++ "]" := rfl
  have text : tableOf rows =
      "datatable" ++ ("(" ++ "key: string, value: string" ++ ")")
        ++ ("[" ++ ("\n    " ++ "\n\t".intercalate rows ++ "\n") ++ "]") := by
    unfold tableOf
    rewrite [opening, closing]
    simp only [String.append_assoc]
  have columns : isUnmarked "key: string, value: string" = true := by decide +kernel
  have lines : Enclosed ("\n    " ++ "\n\t".intercalate rows ++ "\n") :=
    (Enclosed.intercalate (by decide) h).between (by decide) (by decide)
  rw [text]
  exact (enclosed_call (by decide) (enclosed_of_isUnmarked columns)).append (.square lines.barred)

theorem enclosed_rowOf {key value : String} (hk : Enclosed key) (hv : Enclosed value) :
    Enclosed (rowOf key value) := by
  have text : rowOf key value = "'" ++ (key ++ ("', '" ++ value ++ "',")) ++ "" := by
    simp [← String.toList_inj, rowOf]
  rw [text]
  exact (hk.append (hv.between (by decide) (by decide))).between (by decide) (by decide)

/-- The text of the literal as code, and that as plain text. -/
theorem Unmarked.enclosed {value : Literal} (h : value.Unmarked) :
    Enclosed value.render ∧ Enclosed value.text := by
  induction h with
  | null =>
      have word : Enclosed "null" := enclosed_of_isUnmarked (by decide)
      have text : Literal.null.render = "dynamic" ++ ("(" ++ "null" ++ ")") := rfl
      rw [text]
      exact ⟨enclosed_call (by decide) word, word⟩
  | bool b =>
      cases b <;> exact ⟨enclosed_of_isUnmarked (by decide), enclosed_of_isUnmarked (by decide)⟩
  | long n =>
      have digits := enclosed_of_isNumeral (isNumeral_intRepr n.toInt)
      exact ⟨digits, digits⟩
  | real x =>
      have digits := enclosed_of_isNumeral (realLayout.isNumeral_text x)
      exact ⟨digits, digits⟩
  | decimal d =>
      have digits := enclosed_of_isNumeral d.isNumeral_text
      have text : (Literal.decimal d).render = "decimal" ++ ("(" ++ d.text ++ ")") := by
        simp [← String.toList_inj, render]
      rw [text]
      exact ⟨enclosed_call (by decide) digits, digits⟩
  | string h =>
      have plain := enclosed_of_isUnmarked h
      exact ⟨plain.between (by decide) (by decide), plain⟩
  | array _ ih =>
      rw [render_array, text_array, renderList]
      have list := enclosed_listOf (List.forall_mem_map.mpr fun item hitem => (ih item hitem).1)
      exact ⟨list, list⟩
  | bag hkeys _ ih =>
      rw [render_bag, text_bag, renderTable]
      have table := enclosed_tableOf (List.forall_mem_map.mpr fun pair hpair =>
        enclosed_rowOf (enclosed_of_isUnmarked (hkeys pair hpair)) (ih pair hpair).2)
      exact ⟨table, table⟩

end Literal

/-! ## Expressions -/

theorem Operator.isUnmarked_symbol (op : Operator) : isUnmarked op.symbol = true := by
  cases op <;> decide

namespace Expr

/-- No name and no string in the expression holds a bracket or a bar. -/
inductive Unmarked : Expr → Prop
  | column {c : Column} : isUnmarked c.name = true → Unmarked (column c)
  | property {object : Expr} {field : String} : Unmarked object → isUnmarked field = true →
      Unmarked (property object field)
  | literal {value : Literal} : value.Unmarked → Unmarked (literal value)
  | binary {op : Operator} {left right : Expr} : Unmarked left → Unmarked right →
      Unmarked (binary op left right)
  | apply {op : Operator} {terms : List Expr} {aggregate : Bool} : (∀ t ∈ terms, Unmarked t) →
      Unmarked (apply op terms aggregate)

theorem enclosed_inParentheses {text : String} (h : Enclosed text) (parens : Bool) :
    Enclosed (inParentheses parens text) := by
  cases parens with
  | false => exact h
  | true => exact .round h.barred

theorem Unmarked.enclosed {e : Expr} (h : e.Unmarked) : Enclosed e.render := by
  induction h with
  | column h => exact enclosed_of_isUnmarked h
  | property _ hf ih =>
      rw [render]
      exact (ih.append (enclosed_of_isUnmarked (by decide))).append (enclosed_of_isUnmarked hf)
  | literal h => exact h.enclosed.1
  | @binary op left right _ _ ihl ihr =>
      have symbol : Enclosed (" " ++ op.symbol ++ " ") :=
        (enclosed_of_isUnmarked op.isUnmarked_symbol).between (by decide) (by decide)
      have whole := ((enclosed_inParentheses ihl op.isConnective).append symbol).append
        (enclosed_inParentheses ihr (op.isConnective || op.isMembership))
      rw [render_binary]
      simp only [← String.append_assoc] at whole
      exact whole
  | @apply op terms _ _ ih =>
      have texts : Enclosed (", ".intercalate (terms.map render)) :=
        .intercalate_map (by decide) ih
      have whole := enclosed_call op.isUnmarked_symbol texts
      rw [render, renderTerms_eq_map]
      simp only [← String.append_assoc] at whole
      exact whole

theorem isUnmarked_nameOf (text : String) : isUnmarked (nameOf text) = true := by
  apply isUnmarked_of_isNameChar
  intro c hc
  obtain ⟨d, -, rfl⟩ := List.mem_map.mp hc
  split
  next named => exact named
  next => decide

/-- A name made from an expression holds letters, digits and underscores only. -/
theorem isUnmarked_defaultName (e : Expr) : isUnmarked e.defaultName = true := by
  unfold defaultName
  split <;> exact isUnmarked_nameOf _

end Expr

end Kql
