import Kql.Proofs.ExprReader

/-!
Boolean trees over comparisons are told apart by their texts. Both operands of a connective and the
operand of `not` stand in parentheses, and what a quoted string holds is no part of the structure, so
the text of a tree is read as that tree and no other.
-/

namespace Kql.Expr

/-- What stands on the right of a comparison: a column, an integer, or a string without a quote. -/
inductive IsComparand : Expr → Prop
  | column {c : Column} : Text.isIdentifier c.name = true → IsComparand (column c)
  | integer (n : Int64) : IsComparand (literal (.long n))
  | string {s : String} : '\'' ∉ s.toList → IsComparand (literal (.string s))

/-- Comparisons of a column with something else, and what `and`, `or` and `not` make of them. -/
inductive IsBoolean : Expr → Prop
  | comparison {op : Operator} {c : Column} {right : Expr} : op.category = .comparison →
      Text.isIdentifier c.name = true → IsComparand right →
      IsBoolean (binary op (column c) right)
  | and {left right : Expr} : IsBoolean left → IsBoolean right → IsBoolean (left.and right)
  | or {left right : Expr} : IsBoolean left → IsBoolean right → IsBoolean (left.or right)
  | not {e : Expr} : IsBoolean e → IsBoolean e.not

theorem IsComparand.grouped {e : Expr} (h : e.IsComparand) : e.Grouped ∧ e.tightness = 6 := by
  cases h with
  | column h => exact ⟨.column h, rfl⟩
  | integer n => exact ⟨.integer n, rfl⟩
  | string h => exact ⟨.string h, rfl⟩

/-- The operands of a connective stand in parentheses, so only comparisons have to be looked into. -/
theorem IsBoolean.grouped {e : Expr} (h : e.IsBoolean) : e.Grouped := by
  induction h with
  | comparison hop hc hr =>
      obtain ⟨grouped, tight⟩ := hr.grouped
      exact .comparison hop (.column hc) rfl grouped tight
  | and _ _ ihl ihr | or _ _ ihl ihr => exact .connective rfl ihl ihr
  | not _ ih => exact .not ih

/-- The text of a boolean tree is read as the tree itself, so trees share a text only if they differ in
nothing but the types of their columns. -/
theorem boolean_text {e : Expr} (he : e.IsBoolean) :
    readExpr e.render = some e.untyped ∧
      ∀ f : Expr, f.IsBoolean → (f.render = e.render ↔ f.untyped = e.untyped) := by
  have readE := readExpr_render he.grouped
  refine ⟨readE, fun f hf => ⟨fun same => ?_, fun same => ?_⟩⟩
  · have readF := readExpr_render hf.grouped
    rw [same, readE, Option.some_inj] at readF
    exact readF.symm
  · rw [← render_untyped f, same, render_untyped]

def tagged (name text : String) : Expr := (column ⟨name, .string⟩).eq (literal (.string text))

theorem isBoolean_tagged {name text : String} (hn : Text.isIdentifier name = true)
    (ht : '\'' ∉ text.toList) : (tagged name text).IsBoolean :=
  .comparison rfl hn (.string ht)

/-- One of the strings looks like the end of a group and the start of another. -/
theorem regrouped_boolean_text :
    ((tagged "a" "x) and (y").and ((tagged "b" "z").or (tagged "c" "z").not)).IsBoolean ∧
      (((tagged "a" "x) and (y").and (tagged "b" "z")).or (tagged "c" "z").not).render ≠
        ((tagged "a" "x) and (y").and ((tagged "b" "z").or (tagged "c" "z").not)).render := by
  have a : (tagged "a" "x) and (y").IsBoolean := isBoolean_tagged (by decide) (by decide)
  have b : (tagged "b" "z").IsBoolean := isBoolean_tagged (by decide) (by decide)
  have c : (tagged "c" "z").not.IsBoolean := .not (isBoolean_tagged (by decide) (by decide))
  refine ⟨.and a (.or b c), fun same => ?_⟩
  have grouping := ((boolean_text (.and a (.or b c))).2 _ (.or (.and a b) c)).mp same
  injection grouping with connective
  cases connective

end Kql.Expr
