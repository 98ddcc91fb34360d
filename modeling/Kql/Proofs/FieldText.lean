import Kql.Expr.Builders
import Kql.Proofs.DynamicOperands

/-!
Where the field of an expression stands in its text. The name of the field is written behind the whole
text, so behind an operator it may as well name a field of the operand on the right. This happens
exactly when a right operand without parentheses may be dynamic.
-/

namespace Kql

open Text

namespace Expr

theorem field_eq_ok_iff {e p : Expr} {name : String} :
    e.field name = .ok p ↔ e.type = .dynamic ∧ property e name = p := by
  unfold field
  split
  · next h => simp [h]
  · next h => simp [h]

/-! ## A field at the end of a text -/

theorem append_parenthesized_ne (front tokens before : List Token) (name : String) :
    front ++ parenthesized true tokens ≠ before ++ [.mark '.', .word name] := by
  intro same
  have last := congrArg List.getLast? same
  simp [parenthesized, List.getLast?_cons] at last

theorem getLast?_operator (front : List Token) (op : Operator) :
    (front ++ op.tokens).getLast? ≠ some (.mark '.') := by
  have last : ∃ t, op.tokens.getLast? = some t ∧ t ≠ .mark '.' := by
    cases op <;> exact ⟨_, rfl, by decide⟩
  obtain ⟨t, ht, other⟩ := last
  rw [List.getLast?_append, ht]
  simpa using other

/-- Down the right operands, a text that ends with a field leads to a property. -/
theorem Built.exposesDynamic_or_property {e : Expr} (h : e.Built) {front before : List Token}
    {name : String} (hf : front.getLast? ≠ some (.mark '.'))
    (ends : front ++ e.tokens = before ++ [.mark '.', .word name]) :
    e.exposesDynamic = true ∨ ∃ object field, e = property object field := by
  induction h generalizing front with
  | column _ =>
      have point := congrArg (fun tokens => tokens.dropLast.getLast?) ends
      simp [tokens] at point
      exact absurd point hf
  | integer n =>
      have last := congrArg List.getLast? ends
      cases hn : n.toInt <;> simp [tokens, Literal.tokens, integerTokens, hn] at last
  | @binary op left right _ _ _ _ ihr =>
      cases parens : op.isConnective || op.isMembership with
      | true =>
          -- The text ends with a parenthesis.
          rw [tokens, parens, ← List.append_assoc] at ends
          exact absurd ends (append_parenthesized_ne _ _ _ _)
      | false =>
          rw [tokens, parens, ← List.append_assoc, ← List.append_assoc] at ends
          obtain ⟨connective, membership⟩ := Bool.or_eq_false_iff.mp parens
          refine .inl ?_
          rcases ihr (getLast?_operator _ op) ends with loses | ⟨object, field, rfl⟩
          · simp [exposesDynamic, connective, membership, loses]
          · simp [exposesDynamic, connective, membership, mayBeDynamic, Expr.untyped, type]
  | @membership op e values member _ _ =>
      rw [tokens, member, Bool.or_true, ← List.append_assoc] at ends
      exact absurd ends (append_parenthesized_ne _ _ _ _)
  | call _ _ _ _ =>
      rw [Expr.call, tokens, ← List.append_assoc] at ends
      exact absurd ends (append_parenthesized_ne _ _ _ _)
  | field _ _ _ _ => exact .inr ⟨_, _, rfl⟩

/-! ## Fields of the operand on the right -/

/-- The operands of the operator stand without parentheses. -/
structure Plain (op : Operator) : Prop where
  arity : op.arity = .binary
  connective : op.isConnective = false
  membership : op.isMembership = false

theorem Plain.render {op : Operator} (h : Plain op) (left right : Expr) :
    (binary op left right).render = left.render ++ " " ++ op.symbol ++ " " ++ right.render := by
  rw [render_binary, h.connective, h.membership]
  rfl

/-- A plain operator with a dynamic operand on its right. -/
structure Exposed (op : Operator) (left right : Expr) : Prop where
  plain : Plain op
  builtLeft : left.Built
  builtRight : right.Built
  dynamic : right.type = .dynamic

/-- What stands behind an expression stands behind its right operand as well. -/
theorem render_behind {op : Operator} {left right e moved whole : Expr} {rest : String} (h : Plain op)
    (same : (binary op left right).render = e.render) (hm : moved.render = right.render ++ rest)
    (hw : whole.render = e.render ++ rest) : (binary op left moved).render = whole.render := by
  rw [h.render, hm, hw, ← same, h.render]
  simp only [String.append_assoc]

/-- The expression has the text of a plain operator with a dynamic operand on its right. -/
def Regroups (e : Expr) : Prop :=
  ∃ op left right, Exposed op left right ∧ (binary op left right).render = e.render

/-- The operator behind takes the right operand alone. -/
theorem Regroups.of_left {op : Operator} {left right : Expr} (h : left.Regroups)
    (connective : op.isConnective = false)
    (built : ∀ e : Expr, e.Built → (binary op e right).Built) : (binary op left right).Regroups := by
  obtain ⟨above, outer, inner, exposed, same⟩ := h
  have text (e : Expr) : (binary op e right).render =
      e.render ++ (" " ++ op.symbol ++ " " ++ inParentheses op.isMembership right.render) := by
    rw [render_binary, connective, Bool.false_or]
    simp only [inParentheses, Bool.false_eq_true, if_false, String.append_assoc]
  refine ⟨above, outer, binary op inner right, ?_, render_behind exposed.plain same (text _) (text _)⟩
  exact { exposed with builtRight := built inner exposed.builtRight }

theorem Regroups.of_right {op : Operator} {left right : Expr} (h : right.Regroups) (plain : Plain op)
    (hl : left.Built) : (binary op left right).Regroups := by
  obtain ⟨last, inner, operand, exposed, same⟩ := h
  refine ⟨last, binary op left inner, operand, ?_, ?_⟩
  · exact { exposed with builtLeft := .binary plain.arity hl exposed.builtLeft }
  · rw [exposed.plain.render, plain.render, plain.render, ← same, exposed.plain.render]
    simp only [String.append_assoc]

theorem Regroups.field {object : Expr} {name : String} (h : object.Regroups)
    (hn : isIdentifier name = true) : ∃ op left right, Exposed op left (property right name) ∧
      (binary op left (property right name)).render = (property object name).render := by
  obtain ⟨op, left, right, exposed, same⟩ := h
  refine ⟨op, left, right, ?_, ?_⟩
  · exact { exposed with builtRight := .field exposed.builtRight hn exposed.dynamic, dynamic := rfl }
  · exact render_behind exposed.plain same String.append_assoc String.append_assoc

theorem Built.regroups {e : Expr} (h : e.Built) (exposes : e.exposesDynamic = true) :
    e.Regroups := by
  induction h with
  | column _ | integer _ | call _ _ _ _ => cases exposes
  | @binary op left right arity hl hr ihl ihr =>
      simp only [exposesDynamic, Bool.and_eq_true, Bool.or_eq_true, Bool.not_eq_true'] at exposes
      obtain ⟨connective, onLeft | ⟨membership, dynamic | onRight⟩⟩ := exposes
      · exact (ihl onLeft).of_left connective fun e he => .binary arity he hr
      · -- The text leaves the types of columns open.
        refine ⟨op, left, right.untyped, ⟨⟨arity, connective, membership⟩, hl, hr.untyped, ?_⟩, ?_⟩
        · exact of_decide_eq_true dynamic
        · rw [render_binary, render_binary, render_untyped]
      · exact (ihr onRight).of_right ⟨arity, connective, membership⟩ hl
  | @membership op e values member _ ih =>
      simp only [exposesDynamic, member, Bool.and_eq_true, Bool.not_eq_true', Bool.not_true,
        Bool.false_and, Bool.or_false] at exposes
      exact (ih exposes.2).of_left exposes.1 fun e he => .membership values member he
  | @field object name _ hn _ ih =>
      obtain ⟨op, left, right, regrouped⟩ := (ih exposes).field hn
      exact ⟨op, left, property right name, regrouped⟩

/-- The text of a field is that of an operator exactly if the expression has a right operand without
parentheses that may be dynamic, and it is then that of an operator whose right operand has the field. -/
theorem field_text_binary_iff {e p : Expr} {name : String} (he : e.Built)
    (hn : isIdentifier name = true) (h : e.field name = .ok p) :
    ((∃ op left right, (binary op left right).Built ∧ (binary op left right).render = p.render) ↔
      e.exposesDynamic = true) ∧
    (e.exposesDynamic = true → ∃ op left right, (binary op left (property right name)).Built ∧
      (binary op left (property right name)).render = p.render) := by
  obtain ⟨dynamic, rfl⟩ := field_eq_ok_iff.mp h
  have hp : (property e name).Built := .field he hn dynamic
  have moved (exposes : e.exposesDynamic = true) :
      ∃ op left right, (binary op left (property right name)).Built ∧
        (binary op left (property right name)).render = (property e name).render := by
    obtain ⟨op, left, right, exposed, same⟩ := (he.regroups exposes).field hn
    exact ⟨op, left, right, .binary exposed.plain.arity exposed.builtLeft exposed.builtRight, same⟩
  refine ⟨⟨?_, fun exposes => ?_⟩, moved⟩
  · rintro ⟨op, left, right, hb, same⟩
    have ends : [] ++ (binary op left right).tokens = e.tokens ++ [.mark '.', .word name] := by
      rw [List.nil_append, ← hb.scansTo.scan_eq, same, hp.scansTo.scan_eq, tokens]
    rcases hb.exposesDynamic_or_property (by simp) ends with exposes | ⟨_, _, other⟩
    · rwa [hb.exposesDynamic_eq hp same, exposesDynamic] at exposes
    · cases other
  · obtain ⟨op, left, right, hb, same⟩ := moved exposes
    exact ⟨op, left, property right name, hb, same⟩

def bag (name : String) : Expr := column ⟨name, .dynamic⟩

theorem built_bag_add {a b : String} (ha : isIdentifier a = true) (hb : isIdentifier b = true) :
    (bag a + bag b).Built :=
  .binary rfl (.column ha) (.column hb)

theorem field_of_call_text :
    (call .min [bag "a" + bag "b"]).Built ∧
      (call .min [bag "a" + bag "b"]).field "c" = .ok (property (call .min [bag "a" + bag "b"]) "c") ∧
      ¬ ∃ op left right, (binary op left right).Built ∧
        (binary op left right).render = (property (call .min [bag "a" + bag "b"]) "c").render := by
  have built : (call .min [bag "a" + bag "b"]).Built :=
    .call (by decide) (by decide)
      (List.forall_mem_singleton.mpr (built_bag_add (by decide) (by decide)))
  refine ⟨built, rfl, fun shared => ?_⟩
  have loses := (field_text_binary_iff built (by decide) rfl).1.mp shared
  cases loses

theorem field_of_sum_text :
    ¬ ∀ (e p : Expr) (name : String), e.Built → isIdentifier name = true → e.field name = .ok p →
      ¬ ∃ op left right, (binary op left right).Built ∧
        (binary op left right).render = p.render := by
  intro unshared
  have sum := built_bag_add (by decide : isIdentifier "a" = true) (by decide : isIdentifier "b" = true)
  refine unshared (bag "a" + bag "b") _ "c" sum (by decide) rfl ?_
  have inner : (property (bag "b") "c").Built := .field (.column (by decide)) (by decide) rfl
  exact ⟨.add, bag "a", property (bag "b") "c", .binary rfl (.column (by decide)) inner, by decide⟩

end Expr

end Kql
