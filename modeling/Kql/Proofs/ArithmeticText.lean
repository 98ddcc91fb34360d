import Kql.Proofs.ExprReader

/-!
What the text of arithmetic keeps of it: the operands and the operators in their order, and nothing of
how they are grouped. So the text reads back as the same computation exactly when the tree is grouped
as the operators bind, and only a tree of at most one operator has a text of its own.
-/

namespace Kql

namespace Operator

theorem mem_between_of_arithmetic {op : Operator} (h : op.category = .arithmetic) :
    op ∈ between ∧ op.isConnective = false ∧ op.isMembership = false := by
  revert h
  cases op <;> decide

end Operator

namespace Expr

/-- Arithmetic on columns, with identifiers for names, and on integers that are not negative. -/
inductive IsArithmetic : Expr → Prop
  | column {c : Column} : Text.isIdentifier c.name = true → IsArithmetic (column c)
  | integer {n : Int64} : 0 ≤ n.toInt → IsArithmetic (literal (.long n))
  | binary {op : Operator} {left right : Expr} : op.category = .arithmetic →
      IsArithmetic left → IsArithmetic right → IsArithmetic (binary op left right)

/-- The operands of a tree of operators, as a text shows them, and the operators between them. -/
def inOrder : Expr → List (Expr ⊕ Operator)
  | binary op left right => left.inOrder ++ .inr op :: right.inOrder
  | operand => [.inl operand.untyped]

def operatorCount : Expr → Nat
  | binary _ left right => left.operatorCount + right.operatorCount + 1
  | _ => 0

theorem length_inOrder (e : Expr) : e.inOrder.length = 2 * e.operatorCount + 1 := by
  induction e using inOrder.induct with
  | case1 op left right ihl ihr =>
      rw [inOrder, List.length_append, List.length_cons, ihl, ihr, operatorCount]
      omega
  | case2 operand h =>
      cases operand with
      | binary op left right => exact absurd rfl (h op left right)
      | _ => rfl

theorem tightness_untyped (e : Expr) : e.untyped.tightness = e.tightness := by
  cases e <;> rfl

variable {e f g left right : Expr} {op : Operator}

theorem IsArithmetic.operatorCount_untyped (h : e.IsArithmetic) :
    e.untyped.operatorCount = e.operatorCount := by
  induction h with
  | column _ | integer _ => rfl
  | binary _ _ _ ihl ihr => rw [untyped, operatorCount, operatorCount, ihl, ihr]

/-! ## Trees grouped as the operators bind -/

theorem grouped_binary_iff (h : op.category = .arithmetic) :
    (binary op left right).Grouped ↔
      (left.Grouped ∧ op.tightness ≤ left.tightness) ∧
        right.Grouped ∧ op.tightness < right.tightness := by
  obtain ⟨between, connective, membership⟩ := Operator.mem_between_of_arithmetic h
  constructor
  · intro hg
    cases hg with
    | binary _ hl hlt hr hrt =>
        exact ⟨⟨hl, hlt connective⟩, hr, hrt (by rw [connective, membership]; rfl)⟩
  · rintro ⟨⟨hl, hlt⟩, hr, hrt⟩
    exact .binary between hl (fun _ => hlt) hr (fun _ => hrt)

theorem IsArithmetic.grouped_untyped_iff (h : e.IsArithmetic) : e.untyped.Grouped ↔ e.Grouped := by
  induction h with
  | column h => exact ⟨fun _ => .column h, fun _ => .column h⟩
  | integer _ => rfl
  | binary hop _ _ ihl ihr =>
      rw [untyped, grouped_binary_iff hop, grouped_binary_iff hop, ihl, ihr, tightness_untyped,
        tightness_untyped]

theorem IsArithmetic.lexical (h : e.IsArithmetic) : e.Lexical := by
  induction h with
  | column h => exact .column h
  | integer _ => exact .integer _
  | binary _ _ _ ihl ihr => exact .binary ihl ihr

theorem IsArithmetic.grouped_of_operatorCount_eq_zero (h : e.IsArithmetic)
    (hc : e.operatorCount = 0) : e.Grouped ∧ e.tightness = 6 := by
  cases h with
  | column h => exact ⟨.column h, rfl⟩
  | integer _ => exact ⟨.integer _, rfl⟩
  | binary _ _ _ =>
      rw [operatorCount] at hc
      omega

theorem IsArithmetic.grouped_of_operatorCount_le_one (h : e.IsArithmetic)
    (hc : e.operatorCount ≤ 1) : e.Grouped := by
  cases h with
  | column h => exact .column h
  | integer _ => exact .integer _
  | @binary op left right hop hl hr =>
      rw [operatorCount] at hc
      obtain ⟨gl, tl⟩ := hl.grouped_of_operatorCount_eq_zero (by omega)
      obtain ⟨gr, tr⟩ := hr.grouped_of_operatorCount_eq_zero (by omega)
      have bound := op.tightness_le
      exact (grouped_binary_iff hop).mpr ⟨⟨gl, by omega⟩, gr, by omega⟩

/-- An operator with one more operand, put where it groups as it binds. -/
def extend (op : Operator) (operand : Expr) : Expr → Expr
  | binary above left right =>
    if above.tightness < op.tightness then binary above left (extend op operand right)
    else binary op (binary above left right) operand
  | e => binary op e operand

theorem le_tightness_extend (op : Operator) (operand e : Expr) {level : Nat}
    (hop : level ≤ op.tightness) (he : level ≤ e.tightness) :
    level ≤ (extend op operand e).tightness := by
  cases e with
  | binary above left right =>
      rw [extend]
      split
      · exact he
      · exact hop
  | _ => exact hop

theorem inOrder_extend (op : Operator) {operand : Expr} (h : operand.inOrder = [.inl operand.untyped])
    (e : Expr) : (extend op operand e).inOrder = e.inOrder ++ [.inr op, .inl operand.untyped] := by
  induction e using inOrder.induct with
  | case1 above left right _ ihr =>
      rw [extend]
      split
      · rw [inOrder, ihr, inOrder, List.append_assoc, List.cons_append]
      · rw [inOrder, h]
  | case2 e he =>
      rw [extend, inOrder, h]
      exact he

theorem IsArithmetic.extend {operand : Expr} (he : e.IsArithmetic)
    (hop : op.category = .arithmetic) (ho : operand.IsArithmetic) : (Expr.extend op operand e).IsArithmetic := by
  induction he with
  | column h => exact .binary hop (.column h) ho
  | integer h => exact .binary hop (.integer h) ho
  | binary habove hl hr _ ihr =>
      rw [Expr.extend]
      split
      · exact .binary habove hl ihr
      · exact .binary hop (.binary habove hl hr) ho

theorem grouped_extend {operand : Expr} (hop : op.category = .arithmetic) (ho : operand.Grouped)
    (tight : operand.tightness = 6) (he : e.IsArithmetic) (hg : e.Grouped) :
    (extend op operand e).Grouped := by
  have bound := op.tightness_le
  have right : operand.Grouped ∧ op.tightness < operand.tightness := ⟨ho, by omega⟩
  induction he with
  | column _ | integer _ =>
      have tighter : op.tightness ≤ 6 := Nat.le_succ_of_le bound
      exact (grouped_binary_iff hop).mpr ⟨⟨hg, tighter⟩, right⟩
  | @binary above left inner habove _ _ _ ihr =>
      obtain ⟨hl, hinner, looser⟩ := (grouped_binary_iff habove).mp hg
      rw [extend]
      split
      · next h =>
        have below := le_tightness_extend op operand inner h looser
        exact (grouped_binary_iff habove).mpr ⟨hl, ihr hinner, below⟩
      · next h =>
        exact (grouped_binary_iff hop).mpr ⟨⟨hg, Nat.le_of_not_lt h⟩, right⟩

theorem exists_grouped_append (he : e.IsArithmetic) (hop : op.category = .arithmetic)
    (hg : g.IsArithmetic) (grouped : g.Grouped) :
    ∃ whole : Expr, whole.IsArithmetic ∧ whole.Grouped ∧
      whole.inOrder = g.inOrder ++ .inr op :: e.inOrder := by
  induction he generalizing g op with
  | column h =>
      refine ⟨extend op _ g, hg.extend hop (.column h), ?_, inOrder_extend op rfl g⟩
      exact grouped_extend hop (.column h) rfl hg grouped
  | integer h =>
      refine ⟨extend op _ g, hg.extend hop (.integer h), ?_, inOrder_extend op rfl g⟩
      exact grouped_extend hop (.integer _) rfl hg grouped
  | binary hop' _ _ ihl ihr =>
      obtain ⟨front, hf, groupedFront, orderFront⟩ := ihl hop hg grouped
      obtain ⟨whole, hw, groupedWhole, orderWhole⟩ := ihr hop' hf groupedFront
      refine ⟨whole, hw, groupedWhole, ?_⟩
      rw [orderWhole, orderFront, inOrder, List.append_assoc, List.cons_append]

theorem IsArithmetic.exists_grouped (h : e.IsArithmetic) :
    ∃ g : Expr, g.IsArithmetic ∧ g.Grouped ∧ g.inOrder = e.inOrder := by
  induction h with
  | column h => exact ⟨_, .column h, .column h, rfl⟩
  | integer h => exact ⟨_, .integer h, .integer _, rfl⟩
  | binary hop _ hr ihl _ =>
      obtain ⟨left, hl, grouped, order⟩ := ihl
      rw [inOrder, ← order]
      exact exists_grouped_append hr hop hl grouped

/-! ## What a text says -/

/-- The text of an operand, or of an operator between two operands. -/
def pieceText : Expr ⊕ Operator → String
  | .inl operand => operand.render
  | .inr op => " " ++ op.symbol ++ " "

theorem IsArithmetic.render_eq (h : e.IsArithmetic) :
    e.render = String.join (e.inOrder.map pieceText) := by
  rw [← String.toList_inj]
  induction h with
  | column _ => simp [inOrder, pieceText, untyped, render]
  | integer _ => simp [inOrder, pieceText, untyped]
  | binary hop _ _ ihl ihr =>
      obtain ⟨_, connective, membership⟩ := Operator.mem_between_of_arithmetic hop
      rw [String.toList_join] at ihl ihr
      rw [render_binary, connective, membership]
      simp only [inParentheses, Bool.or_self, Bool.false_eq_true, if_false, String.toList_append,
        String.toList_join, inOrder, List.map_append, List.map_cons, List.flatMap_append,
        List.flatMap_cons, pieceText, List.append_assoc, ihl, ihr]

/-- The text is read as the computation that groups the same operands and operators as they bind. -/
theorem IsArithmetic.readExpr_render (h : e.IsArithmetic) :
    ∃ g : Expr, g.IsArithmetic ∧ g.Grouped ∧ g.inOrder = e.inOrder ∧
      readExpr e.render = some g.untyped := by
  obtain ⟨g, hg, grouped, order⟩ := h.exists_grouped
  refine ⟨g, hg, grouped, order, ?_⟩
  rw [h.render_eq, ← order, ← hg.render_eq]
  exact Kql.readExpr_render grouped

theorem IsArithmetic.inOrder_untyped (h : e.IsArithmetic) : e.untyped.inOrder = e.inOrder := by
  induction h with
  | column _ | integer _ => rfl
  | binary _ _ _ ihl ihr => rw [untyped, inOrder, inOrder, ihl, ihr]

theorem IsArithmetic.render_eq_iff (he : e.IsArithmetic) (hf : f.IsArithmetic) :
    f.render = e.render ↔ f.inOrder = e.inOrder := by
  constructor
  · intro same
    obtain ⟨g, hg, _, orderG, readG⟩ := he.readExpr_render
    obtain ⟨k, hk, _, orderK, readK⟩ := hf.readExpr_render
    rw [same, readG, Option.some_inj] at readK
    rw [← orderK, ← hk.inOrder_untyped, ← readK, hg.inOrder_untyped, orderG]
  · intro same
    rw [he.render_eq, hf.render_eq, same]

theorem IsArithmetic.readExpr_render_iff (h : e.IsArithmetic) :
    readExpr e.render = some e.untyped ↔ e.Grouped := by
  refine ⟨fun read => ?_, Kql.readExpr_render⟩
  obtain ⟨g, hg, grouped, _, readG⟩ := h.readExpr_render
  rw [read, Option.some_inj] at readG
  rw [← h.grouped_untyped_iff, readG, hg.grouped_untyped_iff]
  exact grouped

/-! ## Trees with a text of their own -/

theorem operatorCount_eq_of_inOrder_eq (same : f.inOrder = e.inOrder) :
    f.operatorCount = e.operatorCount := by
  have lengths := congrArg List.length same
  rw [length_inOrder, length_inOrder] at lengths
  omega

theorem untyped_ne_of_left {op' : Operator} {left' right' : Expr} (hl : left.IsArithmetic)
    (hl' : left'.IsArithmetic) (hc : left.operatorCount ≠ left'.operatorCount) :
    (binary op left right).untyped ≠ (binary op' left' right').untyped := by
  intro same
  rw [untyped, untyped] at same
  injection same with _ sameLeft _
  apply hc
  rw [← hl.operatorCount_untyped, sameLeft, hl'.operatorCount_untyped]

theorem IsArithmetic.exists_regrouped (h : e.IsArithmetic) (hc : 1 < e.operatorCount) :
    ∃ f : Expr, f.IsArithmetic ∧ f.inOrder = e.inOrder ∧ f.untyped ≠ e.untyped := by
  cases h with
  | column _ | integer _ => exact absurd hc (Nat.not_lt_zero 1)
  | @binary op left right hop hl hr =>
      rcases Nat.eq_zero_or_pos left.operatorCount with hzero | hpos
      · cases hr with
        | column _ | integer _ =>
            rw [operatorCount, hzero] at hc
            exact absurd hc (Nat.lt_irrefl 1)
        | @binary above a b habove ha hb =>
            refine ⟨.binary above (.binary op left a) b, .binary habove (.binary hop hl ha) hb, ?_, ?_⟩
            · simp only [inOrder, List.append_assoc, List.cons_append]
            · refine untyped_ne_of_left (.binary hop hl ha) hl ?_
              rw [operatorCount]
              omega
      · cases hl with
        | column _ | integer _ => exact absurd hpos (Nat.lt_irrefl 0)
        | @binary above a b habove ha hb =>
            refine ⟨.binary above a (.binary op b right), .binary habove ha (.binary hop hb hr), ?_, ?_⟩
            · simp only [inOrder, List.append_assoc, List.cons_append]
            · refine untyped_ne_of_left ha (.binary habove ha hb) ?_
              rw [operatorCount]
              omega

/-- Two trees have one text when they have the same operands and operators in the same order, however
they group them. The text stands for the tree itself exactly when the tree is grouped as operators
bind, and no other tree has it exactly when there are not two operators to group. -/
theorem arithmetic_text {e : Expr} (he : e.IsArithmetic) :
    (∀ f : Expr, f.IsArithmetic → (f.render = e.render ↔ f.inOrder = e.inOrder)) ∧
      (readExpr e.render = some e.untyped ↔ e.Grouped) ∧
      ((∀ f : Expr, f.IsArithmetic → f.render = e.render → f.untyped = e.untyped) ↔
        e.operatorCount ≤ 1) := by
  refine ⟨fun f hf => he.render_eq_iff hf, he.readExpr_render_iff, ?_⟩
  constructor
  · intro unique
    by_contra hc
    obtain ⟨f, hf, order, apart⟩ := he.exists_regrouped (Nat.lt_of_not_le hc)
    exact apart (unique f hf ((he.render_eq_iff hf).mpr order))
  · intro hc f hf same
    have order := (he.render_eq_iff hf).mp same
    have count := operatorCount_eq_of_inOrder_eq order
    have readE := Kql.readExpr_render (he.grouped_of_operatorCount_le_one hc)
    have readF := Kql.readExpr_render (hf.grouped_of_operatorCount_le_one (by omega))
    rw [same, readE, Option.some_inj] at readF
    exact readF.symm

def quantity (name : String) : Expr := column ⟨name, .long⟩

theorem isArithmetic_sub (he : e.IsArithmetic) (hf : f.IsArithmetic) : (e - f).IsArithmetic :=
  .binary rfl he hf

theorem difference_text :
    (quantity "a" - quantity "b").IsArithmetic ∧
      ∀ f : Expr, f.IsArithmetic → f.render = (quantity "a" - quantity "b").render →
        f.untyped = (quantity "a" - quantity "b").untyped := by
  have arithmetic : (quantity "a" - quantity "b").IsArithmetic :=
    isArithmetic_sub (.column (by decide)) (.column (by decide))
  obtain ⟨_, _, unique⟩ := arithmetic_text arithmetic
  exact ⟨arithmetic, unique.mpr (by decide)⟩

theorem nested_difference_text :
    ¬ ∀ e f : Expr, e.IsArithmetic → f.IsArithmetic → e.render = f.render →
      e.untyped = f.untyped := by
  intro unique
  have a : (quantity "a").IsArithmetic := .column (by decide)
  have b : (quantity "b").IsArithmetic := .column (by decide)
  have c : (quantity "c").IsArithmetic := .column (by decide)
  have same := unique (quantity "a" - (quantity "b" - quantity "c"))
    (quantity "a" - quantity "b" - quantity "c") (isArithmetic_sub a (isArithmetic_sub b c))
    (isArithmetic_sub (isArithmetic_sub a b) c) (by decide)
  injection same with _ left _
  cases left

end Expr
end Kql
