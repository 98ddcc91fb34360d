import Kql.Proofs.ExprReader
import Mathlib.Data.List.Nodup

/-!
Conditions, put together with `and`, `or` and `not` from comparisons of a column with an integer, and
what they come out as when it is known which comparisons hold. As long as no comparison occurs twice,
conditions can hold or fail independently of each other.
-/

namespace Kql.Expr

inductive IsCondition : Expr → Prop
  | comparison {op : Operator} {c : Column} (n : Int64) : op.category = .comparison →
      Text.isIdentifier c.name = true → IsCondition (binary op (column c) (literal (.long n)))
  | and {left right : Expr} : IsCondition left → IsCondition right → IsCondition (left.and right)
  | or {left right : Expr} : IsCondition left → IsCondition right → IsCondition (left.or right)
  | not {e : Expr} : IsCondition e → IsCondition e.not

/-- Whether the condition holds, where `v` says which comparisons do. -/
def holds (v : Expr → Bool) : Expr → Bool
  | binary .and left right => left.holds v && right.holds v
  | binary .or left right => left.holds v || right.holds v
  | apply .not [e] _ => !e.holds v
  | comparison => v comparison.untyped

def comparisons : Expr → List Expr
  | binary .and left right => left.comparisons ++ right.comparisons
  | binary .or left right => left.comparisons ++ right.comparisons
  | apply .not [e] _ => e.comparisons
  | comparison => [comparison.untyped]

variable {e left right : Expr} {v w : Expr → Bool}

theorem holds_and : (left.and right).holds v = (left.holds v && right.holds v) := by
  rw [Expr.and, holds]

theorem holds_or : (left.or right).holds v = (left.holds v || right.holds v) := by
  rw [Expr.or, holds]

theorem holds_not : e.not.holds v = !e.holds v := by
  rw [Expr.not, call, holds]

theorem comparisons_and :
    (left.and right).comparisons = left.comparisons ++ right.comparisons := by
  rw [Expr.and, comparisons]

theorem comparisons_or :
    (left.or right).comparisons = left.comparisons ++ right.comparisons := by
  rw [Expr.or, comparisons]

theorem comparisons_not : e.not.comparisons = e.comparisons := by
  rw [Expr.not, call, comparisons]

theorem holds_comparison {op : Operator} (h : op.category = .comparison) :
    (binary op left right).holds v = v (binary op left right).untyped := by
  revert h
  cases op <;> intro h <;> first
    | exact absurd h (by decide)
    | simp only [holds]

theorem comparisons_comparison {op : Operator} (h : op.category = .comparison) :
    (binary op left right).comparisons = [(binary op left right).untyped] := by
  revert h
  cases op <;> intro h <;> first
    | exact absurd h (by decide)
    | simp only [comparisons]

theorem IsCondition.holds_untyped (h : e.IsCondition) : e.untyped.holds v = e.holds v := by
  induction h with
  | comparison n hop _ =>
      rw [holds_comparison hop, untyped, holds_comparison hop]
      rfl
  | and _ _ ihl ihr =>
      rw [holds_and, ← ihl, ← ihr, ← holds_and]
      rfl
  | or _ _ ihl ihr =>
      rw [holds_or, ← ihl, ← ihr, ← holds_or]
      rfl
  | not _ ih =>
      rw [holds_not, ← ih, ← holds_not]
      rfl

theorem IsCondition.grouped (h : e.IsCondition) : e.Grouped := by
  induction h with
  | comparison n hop hc => exact .comparison hop (.column hc) rfl (.integer n) rfl
  | and _ _ ihl ihr => exact .connective rfl ihl ihr
  | or _ _ ihl ihr => exact .connective rfl ihl ihr
  | not _ ih => exact .not ih

/-! ## Choosing what holds -/

/-- Only the comparisons of a condition matter to it. -/
theorem IsCondition.holds_congr (h : e.IsCondition) (same : ∀ x ∈ e.comparisons, v x = w x) :
    e.holds v = e.holds w := by
  induction h with
  | comparison n hop _ =>
      rw [comparisons_comparison hop] at same
      rw [holds_comparison hop, holds_comparison hop]
      exact same _ List.mem_cons_self
  | and _ _ ihl ihr =>
      rw [comparisons_and, List.forall_mem_append] at same
      rw [holds_and, holds_and, ihl same.1, ihr same.2]
  | or _ _ ihl ihr =>
      rw [comparisons_or, List.forall_mem_append] at same
      rw [holds_or, holds_or, ihl same.1, ihr same.2]
  | not _ ih =>
      rw [comparisons_not] at same
      rw [holds_not, holds_not, ih same]

theorem exists_agreeing {here there : List Expr} (apart : here.Disjoint there) (v w : Expr → Bool) :
    ∃ u : Expr → Bool, (∀ x ∈ here, u x = v x) ∧ ∀ x ∈ there, u x = w x := by
  classical
  refine ⟨fun x => if x ∈ here then v x else w x, fun x hx => if_pos hx, fun x hx => if_neg ?_⟩
  exact fun hx' => apart hx' hx

theorem IsCondition.exists_both (hl : left.IsCondition) (hr : right.IsCondition)
    (apart : left.comparisons.Disjoint right.comparisons) (v w : Expr → Bool) :
    ∃ u, left.holds u = left.holds v ∧ right.holds u = right.holds w := by
  obtain ⟨u, hv, hw⟩ := exists_agreeing apart v w
  exact ⟨u, hl.holds_congr hv, hr.holds_congr hw⟩

theorem IsCondition.exists_holds_eq (h : e.IsCondition) (once : e.comparisons.Nodup) (b : Bool) :
    ∃ v, e.holds v = b := by
  induction h generalizing b with
  | comparison n hop _ => exact ⟨fun _ => b, holds_comparison hop⟩
  | and hl hr ihl ihr =>
      rw [comparisons_and, List.nodup_append'] at once
      obtain ⟨v, hv⟩ := ihl once.1 b
      obtain ⟨w, hw⟩ := ihr once.2.1 b
      obtain ⟨u, hul, hur⟩ := hl.exists_both hr once.2.2 v w
      exact ⟨u, by rw [holds_and, hul, hur, hv, hw, Bool.and_self]⟩
  | or hl hr ihl ihr =>
      rw [comparisons_or, List.nodup_append'] at once
      obtain ⟨v, hv⟩ := ihl once.1 b
      obtain ⟨w, hw⟩ := ihr once.2.1 b
      obtain ⟨u, hul, hur⟩ := hl.exists_both hr once.2.2 v w
      exact ⟨u, by rw [holds_or, hul, hur, hv, hw, Bool.or_self]⟩
  | not _ ih =>
      rw [comparisons_not] at once
      obtain ⟨v, hv⟩ := ih once (!b)
      exact ⟨v, by rw [holds_not, hv, Bool.not_not]⟩

theorem exists_forall_holds {es : List Expr} (h : ∀ e ∈ es, e.IsCondition)
    (once : (es.flatMap comparisons).Nodup) : ∃ v, ∀ e ∈ es, e.holds v = true := by
  induction es with
  | nil => exact ⟨fun _ => true, List.forall_mem_nil _⟩
  | cons e more ih =>
      obtain ⟨he, hmore⟩ := List.forall_mem_cons.mp h
      rw [List.flatMap_cons, List.nodup_append'] at once
      obtain ⟨v, hv⟩ := he.exists_holds_eq once.1 true
      obtain ⟨w, hw⟩ := ih hmore once.2.1
      obtain ⟨u, hu, hu'⟩ := exists_agreeing once.2.2 v w
      refine ⟨u, List.forall_mem_cons.mpr ⟨by rw [he.holds_congr hu, hv], fun f hf => ?_⟩⟩
      rw [(hmore f hf).holds_congr fun x hx => hu' x (List.mem_flatMap.mpr ⟨f, hf, hx⟩), hw f hf]

/-- Conditions can hold while another one fails that shares no comparison with them. -/
theorem IsCondition.exists_fails {es : List Expr} (he : e.IsCondition)
    (h : ∀ c ∈ es, c.IsCondition) (once : (e.comparisons ++ es.flatMap comparisons).Nodup) :
    ∃ v, (∀ c ∈ es, c.holds v = true) ∧ e.holds v = false := by
  have negated : ((e.not :: es).flatMap comparisons).Nodup := by
    rw [List.flatMap_cons, comparisons_not]
    exact once
  obtain ⟨v, hv⟩ := exists_forall_holds (List.forall_mem_cons.mpr ⟨.not he, h⟩) negated
  obtain ⟨hnot, hes⟩ := List.forall_mem_cons.mp hv
  rw [holds_not, Bool.not_eq_true'] at hnot
  exact ⟨v, hes, hnot⟩

end Kql.Expr
