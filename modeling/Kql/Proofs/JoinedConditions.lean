import Kql.Proofs.Conditions

/-!
How a text is read that has several conditions in it, with a bare `and` between them. A condition with
`or` at its root falls apart there: its left side closes what comes before it, and its right side opens
what comes behind it.
-/

namespace Kql

namespace Expr

def isOr : Expr → Bool
  | binary .or _ _ => true
  | _ => false

def conjoin (e : Expr) : List (List Expr) → List (List Expr)
  | [] => [[e]]
  | first :: later => (e :: first) :: later

/-- The alternatives that a text of these conditions leaves, each with all that it asks for. -/
def alternatives : List Expr → List (List Expr)
  | [] => [[]]
  | binary .or left right :: more => [left] :: conjoin right (alternatives more)
  | e :: more => conjoin e (alternatives more)

theorem alternatives_or (left right : Expr) (more : List Expr) :
    alternatives (left.or right :: more) = [left] :: conjoin right (alternatives more) := by
  rw [Expr.or, alternatives]

theorem alternatives_of_not_isOr {e : Expr} (h : e.isOr = false) (more : List Expr) :
    alternatives (e :: more) = conjoin e (alternatives more) := by
  rw [alternatives]
  intro left right root
  rw [root] at h
  cases h

theorem exists_alternatives_eq_cons (es : List Expr) :
    ∃ first later, alternatives es = first :: later := by
  induction es using alternatives.induct with
  | case1 => exact ⟨_, _, rfl⟩
  | case2 left right more _ => exact ⟨_, _, alternatives_or left right more⟩
  | case3 e more h ih =>
      obtain ⟨first, later, heq⟩ := ih
      refine ⟨e :: first, later, ?_⟩
      rw [alternatives, heq, conjoin]
      exact h

end Expr

namespace Reading

open Kql.Expr State

def Connecting (pending : Pending) : Prop := ∀ waiting ∈ pending, waiting.2.isConnective = true

/-- What the waiting conditions come out as, once one that comes out as `b` completes them. -/
def weigh (v : Expr → Bool) : Pending → Bool → Bool
  | [], b => b
  | (left, .or) :: rest, b => weigh v rest (left.holds v || b)
  | (left, _) :: rest, b => weigh v rest (left.holds v && b)

variable {v : Expr → Bool} {e left right last : Expr} {pending rest waiting : Pending}

theorem weigh_and (b : Bool) :
    weigh v ((left, .and) :: rest) b = weigh v rest (left.holds v && b) :=
  rfl

theorem weigh_or (b : Bool) :
    weigh v ((left, .or) :: rest) b = weigh v rest (left.holds v || b) :=
  rfl

theorem Connecting.cons {op : Operator} (hop : op.isConnective = true) (h : Connecting rest)
    (left : Expr) : Connecting ((left, op) :: rest) :=
  List.forall_mem_cons.mpr ⟨hop, h⟩

theorem Connecting.looser (h : Connecting pending) : Looser 3 pending := by
  intro waiting hw
  have hop := h waiting (List.mem_of_mem_head? hw)
  rcases Operator.eq_and_or_eq_or hop with heq | heq
  · rw [heq]
    exact Nat.le_refl 3
  · rw [heq]
    exact Nat.le_succ 2

theorem Connecting.complete (h : Connecting pending) (level : Nat) (e : Expr) :
    Connecting (complete level e pending).2 := by
  induction pending generalizing e with
  | nil => exact h
  | cons waiting rest ih =>
      rw [Reading.complete]
      split
      · exact ih (List.forall_mem_cons.mp h).2 _
      · exact h

/-- Completing `and` leaves open what is still to come behind the condition. -/
theorem weigh_complete_and (h : Connecting pending) (e : Expr) (b : Bool) :
    weigh v (complete 2 e pending).2 ((complete 2 e pending).1.holds v && b) =
      weigh v pending (e.holds v && b) := by
  induction pending generalizing e with
  | nil => rfl
  | cons waiting rest ih =>
      obtain ⟨left, op⟩ := waiting
      obtain ⟨hop, hrest⟩ := List.forall_mem_cons.mp h
      rcases Operator.eq_and_or_eq_or hop with rfl | rfl
      · rw [complete_cons_of_le (Nat.le_refl 2), ih hrest, weigh_and, ← Bool.and_assoc, holds]
      · rw [complete_of_looser (looser_cons (Nat.lt_succ_self 1) left rest)]

theorem complete_or_waiting (h : Connecting pending) {level : Nat} (low : level ≤ 1) (e : Expr) :
    (complete level e pending).2 = [] := by
  induction pending generalizing e with
  | nil => rfl
  | cons waiting rest ih =>
      obtain ⟨hop, hrest⟩ := List.forall_mem_cons.mp h
      have bound : level ≤ waiting.2.tightness := by
        rcases Operator.eq_and_or_eq_or hop with heq | heq
        · rw [heq]
          exact Nat.le_succ_of_le low
        · rw [heq]
          exact low
      rw [complete_cons_of_le bound, ih hrest]

/-- Completing everything gives the condition that the waiting ones come out as. -/
theorem holds_complete_or (h : Connecting pending) {level : Nat} (low : level ≤ 1) (e : Expr) :
    (complete level e pending).1.holds v = weigh v pending (e.holds v) := by
  induction pending generalizing e with
  | nil => rfl
  | cons waiting rest ih =>
      obtain ⟨left, op⟩ := waiting
      obtain ⟨hop, hrest⟩ := List.forall_mem_cons.mp h
      rcases Operator.eq_and_or_eq_or hop with rfl | rfl
      · rw [complete_cons_of_le (Nat.le_succ_of_le low), ih hrest, weigh_and, holds]
      · rw [complete_cons_of_le low, ih hrest, weigh_or, holds]

/-- What the waiting conditions come out as with the first of the alternatives behind them, or else
what one of the later alternatives does. -/
def outcome (v : Expr → Bool) (pending : Pending) : List (List Expr) → Bool
  | [] => weigh v pending true
  | first :: later => weigh v pending (first.all (holds v)) || later.any fun asked => asked.all (holds v)

/-- After an operand the reader can go on with `and` as if the operand were the first of the conditions
to come. -/
def Joins (e : Expr) (pending : Pending) (last : Expr) (waiting : Pending) : Prop :=
  Connecting (complete 2 last waiting).2 ∧ ∀ v more,
    outcome v (((complete 2 last waiting).1, .and) :: (complete 2 last waiting).2) (alternatives more) =
      outcome v pending (alternatives (e :: more))

theorem joins_of_not_isOr (h : e.isOr = false)
    (hc : Connecting (complete 2 last waiting).2)
    (hw : ∀ v b, weigh v (complete 2 last waiting).2 ((complete 2 last waiting).1.holds v && b) =
      weigh v pending (e.holds v && b)) : Joins e pending last waiting := by
  refine ⟨hc, fun v more => ?_⟩
  obtain ⟨first, later, heq⟩ := exists_alternatives_eq_cons more
  rw [alternatives_of_not_isOr h, heq, conjoin, outcome, outcome, List.all_cons, ← hw, weigh_and]

theorem joins_of_or (hc : Connecting (complete 2 last waiting).2)
    (hw : ∀ v b, weigh v (complete 2 last waiting).2 ((complete 2 last waiting).1.holds v && b) =
      (weigh v pending (left.holds v) || (right.holds v && b))) :
    Joins (left.or right) pending last waiting := by
  refine ⟨hc, fun v more => ?_⟩
  obtain ⟨first, later, heq⟩ := exists_alternatives_eq_cons more
  rw [alternatives_or, heq, conjoin, outcome, outcome, weigh_and, hw, List.any_cons,
    List.all_cons, List.all_cons, List.all_nil, Bool.and_true, Bool.or_assoc]

theorem foldlM_connective (op : Operator) (hop : op.isConnective = true) (hl : left.Grouped)
    (hr : right.Grouped) (groups : List (Bool × Pending)) (pending : Pending) :
    (binary op left right).tokens.foldlM step ⟨groups, pending, .operand⟩ =
      some ⟨groups, ((complete op.tightness left.untyped pending).1, op) ::
        (complete op.tightness left.untyped pending).2, .operator right.untyped⟩ := by
  rw [Expr.tokens, hop, Bool.true_or, List.foldlM_append, List.foldlM_append,
    foldlM_parenthesized (readsAs_tokens hl)]
  simp only [Option.bind_eq_bind, Option.bind_some]
  rw [foldlM_operator (Operator.mem_between_of_isConnective hop), Option.bind_some,
    foldlM_parenthesized (readsAs_tokens hr)]

/-- Comparisons and negations bind more tightly than the connectives around them. -/
theorem exists_joins_of_tightness (h : e.IsCondition) (tight : 3 ≤ e.tightness)
    (root : e.isOr = false) (hp : Connecting pending) (groups : List (Bool × Pending)) :
    ∃ last waiting, e.tokens.foldlM step ⟨groups, pending, .operand⟩ =
        some ⟨groups, waiting, .operator last⟩ ∧ Joins e pending last waiting := by
  obtain ⟨last, waiting, hrun, hc⟩ :=
    (readsAs_tokens h.grouped).mono tight groups pending hp.looser
  have completed : complete 2 (complete 3 last waiting).1 (complete 3 last waiting).2 =
      complete 2 last waiting := complete_complete (Nat.le_succ 2) last waiting
  rw [hc] at completed
  refine ⟨last, waiting, hrun, joins_of_not_isOr root ?_ ?_⟩
  · rw [← completed]
    exact hp.complete 2 _
  · intro v b
    rw [← completed, weigh_complete_and hp, h.holds_untyped]

theorem exists_joins (h : e.IsCondition) (hp : Connecting pending) (groups : List (Bool × Pending)) :
    ∃ last waiting, e.tokens.foldlM step ⟨groups, pending, .operand⟩ =
        some ⟨groups, waiting, .operator last⟩ ∧ Joins e pending last waiting := by
  cases h with
  | @comparison op c n hop hc =>
      have root : op.tightness = 3 ∧ op ≠ .or := by
        revert hop
        cases op <;> decide
      refine exists_joins_of_tightness (.comparison n hop hc) (Nat.le_of_eq root.1.symm) ?_ hp groups
      rw [isOr]
      intro _ _ same
      cases same
      exact root.2 rfl
  | not h => exact exists_joins_of_tightness (.not h) (Nat.le_add_left 3 3) rfl hp groups
  | @and left right hl hr =>
      have run := foldlM_connective .and rfl hl.grouped hr.grouped groups pending
      have level : Operator.and.tightness = 2 := rfl
      have inner : Connecting (((complete 2 left.untyped pending).1, .and) ::
          (complete 2 left.untyped pending).2) := (hp.complete 2 left.untyped).cons rfl _
      rw [level] at run
      refine ⟨_, _, run, joins_of_not_isOr rfl (inner.complete 2 _) fun v b => ?_⟩
      rw [weigh_complete_and inner, weigh_and, weigh_complete_and hp, hl.holds_untyped,
        hr.holds_untyped, holds_and, Bool.and_assoc]
  | @or left right hl hr =>
      have run := foldlM_connective .or rfl hl.grouped hr.grouped groups pending
      have level : Operator.or.tightness = 1 := rfl
      have nothing := complete_or_waiting hp (Nat.le_refl 1) left.untyped
      have inner : Connecting [((complete 1 left.untyped pending).1, .or)] :=
        List.forall_mem_singleton.mpr rfl
      rw [level, nothing] at run
      refine ⟨_, _, run, joins_of_or (inner.complete 2 _) fun v b => ?_⟩
      rw [weigh_complete_and inner, weigh_or, weigh, holds_complete_or hp (Nat.le_refl 1),
        hl.holds_untyped, hr.holds_untyped]

/-- A whole text of conditions comes out as one of its alternatives does. -/
theorem exists_run_conditions {more : List Expr} (h : ∀ c ∈ e :: more, c.IsCondition)
    (hp : Connecting pending) (groups : List (Bool × Pending)) :
    ∃ last waiting, (Operator.and.tokens.intercalate ((e :: more).map Expr.tokens)).foldlM step
        ⟨groups, pending, .operand⟩ = some ⟨groups, waiting, .operator last⟩ ∧
      ∀ v, (complete 0 last waiting).1.holds v = outcome v pending (alternatives (e :: more)) := by
  induction more generalizing e pending with
  | nil =>
      obtain ⟨last, waiting, hrun, hc, hw⟩ :=
        exists_joins (h e List.mem_cons_self) hp groups
      refine ⟨last, waiting, ?_, fun v => ?_⟩
      · rw [List.map_singleton, List.intercalate_singleton]
        exact hrun
      · rw [← hw v [], ← complete_complete (Nat.zero_le 2), holds_complete_or hc (Nat.zero_le 1),
          alternatives, outcome, List.any_nil, Bool.or_false, List.all_nil, weigh_and, Bool.and_true]
  | cons next more ih =>
      obtain ⟨he, hmore⟩ := List.forall_mem_cons.mp h
      obtain ⟨last, waiting, hrun, hc, hw⟩ := exists_joins he hp groups
      have level : Operator.and.tightness = 2 := rfl
      have ahead : Connecting (((complete 2 last waiting).1, .and) :: (complete 2 last waiting).2) :=
        hc.cons rfl _
      obtain ⟨last', waiting', hrun', hw'⟩ := ih hmore ahead
      refine ⟨last', waiting', ?_, fun v => (hw' v).trans (hw v _)⟩
      rw [List.map_cons, List.map_cons, List.intercalate_cons_cons, List.foldlM_append,
        List.foldlM_append, hrun]
      simp only [Option.bind_eq_bind, Option.bind_some]
      rw [foldlM_operator (by decide), Option.bind_some, level]
      exact hrun'

end Reading

namespace Expr

theorem scansTo_conditions {es : List Expr} (h : ∀ e ∈ es, e.IsCondition) :
    ScansTo (" and ".intercalate (es.map render))
      (Operator.and.tokens.intercalate (es.map Expr.tokens)) := by
  refine ScansTo.intercalate ?_ ?_ fun e he => scansTo_render (h e he).grouped.lexical
  · intro rest
    have blank : " and ".toList ++ rest = ' ' :: (Operator.and.symbol.toList ++ ' ' :: rest) := rfl
    rw [blank, scan_space, scan_operator .and (ends_cons (by decide) rest)
      (ends_cons (by decide) rest), scan_space]
  · intro rest
    exact ends_cons (by decide) _

theorem exists_readExpr_conditions {es : List Expr} (hne : es ≠ [])
    (h : ∀ e ∈ es, e.IsCondition) :
    ∃ formula, readExpr (" and ".intercalate (es.map render)) = some formula ∧
      ∀ v, formula.holds v = (alternatives es).any fun asked => asked.all (holds v) := by
  cases es with
  | nil => exact absurd rfl hne
  | cons e more =>
      have nothing : Reading.Connecting [] := List.forall_mem_nil _
      obtain ⟨last, waiting, hrun, hw⟩ := Reading.exists_run_conditions h nothing []
      refine ⟨(Reading.complete 0 last waiting).1, ?_, fun v => ?_⟩
      · rw [readExpr, (scansTo_conditions h).scan_eq, Reading.State.start, hrun]
        rfl
      · obtain ⟨first, later, heq⟩ := exists_alternatives_eq_cons (e :: more)
        rw [hw v, heq, Reading.outcome, Reading.weigh, List.any_cons]

end Expr

end Kql
