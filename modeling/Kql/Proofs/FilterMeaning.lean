import Kql.Pipeline.Builders
import Kql.Proofs.JoinedConditions

/-!
What a filter on several conditions asks of a row, and when that is all of them together.
-/

namespace Kql

namespace Expr

/-- The formula holds exactly when all of the conditions do, whichever comparisons hold. -/
def MeansAll (formula : Expr) (es : List Expr) : Prop := ∀ v, formula.holds v = es.all (holds v)

theorem any_conjoin {v : Expr → Bool} {e : Expr} {asked : List (List Expr)} (he : e.holds v = true)
    (h : (asked.any fun parts => parts.all (holds v)) = true) :
    ((conjoin e asked).any fun parts => parts.all (holds v)) = true := by
  cases asked with
  | nil => cases h
  | cons first later =>
      rw [conjoin, List.any_cons, List.all_cons, he, Bool.true_and]
      exact h

theorem any_alternatives_of_all {v : Expr → Bool} {es : List Expr} (h : es.all (holds v) = true) :
    ((alternatives es).any fun asked => asked.all (holds v)) = true := by
  induction es using alternatives.induct with
  | case1 => rfl
  | case2 left right more ih =>
      rw [List.all_cons, Bool.and_eq_true, holds, Bool.or_eq_true] at h
      obtain ⟨hl | hr, hmore⟩ := h
      · rw [alternatives, List.any_cons, List.all_cons, hl]
        rfl
      · rw [alternatives, List.any_cons, any_conjoin hr (ih hmore), Bool.or_true]
  | case3 e more root ih =>
      rw [List.all_cons, Bool.and_eq_true] at h
      rw [alternatives]
      · exact any_conjoin h.1 (ih h.2)
      · exact root

theorem meansAll_iff {formula : Expr} {es : List Expr}
    (h : ∀ v, formula.holds v = (alternatives es).any fun asked => asked.all (holds v)) :
    formula.MeansAll es ↔ ∀ asked ∈ alternatives es, ∀ v,
      asked.all (holds v) = true → es.all (holds v) = true := by
  constructor
  · intro means asked hasked v hv
    rw [← means v, h v, List.any_eq_true]
    exact ⟨asked, hasked, hv⟩
  · intro entails v
    rw [h v, Bool.eq_iff_iff]
    refine ⟨fun some => ?_, any_alternatives_of_all⟩
    obtain ⟨asked, hasked, hv⟩ := List.any_eq_true.mp some
    exact entails asked hasked v hv

/-- Conditions before one with `or` at its root only add to the first alternative. -/
theorem alternatives_append {before behind first : List Expr} {later : List (List Expr)}
    (h : ∀ e ∈ before, e.isOr = false) (hb : alternatives behind = first :: later) :
    alternatives (before ++ behind) = (before ++ first) :: later := by
  induction before with
  | nil => exact hb
  | cons e more ih =>
      obtain ⟨he, hmore⟩ := List.forall_mem_cons.mp h
      rw [List.cons_append, alternatives_of_not_isOr he, ih hmore, conjoin, List.cons_append]

theorem alternatives_eq_singleton {es : List Expr} (h : ∀ e ∈ es, e.isOr = false) :
    alternatives es = [es] := by
  have nothing : alternatives [] = [[]] := rfl
  have alone := alternatives_append h nothing
  rw [List.append_nil] at alone
  exact alone

theorem IsCondition.of_or {left right : Expr} (h : (left.or right).IsCondition) :
    left.IsCondition ∧ right.IsCondition := by
  cases h with
  | comparison _ hop _ => cases hop
  | or hl hr => exact ⟨hl, hr⟩

/-- Beside another condition one with `or` at its root leaves an alternative that does not ask for the
other one. -/
theorem exists_alternative_of_or {before behind : List Expr} {left right : Expr}
    (h : ∀ c ∈ before ++ left.or right :: behind, c.IsCondition)
    (once : ((before ++ left.or right :: behind).flatMap comparisons).Nodup)
    (hb : ∀ e ∈ before, e.isOr = false) (two : before ≠ [] ∨ behind ≠ []) :
    ∃ asked ∈ alternatives (before ++ left.or right :: behind), ∃ v,
      asked.all (holds v) = true ∧ ∃ c ∈ before ++ left.or right :: behind, c.holds v = false := by
  obtain ⟨hbefore, hor, hbehind⟩ :
      (∀ c ∈ before, c.IsCondition) ∧ (left.or right).IsCondition ∧
        ∀ c ∈ behind, c.IsCondition := by
    rw [List.forall_mem_append, List.forall_mem_cons] at h
    exact h
  obtain ⟨hl, hr⟩ := hor.of_or
  have whole := alternatives_append hb (alternatives_or left right behind)
  cases behind with
  | cons f rest =>
      have apart : (f.comparisons ++ (before ++ [left]).flatMap comparisons).Nodup := by
        simp only [List.flatMap_append, List.flatMap_cons, List.flatMap_nil, comparisons_or,
          List.nodup_append, List.mem_append] at once ⊢
        grind
      have asked : ∀ c ∈ before ++ [left], c.IsCondition :=
        List.forall_mem_append.mpr ⟨hbefore, List.forall_mem_singleton.mpr hl⟩
      obtain ⟨v, hv, hf⟩ := (hbehind f List.mem_cons_self).exists_fails asked apart
      refine ⟨before ++ [left], ?_, v, List.all_eq_true.mpr hv, f, by simp, hf⟩
      rw [whole]
      exact List.mem_cons_self
  | nil =>
      cases before with
      | nil => exact absurd two (by simp)
      | cons f rest =>
          have apart : (f.comparisons ++ [right].flatMap comparisons).Nodup := by
            simp only [List.flatMap_append, List.flatMap_cons, List.flatMap_nil, comparisons_or,
              List.nodup_append, List.mem_append] at once ⊢
            grind
          obtain ⟨v, hv, hf⟩ := (hbefore f List.mem_cons_self).exists_fails
            (List.forall_mem_singleton.mpr hr) apart
          refine ⟨[right], ?_, v, List.all_eq_true.mpr hv, f, List.mem_cons_self, hf⟩
          rw [whole]
          exact List.mem_cons_of_mem _ List.mem_cons_self

theorem exists_eq_or {e : Expr} (h : e.isOr = true) : ∃ left right, e = Expr.or left right := by
  unfold isOr at h
  split at h
  · exact ⟨_, _, rfl⟩
  · cases h

/-- Conditions that share no comparison keep their meaning beside each other only if none of them has
`or` at its root. -/
theorem eq_nil_or_of_entails {e : Expr} {more : List Expr} (h : ∀ c ∈ e :: more, c.IsCondition)
    (once : ((e :: more).flatMap comparisons).Nodup)
    (entails : ∀ asked ∈ alternatives (e :: more), ∀ v,
      asked.all (holds v) = true → (e :: more).all (holds v) = true) :
    more = [] ∨ ∀ c ∈ e :: more, c.isOr = false := by
  cases hfind : (e :: more).find? isOr with
  | none =>
      refine .inr fun c hc => ?_
      exact Bool.eq_false_iff.mpr (List.find?_eq_none.mp hfind c hc)
  | some c =>
      obtain ⟨root, before, behind, split, hbefore⟩ := List.find?_eq_some_iff_append.mp hfind
      obtain ⟨left, right, rfl⟩ := exists_eq_or root
      have hb : ∀ e ∈ before, e.isOr = false := by
        intro e he
        simpa using hbefore e he
      by_cases two : before ≠ [] ∨ behind ≠ []
      · rw [split] at h once entails
        obtain ⟨asked, hasked, v, hv, c, hc, fails⟩ := exists_alternative_of_or h once hb two
        have holds := List.all_eq_true.mp (entails asked hasked v hv) c hc
        rw [fails] at holds
        cases holds
      · obtain ⟨rfl, rfl⟩ : before = [] ∧ behind = [] := by
          simpa only [ne_eq, not_or, not_not] using two
        exact .inl (List.cons_eq_cons.mp split).2

theorem isCondition_foldl_and {e : Expr} {more : List Expr} (h : ∀ c ∈ e :: more, c.IsCondition) :
    (more.foldl Expr.and e).IsCondition := by
  induction more generalizing e with
  | nil => exact h e List.mem_cons_self
  | cons next more ih =>
      obtain ⟨he, hmore⟩ := List.forall_mem_cons.mp h
      obtain ⟨hnext, hmore⟩ := List.forall_mem_cons.mp hmore
      exact ih (List.forall_mem_cons.mpr ⟨.and he hnext, hmore⟩)

theorem holds_foldl_and {v : Expr → Bool} (e : Expr) (more : List Expr) :
    (more.foldl Expr.and e).holds v = (e :: more).all (holds v) := by
  induction more generalizing e with
  | nil => rw [List.foldl_nil, List.all_cons, List.all_nil, Bool.and_true]
  | cons next more ih =>
      rw [List.foldl_cons, ih, List.all_cons, List.all_cons, List.all_cons, holds_and, Bool.and_assoc]

end Expr

namespace Pipeline

open Kql.Expr

/-- What the newest clause asks of a row, as its text behind `| where ` is read. -/
def condition? (p : Pipeline) : Option Expr := do
  let clause ← p.clauses.newest?
  readExpr (String.ofList (clause.render.toList.drop "| where ".length))

theorem condition?_filter (p : Pipeline) (e : Expr) (more : List Expr) :
    (p.filter (e :: more)).condition? =
      readExpr (" and ".intercalate ((e :: more).map Expr.render)) := by
  have clause : (p.filter (e :: more)).clauses.newest? = some (Clause.filter (e :: more)) := rfl
  rw [condition?, clause, Option.bind_eq_bind, Option.bind_some, Clause.render_filter,
    String.toList_append, List.drop_left' String.length_toList, String.ofList_toList]

theorem condition?_filter_singleton (p : Pipeline) {e : Expr} (h : e.IsCondition) :
    (p.filter [e]).condition? = some e.untyped := by
  rw [condition?_filter, List.map_singleton, String.intercalate_singleton]
  exact readExpr_render h.grouped

/-- A filter asks for one of the alternatives that its text leaves. It asks for all of its conditions
exactly when every alternative does, so whenever it has only one condition or none of them has `or` at
its root, and, where no comparison occurs twice, not otherwise. The conditions put together with `and`
before are always asked for together. -/
theorem filter_condition (p : Pipeline) {e : Expr} {more : List Expr}
    (h : ∀ c ∈ e :: more, c.IsCondition) :
    ∃ formula, (p.filter (e :: more)).condition? = some formula ∧
      (∀ v, formula.holds v = (alternatives (e :: more)).any fun asked => asked.all (holds v)) ∧
      (formula.MeansAll (e :: more) ↔ ∀ asked ∈ alternatives (e :: more), ∀ v,
        asked.all (holds v) = true → (e :: more).all (holds v) = true) ∧
      (more = [] ∨ (∀ c ∈ e :: more, c.isOr = false) → formula.MeansAll (e :: more)) ∧
      (((e :: more).flatMap comparisons).Nodup → formula.MeansAll (e :: more) →
        more = [] ∨ ∀ c ∈ e :: more, c.isOr = false) ∧
      ∃ whole, (p.filter [more.foldl Expr.and e]).condition? = some whole ∧
        whole.MeansAll (e :: more) := by
  obtain ⟨formula, read, value⟩ := exists_readExpr_conditions (List.cons_ne_nil e more) h
  have entails := meansAll_iff value
  refine ⟨formula, ?_, value, entails, ?_, fun once means => ?_, ?_⟩
  · rw [condition?_filter, read]
  · rintro (rfl | plain)
    · have he := h e List.mem_cons_self
      rw [List.map_singleton, String.intercalate_singleton, readExpr_render he.grouped,
        Option.some_inj] at read
      intro v
      rw [← read, he.holds_untyped, List.all_cons, List.all_nil, Bool.and_true]
    · rw [entails, alternatives_eq_singleton plain]
      intro asked hasked v hv
      rw [List.mem_singleton.mp hasked] at hv
      exact hv
  · exact eq_nil_or_of_entails h once (entails.mp means)
  · have whole := isCondition_foldl_and h
    refine ⟨_, condition?_filter_singleton p whole, fun v => ?_⟩
    rw [whole.holds_untyped, holds_foldl_and]

def asks (name : String) (n : Int64) : Expr := (Expr.column ⟨name, .long⟩).eq (literal (.long n))

theorem isCondition_asks {name : String} (h : Text.isIdentifier name = true) (n : Int64) :
    (asks name n).IsCondition :=
  .comparison n rfl h

def events : Pipeline := .ofTable "events" ⟨"test", "testdb"⟩ .empty

theorem filter_of_comparisons :
    (∀ c ∈ [asks "a" 1, (asks "b" 2).not], c.IsCondition) ∧
      ∃ formula, (events.filter [asks "a" 1, (asks "b" 2).not]).condition? = some formula ∧
        formula.MeansAll [asks "a" 1, (asks "b" 2).not] := by
  have conditions : ∀ c ∈ [asks "a" 1, (asks "b" 2).not], c.IsCondition := by
    rw [List.forall_mem_cons, List.forall_mem_singleton]
    exact ⟨isCondition_asks (by decide) 1, .not (isCondition_asks (by decide) 2)⟩
  obtain ⟨formula, read, _, _, plain, _⟩ := filter_condition events conditions
  refine ⟨conditions, formula, read, plain (.inr ?_)⟩
  rw [List.forall_mem_cons, List.forall_mem_singleton]
  exact ⟨rfl, rfl⟩

/-- Rows with `a == 1` pass, whatever `c` is. -/
theorem filter_of_or_and_comparison :
    ∃ formula, (events.filter [(asks "a" 1).or (asks "b" 2), asks "c" 3]).condition? = some formula ∧
      ¬ formula.MeansAll [(asks "a" 1).or (asks "b" 2), asks "c" 3] := by
  have conditions : ∀ c ∈ [(asks "a" 1).or (asks "b" 2), asks "c" 3], c.IsCondition := by
    rw [List.forall_mem_cons, List.forall_mem_singleton]
    exact ⟨.or (isCondition_asks (by decide) 1) (isCondition_asks (by decide) 2),
      isCondition_asks (by decide) 3⟩
  have once : ([(asks "a" 1).or (asks "b" 2), asks "c" 3].flatMap comparisons).Nodup := by
    simp [comparisons_or, asks, Expr.eq, comparisons, untyped]
  obtain ⟨formula, read, value⟩ := exists_readExpr_conditions (List.cons_ne_nil _ _) conditions
  refine ⟨formula, by rw [condition?_filter, read], fun means => ?_⟩
  rcases eq_nil_or_of_entails conditions once ((meansAll_iff value).mp means) with none | plain
  · cases none
  · cases plain _ List.mem_cons_self

end Pipeline

end Kql
