import Kql.Pipeline.Call
import Kql.Proofs.EnclosedTexts

/-!
Where the clauses of a query start. If no name and no string in a pipeline holds a bracket or a bar,
the bars outside of all brackets are the first characters of its clauses. Those of the clauses on the
right side of a join stand in the parentheses of the join, however deep joins are nested.
-/

namespace Kql

open Text

/-! ## Lines -/

namespace Text

/-- A bar and, behind it, a text without bars at depth zero. -/
def Barred (s : String) : Prop := ∃ body, s = "|" ++ body ∧ Enclosed body

variable {s t : String}

theorem barred_of_isUnmarked {lead : String} (h : isUnmarked lead = true) : Barred ("|" ++ lead) :=
  ⟨lead, rfl, enclosed_of_isUnmarked h⟩

theorem Barred.append (h : Barred s) (ht : Enclosed t) : Barred (s ++ t) := by
  obtain ⟨body, rfl, hbody⟩ := h
  exact ⟨body ++ t, String.append_assoc, hbody.append ht⟩

theorem Barred.toList_eq (h : Barred s) :
    s.toList = '|' :: s.toList.drop 1 ∧ Paired false (s.toList.drop 1) := by
  obtain ⟨body, rfl, hbody⟩ := h
  rw [String.toList_append]
  exact ⟨rfl, hbody⟩

end Text

/-! ## Clauses -/

/-- The name that the expression gets does not hold a bracket or a bar, nor does the expression. -/
def UnmarkedAssignment (a : String × Expr) : Prop := isUnmarked a.1 = true ∧ a.2.Unmarked

/-- No name and no string in the clause holds a bracket or a bar. Nothing is asked of the names that
aggregates get from their expressions. -/
structure Summarize.Unmarked (s : Summarize) : Prop where
  unnamed : ∀ a ∈ s.unnamed, a.2.Unmarked ∧ (a.1 ≠ a.2.defaultName → isUnmarked a.1 = true)
  named : ∀ a ∈ s.named, UnmarkedAssignment a
  groupKeys : ∀ name ∈ s.groupKeys, isUnmarked name = true
  shuffleKeys : ∀ name ∈ s.shuffleKeys, isUnmarked name = true

namespace Clause

/-- The pipeline that the clause joins with. -/
def right? : Clause → Option Pipeline
  | join right _ _ _ => some right
  | _ => none

/-- No name and no string in the clause holds a bracket or a bar, the right side of a join apart. -/
def Unmarked : Clause → Prop
  | project projection =>
    (∀ e ∈ projection.items, e.Unmarked) ∧ ∀ a ∈ projection.renames, UnmarkedAssignment a
  | filter conditions => ∀ e ∈ conditions, e.Unmarked
  | distinct items => ∀ e ∈ items, e.Unmarked
  | count | limit _ => True
  | join _ on _ _ => ∀ key ∈ on, isUnmarked key = true
  | summarize s => s.Unmarked
  | extend assignments => ∀ a ∈ assignments, UnmarkedAssignment a
  | order keys => ∀ key ∈ keys, key.expr.Unmarked
  | evaluate plugin => plugin.Unmarked

end Clause

theorem enclosed_names {separator : String} (hs : isUnmarked separator = true) {names : List String}
    (h : ∀ name ∈ names, isUnmarked name = true) : Enclosed (separator.intercalate names) :=
  .intercalate hs fun name hname => enclosed_of_isUnmarked (h name hname)

theorem UnmarkedAssignment.enclosed {a : String × Expr} (h : UnmarkedAssignment a) {between : String}
    (hb : isUnmarked between = true) : Enclosed (a.1 ++ between ++ a.2.render) :=
  ((enclosed_of_isUnmarked h.1).append (enclosed_of_isUnmarked hb)).append h.2.enclosed

theorem Projection.enclosed_entries {p : Projection} (hi : ∀ e ∈ p.items, e.Unmarked)
    (hr : ∀ a ∈ p.renames, UnmarkedAssignment a) : Enclosed (",\n".intercalate p.entries) := by
  apply Enclosed.intercalate (by decide)
  rw [entries, List.forall_mem_append, List.forall_mem_map, List.forall_mem_map]
  exact ⟨fun e he => (hi e he).enclosed, fun a ha => (hr a ha).enclosed (by decide)⟩

theorem SortKey.enclosed_render {key : SortKey} (h : key.expr.Unmarked) : Enclosed key.render := by
  obtain ⟨e, order⟩ := key
  cases order with
  | none => exact h.enclosed
  | some order =>
      have word : isUnmarked order.symbol = true := by cases order <;> decide
      exact (h.enclosed.append (enclosed_of_isUnmarked (by decide))).append
        (enclosed_of_isUnmarked word)

namespace Summarize

variable {s : Summarize}

theorem Unmarked.assignment (h : s.Unmarked) : ∀ a ∈ s.aggregates, UnmarkedAssignment a := by
  intro a ha
  rcases Keyed.mem_putAll ha with hnamed | hunnamed
  · exact h.named a hnamed
  · obtain ⟨he, hname⟩ := h.unnamed a hunnamed
    refine ⟨?_, he⟩
    by_cases given : a.1 = a.2.defaultName
    · rw [given]
      exact a.2.isUnmarked_defaultName
    · exact hname given

theorem enclosed_hints (h : ∀ name ∈ s.shuffleKeys, isUnmarked name = true) : Enclosed s.hints := by
  have whole {partitions : String} (hp : Enclosed partitions) : Enclosed
      (if s.shuffleKeys ≠ [] then
        " hint.shufflekey=" ++ ", ".intercalate s.shuffleKeys ++ partitions
      else if s.shuffled then " hint.strategy=shuffle" ++ partitions
      else "") := by
    split
    · exact ((enclosed_names (by decide) h).behind (by decide)).append hp
    split
    · exact hp.behind (by decide)
    · exact enclosed_of_isUnmarked (by decide)
  unfold hints
  cases s.partitions with
  | none => exact whole (enclosed_of_isUnmarked (by decide))
  | some n => exact whole ((enclosed_of_isNumeral (isNumeral_natRepr _)).behind (by decide))

theorem Unmarked.barred (h : s.Unmarked) : Barred s.render := by
  have aggregates : Enclosed (",\n\t".intercalate (s.aggregates.map fun a =>
      a.1 ++ "=" ++ a.2.render)) :=
    .intercalate_map (by decide) fun a ha => (h.assignment a ha).enclosed (by decide)
  have groups : Enclosed (", ".intercalate s.groupKeys) := enclosed_names (by decide) h.groupKeys
  refine (((barred_of_isUnmarked (by decide : isUnmarked " summarize" = true)).append
    (enclosed_hints h.shuffleKeys)).append ?_).append ?_
  · split
    · exact enclosed_of_isUnmarked (by decide)
    · exact aggregates.behind (by decide)
  · split
    · exact enclosed_of_isUnmarked (by decide)
    · exact groups.behind (by decide)

end Summarize

/-- A pipeline that the clause joins with stands in parentheses. -/
theorem Clause.barred_join {right : Pipeline} (hr : Paired true right.render.toList)
    {on : List String} (h : ∀ key ∈ on, isUnmarked key = true) (kind : JoinKind)
    (strategy : Option JoinStrategy) : Barred (join right on kind strategy).render := by
  have kindName : isUnmarked (kind.name ++ " ") = true := by cases kind <;> decide
  have hint : isUnmarked (JoinStrategy.hint strategy) = true := by
    cases strategy with
    | none => decide
    | some strategy => cases strategy <;> decide
  have inside : Paired true ("\n\t" ++ right.render).toList := by
    rw [String.toList_append]
    exact (enclosed_of_isUnmarked (by decide : isUnmarked "\n\t" = true)).barred.append hr
  have text : (join right on kind strategy).render =
      "|" ++ " join kind=" ++ (kind.name ++ " ") ++ JoinStrategy.hint strategy
        ++ ("(" ++ ("\n\t" ++ right.render) ++ ")") ++ (" on " ++ ", ".intercalate on) := by
    simp [← String.toList_inj, render_join]
  rw [text]
  exact ((((barred_of_isUnmarked (by decide)).append (enclosed_of_isUnmarked kindName)).append
    (enclosed_of_isUnmarked hint)).append (.round inside)).append
      ((enclosed_names (by decide) h).behind (by decide))

theorem Clause.Unmarked.barred {c : Clause} (h : c.Unmarked)
    (hr : ∀ right, c.right? = some right → Paired true right.render.toList) : Barred c.render := by
  cases c with
  | project projection =>
      exact (barred_of_isUnmarked (by decide : isUnmarked " project " = true)).append
        (Projection.enclosed_entries h.1 h.2)
  | filter conditions =>
      exact (barred_of_isUnmarked (by decide : isUnmarked " where " = true)).append
        (.intercalate_map (by decide) fun e he => (h e he).enclosed)
  | distinct items =>
      exact (barred_of_isUnmarked (by decide : isUnmarked " distinct " = true)).append
        (.intercalate_map (by decide) fun e he => (h e he).enclosed)
  | count => exact barred_of_isUnmarked (by decide : isUnmarked " count" = true)
  | limit n =>
      exact (barred_of_isUnmarked (by decide : isUnmarked " limit " = true)).append
        (enclosed_of_isNumeral (isNumeral_natRepr _))
  | join right on kind strategy => exact barred_join (hr right rfl) h kind strategy
  | summarize s => exact Summarize.Unmarked.barred h
  | extend assignments =>
      exact (barred_of_isUnmarked (by decide : isUnmarked " extend\n\t" = true)).append
        (.intercalate_map (by decide) fun a ha => (h a ha).enclosed (by decide))
  | order keys =>
      exact (barred_of_isUnmarked (by decide : isUnmarked " order by\n\t" = true)).append
        (.intercalate_map (by decide) fun key hkey => SortKey.enclosed_render (h key hkey))
  | evaluate plugin =>
      exact (barred_of_isUnmarked (by decide : isUnmarked " evaluate " = true)).append
        (Expr.Unmarked.enclosed h)

/-! ## Queries -/

namespace Pipeline

/-- No name and no string in the pipeline holds a bracket or a bar, nor in those it joins with. -/
inductive Unmarked : Pipeline → Prop
  | intro {p : Pipeline} : isUnmarked p.table = true → isUnmarked p.database.cluster = true →
      isUnmarked p.database.database = true → (∀ c ∈ p.clauses.toList, c.Unmarked) →
      (∀ c ∈ p.clauses.toList, ∀ right, c.right? = some right → Unmarked right) → Unmarked p

end Pipeline

theorem DatabaseRef.enclosed_anchor {db : DatabaseRef} {table : String}
    (ht : isUnmarked table = true) (hc : isUnmarked db.cluster = true)
    (hd : isUnmarked db.database = true) : Enclosed (db.anchor table) := by
  have quoted {name : String} (h : isUnmarked name = true) : Enclosed ("'" ++ name ++ "'") :=
    (enclosed_of_isUnmarked h).between (by decide) (by decide)
  have text : db.anchor table =
      "cluster" ++ ("(" ++ ("'" ++ db.cluster ++ "'") ++ ")")
        ++ (".database" ++ ("(" ++ ("'" ++ db.database ++ "'") ++ ")"))
        ++ ("." ++ ("[" ++ ("'" ++ table ++ "'") ++ "]")) := by
    simp [← String.toList_inj, anchor]
  rw [text]
  exact ((enclosed_call (by decide) (quoted hc)).append (enclosed_call (by decide) (quoted hd))).append
    ((Enclosed.square (quoted ht).barred).behind (by decide))

namespace Pipeline

variable {p : Pipeline}

/-- What stands behind the bars of the clauses, each with its line feed. -/
def bodies (p : Pipeline) : List (List Char) :=
  p.clauses.toList.map fun c => (c.render ++ "\n").toList.drop 1

theorem bodies_lines (h : ∀ c ∈ p.clauses.toList, Barred c.render) :
    p.bodies.map ('|' :: ·) = p.clauses.toList.map (fun c => (c.render ++ "\n").toList) ∧
      ∀ body ∈ p.bodies, Paired false body := by
  have line {c : Clause} (hc : c ∈ p.clauses.toList) : Barred (c.render ++ "\n") :=
    (h c hc).append (enclosed_of_isUnmarked (by decide))
  constructor
  · rw [bodies, List.map_map]
    exact List.map_congr_left fun c hc => (line hc).toList_eq.1.symm
  · exact List.forall_mem_map.mpr fun c hc => (line hc).toList_eq.2

theorem toList_render (h : ∀ c ∈ p.clauses.toList, Barred c.render) :
    p.render.toList = (p.anchor ++ "\n").toList ++ p.bodies.flatMap ('|' :: ·) := by
  rw [render_eq, String.toList_append, String.toList_join, List.flatMap_def, List.flatMap_def,
    (bodies_lines h).1, List.map_map]
  rfl

theorem paired_render (ha : Enclosed (p.anchor ++ "\n"))
    (h : ∀ c ∈ p.clauses.toList, Barred c.render) : Paired true p.render.toList := by
  rw [toList_render h]
  refine (Paired.barred ha).append (.flatMap fun body hbody => ?_)
  exact .char rfl (fun _ => rfl) ((bodies_lines h).2 body hbody).barred

/-- A right side is paired as a whole by induction, so it can stand in the parentheses of its join. -/
theorem Unmarked.barred (h : p.Unmarked) :
    Enclosed (p.anchor ++ "\n") ∧ ∀ c ∈ p.clauses.toList, Barred c.render := by
  induction h with
  | intro ht hc hd hclauses _ ih =>
      have anchor := (DatabaseRef.enclosed_anchor ht hc hd).append
        (enclosed_of_isUnmarked (by decide : isUnmarked "\n" = true))
      refine ⟨anchor, fun c hmem => (hclauses c hmem).barred fun right hright => ?_⟩
      obtain ⟨anchorRight, clausesRight⟩ := ih c hmem right hright
      exact paired_render anchorRight clausesRight

/-- Brackets in a query pair up, and the bars outside of them are where its clauses start. -/
theorem clause_boundaries (h : p.Unmarked) :
    (∀ before, before <+: p.render.toList → 0 ≤ depth before) ∧ depth p.render.toList = 0 ∧
      barCount 0 p.render.toList = p.clauses.toList.length ∧
      cutAtBars 0 [] p.render.toList =
        (p.anchor ++ "\n").toList :: p.clauses.toList.map fun c => (c.render ++ "\n").toList := by
  obtain ⟨anchor, clauses⟩ := h.barred
  have paired := paired_render anchor clauses
  obtain ⟨lines, bodiesPaired⟩ := bodies_lines clauses
  obtain ⟨count, cut⟩ := cutAtBars_lines anchor bodiesPaired []
  rw [← toList_render clauses] at count cut
  refine ⟨fun before hb => paired.depth_nonneg hb, paired.depth_eq_zero, ?_, ?_⟩
  · rw [count, bodies, List.length_map]
  · rw [cut, lines, List.nil_append]

theorem joined_clause_boundaries :
    ∃ right p, (ofTable "Names" ⟨"c", "d"⟩ .undeclared).performAll
        [.filter [.eq (Expr.column ⟨"id", .long⟩) (.literal (.long 1))], .limit 5] = .ok right ∧
      (ofTable "Events" ⟨"c", "d"⟩ .undeclared).performAll
        [.filter [.isIn (Expr.column ⟨"kind", .string⟩) [.string "a", .string "b"]],
          .join right ["id"] .inner none, .summarize (.ofCalls [.aggregate .count])] = .ok p ∧
      p.Unmarked ∧ barCount 0 p.render.toList = 3 := by
  have right : Unmarked (((ofTable "Names" ⟨"c", "d"⟩ .undeclared).filter
      [.eq (Expr.column ⟨"id", .long⟩) (.literal (.long 1))]).limit 5) := by
    refine .intro (by decide) (by decide) (by decide) ?_ ?_
    · refine List.forall_mem_cons.mpr ⟨?_, List.forall_mem_singleton.mpr trivial⟩
      exact List.forall_mem_singleton.mpr (.binary (.column (by decide)) (.literal (.long 1)))
    · exact List.forall_mem_cons.mpr ⟨nofun, List.forall_mem_singleton.mpr nofun⟩
  have kinds : Literal.Unmarked (.array [.string "a", .string "b"]) :=
    .array (List.forall_mem_cons.mpr ⟨.string (by decide),
      List.forall_mem_singleton.mpr (.string (by decide))⟩)
  have count : (Summarize.ofCalls [.aggregate .count]).Unmarked := by
    refine ⟨?_, List.forall_mem_nil _, List.forall_mem_nil _, List.forall_mem_nil _⟩
    exact List.forall_mem_singleton.mpr ⟨.apply (List.forall_mem_nil _), fun other => absurd rfl other⟩
  refine ⟨_, _, rfl, rfl, ?_⟩
  suffices unmarked : Unmarked _ from ⟨unmarked, (clause_boundaries unmarked).2.2.1⟩
  refine .intro (by decide) (by decide) (by decide) ?_ ?_
  · refine List.forall_mem_cons.mpr ⟨?_, List.forall_mem_cons.mpr ⟨?_, ?_⟩⟩
    · exact List.forall_mem_singleton.mpr (.binary (.column (by decide)) (.literal kinds))
    · exact List.forall_mem_singleton.mpr (by decide : isUnmarked "id" = true)
    · exact List.forall_mem_singleton.mpr count
  · refine List.forall_mem_cons.mpr ⟨nofun, List.forall_mem_cons.mpr ⟨?_, ?_⟩⟩
    · rintro _ ⟨⟩
      exact right
    · exact List.forall_mem_singleton.mpr nofun

end Pipeline

end Kql
