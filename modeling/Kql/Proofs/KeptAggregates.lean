import Kql.Proofs.OutputColumns
import Kql.Proofs.SummarizeCalls

/-!
Which aggregates a `summarize` clause keeps of those it was given. Names stand in the order in which they
were first given, those that come from the expressions before the others. A name stands for what was last
given under it, and what was given by name counts more than what got the name from its expression.
-/

namespace Kql

namespace Summarize

/-- What was given without a name, under the names that the expressions give. -/
def givenUnnamed (calls : List Call) : List (String × Expr) := calls.filterMap Call.aggregate?

def givenNamed (calls : List Call) : List (String × Expr) := calls.filterMap Call.aggregateAs?

variable {calls : List Call}

theorem nodup_fst_named : ((ofCalls calls).named.map Prod.fst).Nodup := by
  rw [ofCalls_eq]
  exact Keyed.nodup_map_putAll Prod.fst _ List.nodup_nil

theorem map_fst_unnamed :
    (ofCalls calls).unnamed.map Prod.fst = ((givenUnnamed calls).map Prod.fst).eraseDups := by
  rw [ofCalls_eq]
  exact Keyed.map_putAll_nil Prod.fst (givenUnnamed calls)

theorem map_fst_named :
    (ofCalls calls).named.map Prod.fst = ((givenNamed calls).map Prod.fst).eraseDups := by
  rw [ofCalls_eq]
  exact Keyed.map_putAll_nil Prod.fst (givenNamed calls)

theorem aggregateNames_ofCalls :
    (ofCalls calls).aggregateNames =
      ((givenUnnamed calls).map Prod.fst).eraseDups ++
        ((givenNamed calls).map Prod.fst).eraseDups.filter fun name =>
          name ∉ (givenUnnamed calls).map Prod.fst := by
  rw [aggregateNames, aggregates, Keyed.map_putAll, eraseDups_of_nodup (nodup_fst_named.filter _),
    map_fst_unnamed, map_fst_named]
  simp only [List.mem_eraseDups]

theorem find?_aggregates (name : String) :
    Keyed.find? Prod.fst name (ofCalls calls).aggregates =
      (Keyed.find? Prod.fst name (givenNamed calls).reverse).or
        (Keyed.find? Prod.fst name (givenUnnamed calls).reverse) := by
  have nothing : Keyed.find? Prod.fst name ([] : List (String × Expr)) = none := rfl
  rw [aggregates, Keyed.find?_putAll, Keyed.find?_reverse nodup_fst_named, ofCalls_eq]
  rw [Keyed.find?_putAll, Keyed.find?_putAll, nothing, Option.or_none, Option.or_none]
  rfl

theorem mem_aggregates_iff {a : String × Expr} :
    a ∈ (ofCalls calls).aggregates ↔
      Keyed.IsLast Prod.fst a (givenNamed calls) ∨
        a.1 ∉ (givenNamed calls).map Prod.fst ∧ Keyed.IsLast Prod.fst a (givenUnnamed calls) := by
  rw [Keyed.mem_iff_find? (nodup_aggregateNames_ofCalls calls), find?_aggregates, Option.or_eq_some_iff,
    Keyed.find?_reverse_eq_some_iff, Keyed.find?_reverse_eq_some_iff, Keyed.find?_reverse_eq_none_iff]
  simp only [true_and]

theorem Call.brings_none {call : Call} (h : call.kind = .aggregate ∨ call.kind = .aggregateAs) :
    call.groupBy? = none ∧ call.shuffle? = none ∧ call.shuffleBy? = none := by
  cases call with
  | aggregate _ | aggregateAs _ _ => exact ⟨rfl, rfl, rfl⟩
  | groupBy _ | shuffle _ | shuffleBy _ | partitionInto _ => rcases h with h | h <;> cases h

/-- Where aggregates are all that was given, they are all that the clause lists. -/
theorem render_ofCalls (h : ∀ call ∈ calls, call.kind = .aggregate ∨ call.kind = .aggregateAs) :
    (ofCalls calls).render = "| summarize" ++
      if assignmentTexts (ofCalls calls).aggregates = [] then ""
      else "\n\t" ++ ",\n\t".intercalate (assignmentTexts (ofCalls calls).aggregates) := by
  have groups : calls.filterMap Call.groupBy? = [] :=
    List.filterMap_eq_nil_iff.mpr fun call hm => (Call.brings_none (h call hm)).1
  have answers : calls.filterMap Call.shuffle? = [] :=
    List.filterMap_eq_nil_iff.mpr fun call hm => (Call.brings_none (h call hm)).2.1
  have keys : calls.filterMap Call.shuffleBy? = [] :=
    List.filterMap_eq_nil_iff.mpr fun call hm => (Call.brings_none (h call hm)).2.2
  have groupKeys : (ofCalls calls).groupKeys = [] := by
    rw [ofCalls_eq, groups]
    rfl
  have hints : hintsOf calls = [] := by
    rw [hintsOf, lastShuffle, allShuffleKeys, answers, keys]
    rfl
  rewrite [render_eq, hintsFor_ofCalls, hints, groupKeys, if_pos rfl, String.append_empty]
  rfl

/-- Every name is kept once: the names that came from expressions in the order of first mention, then
the others in theirs. A name stands for the last expression that was given under it by name, or where
there is none for the last one that got the name by itself. -/
theorem aggregates_of_calls (calls : List Call) :
    (ofCalls calls).aggregateNames.Nodup ∧
      (ofCalls calls).aggregateNames =
        ((givenUnnamed calls).map Prod.fst).eraseDups ++
          ((givenNamed calls).map Prod.fst).eraseDups.filter (fun name =>
            name ∉ (givenUnnamed calls).map Prod.fst) ∧
      (∀ a, a ∈ (ofCalls calls).aggregates ↔
        Keyed.IsLast Prod.fst a (givenNamed calls) ∨
          a.1 ∉ (givenNamed calls).map Prod.fst ∧ Keyed.IsLast Prod.fst a (givenUnnamed calls)) ∧
      ((∀ call ∈ calls, call.kind = .aggregate ∨ call.kind = .aggregateAs) →
        (ofCalls calls).render = "| summarize" ++
          if assignmentTexts (ofCalls calls).aggregates = [] then ""
          else "\n\t" ++ ",\n\t".intercalate (assignmentTexts (ofCalls calls).aggregates)) :=
  ⟨nodup_aggregateNames_ofCalls calls, aggregateNames_ofCalls, fun _ => mem_aggregates_iff,
    render_ofCalls⟩

/-- The count takes the place that the sum had, and the maximum that of the count before. -/
theorem aggregates_of_colliding_calls :
    ∃ calls,
      calls = [.aggregateAs "b" .count, .aggregate (Column.sum ⟨"a", .long⟩),
        .aggregate (Column.avg ⟨"a", .long⟩), .aggregateAs "sum_a" .count,
        .aggregateAs "b" (Column.max ⟨"a", .long⟩)] ∧
      (∀ call ∈ calls, call.kind = .aggregate ∨ call.kind = .aggregateAs) ∧
      (ofCalls calls).aggregateNames = ["sum_a", "avg_a", "b"] ∧
      ("b", Column.max ⟨"a", .long⟩) ∈ (ofCalls calls).aggregates ∧
      (ofCalls calls).render = "| summarize\n\tsum_a=count(),\n\tavg_a=avg(a),\n\tb=max(a)" := by
  obtain ⟨calls, hcalls⟩ : ∃ calls : List Call,
      calls = [.aggregateAs "b" .count, .aggregate (Column.sum ⟨"a", .long⟩),
        .aggregate (Column.avg ⟨"a", .long⟩), .aggregateAs "sum_a" .count,
        .aggregateAs "b" (Column.max ⟨"a", .long⟩)] := ⟨_, rfl⟩
  have kinds : ∀ call ∈ calls, call.kind = .aggregate ∨ call.kind = .aggregateAs := by
    simp only [hcalls, List.forall_mem_cons, Call.kind]
    decide
  have last : Keyed.IsLast Prod.fst ("b", Column.max ⟨"a", .long⟩) (givenNamed calls) := by
    rw [hcalls]
    exact ⟨[("b", .count), ("sum_a", .count)], [], rfl, List.not_mem_nil⟩
  obtain ⟨-, names, members, text⟩ := aggregates_of_calls calls
  refine ⟨calls, hcalls, kinds, names.trans ?_, (members _).mpr (.inl last), (text kinds).trans ?_⟩
  · rw [hcalls]
    decide +kernel
  · rw [hcalls]
    decide +kernel

end Summarize

end Kql
