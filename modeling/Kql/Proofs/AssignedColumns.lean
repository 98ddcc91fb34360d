import Kql.Proofs.OpenSchemas
import Kql.Proofs.OutputColumns

/-!
What assignments make of the columns of a table. Some clauses leave the columns as they are or assign to
some of them, so behind a run of such clauses only the assignments count, one after another: a column
that is assigned to stays in its place, a new one goes to the end, and each has the type that was
assigned last. It does not matter how the assignments are dealt out among the clauses.
-/

namespace Kql

namespace Pipeline

variable {p : Pipeline} {s : Schema}

/-- The call drops no column and moves none. -/
def Call.keepsColumns : Call → Bool
  | .filter _ | .extend _ | .order _ | .limit _ | .take _ | .evaluate _ => true
  | _ => false

def Call.assignments : Call → List (String × Expr)
  | .extend assignments => assignments
  | _ => []

/-- What the calls assign, one call after another. -/
def assignmentsOf (calls : List Call) : List (String × Expr) := calls.flatMap Call.assignments

/-- The schema with everything assigned that the calls assign, and open if one of them opens it. -/
def schemaBehind (s : Schema) (calls : List Call) : Schema :=
  ⟨Keyed.putAll Column.name (assigned (assignmentsOf calls)) s.columns,
    s.isOpen || calls.any Call.opens⟩

/-! ## The schema behind a run -/

theorem schemaBehind_nil (s : Schema) : schemaBehind s [] = s :=
  congrArg (Schema.mk s.columns) (Bool.or_false s.isOpen)

theorem schemaBehind_append (s : Schema) (calls more : List Call) :
    schemaBehind s (calls ++ more) = schemaBehind (schemaBehind s calls) more := by
  simp only [schemaBehind, assignmentsOf, assigned, List.flatMap_append, List.map_append,
    Keyed.putAll_append, List.any_append, Bool.or_assoc]

/-- A call that assigns nothing and opens nothing can be left out. -/
theorem schemaBehind_singleton {call : Call} (assigns : call.assignments = [])
    (opens : call.opens = false) : schemaBehind s [call] = s := by
  have columns : assigned (assignmentsOf [call]) = [] := by
    rw [assignmentsOf, List.flatMap_singleton, assigns]
    rfl
  have closed : [call].any Call.opens = false := by
    rw [List.any_cons, opens]
    rfl
  rw [schemaBehind, columns, closed, Bool.or_false]
  rfl

theorem exists_perform_of_keepsColumns {call : Call} (keeps : call.keepsColumns = true) :
    ∃ q, p.perform call = .ok q ∧ q.schema = schemaBehind p.schema [call] := by
  cases call with
  | filter conditions | order conditions =>
      refine ⟨_, rfl, ?_⟩
      rw [schemaBehind_singleton rfl rfl]
      simp only [filter, order]
      split <;> rfl
  | limit n | take n =>
      exact ⟨_, rfl, (schemaBehind_singleton rfl rfl).symm⟩
  | evaluate plugin =>
      refine ⟨_, rfl, ?_⟩
      exact congrArg (Schema.mk p.schema.columns) (Bool.or_true p.schema.isOpen).symm
  | extend assignments =>
      refine ⟨_, rfl, ?_⟩
      cases assignments with
      | nil => exact (schemaBehind_singleton rfl rfl).symm
      | cons a more =>
          rw [extend_eq rfl, schemaBehind, assignmentsOf, List.flatMap_singleton]
          exact (Schema.foldl_insert_eq p.schema _).trans
            (congrArg (Schema.mk _) (Bool.or_false p.schema.isOpen).symm)
  | _ => cases keeps

theorem exists_performAll_of_keepsColumns {calls : List Call}
    (keeps : ∀ call ∈ calls, call.keepsColumns = true) :
    ∃ q, p.performAll calls = .ok q ∧ q.schema = schemaBehind p.schema calls := by
  induction calls generalizing p with
  | nil => exact ⟨p, rfl, (schemaBehind_nil p.schema).symm⟩
  | cons call more ih =>
      rw [List.forall_mem_cons] at keeps
      obtain ⟨next, hnext, first⟩ := exists_perform_of_keepsColumns keeps.1 (p := p)
      obtain ⟨q, hq, rest⟩ := ih keeps.2 (p := next)
      refine ⟨q, bind_eq_ok.mpr ⟨next, hnext, hq⟩, ?_⟩
      rw [rest, first, ← schemaBehind_append]
      rfl

/-! ## Names and types -/

/-- The last assignment to a name gives its column. -/
theorem isLast_assigned_iff {c : Column} {assignments : List (String × Expr)} :
    Keyed.IsLast Column.name c (assigned assignments) ↔
      ∃ e, Keyed.IsLast Prod.fst (c.name, e) assignments ∧ c.type = e.type := by
  rw [assigned, Keyed.isLast_map_iff]
  constructor
  · rintro ⟨⟨name, e⟩, rfl, last⟩
    exact ⟨e, last, rfl⟩
  · rintro ⟨e, last, type⟩
    obtain ⟨name, _⟩ := c
    cases type
    exact ⟨(name, e), rfl, last⟩

theorem names_schemaBehind (s : Schema) (calls : List Call) :
    (schemaBehind s calls).names = s.names ++
      (((assignmentsOf calls).map Prod.fst).filter fun name => name ∉ s.names).eraseDups := by
  have names := Keyed.map_putAll Column.name (assigned (assignmentsOf calls)) s.columns
  rwa [map_name_assigned] at names

theorem mem_schemaBehind_iff (distinct : s.names.Nodup) (calls : List Call) (c : Column) :
    c ∈ (schemaBehind s calls).columns ↔
      (∃ e, Keyed.IsLast Prod.fst (c.name, e) (assignmentsOf calls) ∧ c.type = e.type) ∨
        c.name ∉ (assignmentsOf calls).map Prod.fst ∧ c ∈ s.columns := by
  rw [schemaBehind, Keyed.mem_putAll_iff distinct, isLast_assigned_iff, map_name_assigned]

/-- Assignments that are dealt out among several clauses come to what they come to in one. -/
theorem schemaBehind_flatten (s : Schema) (before after : List Call)
    (parts : List (List (String × Expr))) :
    schemaBehind s (before ++ parts.map Call.extend ++ after) =
      schemaBehind s (before ++ .extend parts.flatten :: after) := by
  have quiet : (parts.map Call.extend).any Call.opens = false := by
    simp [Call.opens]
  have whole : assignmentsOf (parts.map Call.extend) = parts.flatten := by
    rw [assignmentsOf, List.flatMap_map]
    exact List.flatMap_id
  have middle (s : Schema) :
      schemaBehind s (parts.map Call.extend) = schemaBehind s [.extend parts.flatten] := by
    rw [schemaBehind, schemaBehind, quiet, whole, assignmentsOf, List.flatMap_singleton]
    rfl
  rw [List.append_cons, schemaBehind_append, schemaBehind_append, middle, ← schemaBehind_append,
    ← schemaBehind_append, List.append_assoc]

/-- Clauses that keep the columns never fail. The names of the table come first, then those that were
assigned besides, in the order of first assignment. A column that was assigned to has the type of the
last expression assigned to it, and any other is the one that the table had. An `extend` can be taken
apart anywhere. -/
theorem columns_of_assignments (built : p.Reachable) {calls : List Call}
    (keeps : ∀ call ∈ calls, call.keepsColumns = true) :
    ∃ q, p.performAll calls = .ok q ∧
      q.schema.names = p.schema.names ++
        (((assignmentsOf calls).map Prod.fst).filter fun name => name ∉ p.schema.names).eraseDups ∧
      (∀ c, c ∈ q.schema.columns ↔
        (∃ e, Keyed.IsLast Prod.fst (c.name, e) (assignmentsOf calls) ∧ c.type = e.type) ∨
          c.name ∉ (assignmentsOf calls).map Prod.fst ∧ c ∈ p.schema.columns) ∧
      ∀ before (parts : List (List (String × Expr))) after,
        calls = before ++ .extend parts.flatten :: after →
        ∃ r, p.performAll (before ++ parts.map Call.extend ++ after) = .ok r ∧
          r.schema = q.schema := by
  obtain ⟨q, hq, schema⟩ := exists_performAll_of_keepsColumns keeps (p := p)
  refine ⟨q, hq, ?_⟩
  rw [schema]
  refine ⟨names_schemaBehind p.schema calls, mem_schemaBehind_iff built.nodup_names calls, ?_⟩
  rintro before parts after rfl
  rw [List.forall_mem_append, List.forall_mem_cons] at keeps
  have keepsApart : ∀ call ∈ before ++ parts.map Call.extend ++ after, call.keepsColumns = true := by
    rw [List.forall_mem_append, List.forall_mem_append, List.forall_mem_map]
    exact ⟨⟨keeps.1, fun _ _ => rfl⟩, keeps.2.2⟩
  obtain ⟨r, hr, apart⟩ := exists_performAll_of_keepsColumns keepsApart (p := p)
  exact ⟨r, hr, apart.trans (schemaBehind_flatten p.schema before after parts)⟩

/-- The text takes the place of the number `a`, and of the two values of `c` the second one counts. -/
theorem columns_of_repeated_assignments :
    ∃ q r, (declared "t" [⟨"a", .long⟩, ⟨"b", .bool⟩]).performAll
        [.filter [], .extend [("c", .column ⟨"b", .bool⟩), ("a", .literal (.string "x")),
          ("c", .literal (.long 1))], .evaluate (Column.bagUnpack ⟨"b", .dynamic⟩)] = .ok q ∧
      (declared "t" [⟨"a", .long⟩, ⟨"b", .bool⟩]).performAll
        [.filter [], .extend [("c", .column ⟨"b", .bool⟩), ("a", .literal (.string "x"))],
          .extend [("c", .literal (.long 1))], .evaluate (Column.bagUnpack ⟨"b", .dynamic⟩)] = .ok r ∧
      r.schema = q.schema ∧ q.schema.names = ["a", "b", "c"] ∧
      ⟨"a", .string⟩ ∈ q.schema.columns ∧ ⟨"b", .bool⟩ ∈ q.schema.columns ∧
      ⟨"c", .long⟩ ∈ q.schema.columns := by
  have keeps : ∀ call ∈ [Call.filter [], .extend [("c", .column ⟨"b", .bool⟩),
      ("a", .literal (.string "x")), ("c", .literal (.long 1))],
      .evaluate (Column.bagUnpack ⟨"b", .dynamic⟩)], call.keepsColumns = true := by
    simp [Call.keepsColumns]
  obtain ⟨q, hq, names, columns, apart⟩ :=
    columns_of_assignments (reachable_declared "t" [⟨"a", .long⟩, ⟨"b", .bool⟩]) keeps
  obtain ⟨r, hr, same⟩ := apart [.filter []]
    [[("c", .column ⟨"b", .bool⟩), ("a", .literal (.string "x"))], [("c", .literal (.long 1))]] _ rfl
  refine ⟨q, r, hq, hr, same, names.trans ?_, ?_, ?_, ?_⟩
  · decide
  · rw [columns]
    exact .inl ⟨_, ⟨[("c", _)], [("c", _)], rfl, by decide⟩, rfl⟩
  · rw [columns]
    exact .inr ⟨by decide, by decide⟩
  · rw [columns]
    exact .inl ⟨_, ⟨[("c", _), ("a", _)], [], rfl, by decide⟩, rfl⟩

end Pipeline
end Kql
