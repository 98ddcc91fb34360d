import Kql.Proofs.Lookups

/-!
When the schema behind a run of builder calls is open. Some calls open the schema, some close it, and
the others leave it as it is, so a run ends with an open schema exactly when nothing has closed it
since it was open last.
-/

namespace Kql.Pipeline

variable {p q : Pipeline}

/-- The call lets in columns that are not known, those of a plugin or of an open right side. -/
def Call.opens : Call → Bool
  | .evaluate _ => true
  | .join right _ kind _ => kind.keepsRight && right.schema.isOpen
  | _ => false

/-- The call keeps no columns of the table but those that it names. -/
def Call.closes : Call → Bool
  | .project _ | .projectNames _ | .distinct _ | .distinctNames _ | .count | .summarize _ => true
  | .join _ _ kind _ => !kind.keepsLeft
  | _ => false

theorem isOpen_perform {call : Call} (h : p.perform call = .ok q) :
    q.schema.isOpen = (call.opens || !call.closes && p.schema.isOpen) := by
  cases call with
  | project projection =>
      obtain ⟨kept, -, rfl⟩ := project_eq_ok.mp h
      exact Schema.isOpen_ofColumns _
  | projectNames names =>
      obtain ⟨columns, -, h⟩ := projectNames_eq_ok.mp h
      obtain ⟨kept, -, rfl⟩ := project_eq_ok.mp h
      exact Schema.isOpen_ofColumns _
  | distinct items =>
      obtain ⟨columns, -, rfl⟩ := distinct_eq_ok.mp h
      exact Schema.isOpen_ofColumns columns
  | distinctNames names =>
      obtain ⟨_, -, h⟩ := distinctNames_eq_ok.mp h
      obtain ⟨columns, -, rfl⟩ := distinct_eq_ok.mp h
      exact Schema.isOpen_ofColumns columns
  | summarize s =>
      obtain ⟨groups, -, -, rfl⟩ := summarize_eq_ok.mp h
      exact Schema.isOpen_ofColumns _
  | count =>
      cases h
      exact Schema.isOpen_ofColumns _
  | join right on kind strategy =>
      obtain ⟨-, rfl⟩ := join_eq_ok.mp h
      simp only [Call.opens, Call.closes, Bool.not_not]
      exact (Schema.isOpen_join kind p.schema right.schema).trans (Bool.or_comm _ _)
  | evaluate plugin =>
      cases h
      rfl
  | limit n | take n =>
      cases h
      rfl
  | filter conditions | order conditions =>
      cases h
      simp only [filter, order]
      split <;> rfl
  | extend assignments =>
      cases h
      cases he : assignments.isEmpty with
      | true =>
          rw [extend, if_pos he]
          rfl
      | false =>
          rw [extend_eq he]
          exact Schema.isOpen_foldl_insert p.schema (assigned assignments)

/-- Some call opens the schema, and no call behind it closes it. -/
def OpenedBy (calls : List Call) : Prop :=
  ∃ opening after, opening :: after <:+ calls ∧ opening.opens = true ∧
    ∀ call ∈ after, call.closes = false

theorem openedBy_cons {call : Call} {more : List Call} :
    OpenedBy (call :: more) ↔
      (call.opens = true ∧ ∀ later ∈ more, later.closes = false) ∨ OpenedBy more := by
  constructor
  · rintro ⟨opening, after, suffix, opens, kept⟩
    rcases List.suffix_cons_iff.mp suffix with whole | within
    · cases whole
      exact .inl ⟨opens, kept⟩
    · exact .inr ⟨opening, after, within, opens, kept⟩
  · rintro (⟨opens, kept⟩ | ⟨opening, after, within, opens, kept⟩)
    · exact ⟨call, more, List.suffix_rfl, opens, kept⟩
    · exact ⟨opening, after, within.trans (List.suffix_cons call more), opens, kept⟩

theorem not_openedBy_of_none_opens {calls : List Call} (h : ∀ call ∈ calls, call.opens = false) :
    ¬ OpenedBy calls := by
  rintro ⟨opening, after, suffix, opens, -⟩
  rw [h opening (suffix.subset List.mem_cons_self)] at opens
  cases opens

theorem isOpen_performAll_iff {calls : List Call} (h : p.performAll calls = .ok q) :
    q.schema.isOpen = true ↔
      (p.schema.isOpen = true ∧ ∀ call ∈ calls, call.closes = false) ∨ OpenedBy calls := by
  induction calls generalizing p with
  | nil =>
      cases h
      have none : ¬ OpenedBy [] := not_openedBy_of_none_opens (List.forall_mem_nil _)
      simp [none]
  | cons call more ih =>
      obtain ⟨next, hnext, h⟩ := bind_eq_ok.mp h
      rw [ih h, isOpen_perform hnext, openedBy_cons, List.forall_mem_cons]
      simp only [Bool.or_eq_true, Bool.and_eq_true, Bool.not_eq_true']
      tauto

/-- The schema behind a run is open exactly when it was open before and no call closed it, or when a
call opened it and none after that closed it. So where no call lets in unknown columns a closed schema
stays closed, and every call that looks up a name which it does not have is refused. -/
theorem open_after_run_iff {calls : List Call} (h : p.performAll calls = .ok q) :
    (q.schema.isOpen = true ↔
        (p.schema.isOpen = true ∧ ∀ call ∈ calls, call.closes = false) ∨ OpenedBy calls) ∧
      (p.schema.isOpen = false → (∀ call ∈ calls, call.opens = false) →
        q.schema.isOpen = false ∧
          ∀ call : Call, ∀ name, ⟨q, name⟩ ∈ call.lookups q → name ∉ q.schema.names →
            ∃ l ∈ call.lookups q, l.Rejected ∧
              q.perform call = .error (.unknownColumn l.side.table l.name)) := by
  refine ⟨isOpen_performAll_iff h, fun closed quiet => ?_⟩
  have stays : q.schema.isOpen = false := by
    rw [← Bool.not_eq_true, isOpen_performAll_iff h, closed]
    simp [not_openedBy_of_none_opens quiet]
  refine ⟨stays, fun call name asked unknown => ?_⟩
  exact (q.checked_perform call).eq_error_of_rejected asked ⟨stays, unknown⟩

/-- The count closes the schema that the plugin has opened, and the join with a table whose columns
were not declared opens it again. Without the plugin and that join it is closed at the end. -/
theorem open_after_joined_count :
    ∃ q r, (declared "l" [⟨"x", .dynamic⟩]).performAll
        [.evaluate (Column.bagUnpack ⟨"x", .dynamic⟩), .count,
          .join (ofTable "r" ⟨"c", "d"⟩ .undeclared) ["Count"] .leftOuter none, .filter []] = .ok q ∧
      (declared "l" [⟨"x", .dynamic⟩]).performAll [.limit 5, .count, .order []] = .ok r ∧
      q.schema.isOpen = true ∧ r.schema.isOpen = false ∧
      ¬ ∃ s, r.perform (.projectNames ["Count", "x"]) = .ok s := by
  obtain ⟨q, hq⟩ : ∃ q, (declared "l" [⟨"x", .dynamic⟩]).performAll
      [.evaluate (Column.bagUnpack ⟨"x", .dynamic⟩), .count,
        .join (ofTable "r" ⟨"c", "d"⟩ .undeclared) ["Count"] .leftOuter none, .filter []] = .ok q :=
    ⟨_, rfl⟩
  obtain ⟨r, hr⟩ : ∃ r, (declared "l" [⟨"x", .dynamic⟩]).performAll
      [.limit 5, .count, .order []] = .ok r := ⟨_, rfl⟩
  have reopened : OpenedBy [.evaluate (Column.bagUnpack ⟨"x", .dynamic⟩), .count,
      .join (ofTable "r" ⟨"c", "d"⟩ .undeclared) ["Count"] .leftOuter none, .filter []] :=
    ⟨_, [.filter []], ⟨[.evaluate (Column.bagUnpack ⟨"x", .dynamic⟩), .count], rfl⟩, rfl,
      by simp [Call.closes]⟩
  obtain ⟨closed, refuses⟩ := (open_after_run_iff hr).2 rfl (by simp [Call.opens])
  refine ⟨q, r, hq, hr, (open_after_run_iff hq).1.mpr (.inr reopened), closed, ?_⟩
  rintro ⟨s, hs⟩
  have unknown : "x" ∉ r.schema.names := by
    cases hr
    decide
  obtain ⟨l, -, -, refused⟩ :=
    refuses (.projectNames ["Count", "x"]) "x" (by simp [Call.lookups]) unknown
  rw [refused] at hs
  cases hs

end Kql.Pipeline
