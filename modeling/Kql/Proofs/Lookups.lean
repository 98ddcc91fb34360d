import Kql.Proofs.Relaxation

/-!
When a builder call fails. A call looks up the names it is given one after another, each in the schema
of one pipeline: a closed schema rejects the names it does not have, and an open one rejects none. The
first name that is rejected is the one complained of, and a call that has none rejected succeeds.
-/

namespace Kql

def Expr.column? : Expr → Option Column
  | column c => some c
  | _ => none

namespace Pipeline

/-- A name, and the pipeline in whose schema it is looked up. -/
structure Lookup where
  side : Pipeline
  name : String

namespace Lookup

def Rejected (l : Lookup) : Prop := l.side.schema.isOpen = false ∧ l.name ∉ l.side.schema.names

instance (l : Lookup) : Decidable l.Rejected :=
  inferInstanceAs (Decidable (l.side.schema.isOpen = false ∧ l.name ∉ l.side.schema.names))

def error (l : Lookup) : Error := .unknownColumn l.side.table l.name

def firstRejected? (ls : List Lookup) : Option Lookup := ls.find? fun l => l.Rejected

theorem firstRejected?_append (ls ls' : List Lookup) :
    firstRejected? (ls ++ ls') = (firstRejected? ls).or (firstRejected? ls') :=
  List.find?_append

theorem firstRejected?_eq_none_iff {ls : List Lookup} :
    firstRejected? ls = none ↔ ∀ l ∈ ls, ¬ l.Rejected := by
  simp [firstRejected?]

theorem firstRejected?_eq_some_iff {ls : List Lookup} {l : Lookup} :
    firstRejected? ls = some l ↔
      l.Rejected ∧ ∃ before after, ls = before ++ l :: after ∧ ∀ b ∈ before, ¬ b.Rejected := by
  simp [firstRejected?, List.find?_eq_some_iff_append]

theorem mem_of_firstRejected? {ls : List Lookup} {l : Lookup} (h : firstRejected? ls = some l) :
    l ∈ ls ∧ l.Rejected := by
  unfold firstRejected? at h
  exact ⟨List.mem_of_find?_eq_some h, by simpa using List.find?_some h⟩

end Lookup

open Lookup

/-- The result comes behind these lookups: it is the error of the first one that is rejected, and no
error if none is. -/
inductive Checked {α : Type} (ls : List Lookup) : Except Error α → Prop
  | ok (a : α) : firstRejected? ls = none → Checked ls (.ok a)
  | error {l : Lookup} : firstRejected? ls = some l → Checked ls (.error l.error)

namespace Checked

variable {α β γ : Type} {ls ls' : List Lookup} {x : Except Error α} {f : α → Except Error β}

theorem congr (hx : Checked ls x) (same : firstRejected? ls' = firstRejected? ls) : Checked ls' x := by
  cases hx with
  | ok a accepted => exact .ok a (same.trans accepted)
  | error first => exact .error (same.trans first)

theorem bind (hx : Checked ls x) (hf : ∀ a, x = .ok a → Checked ls' (f a)) :
    Checked (ls ++ ls') (x >>= f) := by
  cases hx with
  | error first =>
      refine .error ?_
      rw [firstRejected?_append, first, Option.some_or]
  | ok a accepted =>
      refine (hf a rfl).congr ?_
      rw [firstRejected?_append, accepted, Option.none_or]

/-- What follows the lookups does not fail. -/
theorem bind_ok (hx : Checked ls x) (g : α → β) : Checked ls (x >>= fun a => .ok (g a)) := by
  have whole : Checked (ls ++ []) (x >>= fun a => .ok (g a)) := hx.bind fun a _ => .ok (g a) rfl
  rwa [List.append_nil] at whole

theorem discard (hx : Checked ls x) : Checked ls (discard x) := by
  cases hx with
  | error first => exact .error first
  | ok a accepted => exact .ok () accepted

theorem mapM {look : γ → List Lookup} {f : γ → Except Error β}
    (h : ∀ c, Checked (look c) (f c)) (cs : List γ) : Checked (cs.flatMap look) (cs.mapM f) := by
  induction cs with
  | nil => exact .ok [] rfl
  | cons c rest ih =>
      rw [List.mapM_cons, List.flatMap_cons]
      exact (h c).bind fun b _ => ih.bind_ok fun bs => b :: bs

theorem forM {look : γ → List Lookup} {f : γ → Except Error Unit}
    (h : ∀ c, Checked (look c) (f c)) (cs : List γ) : Checked (cs.flatMap look) (cs.forM f) := by
  induction cs with
  | nil => exact .ok () rfl
  | cons c rest ih =>
      rw [List.flatMap_cons]
      exact (h c).bind fun _ _ => ih

/-- Names that are looked up a second time are not rejected. -/
theorem again (hx : Checked ls x) (accepted : ∀ l ∈ ls, ¬ l.Rejected) : Checked [] x :=
  hx.congr (firstRejected?_eq_none_iff.mpr accepted).symm

theorem error_iff (hx : Checked ls x) {e : Error} :
    x = .error e ↔ ∃ l, firstRejected? ls = some l ∧ e = l.error := by
  cases hx with
  | ok a accepted => simp [accepted]
  | error first => simp [first, eq_comm]

theorem exists_ok_iff (hx : Checked ls x) : (∃ a, x = .ok a) ↔ ∀ l ∈ ls, ¬ l.Rejected := by
  rw [← firstRejected?_eq_none_iff]
  cases hx with
  | ok a accepted => simp [accepted]
  | error first => simp [first]

/-- A lookup that is rejected makes the result an error, be it for an earlier one. -/
theorem eq_error_of_rejected (hx : Checked ls x) {l : Lookup} (hl : l ∈ ls) (rejected : l.Rejected) :
    ∃ first ∈ ls, first.Rejected ∧ x = .error first.error := by
  cases hx with
  | ok a accepted => exact absurd rejected (firstRejected?_eq_none_iff.mp accepted l hl)
  | error first => exact ⟨_, (mem_of_firstRejected? first).1, (mem_of_firstRejected? first).2, rfl⟩

end Checked

variable {p : Pipeline}

/-! ## The lookups of the builders -/

theorem checked_resolveColumn (p : Pipeline) (c : Column) :
    Checked [⟨p, c.name⟩] (p.resolveColumn c) := by
  cases looked : p.resolveColumn c with
  | ok d =>
      refine .ok d (firstRejected?_eq_none_iff.mpr ?_)
      rw [List.forall_mem_singleton]
      rintro ⟨closed, unknown⟩
      rcases exists_resolveColumn_iff.mp ⟨d, looked⟩ with isOpen | known
      · rw [closed] at isOpen
        cases isOpen
      · exact unknown known
  | error e =>
      obtain ⟨unknown, closed, rfl⟩ := resolveColumn_eq_error.mp looked
      refine .error (l := ⟨p, c.name⟩) (firstRejected?_eq_some_iff.mpr ?_)
      exact ⟨⟨closed, Schema.get?_eq_none_iff.mp unknown⟩, [], [], rfl, List.forall_mem_nil _⟩

theorem checked_mapM_resolveColumn (p : Pipeline) (columns : List Column) :
    Checked (columns.map fun c => ⟨p, c.name⟩) (columns.mapM p.resolveColumn) := by
  rw [List.map_eq_flatMap]
  exact .mapM p.checked_resolveColumn columns

theorem checked_mapM_resolve (p : Pipeline) (names : List String) :
    Checked (names.map (Lookup.mk p)) (names.mapM p.resolve) := by
  rw [List.map_eq_flatMap]
  exact .mapM (fun name => p.checked_resolveColumn ⟨name, .dynamic⟩) names

/-- The listed expressions that are plain columns. -/
def plainColumns (items : List Expr) : List Column := items.filterMap Expr.column?

theorem checked_project (p : Pipeline) (projection : Projection) :
    Checked ((plainColumns projection.items).map fun c => ⟨p, c.name⟩) (p.project projection) :=
  (p.checked_mapM_resolveColumn (handles projection)).bind_ok fun _ => _

theorem checked_distinct (p : Pipeline) (items : List Expr) :
    Checked ((plainColumns items).map fun c => ⟨p, c.name⟩) (p.distinct items) := by
  have item (e : Expr) : Checked (e.column?.toList.map fun c => ⟨p, c.name⟩) (p.distinctColumn e) := by
    cases e with
    | column c => exact p.checked_resolveColumn c
    | _ => exact .ok _ rfl
  have whole := (Checked.mapM item items).bind_ok fun columns =>
    p.push (.distinct items) (.ofColumns columns)
  rwa [← List.map_flatMap, ← List.filterMap_eq_flatMap_toList] at whole

/-- Columns found by name are found again by their handles. -/
theorem not_rejected_of_mapM_resolve {names : List String} {columns : List Column}
    (h : names.mapM p.resolve = .ok columns) :
    ∀ l ∈ (plainColumns (columns.map Expr.column)).map fun c => ⟨p, c.name⟩, ¬ Rejected l := by
  have same : (plainColumns (columns.map Expr.column)).map (fun c => ⟨p, c.name⟩) =
      names.map (Lookup.mk p) := by
    rw [← map_name_of_mapM_resolve h, List.map_map]
    exact congrArg (List.map fun c => Lookup.mk p c.name) (handles_ofColumns columns)
  rw [same]
  exact (p.checked_mapM_resolve names).exists_ok_iff.mp ⟨columns, h⟩

theorem checked_projectNames (p : Pipeline) (names : List String) :
    Checked (names.map (Lookup.mk p)) (p.projectNames names) := by
  have whole := (p.checked_mapM_resolve names).bind fun columns h =>
    (p.checked_project (.ofColumns columns)).again (not_rejected_of_mapM_resolve h)
  rwa [List.append_nil] at whole

theorem checked_distinctNames (p : Pipeline) (names : List String) :
    Checked (names.map (Lookup.mk p)) (p.distinctNames names) := by
  have whole := (p.checked_mapM_resolve names).bind fun columns h =>
    (p.checked_distinct (columns.map Expr.column)).again (not_rejected_of_mapM_resolve h)
  rwa [List.append_nil] at whole

/-- Each key is looked up on the left side before the right one. -/
theorem checked_join (p right : Pipeline) (on : List String) (kind : JoinKind)
    (strategy : Option JoinStrategy) :
    Checked (on.flatMap fun key => [⟨p, key⟩, ⟨right, key⟩]) (p.join right on kind strategy) := by
  have key (name : String) : Checked [⟨p, name⟩, ⟨right, name⟩] (checkKey p right name) :=
    (p.checked_resolveColumn ⟨name, .dynamic⟩).discard.bind fun _ _ =>
      (right.checked_resolveColumn ⟨name, .dynamic⟩).discard
  exact (Checked.forM key on).bind_ok fun _ => _

theorem checked_summarize (p : Pipeline) (s : Summarize) :
    Checked ((s.groupKeys ++ s.shuffleKeys).map (Lookup.mk p)) (p.summarize s) := by
  rw [List.map_append]
  exact (p.checked_mapM_resolve s.groupKeys).bind fun _ _ =>
    (p.checked_mapM_resolve s.shuffleKeys).discard.bind_ok fun _ => _

/-- The lookups of a call, in the order in which they are made. -/
def Call.lookups (p : Pipeline) : Call → List Lookup
  | .project projection => (plainColumns projection.items).map fun c => ⟨p, c.name⟩
  | .distinct items => (plainColumns items).map fun c => ⟨p, c.name⟩
  | .projectNames names | .distinctNames names => names.map fun name => ⟨p, name⟩
  | .join right on _ _ => on.flatMap fun key => [⟨p, key⟩, ⟨right, key⟩]
  | .summarize s => (s.groupKeys ++ s.shuffleKeys).map fun name => ⟨p, name⟩
  | .filter _ | .count | .extend _ | .order _ | .limit _ | .take _ | .evaluate _ => []

theorem checked_perform (p : Pipeline) (call : Call) :
    Checked (call.lookups p) (p.perform call) := by
  cases call with
  | project projection => exact p.checked_project projection
  | distinct items => exact p.checked_distinct items
  | projectNames names => exact p.checked_projectNames names
  | distinctNames names => exact p.checked_distinctNames names
  | join right on kind strategy => exact p.checked_join right on kind strategy
  | summarize s => exact p.checked_summarize s
  | filter _ | count | extend _ | order _ | limit _ | take _ | evaluate _ => exact .ok _ rfl

/-- A call succeeds when none of its lookups is rejected, and otherwise fails for the first that is. -/
theorem perform_error_iff (p : Pipeline) (call : Call) :
    ((∃ q, p.perform call = .ok q) ↔ ∀ l ∈ call.lookups p, ¬ l.Rejected) ∧
      ∀ e, p.perform call = .error e ↔
        ∃ before l after, call.lookups p = before ++ l :: after ∧ (∀ b ∈ before, ¬ b.Rejected) ∧
          l.Rejected ∧ e = .unknownColumn l.side.table l.name := by
  refine ⟨(p.checked_perform call).exists_ok_iff, fun e => ?_⟩
  rw [(p.checked_perform call).error_iff]
  constructor
  · rintro ⟨l, first, rfl⟩
    obtain ⟨rejected, before, after, split, accepted⟩ := firstRejected?_eq_some_iff.mp first
    exact ⟨before, l, after, split, accepted, rejected, rfl⟩
  · rintro ⟨before, l, after, split, accepted, rejected, rfl⟩
    exact ⟨l, firstRejected?_eq_some_iff.mpr ⟨rejected, before, after, split, accepted⟩, rfl⟩

end Pipeline
end Kql
