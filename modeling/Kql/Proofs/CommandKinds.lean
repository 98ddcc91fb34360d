import Kql.Proofs.BuilderSteps
import Kql.Proofs.Concatenation
import Kql.Proofs.ExecutorLog
import Mathlib.Data.List.Basic

/-!
Who decides whether a template is run as a query or as a command. The kind of a call hangs on the first
character of its text. Where no placeholder starts a template, this is a character of the template, so
no parameter can change the kind. Where one does, the parameters have the choice.
-/

namespace Kql

theorem head?_toString_append (c : Char) (s : String) : (c.toString ++ s).toList.head? = some c := by
  simp

namespace Template

/-- The first character is that of the template, unless a placeholder stands there. -/
theorem head?_render {template text : String} {params : Params}
    (h : ¬ StartsWithPlaceholder template.toList) (hr : render template params = .ok text) :
    text.toList.head? = template.toList.head? := by
  rw [render, pieces] at hr
  cases hcs : template.toList with
  | nil =>
      rw [hcs, piecesAfter_nil] at hr
      cases hr
      rfl
  | cons c rest =>
      rw [hcs] at h hr
      rw [piecesAfter_of_placeholder?_eq_none (placeholder?_eq_none_iff.mpr h), piecesAfter_eq_append,
        List.reverse_singleton, List.singleton_append, List.mapM_cons] at hr
      simp only [bind_eq_ok, pure, Except.pure, Except.ok.injEq] at hr
      obtain ⟨_, ⟨_, ⟨⟩, more, -, rfl⟩, rfl⟩ := hr
      rw [String.join_cons, head?_toString_append, List.head?_cons]

/-! ## Templates that start with a placeholder -/

/-- The names in a template, with repetitions. -/
def names (template : String) : List String :=
  (pieces template).filterMap fun
    | .char _ => none
    | .placeholder name => some name

theorem mem_names {template name : String} :
    name ∈ names template ↔ .placeholder name ∈ pieces template := by
  rw [names, List.mem_filterMap]
  constructor
  · rintro ⟨piece, hpiece, hname⟩
    cases piece <;> cases hname
    exact hpiece
  · intro hpiece
    exact ⟨_, hpiece, rfl⟩

/-- Parameters with which every name in a template stands for the same character. -/
def uniformParams (template : String) (c : Char) : Params :=
  (names template).map fun name => (name, .string c.toString)

theorem lookup_uniformParams {template name : String} (h : .placeholder name ∈ pieces template)
    (c : Char) : (uniformParams template c).lookup name = some (.string c.toString) :=
  List.lookup_graph _ (mem_names.mpr h)

/-- Where a placeholder starts the template, the character that all names stand for comes first. -/
theorem exists_render_uniformParams {template : String}
    (h : StartsWithPlaceholder template.toList) (c : Char) :
    ∃ text, render template (uniformParams template c) = .ok text ∧ text.toList.head? = some c := by
  obtain ⟨⟨name, rest⟩, found⟩ := Option.isSome_iff_exists.mp (startsWithPlaceholder_iff.mp h)
  have whole : pieces template = .placeholder name :: piecesAfter [] rest := by
    rw [pieces, piecesAfter_of_placeholder?_eq_some found, piecesAfter_eq_append]
    rfl
  have known : ∀ piece ∈ pieces template, lacks (uniformParams template c) piece = false := by
    intro piece hpiece
    cases piece with
    | char _ => rfl
    | placeholder name => rw [lacks, lookup_uniformParams hpiece, Option.isNone_some]
  have first : valueOf (uniformParams template c) name = c.toString := by
    rw [valueOf, lookup_uniformParams (whole ▸ List.mem_cons_self)]
    rfl
  refine ⟨_, by rw [render, mapM_pieceText known]; rfl, ?_⟩
  rw [whole, List.map_cons, fillPiece, first, String.join_cons, head?_toString_append]

end Template

namespace Database

variable {m : Type → Type} {ε α : Type}

theorem loggedCall?_execute (db : Database m ε α) {template text : String} {params : Params}
    (h : Template.render template params = .ok text) :
    db.loggedCall? (.execute template params) = some ⟨.ofText text, db.name, text⟩ := by
  rw [loggedCall?, Request.text, h]
  rfl

variable [Monad m] [LawfulMonad m]

/-- A template that no placeholder starts is run as its own first character tells, whatever the
parameters. A template that a placeholder starts is run as a command with some parameters and as a query
with others. -/
theorem execute_kind_of_template (db : Database m ε α) (template : String) :
    (¬ Template.StartsWithPlaceholder template.toList →
      ∀ params text, Template.render template params = .ok text → ∀ log,
        (db.recorded.execute template params).run log = do
          let result ← db.run ⟨.ofText template, db.name, text⟩
          return (result.mapError .execution, log.push ⟨.ofText template, db.name, text⟩)) ∧
    (Template.StartsWithPlaceholder template.toList →
      ∃ params params' command query,
        db.loggedCall? (.execute template params) = some ⟨.command, db.name, command⟩ ∧
          db.loggedCall? (.execute template params') = some ⟨.query, db.name, query⟩) := by
  constructor
  · intro h params text hr log
    have kind : CallKind.ofText text = .ofText template := by
      rw [CallKind.ofText, Template.head?_render h hr, CallKind.ofText]
    refine (db.perform_recorded (.execute template params) log).trans ?_
    simp only [loggedCall?_execute db hr, answer, Request.text, hr, callOf, kind]
    simp
  · intro h
    obtain ⟨command, hcommand, point⟩ := Template.exists_render_uniformParams h '.'
    obtain ⟨query, hquery, letter⟩ := Template.exists_render_uniformParams h 'x'
    refine ⟨_, _, command, query, (loggedCall?_execute db hcommand).trans ?_,
      (loggedCall?_execute db hquery).trans ?_⟩
    · rw [CallKind.ofText, point]
      rfl
    · rw [CallKind.ofText, letter]
      rfl

/-- A database whose executor answers every text with itself, and so never fails. -/
def echo : Database Id Empty String := ⟨"c", "d", fun _ text => .ok text, fun _ text => .ok text⟩

/-- A brace too many in front of the placeholder keeps the kind in the hands of the template. -/
theorem execute_kind_of_stray_brace :
    ¬ Template.StartsWithPlaceholder "\x7b\x7b\x7bn\x7d\x7d".toList ∧
      Template.render "\x7b\x7b\x7bn\x7d\x7d" [("n", .string ".drop")] = .ok "\x7b.drop" ∧
      (echo.recorded.execute "\x7b\x7b\x7bn\x7d\x7d" [("n", .string ".drop")]).run ∅ =
        (.ok "\x7b.drop", AppendList.push ∅ ⟨.query, "d", "\x7b.drop"⟩) ∧
      LawfulMonad Id ∧ Template.StartsWithPlaceholder "\x7b\x7bn\x7d\x7d".toList ∧
      ∃ params command, echo.loggedCall? (.execute "\x7b\x7bn\x7d\x7d" params) =
        some ⟨.command, "d", command⟩ := by
  have behind : ¬ Template.StartsWithPlaceholder "\x7b\x7b\x7bn\x7d\x7d".toList := by decide +kernel
  have start : Template.StartsWithPlaceholder "\x7b\x7bn\x7d\x7d".toList := by decide +kernel
  have whole : Template.pieces "\x7b\x7b\x7bn\x7d\x7d" = [.char '\x7b', .placeholder "n"] := by
    have stray : Template.placeholder? "\x7b\x7b\x7bn\x7d\x7d".toList = none := rfl
    have name : Template.placeholder? "\x7b\x7bn\x7d\x7d".toList = some ("n", []) := rfl
    rw [Template.pieces]
    exact (Template.piecesAfter_of_placeholder?_eq_none stray _).trans
      ((Template.piecesAfter_of_placeholder?_eq_some name _).trans (Template.piecesAfter_nil _))
  have text : Template.render "\x7b\x7b\x7bn\x7d\x7d" [("n", .string ".drop")] = .ok "\x7b.drop" := by
    rw [Template.render, whole]
    rfl
  have sent := (execute_kind_of_template echo "\x7b\x7b\x7bn\x7d\x7d").1 behind _ _ text ∅
  obtain ⟨params, -, command, -, chosen, -⟩ :=
    (execute_kind_of_template echo "\x7b\x7bn\x7d\x7d").2 start
  exact ⟨behind, text, sent, inferInstance, start, params, command, chosen⟩

end Database
end Kql
