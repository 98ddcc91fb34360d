import Kql.CommandLine.Basic
import Kql.Proofs.Concatenation

/-!
Commands that fill a table. The header of a command ends in characters that no placeholder holds, so it
stays apart from the query behind it: the command is its header, taken as it is, followed by what the
template comes to, and fails just as the template does. Rendering both as one template comes to the same
exactly when the header has no placeholder of its own.
-/

namespace Kql

open Template

namespace SetCommand

theorem header_eq (c : SetCommand) :
    c.header = (if c.replace then ".set-or-replace " else ".set-or-append ") ++ c.table ++
      "\nwith (\nfolder = \"" ++ c.folder ++ "\",\ndocstring = \"" ++ c.docstring ++
      "\",\n)\n<|\n" := by
  obtain ⟨table, folder, docstring, replace⟩ := c
  cases replace <;> rfl

/-- The last quote of a header, which no placeholder holds, keeps the query apart from it. -/
theorem noneAcross_header (c : SetCommand) (rest : List Char) :
    NoneAcross c.header.toList rest := by
  delta header
  rewrite [String.toList_append]
  change NoneAcross (_ ++ '"' :: [',', '\n', ')', '\n', '<', '|', '\n']) rest
  exact noneAcross_of_isPlaceholderChar_eq_false (by decide) (by decide) _ rest

theorem render_eq_map (c : SetCommand) (template : String) (params : Params) :
    c.render template params = (Template.render template params).map (c.header ++ ·) := by
  rw [render]
  cases Template.render template params <;> rfl

/-- Header and template rendered as one: each for itself, the header first. -/
theorem render_header_append (c : SetCommand) (template : String) (params : Params) :
    Template.render (c.header ++ template) params = do
      let header ← Template.render c.header params
      return header ++ (← Template.render template params) :=
  render_append (c.noneAcross_header _) params

theorem render_eq_render_append_iff (c : SetCommand) :
    (∀ template params, c.render template params = Template.render (c.header ++ template) params) ↔
      IsEmpty (Occurrence c.header.toList) := by
  rw [← render_eq_self_iff]
  constructor
  · intro same params
    have empty : Template.render "" params = .ok "" := render_eq_self_iff.mpr (by decide) params
    have whole := same "" params
    rw [render_eq_map, empty, String.append_empty] at whole
    rw [← whole, Except.map, String.append_empty]
  · intro verbatim template params
    rw [render_header_append, verbatim params]
    rfl

end SetCommand

namespace CommandLine

theorem set_eq_map {φ : Type} (explain : String → Json.Fault → φ) (options : RenderOptions)
    (c : SetCommand) : set explain options c = (render explain options).map (c.header ++ ·) := by
  rw [set, render]
  cases readParams explain options.params with
  | error failure => rfl
  | ok params =>
      change ofRendering (c.render options.query params) = (ofRendering _).map _
      rw [c.render_eq_map]
      cases Template.render options.query params <;> rfl

end CommandLine

/-- A command is its header, which holds the names and texts of the command as they are, followed by
what the template comes to, and it fails just as the template does. Header and template rendered as one
come to the same exactly when the header has no placeholder. The command line agrees, and finds a fault
of the parameters before one of the template. -/
theorem set_wraps_rendered (c : SetCommand) :
    c.header = (if c.replace then ".set-or-replace " else ".set-or-append ") ++ c.table ++
        "\nwith (\nfolder = \"" ++ c.folder ++ "\",\ndocstring = \"" ++ c.docstring ++
        "\",\n)\n<|\n" ∧
      (∀ template params,
        c.render template params = (Template.render template params).map (c.header ++ ·)) ∧
      ((∀ template params,
          c.render template params = Template.render (c.header ++ template) params) ↔
        IsEmpty (Occurrence c.header.toList)) ∧
      ∀ (φ : Type) (explain : String → Json.Fault → φ) options,
        CommandLine.set explain options c =
            (CommandLine.render explain options).map (c.header ++ ·) ∧
          ∀ failure, CommandLine.readParams explain options.params = .error failure →
            CommandLine.set explain options c = .error failure := by
  refine ⟨c.header_eq, c.render_eq_map, c.render_eq_render_append_iff, fun φ explain options => ?_⟩
  refine ⟨CommandLine.set_eq_map explain options c, fun failure fault => ?_⟩
  rw [CommandLine.set, fault]
  rfl

/-- The braces in the folder and in the docstring make no placeholder together. The parameters are read
before the template is found to lack one. -/
theorem set_wraps_between_braces :
    (SetCommand.mk "T" "\x7b\x7b x" "y \x7d\x7d" true).render "\x7b\x7bn\x7d\x7d" [("n", .string "v")] =
        Template.render (SetCommand.header ⟨"T", "\x7b\x7b x", "y \x7d\x7d", true⟩ ++
          "\x7b\x7bn\x7d\x7d") [("n", .string "v")] ∧
      CommandLine.readParams (fun text _ => text) (some "[]") = .error (.invalidParams "[]") ∧
      CommandLine.set (fun text _ => text) ⟨"\x7b\x7bn\x7d\x7d", some "[]"⟩
          ⟨"T", "\x7b\x7b x", "y \x7d\x7d", true⟩ =
        .error (.invalidParams "[]") := by
  have read : Json.read "[]" = .ok (.array []) := by
    rw [Json.read]
    rw [Json.value]
    rfl
  have list : CommandLine.readParams (fun text _ => text) (some "[]") =
      .error (.invalidParams "[]") := by
    rw [CommandLine.readParams, CommandLine.readJson_eq_ok _ read]
    rfl
  obtain ⟨-, -, joined, line⟩ := set_wraps_rendered ⟨"T", "\x7b\x7b x", "y \x7d\x7d", true⟩
  have apart : IsEmpty (Occurrence
      (SetCommand.header ⟨"T", "\x7b\x7b x", "y \x7d\x7d", true⟩).toList) := by
    decide +kernel
  exact ⟨joined.mpr apart _ _, list, (line _ _ _).2 _ list⟩

end Kql
