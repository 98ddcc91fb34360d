import Kql.Error
import Kql.Literal.OfJson
import Kql.Literal.Render

/-!
Query templates. A placeholder is a name between two pairs of braces, with white space around it if
wanted. Rendering puts the text of a parameter in the place of each placeholder; what was put in is
not read again.
-/

namespace Kql

abbrev Params := List (String × Json)

inductive Piece where
  | char (c : Char)
  | placeholder (name : String)
deriving DecidableEq

namespace Template

def isNameStart (c : Char) : Bool := c.isAlpha || c == '_'

def isNameChar (c : Char) : Bool := c.isAlphanum || c == '_'

/-- The name in a placeholder at the start of the text, and the text behind the placeholder. -/
def placeholder? (cs : List Char) : Option (String × List Char) :=
  match cs with
  | '{' :: '{' :: inner =>
    match inner.dropWhile Text.isBlank with
    | [] => none
    | first :: more =>
      if isNameStart first then
        match (more.dropWhile isNameChar).dropWhile Text.isBlank with
        | '}' :: '}' :: rest => some (String.ofList (first :: more.takeWhile isNameChar), rest)
        | _ => none
      else none
  | _ => none

theorem length_of_placeholder?_eq_some {cs rest : List Char} {name : String}
    (h : placeholder? cs = some (name, rest)) : rest.length < cs.length := by
  unfold placeholder? at h
  split at h
  · next inner =>
    split at h
    · simp at h
    · next first more hm =>
      split at h
      · split at h
        · next rest' hr =>
          simp only [Option.some.injEq, Prod.mk.injEq] at h
          have h₁ := (List.dropWhile_suffix Text.isBlank (l := inner)).length_le
          have h₂ := (List.dropWhile_suffix isNameChar (l := more)).length_le
          have h₃ := (List.dropWhile_suffix Text.isBlank (l := more.dropWhile isNameChar)).length_le
          rw [hm] at h₁
          rw [hr, h.2] at h₃
          simp only [List.length_cons] at h₁ h₃ ⊢
          omega
        · simp at h
      · simp at h
  · simp at h

/-- The pieces of a text, behind those already found, which stand in reverse. The leftmost
placeholder is taken first. -/
def piecesAfter (found : List Piece) (cs : List Char) : List Piece :=
  match h : placeholder? cs with
  | some (name, rest) =>
    have := length_of_placeholder?_eq_some h
    piecesAfter (.placeholder name :: found) rest
  | none =>
    match cs with
    | [] => found.reverse
    | c :: rest => piecesAfter (.char c :: found) rest
termination_by cs.length

def pieces (template : String) : List Piece := piecesAfter [] template.toList

theorem piecesAfter_nil (found : List Piece) : piecesAfter found [] = found.reverse := by
  rw [piecesAfter]
  rfl

theorem piecesAfter_of_placeholder?_eq_some {cs rest : List Char} {name : String}
    (h : placeholder? cs = some (name, rest)) (found : List Piece) :
    piecesAfter found cs = piecesAfter (.placeholder name :: found) rest := by
  rw [piecesAfter]
  split
  · next h' =>
    rw [h] at h'
    obtain ⟨rfl, rfl⟩ := Prod.mk.inj (Option.some.inj h')
    rfl
  · next h' => rw [h] at h'; contradiction

theorem piecesAfter_of_placeholder?_eq_none {c : Char} {rest : List Char}
    (h : placeholder? (c :: rest) = none) (found : List Piece) :
    piecesAfter found (c :: rest) = piecesAfter (.char c :: found) rest := by
  rw [piecesAfter]
  split
  · next h' => rw [h] at h'; contradiction
  · rfl

theorem piecesAfter_eq_append (found : List Piece) (cs : List Char) :
    piecesAfter found cs = found.reverse ++ piecesAfter [] cs := by
  match h : placeholder? cs with
  | some (name, rest) =>
    have := length_of_placeholder?_eq_some h
    rw [piecesAfter_of_placeholder?_eq_some h, piecesAfter_of_placeholder?_eq_some h,
      piecesAfter_eq_append (.placeholder name :: found), piecesAfter_eq_append [.placeholder name]]
    simp
  | none =>
    match cs with
    | [] => simp [piecesAfter_nil]
    | c :: rest =>
      rw [piecesAfter_of_placeholder?_eq_none h, piecesAfter_of_placeholder?_eq_none h,
        piecesAfter_eq_append (.char c :: found), piecesAfter_eq_append [.char c]]
      simp
termination_by cs.length

/-- The text of a parameter: a list for an array, plain text for anything else. -/
def paramText (value : Json) : String :=
  match Literal.ofJson value with
  | .array items => Literal.renderList items
  | literal => literal.text

def pieceText (params : Params) : Piece → Except TemplateError String
  | .char c => .ok c.toString
  | .placeholder name =>
    match params.lookup name with
    | some value => .ok (paramText value)
    | none => .error (.missingParameter name)

/-- The query that a template makes of the parameters. The first parameter that is missing is the
one complained of. -/
def render (template : String) (params : Params) : Except TemplateError String := do
  return String.join (← (pieces template).mapM (pieceText params))

end Template
end Kql
