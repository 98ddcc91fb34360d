import Kql.Json.Reader
import Kql.SetCommand

/-!
The three jobs of the command line on texts: rendering a template, wrapping it in a set command, and
turning JSON into a literal. A text that is not JSON is told about in the words of whoever reads it:
`explain` makes an error, of any type, out of the text and its fault, and the error is handed on.
-/

namespace Kql.CommandLine

/-- The error of a text that is not JSON is a `φ`. -/
inductive Failure (φ : Type) where
  | query (error : Error)
  | invalidJson (error : φ)
  /-- The parameters are JSON, but no object. -/
  | invalidParams (got : String)
  | io (text : String)
  | noInput

namespace Failure

variable {φ : Type} [ToString φ]

def message : Failure φ → String
  | query error => error.message
  | invalidJson error => "Invalid JSON: " ++ toString error
  | invalidParams got => "Parameters must be a JSON object, got: " ++ got
  | io text => "IO error: " ++ text
  | noInput => "No input provided. Pass it as an argument or pipe it to stdin."

/-- The message of the error behind this one, if there is one. -/
def cause? : Failure φ → Option String
  | query error => some error.message
  | invalidJson error => some (toString error)
  | io text => some text
  | invalidParams _ | noInput => none

end Failure

variable {φ : Type}

/-- Faults of a template are faults of the query. -/
def ofRendering (rendered : Except TemplateError String) : Except (Failure φ) String :=
  rendered.mapError fun cause => .query (.template cause)

structure RenderOptions where
  query : String
  params : Option String

variable (explain : String → Json.Fault → φ)

def readJson (text : String) : Except (Failure φ) Json :=
  (Json.read text).mapError fun fault => .invalidJson (explain text fault)

theorem readJson_eq_ok {text : String} {j : Json} (h : Json.read text = .ok j) :
    readJson explain text = .ok j := by
  rw [readJson, h]
  rfl

/-- The parameters in a JSON text. Without a text there are none. -/
def readParams : Option String → Except (Failure φ) Params
  | none => .ok []
  | some text => do
    match ← readJson explain text with
    | .object fields => .ok fields
    | other => .error (.invalidParams other.print)

def render (options : RenderOptions) : Except (Failure φ) String := do
  let params ← readParams explain options.params
  ofRendering (Template.render options.query params)

def set (options : RenderOptions) (command : SetCommand) : Except (Failure φ) String := do
  let params ← readParams explain options.params
  ofRendering (command.render options.query params)

/-- The literal of a JSON text, as code. -/
def literal (text : String) : Except (Failure φ) String := do
  return (Literal.ofJson (← readJson explain text)).render

end Kql.CommandLine
