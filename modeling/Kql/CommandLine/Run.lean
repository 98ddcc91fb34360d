import Kql.CommandLine.Arguments
import Kql.CommandLine.Basic

/-!
A run of the program, from its arguments and its standard input to its output.
-/

namespace Kql.CommandLine

structure Outcome where
  code : UInt32
  stdout : String
  stderr : String
deriving DecidableEq

def Request.needsInput : Request → Bool
  | .render none _ | .set none _ _ | .literal none => true
  | _ => false

variable {φ : Type}

/-- A text given as an argument, or else the standard input without the white space at its end. A
terminal, `none`, gives nothing. -/
def readInput (given : Option String) (stdin : Option ByteArray) : Except (Failure φ) String :=
  match given, stdin with
  | some text, _ => .ok text
  | none, none => .error .noInput
  | none, some bytes =>
    match String.fromUTF8? bytes with
    | some text => .ok (Text.trimEnd text)
    | none => .error (.io "stream did not contain valid UTF-8")

variable (explain : String → Json.Fault → φ)

def Request.answer (stdin : Option ByteArray) : Request → Except (Failure φ) String
  | .version => .ok "kusto 0.2.0"
  | .render query params => do CommandLine.render explain ⟨← readInput query stdin, params⟩
  | .set query params command => do
    CommandLine.set explain ⟨← readInput query stdin, params⟩ command
  | .literal input => do CommandLine.literal explain (← readInput input stdin)

/-- A misuse is answered with `usage`, whatever text whoever reads the arguments has for it. -/
def run [ToString φ] (usage : String) (request : Option Request) (stdin : Option ByteArray) :
    Outcome :=
  match request with
  | none => ⟨2, "", usage ++ "\n"⟩
  | some request =>
    match request.answer explain stdin with
    | .ok text => ⟨0, text ++ "\n", ""⟩
    | .error failure => ⟨1, "", failure.message ++ "\n"⟩

end Kql.CommandLine
