import Kql.SetCommand

/-!
The arguments of the command line. Options stand anywhere behind the name of the subcommand, each at
most once; a value follows its option as an argument of its own or stands in the same one. What does
not fit is a misuse.
-/

namespace Kql.CommandLine

/-- What is asked for. A text that is not given is to be read from the standard input. -/
inductive Request where
  | version
  | render (query params : Option String)
  | set (query params : Option String) (command : SetCommand)
  | literal (input : Option String)

inductive Opt where
  | params
  | table
  | folder
  | docstring
  | replace
  | input
deriving DecidableEq

namespace Opt

def long : Opt → String
  | params => "params"
  | table => "table"
  | folder => "folder"
  | docstring => "docstring"
  | replace => "replace"
  | input => "input"

def short? : Opt → Option Char
  | params => some 'p'
  | table => some 't'
  | folder => some 'f'
  | docstring => some 'd'
  | replace => none
  | input => some 'i'

def takesValue : Opt → Bool
  | replace => false
  | _ => true

end Opt

structure Subcommand where
  name : String
  options : List Opt
  /-- One argument that is no option is admitted. -/
  takesQuery : Bool

def Subcommand.render : Subcommand := ⟨"render", [.params], true⟩

def Subcommand.set : Subcommand :=
  ⟨"set", [.table, .folder, .docstring, .replace, .params], true⟩

def Subcommand.literal : Subcommand := ⟨"literal", [.input], false⟩

inductive Token where
  | value (text : String)
  /-- An option, and the value that stands in the same argument. -/
  | option (opt : Opt) (attached : Option String)
  | endOfOptions
deriving DecidableEq

/-- A value in the same argument as a short option, for which an equals sign may stand in front. -/
def shortValue? : List Char → Option String
  | [] => none
  | '=' :: value => some (String.ofList value)
  | value => some (String.ofList value)

/-- A long option: its name and, behind an equals sign, its value. -/
def longOption? (known : List Opt) (body : List Char) : Option Token := do
  let name := String.ofList (body.takeWhile (· != '='))
  let opt ← known.find? fun o => o.long = name
  match body.dropWhile (· != '=') with
  | [] => some (.option opt none)
  | _ :: value => if opt.takesValue then some (.option opt (some (String.ofList value))) else none

def Token.ofArgument? (known : List Opt) (argument : String) : Option Token :=
  match argument.toList with
  | ['-', '-'] => some .endOfOptions
  | '-' :: '-' :: body => longOption? known body
  | '-' :: letter :: rest => do
    let opt ← known.find? fun o => o.short? = some letter
    some (.option opt (shortValue? rest))
  | _ => some (.value argument)

/-- What was read so far: the argument that is no option, and the options with their values. -/
structure Given where
  query : Option String
  options : List (Opt × String)

namespace Given

def get? (given : Given) (opt : Opt) : Option String := given.options.lookup opt

/-- Enters an option, which must be the first of its kind. -/
def addOption? (given : Given) (opt : Opt) (value : String) : Option Given :=
  if (given.get? opt).isSome then none
  else some { given with options := (opt, value) :: given.options }

/-- Enters an argument that is no option, if one is still admitted. -/
def addQuery? (given : Given) (sub : Subcommand) (text : String) : Option Given :=
  if sub.takesQuery && given.query.isNone then some { given with query := some text } else none

end Given

/-- Reads the arguments behind `--`. -/
def readValues? (sub : Subcommand) (given : Given) (arguments : List String) : Option Given :=
  arguments.foldlM (fun given text => given.addQuery? sub text) given

def readArguments? (sub : Subcommand) (given : Given) : List String → Option Given
  | [] => some given
  | argument :: rest => do
    match ← Token.ofArgument? sub.options argument with
    | .endOfOptions => readValues? sub given rest
    | .value text => readArguments? sub (← given.addQuery? sub text) rest
    | .option opt (some value) => readArguments? sub (← given.addOption? opt value) rest
    | .option opt none =>
      if opt.takesValue then
        match rest with
        | value :: rest =>
          match Token.ofArgument? sub.options value with
          | some (.value text) => readArguments? sub (← given.addOption? opt text) rest
          | _ => none
        | [] => none
      else readArguments? sub (← given.addOption? opt "") rest

/-- The arguments as a whole; nothing if they are a misuse. -/
def Request.ofArguments? : List String → Option Request
  | "render" :: rest => do
    let given ← readArguments? .render ⟨none, []⟩ rest
    some (.render given.query (given.get? .params))
  | "set" :: rest => do
    let given ← readArguments? .set ⟨none, []⟩ rest
    let table ← given.get? .table
    some (.set given.query (given.get? .params)
      ⟨table, (given.get? .folder).getD "", (given.get? .docstring).getD "",
        (given.get? .replace).isSome⟩)
  | "literal" :: rest => do
    let given ← readArguments? .literal ⟨none, []⟩ rest
    some (.literal (given.get? .input))
  | "--version" :: _ => some .version
  | argument :: _ => if argument.toList.take 2 = ['-', 'V'] then some .version else none
  | [] => none

end Kql.CommandLine
