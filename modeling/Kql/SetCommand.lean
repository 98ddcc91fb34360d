import Kql.Template

/-!
Commands that store the result of a query in a table.
-/

namespace Kql

structure SetCommand where
  table : String
  folder : String
  docstring : String
  /-- The table is replaced instead of appended to. -/
  replace : Bool
deriving DecidableEq

namespace SetCommand

/-- What stands in front of the query. Nothing in it is escaped. -/
def header (c : SetCommand) : String :=
  ".set-or-" ++ (if c.replace then "replace" else "append") ++ " " ++ c.table
    ++ "\nwith (\nfolder = \"" ++ c.folder ++ "\",\ndocstring = \"" ++ c.docstring ++ "\",\n)\n<|\n"

/-- The command with the query that the template makes of the parameters. -/
def render (c : SetCommand) (template : String) (params : Params) :
    Except TemplateError String := do
  return c.header ++ (← Template.render template params)

end SetCommand
end Kql
