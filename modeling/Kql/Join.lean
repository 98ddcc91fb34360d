import Kql.Error
import Kql.Schema.Basic

/-!
The kinds of joins, the hints for running them, and the columns that come out of them.
-/

namespace Kql

inductive JoinKind where
  | inner
  | innerUnique
  | leftOuter
  | rightOuter
  | fullOuter
  | leftSemi
  | rightSemi
  | leftAnti
  | rightAnti
deriving DecidableEq

namespace JoinKind

def name : JoinKind → String
  | inner => "inner"
  | innerUnique => "innerunique"
  | leftOuter => "leftouter"
  | rightOuter => "rightouter"
  | fullOuter => "fullouter"
  | leftSemi => "leftsemi"
  | rightSemi => "rightsemi"
  | leftAnti => "leftanti"
  | rightAnti => "rightanti"

def ofName? : String → Option JoinKind
  | "inner" => some inner
  | "innerunique" => some innerUnique
  | "left" | "leftouter" => some leftOuter
  | "right" | "rightouter" => some rightOuter
  | "full" | "fullouter" => some fullOuter
  | "leftsemi" => some leftSemi
  | "rightsemi" => some rightSemi
  | "leftanti" => some leftAnti
  | "rightanti" => some rightAnti
  | _ => none

/-- The kind of a name, or the complaint that there is none. -/
def named (name : String) : Except Error JoinKind :=
  match ofName? name with
  | some kind => .ok kind
  | none => .error (.unknownJoinKind name)

def keepsLeft : JoinKind → Bool
  | rightSemi | rightAnti => false
  | _ => true

def keepsRight : JoinKind → Bool
  | leftSemi | rightSemi | leftAnti | rightAnti => false
  | _ => true

end JoinKind

/-- How the engine is asked to distribute a join. -/
inductive JoinStrategy where
  | broadcast
  | shuffle
deriving DecidableEq

namespace JoinStrategy

def name : JoinStrategy → String
  | broadcast => "broadcast"
  | shuffle => "shuffle"

def ofHint? : String → Option JoinStrategy
  | "broadcast" => some broadcast
  | "shuffle" => some shuffle
  | _ => none

end JoinStrategy

namespace Schema

/-- Adds a column of the right side of a join. When its name is taken it is renamed with a `1` at
the end. -/
def insertJoined (s : Schema) (c : Column) : Schema :=
  if s.contains c.name then s.insert (c.renamed (c.name ++ "1")) else s.insert c

/-- The columns that come out of a join: those of the kept sides, the left side first. The result is
open when a kept side is. -/
def join (kind : JoinKind) (left right : Schema) : Schema :=
  let kept := if kind.keepsLeft then left else empty
  if kind.keepsRight then
    let both := right.columns.foldl insertJoined kept
    if right.isOpen then both.opened else both
  else kept

end Schema
end Kql
