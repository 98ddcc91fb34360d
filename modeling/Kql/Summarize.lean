import Kql.Expr.Builders
import Kql.Keyed

/-!
The `summarize` clause: aggregates over groups of rows. It is put together by calls. An aggregate
without a name gets one from its expression; the last aggregate of a name counts, and one that was
named counts more than one that was not.
-/

namespace Kql

structure Summarize where
  /-- Aggregates under the names that their expressions give them. -/
  unnamed : List (String × Expr)
  named : List (String × Expr)
  groupKeys : List String
  shuffled : Bool
  shuffleKeys : List String
  partitions : Option UInt32

namespace Summarize

def empty : Summarize := ⟨[], [], [], false, [], none⟩

instance : EmptyCollection Summarize := ⟨empty⟩

def aggregate (s : Summarize) (e : Expr) : Summarize :=
  { s with unnamed := Keyed.put Prod.fst (e.defaultName, e) s.unnamed }

def aggregateAs (s : Summarize) (name : String) (e : Expr) : Summarize :=
  { s with named := Keyed.put Prod.fst (name, e) s.named }

def groupBy (s : Summarize) (names : List String) : Summarize :=
  { s with groupKeys := s.groupKeys ++ names }

/-- Asks for the shuffle strategy, or takes that back. -/
def shuffle (s : Summarize) (shuffled : Bool) : Summarize := { s with shuffled }

def shuffleBy (s : Summarize) (names : List String) : Summarize :=
  { s with shuffleKeys := s.shuffleKeys ++ names }

def partitionInto (s : Summarize) (n : UInt32) : Summarize := { s with partitions := some n }

inductive Call where
  | aggregate (e : Expr)
  | aggregateAs (name : String) (e : Expr)
  | groupBy (names : List String)
  | shuffle (shuffled : Bool)
  | shuffleBy (names : List String)
  | partitionInto (n : UInt32)

def perform (s : Summarize) : Call → Summarize
  | .aggregate e => s.aggregate e
  | .aggregateAs name e => s.aggregateAs name e
  | .groupBy names => s.groupBy names
  | .shuffle shuffled => s.shuffle shuffled
  | .shuffleBy names => s.shuffleBy names
  | .partitionInto n => s.partitionInto n

/-- The clause that the calls make, the first one first. -/
def ofCalls (calls : List Call) : Summarize := calls.foldl perform ∅

/-- All aggregates. A named one takes the place of an unnamed one with its name. -/
def aggregates (s : Summarize) : List (String × Expr) := Keyed.putAll Prod.fst s.named s.unnamed

/-- The hints that stand behind the word `summarize`. The number of partitions is written only
together with another hint. -/
def hints (s : Summarize) : String :=
  let partitions := match s.partitions with
    | some n => " hint.num_partitions=" ++ n.toNat.repr
    | none => ""
  if s.shuffleKeys ≠ [] then " hint.shufflekey=" ++ ", ".intercalate s.shuffleKeys ++ partitions
  else if s.shuffled then " hint.strategy=shuffle" ++ partitions
  else ""

def render (s : Summarize) : String :=
  let aggregates := s.aggregates.map fun (name, e) => name ++ "=" ++ e.render
  "| summarize" ++ s.hints
    ++ (if aggregates = [] then "" else "\n\t" ++ ",\n\t".intercalate aggregates)
    ++ (if s.groupKeys = [] then "" else "\n\tby " ++ ", ".intercalate s.groupKeys)

end Summarize
end Kql
