import Kql.Proofs.KeyedEntries
import Kql.Proofs.SummarizeCalls
import Kql.Proofs.Tokens

/-!
The names that aggregates of columns get by themselves. Such a name is that of the function, an
underscore, and that of the column, as long as the column has a name of letters, digits and underscores.
No function has an underscore in its name, so the first one tells where the name of the column begins.
Different functions and columns therefore give different names, and no aggregate takes the place of
another.
-/

namespace Kql

open Text

namespace Operator

variable {op op' : Operator}

/-- Aggregate functions have names of letters. -/
theorem symbol_of_isAggregate (h : op.isAggregate = true) :
    ∀ c ∈ op.symbol.toList, isNameChar c = true ∧ c ≠ '_' := by
  have all : (op.symbol.toList.all fun c => isNameChar c && c != '_') = true := by
    revert h
    cases op <;> decide
  simpa using all

theorem eq_of_symbol_eq (h : op.isAggregate = true) (h' : op'.isAggregate = true)
    (same : op.symbol = op'.symbol) : op = op' := by
  revert h h' same
  cases op <;> first
    | exact fun h => absurd h (by decide)
    | cases op' <;> decide

end Operator

theorem Expr.nameOf_eq_self {text : String} (h : ∀ c ∈ text.toList, isNameChar c = true) :
    nameOf text = text := by
  have same : text.toList.map (fun c => if isAlphanumeric c || c == '_' then c else '_') =
      text.toList :=
    (List.map_congr_left fun c hc => if_pos (h c hc)).trans (List.map_id _)
  rw [nameOf, same, String.ofList_toList]

namespace Summarize

/-- The aggregate functions of one column. -/
inductive ColumnFunction where
  | sum
  | avg
  | min
  | max
  | dcount (accuracy : Int64)

namespace ColumnFunction

def operator : ColumnFunction → Operator
  | sum => .sum
  | avg => .avg
  | min => .min
  | max => .max
  | dcount _ => .dcount

def ofColumn (c : Column) : ColumnFunction → Expr
  | sum => c.sum
  | avg => c.avg
  | min => c.min
  | max => c.max
  | dcount accuracy => c.dcountWith accuracy

theorem isAggregate_operator (f : ColumnFunction) : f.operator.isAggregate = true := by
  cases f <;> rfl

end ColumnFunction

structure ColumnAggregate where
  function : ColumnFunction
  column : Column

namespace ColumnAggregate

def expr (a : ColumnAggregate) : Expr := a.function.ofColumn a.column

/-- What is aggregated, and how. The type of the column and the accuracy of a count do not belong to
it. -/
def subject (a : ColumnAggregate) : Operator × String := (a.function.operator, a.column.name)

/-- The name of the column is made of letters and digits, of any script, and underscores. -/
def isNamed (a : ColumnAggregate) : Bool := a.column.name.toList.all isNameChar

def label (a : ColumnAggregate) : String := a.function.operator.symbol ++ "_" ++ a.column.name

variable {a b : ColumnAggregate}

theorem toList_label (a : ColumnAggregate) :
    a.label.toList = a.function.operator.symbol.toList ++ '_' :: a.column.name.toList := by
  simp only [label, String.toList_append, String.reduceToList, List.append_assoc, List.singleton_append]

theorem symbol_chars (a : ColumnAggregate) :
    ∀ c ∈ a.function.operator.symbol.toList, isNameChar c = true ∧ c ≠ '_' :=
  Operator.symbol_of_isAggregate a.function.isAggregate_operator

theorem defaultName_expr (h : a.isNamed = true) : a.expr.defaultName = a.label := by
  have name : a.expr.defaultName = Expr.nameOf a.label := by
    obtain ⟨function, c⟩ := a
    cases function <;> rfl
  rw [name]
  apply Expr.nameOf_eq_self
  rw [toList_label, List.forall_mem_append, List.forall_mem_cons]
  exact ⟨fun c hc => (a.symbol_chars c hc).1, by decide, List.all_eq_true.mp h⟩

/-- The symbol is what stands in front of the first underscore. -/
theorem span_label (a : ColumnAggregate) :
    a.label.toList.takeWhile (· ≠ '_') = a.function.operator.symbol.toList ∧
      a.label.toList.dropWhile (· ≠ '_') = '_' :: a.column.name.toList := by
  rw [toList_label]
  refine takeWhile_append_of_ends (fun c hc => ?_) (ends_cons (by decide) _)
  exact decide_eq_true (a.symbol_chars c hc).2

theorem label_eq_iff : a.label = b.label ↔ a.subject = b.subject := by
  constructor
  · intro same
    obtain ⟨symbol, name⟩ := a.span_label
    obtain ⟨symbol', name'⟩ := b.span_label
    rw [same] at symbol name
    have symbols := String.toList_inj.mp (symbol.symm.trans symbol')
    have names := String.toList_inj.mp (List.cons.inj (name.symm.trans name')).2
    have operators := Operator.eq_of_symbol_eq a.function.isAggregate_operator
      b.function.isAggregate_operator symbols
    rw [subject, subject, operators, names]
  · intro same
    obtain ⟨operators, names⟩ := Prod.mk.inj same
    rw [label, label, operators, names]

theorem nodup_label_iff {given : List ColumnAggregate} :
    (given.map label).Nodup ↔ (given.map subject).Nodup := by
  rw [List.Nodup, List.Nodup, List.pairwise_map, List.pairwise_map]
  exact List.Pairwise.iff_of_mem fun _ _ => not_congr label_eq_iff

end ColumnAggregate

/-- What is given without names is kept whole exactly when no two expressions give the same name. -/
theorem aggregates_ofCalls_aggregate_iff (es : List Expr) :
    (ofCalls (es.map .aggregate)).aggregates = es.map (fun e => (e.defaultName, e)) ↔
      (es.map Expr.defaultName).Nodup := by
  have unnamed : (es.map Call.aggregate).filterMap Call.aggregate? =
      es.map fun e => (e.defaultName, e) := by
    rw [List.filterMap_map]
    exact congrFun List.filterMap_eq_map es
  have named : (es.map Call.aggregate).filterMap Call.aggregateAs? = [] := by
    rw [List.filterMap_map]
    exact List.filterMap_eq_nil_iff.mpr fun _ _ => rfl
  have names : (es.map fun e => (e.defaultName, e)).map Prod.fst = es.map Expr.defaultName :=
    List.map_map
  rw [aggregates, ofCalls_eq, unnamed, named, ← names]
  exact Keyed.putAll_eq_append_iff (l := []) List.nodup_nil

/-- Each aggregate gets the name of its function, an underscore and the name of its column, and no two
get the same name but those of one function and one column. So all are kept, in the order in which they
were given, exactly when no column is given twice to the same function. -/
theorem column_aggregates_kept {given : List ColumnAggregate} (named : ∀ a ∈ given, a.isNamed = true) :
    (∀ a ∈ given, a.expr.defaultName = a.function.operator.symbol ++ "_" ++ a.column.name) ∧
      (∀ a ∈ given, ∀ b ∈ given, a.expr.defaultName = b.expr.defaultName ↔ a.subject = b.subject) ∧
      ((ofCalls (given.map fun a => .aggregate a.expr)).aggregates =
          given.map (fun a => (a.function.operator.symbol ++ "_" ++ a.column.name, a.expr)) ↔
        (given.map ColumnAggregate.subject).Nodup) := by
  have names (a) (ha : a ∈ given) : a.expr.defaultName = a.label :=
    ColumnAggregate.defaultName_expr (named a ha)
  refine ⟨names, fun a ha b hb => ?_, ?_⟩
  · rw [names a ha, names b hb, ColumnAggregate.label_eq_iff]
  · have kept := aggregates_ofCalls_aggregate_iff (given.map ColumnAggregate.expr)
    have entries : given.map ((fun e => (e.defaultName, e)) ∘ ColumnAggregate.expr) =
        given.map fun a => (a.label, a.expr) :=
      List.map_congr_left fun a ha => congrArg (·, a.expr) (names a ha)
    have labels : given.map (Expr.defaultName ∘ ColumnAggregate.expr) =
        given.map ColumnAggregate.label :=
      List.map_congr_left names
    rw [List.map_map, List.map_map, List.map_map, entries, labels,
      ColumnAggregate.nodup_label_iff] at kept
    exact kept

/-- The name `sum_x` is taken by the sum of `x`, and the sum of the column `sum_x` has another one. -/
theorem column_aggregates_kept_of_likeNamed :
    ∃ given : List ColumnAggregate,
      given = [⟨.sum, ⟨"x", .long⟩⟩, ⟨.dcount 4, ⟨"x", .long⟩⟩, ⟨.sum, ⟨"sum_x", .real⟩⟩] ∧
      (∀ a ∈ given, a.isNamed = true) ∧ (given.map ColumnAggregate.subject).Nodup ∧
      (ofCalls (given.map fun a => .aggregate a.expr)).aggregates =
        [("sum_x", Column.sum ⟨"x", .long⟩), ("dcount_x", Column.dcountWith ⟨"x", .long⟩ 4),
          ("sum_sum_x", Column.sum ⟨"sum_x", .real⟩)] := by
  obtain ⟨given, hgiven⟩ : ∃ given : List ColumnAggregate,
      given = [⟨.sum, ⟨"x", .long⟩⟩, ⟨.dcount 4, ⟨"x", .long⟩⟩, ⟨.sum, ⟨"sum_x", .real⟩⟩] := ⟨_, rfl⟩
  have named : ∀ a ∈ given, a.isNamed = true := by
    rw [hgiven, ← List.all_eq_true]
    decide
  have distinct : (given.map ColumnAggregate.subject).Nodup := by
    rw [hgiven]
    decide
  obtain ⟨-, -, kept⟩ := column_aggregates_kept named
  refine ⟨given, hgiven, named, distinct, (kept.mpr distinct).trans ?_⟩
  rw [hgiven]
  rfl

end Summarize
end Kql
