import Kql.Summarize
import Kql.Pipeline.Builders
import Mathlib.Data.List.Basic

/-!
What a sequence of calls makes of a `summarize` clause. Every part of the clause comes from the calls of
one kind, and from them in their order, so calls of different kinds can change places. The hints come
from three of the kinds: keys to shuffle by count more than the strategy, and the number of partitions
is told only together with one of them.
-/

namespace Kql.Summarize

namespace Call

inductive Kind where
  | aggregate
  | aggregateAs
  | groupBy
  | shuffle
  | shuffleBy
  | partitionInto
deriving DecidableEq

def kind : Call → Kind
  | aggregate _ => .aggregate
  | aggregateAs _ _ => .aggregateAs
  | groupBy _ => .groupBy
  | shuffle _ => .shuffle
  | shuffleBy _ => .shuffleBy
  | partitionInto _ => .partitionInto

/-! What a call of each kind brings. -/

def aggregate? : Call → Option (String × Expr)
  | aggregate e => some (e.defaultName, e)
  | _ => none

def aggregateAs? : Call → Option (String × Expr)
  | aggregateAs name e => some (name, e)
  | _ => none

def groupBy? : Call → Option (List String)
  | groupBy names => some names
  | _ => none

def shuffle? : Call → Option Bool
  | shuffle shuffled => some shuffled
  | _ => none

def shuffleBy? : Call → Option (List String)
  | shuffleBy names => some names
  | _ => none

def partitionInto? : Call → Option UInt32
  | partitionInto n => some n
  | _ => none

end Call

/-- The calls of one kind, in their order. -/
def ofKind (kind : Call.Kind) (calls : List Call) : List Call :=
  calls.filter fun call => call.kind = kind

/-- The last answer to whether the rows are to be shuffled, which is no if there is none. -/
def lastShuffle (calls : List Call) : Bool := (calls.filterMap Call.shuffle?).getLast?.getD false

/-- The keys of all calls, one call after another. -/
def allShuffleKeys (calls : List Call) : List String := (calls.filterMap Call.shuffleBy?).flatten

def lastPartitions (calls : List Call) : Option UInt32 :=
  (calls.filterMap Call.partitionInto?).getLast?

/-! ## Runs of calls -/

theorem foldl_perform_eq (s : Summarize) (calls : List Call) :
    calls.foldl perform s =
      { unnamed := Keyed.putAll Prod.fst (calls.filterMap Call.aggregate?) s.unnamed
        named := Keyed.putAll Prod.fst (calls.filterMap Call.aggregateAs?) s.named
        groupKeys := s.groupKeys ++ (calls.filterMap Call.groupBy?).flatten
        shuffled := (calls.filterMap Call.shuffle?).getLast?.getD s.shuffled
        shuffleKeys := s.shuffleKeys ++ allShuffleKeys calls
        partitions := (lastPartitions calls).or s.partitions } := by
  induction calls generalizing s with
  | nil =>
      rw [mk.injEq]
      exact ⟨rfl, rfl, (List.append_nil _).symm, rfl, (List.append_nil _).symm, rfl⟩
  | cons call rest ih =>
      rw [List.foldl_cons, ih]
      cases call with
      | aggregate _ | aggregateAs _ _ => rfl
      | groupBy names =>
          rw [mk.injEq]
          exact ⟨rfl, rfl, List.append_assoc _ _ _, rfl, rfl, rfl⟩
      | shuffle shuffled =>
          have last : (shuffled :: rest.filterMap Call.shuffle?).getLast? =
              some ((rest.filterMap Call.shuffle?).getLast?.getD shuffled) := List.getLast?_cons
          rw [mk.injEq]
          exact ⟨rfl, rfl, rfl, congrArg (Option.getD · s.shuffled) last.symm, rfl, rfl⟩
      | shuffleBy names =>
          rw [mk.injEq]
          exact ⟨rfl, rfl, rfl, rfl, List.append_assoc _ _ _, rfl⟩
      | partitionInto n =>
          have last : (n :: rest.filterMap Call.partitionInto?).getLast? =
              some ((lastPartitions rest).getD n) := List.getLast?_cons
          have none : (lastPartitions rest).or (some n) = some ((lastPartitions rest).getD n) := by
            cases lastPartitions rest <;> rfl
          rw [mk.injEq]
          exact ⟨rfl, rfl, rfl, rfl, rfl, none.trans (congrArg (Option.or · s.partitions) last.symm)⟩

theorem ofCalls_eq (calls : List Call) :
    ofCalls calls =
      { unnamed := Keyed.putAll Prod.fst (calls.filterMap Call.aggregate?) []
        named := Keyed.putAll Prod.fst (calls.filterMap Call.aggregateAs?) []
        groupKeys := (calls.filterMap Call.groupBy?).flatten
        shuffled := lastShuffle calls
        shuffleKeys := allShuffleKeys calls
        partitions := lastPartitions calls } := by
  rw [ofCalls, foldl_perform_eq, mk.injEq]
  exact ⟨rfl, rfl, rfl, rfl, rfl, Option.or_none⟩

/-- What only calls of one kind bring does not hang on the others. -/
theorem filterMap_ofKind {α : Type} {select : Call → Option α} {kind : Call.Kind}
    (h : ∀ call, (select call).isSome = true → call.kind = kind) (calls : List Call) :
    (ofKind kind calls).filterMap select = calls.filterMap select := by
  rw [ofKind, List.filterMap_filter]
  refine List.filterMap_congr fun call _ => ?_
  cases hc : select call with
  | none => exact ite_self none
  | some a => exact if_pos (decide_eq_true (h call (by rw [hc, Option.isSome_some])))

theorem ofCalls_congr {calls calls' : List Call} (h : ∀ kind, ofKind kind calls = ofKind kind calls') :
    ofCalls calls = ofCalls calls' := by
  have same {α : Type} {select : Call → Option α} (kind : Call.Kind)
      (hselect : ∀ call, (select call).isSome = true → call.kind = kind) :
      calls.filterMap select = calls'.filterMap select := by
    rw [← filterMap_ofKind hselect calls, h kind, filterMap_ofKind hselect calls']
  have unnamed : calls.filterMap Call.aggregate? = calls'.filterMap Call.aggregate? :=
    same .aggregate fun call h => by cases call <;> cases h; rfl
  have named : calls.filterMap Call.aggregateAs? = calls'.filterMap Call.aggregateAs? :=
    same .aggregateAs fun call h => by cases call <;> cases h; rfl
  have groups : calls.filterMap Call.groupBy? = calls'.filterMap Call.groupBy? :=
    same .groupBy fun call h => by cases call <;> cases h; rfl
  have shuffled : calls.filterMap Call.shuffle? = calls'.filterMap Call.shuffle? :=
    same .shuffle fun call h => by cases call <;> cases h; rfl
  have keys : calls.filterMap Call.shuffleBy? = calls'.filterMap Call.shuffleBy? :=
    same .shuffleBy fun call h => by cases call <;> cases h; rfl
  have partitions : calls.filterMap Call.partitionInto? = calls'.filterMap Call.partitionInto? :=
    same .partitionInto fun call h => by cases call <;> cases h; rfl
  simp only [ofCalls_eq, lastShuffle, allShuffleKeys, lastPartitions, unnamed, named, groups, shuffled,
    keys, partitions]

/-! ## Hints -/

inductive Hint where
  | shuffleKeys (names : List String)
  | shuffleStrategy
  | partitions (n : UInt32)

def Hint.text : Hint → String
  | shuffleKeys names => " hint.shufflekey=" ++ ", ".intercalate names
  | shuffleStrategy => " hint.strategy=shuffle"
  | partitions n => " hint.num_partitions=" ++ n.toNat.repr

/-- The hints for an answer to whether to shuffle, keys to shuffle by and a number of partitions. -/
def hintsFor (shuffled : Bool) (keys : List String) (count : Option UInt32) : List Hint :=
  if keys ≠ [] then .shuffleKeys keys :: count.toList.map .partitions
  else if shuffled then .shuffleStrategy :: count.toList.map .partitions
  else []

theorem join_partitions (count : Option UInt32) :
    String.join ((count.toList.map Hint.partitions).map Hint.text) =
      count.elim "" fun n => " hint.num_partitions=" ++ n.toNat.repr := by
  cases count with
  | none => rfl
  | some n => exact String.empty_append

theorem hints_eq (s : Summarize) :
    s.hints = String.join ((hintsFor s.shuffled s.shuffleKeys s.partitions).map Hint.text) := by
  rw [hints, hintsFor]
  by_cases hk : s.shuffleKeys = []
  · rw [if_neg (not_not.mpr hk), if_neg (not_not.mpr hk)]
    cases s.shuffled with
    | true =>
        rw [if_pos rfl, if_pos rfl, List.map_cons, String.join_cons, join_partitions]
        cases s.partitions <;> rfl
    | false => rfl
  · rw [if_pos hk, if_pos hk, List.map_cons, String.join_cons, join_partitions]
    cases s.partitions <;> rfl

/-- The hints stand behind the word `summarize`, before the aggregates and the keys to group by. -/
theorem render_eq (s : Summarize) :
    s.render = "| summarize" ++
      String.join ((hintsFor s.shuffled s.shuffleKeys s.partitions).map Hint.text) ++
      (if assignmentTexts s.aggregates = [] then ""
        else "\n\t" ++ ",\n\t".intercalate (assignmentTexts s.aggregates)) ++
      (if s.groupKeys = [] then "" else "\n\tby " ++ ", ".intercalate s.groupKeys) := by
  rewrite [← hints_eq, render]
  rfl

section

variable {shuffled : Bool} {keys : List String} {count : Option UInt32}

theorem shuffleKeys_mem_hintsFor {names : List String} :
    .shuffleKeys names ∈ hintsFor shuffled keys count ↔ names = keys ∧ keys ≠ [] := by
  unfold hintsFor
  by_cases hk : keys = []
  · cases shuffled <;> simp [hk]
  · simp [hk]

theorem shuffleStrategy_mem_hintsFor :
    .shuffleStrategy ∈ hintsFor shuffled keys count ↔ shuffled = true ∧ keys = [] := by
  unfold hintsFor
  by_cases hk : keys = []
  · cases shuffled <;> simp [hk]
  · simp [hk]

theorem partitions_mem_hintsFor {n : UInt32} :
    .partitions n ∈ hintsFor shuffled keys count ↔
      count = some n ∧ (shuffled = true ∨ keys ≠ []) := by
  unfold hintsFor
  by_cases hk : keys = []
  · cases shuffled <;> simp [hk]
  · simp [hk]

end

/-- The hints that a sequence of calls leads to. -/
def hintsOf (calls : List Call) : List Hint :=
  hintsFor (lastShuffle calls) (allShuffleKeys calls) (lastPartitions calls)

theorem hintsFor_ofCalls (calls : List Call) :
    hintsFor (ofCalls calls).shuffled (ofCalls calls).shuffleKeys (ofCalls calls).partitions =
      hintsOf calls := by
  rw [ofCalls_eq, hintsOf]

/-- Calls of different kinds can change places: the clause is the same, and so is every pipeline that it
is added to. The hints stand behind the word `summarize`, and hang on the last answer to whether to
shuffle, on all keys to shuffle by, and on the last number of partitions. Keys are told whatever the
answer, the strategy only without keys, and the number of partitions only together with one of them. -/
theorem calls_commute {calls calls' : List Call}
    (h : ∀ kind, ofKind kind calls = ofKind kind calls') :
    (ofCalls calls).render = (ofCalls calls').render ∧
      (∀ p : Pipeline, p.summarize (ofCalls calls) = p.summarize (ofCalls calls')) ∧
      (ofCalls calls).render = "| summarize" ++ String.join ((hintsOf calls).map Hint.text) ++
        (if assignmentTexts (ofCalls calls).aggregates = [] then ""
          else "\n\t" ++ ",\n\t".intercalate (assignmentTexts (ofCalls calls).aggregates)) ++
        (if (ofCalls calls).groupKeys = [] then ""
          else "\n\tby " ++ ", ".intercalate (ofCalls calls).groupKeys) ∧
      (∀ names, .shuffleKeys names ∈ hintsOf calls ↔
        names = allShuffleKeys calls ∧ allShuffleKeys calls ≠ []) ∧
      (.shuffleStrategy ∈ hintsOf calls ↔ lastShuffle calls = true ∧ allShuffleKeys calls = []) ∧
      ∀ n, .partitions n ∈ hintsOf calls ↔
        lastPartitions calls = some n ∧ (lastShuffle calls = true ∨ allShuffleKeys calls ≠ []) := by
  have same := ofCalls_congr h
  refine ⟨congrArg render same, fun p => congrArg p.summarize same, ?_,
    fun _ => shuffleKeys_mem_hintsFor, shuffleStrategy_mem_hintsFor, fun _ => partitions_mem_hintsFor⟩
  rw [render_eq, hintsFor_ofCalls]

/-- The keys stay although shuffling is taken back behind them, and so does the number of partitions. -/
theorem shuffleKeys_commute :
    ∃ calls calls',
      calls = [.shuffle true, .aggregate (Column.sum ⟨"a", .long⟩), .shuffleBy ["k"],
        .partitionInto 4, .shuffle false, .groupBy ["k"], .aggregateAs "sum_a" .count] ∧
      calls' = [.aggregateAs "sum_a" .count, .groupBy ["k"], .partitionInto 4, .shuffle true,
        .shuffle false, .shuffleBy ["k"], .aggregate (Column.sum ⟨"a", .long⟩)] ∧
      (∀ kind, ofKind kind calls = ofKind kind calls') ∧
      (ofCalls calls).render = (ofCalls calls').render ∧
      (ofCalls calls).render =
        "| summarize hint.shufflekey=k hint.num_partitions=4\n\tsum_a=count()\n\tby k" := by
  obtain ⟨calls, hcalls⟩ : ∃ calls : List Call,
      calls = [.shuffle true, .aggregate (Column.sum ⟨"a", .long⟩), .shuffleBy ["k"],
        .partitionInto 4, .shuffle false, .groupBy ["k"], .aggregateAs "sum_a" .count] := ⟨_, rfl⟩
  obtain ⟨calls', hcalls'⟩ : ∃ calls' : List Call,
      calls' = [.aggregateAs "sum_a" .count, .groupBy ["k"], .partitionInto 4, .shuffle true,
        .shuffle false, .shuffleBy ["k"], .aggregate (Column.sum ⟨"a", .long⟩)] := ⟨_, rfl⟩
  have interleaved (kind : Call.Kind) : ofKind kind calls = ofKind kind calls' := by
    rw [hcalls, hcalls']
    cases kind <;> rfl
  obtain ⟨rendered, -, text, -⟩ := calls_commute interleaved
  refine ⟨calls, calls', hcalls, hcalls', interleaved, rendered, text.trans ?_⟩
  rw [hcalls]
  decide +kernel

end Kql.Summarize
