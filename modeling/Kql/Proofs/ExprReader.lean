import Kql.Proofs.ExprTokens

/-!
How a text of conditions and arithmetic is read: parentheses group, then `*`, `/` and `%` bind most
tightly, followed by `+` and `-`, by comparisons, by `and`, and last by `or`; operators that bind
alike group from the left. A tree that is grouped in this way reads back from its text, up to the
types of its columns, which the text does not show.
-/

namespace Kql

namespace Operator

def tightness : Operator → Nat
  | or => 1
  | and => 2
  | add | sub => 4
  | mul | div | mod => 5
  | _ => 3

/-- The operators that stand between their operands. -/
def between : List Operator :=
  [eq, ne, lt, le, gt, ge, contains, notContains, has, notHas, startsWith, endsWith, isIn, notIn,
    and, or, add, sub, mul, div, mod]

def ofSymbol? (symbol : String) : Option Operator := between.find? fun op => op.symbol = symbol

theorem tightness_le (op : Operator) : op.tightness ≤ 5 := by
  cases op <;> decide

theorem eq_and_or_eq_or {op : Operator} (h : op.isConnective = true) : op = and ∨ op = or := by
  revert h
  cases op <;> decide

theorem mem_between_of_isConnective {op : Operator} (h : op.isConnective = true) : op ∈ between := by
  revert h
  cases op <;> decide

theorem mem_between_of_comparison {op : Operator} (h : op.category = .comparison) : op ∈ between := by
  revert h
  cases op <;> decide

end Operator

namespace Expr

mutual

/-- The expression with all its columns dynamic, as a text shows it. -/
def untyped : Expr → Expr
  | column c => column ⟨c.name, .dynamic⟩
  | property object field => property object.untyped field
  | literal value => literal value
  | binary op left right => binary op left.untyped right.untyped
  | apply op terms aggregate => apply op (untypedTerms terms) aggregate

def untypedTerms : List Expr → List Expr
  | [] => []
  | term :: rest => term.untyped :: untypedTerms rest

end

theorem untypedTerms_eq_map (terms : List Expr) : untypedTerms terms = terms.map untyped := by
  induction terms with
  | nil => rfl
  | cons term rest ih => simp only [untypedTerms, List.map_cons, ih]

mutual

theorem render_untyped : (e : Expr) → e.untyped.render = e.render
  | column _ | literal _ => rfl
  | property object field => by simp only [untyped, render, render_untyped object]
  | binary op left right => by
      simp only [untyped, render_binary, render_untyped left, render_untyped right]
  | apply op terms aggregate => by
      simp only [untyped, render, renderTerms_untypedTerms terms]

theorem renderTerms_untypedTerms :
    (terms : List Expr) → renderTerms (untypedTerms terms) = renderTerms terms
  | [] => rfl
  | term :: rest => by
      simp only [untypedTerms, renderTerms, render_untyped term, renderTerms_untypedTerms rest]

end

def isNamed (name : String) : Expr → Bool
  | column c => c.name = name
  | _ => false

/-- How tightly the parts of the expression are held together in its text. -/
def tightness : Expr → Nat
  | binary op _ _ => op.tightness
  | _ => 6

/-- Operands that stand without parentheses bind as their places ask: more tightly than the operator,
or on its left side as tightly. -/
inductive Grouped : Expr → Prop
  | column {c : Column} : Text.isIdentifier c.name = true → Grouped (column c)
  | integer (n : Int64) : Grouped (literal (.long n))
  | string {s : String} : '\'' ∉ s.toList → Grouped (literal (.string s))
  | not {e : Expr} : Grouped e → Grouped e.not
  | binary {op : Operator} {left right : Expr} : op ∈ Operator.between →
      Grouped left → (op.isConnective = false → op.tightness ≤ left.tightness) →
      Grouped right →
      ((op.isConnective || op.isMembership) = false → op.tightness < right.tightness) →
      Grouped (binary op left right)

/-- The operands of a connective stand in parentheses, so they may be grouped in any way. -/
theorem Grouped.connective {op : Operator} {left right : Expr} (h : op.isConnective = true)
    (hl : left.Grouped) (hr : right.Grouped) : (Expr.binary op left right).Grouped := by
  refine .binary (Operator.mem_between_of_isConnective h) hl ?_ hr ?_
  · intro hc
    rw [h] at hc
    cases hc
  · intro hc
    rw [h] at hc
    cases hc

theorem Grouped.comparison {op : Operator} {left right : Expr} (h : op.category = .comparison)
    (hl : left.Grouped) (tl : left.tightness = 6) (hr : right.Grouped) (tr : right.tightness = 6) :
    (Expr.binary op left right).Grouped := by
  have bound := op.tightness_le
  exact .binary (Operator.mem_between_of_comparison h) hl (fun _ => by omega) hr
    (fun _ => by omega)

theorem Grouped.lexical {e : Expr} (h : e.Grouped) : e.Lexical := by
  induction h with
  | column h => exact .column h
  | integer n => exact .integer n
  | string h => exact .string h
  | not _ ih => exact .apply (List.forall_mem_singleton.mpr ih)
  | binary _ _ _ _ _ ihl ihr => exact .binary ihl ihr

end Expr

namespace Reading

/-- Left operands that wait for their right ones, the nearest first. -/
abbrev Pending := List (Expr × Operator)

/-- Completes the operators that bind at least as tightly as `level`. -/
def complete (level : Nat) (e : Expr) : Pending → Expr × Pending
  | [] => (e, [])
  | (left, op) :: rest =>
    if level ≤ op.tightness then complete level (.binary op left e) rest else (e, (left, op) :: rest)

/-- What is due at a place in a text. -/
inductive Due where
  | operand
  /-- The digits behind a sign. -/
  | digits
  /-- An operator, or an end, behind this operand. -/
  | operator (e : Expr)
  /-- The rest of an operator that starts with `!`. -/
  | negated (e : Expr)

structure State where
  /-- For every open parenthesis, whether `not` stands before it, and what waits outside of it. -/
  groups : List (Bool × Pending)
  pending : Pending
  due : Due

namespace State

def start : State := ⟨[], [], .operand⟩

def openGroup (s : State) (negated : Bool) : State := ⟨(negated, s.pending) :: s.groups, [], .operand⟩

def operator? (s : State) (e : Expr) (symbol : String) : Option State := do
  let op ← Operator.ofSymbol? symbol
  let (left, waiting) := complete op.tightness e s.pending
  return ⟨s.groups, (left, op) :: waiting, .operand⟩

def closeGroup? (s : State) (e : Expr) : Option State :=
  match s.groups with
  | [] => none
  | (negated, pending) :: groups =>
    let inner := (complete 0 e s.pending).1
    some ⟨groups, pending, .operator (if negated then inner.not else inner)⟩

def step (s : State) (t : Token) : Option State :=
  match s.due, t with
  | .operand, .word name => some { s with due := .operator (.column ⟨name, .dynamic⟩) }
  | .operand, .number n => some { s with due := .operator (.literal (.long (.ofInt n))) }
  | .operand, .quoted text => some { s with due := .operator (.literal (.string text)) }
  | .operand, .symbol "-" => some { s with due := .digits }
  | .operand, .mark '(' => some (s.openGroup false)
  | .digits, .number n => some { s with due := .operator (.literal (.long (.ofInt (-n)))) }
  | .operator e, .mark '(' => if e.isNamed "not" then some (s.openGroup true) else none
  | .operator e, .mark ')' => s.closeGroup? e
  | .operator e, .symbol "!" => some { s with due := .negated e }
  | .operator e, .symbol symbol | .operator e, .word symbol => s.operator? e symbol
  | .negated e, .word name => s.operator? e ("!" ++ name)
  | _, _ => none

def finish (s : State) : Option Expr :=
  match s.groups, s.due with
  | [], .operator e => some (complete 0 e s.pending).1
  | _, _ => none

end State


/-! ## Completing what waits -/

/-- What waits next binds less tightly than `level`. -/
def Looser (level : Nat) (pending : Pending) : Prop :=
  ∀ waiting ∈ pending.head?, waiting.2.tightness < level

theorem looser_nil (level : Nat) : Looser level [] := by
  intro _ h
  cases h

theorem looser_cons {level : Nat} {op : Operator} (h : op.tightness < level) (left : Expr)
    (rest : Pending) : Looser level ((left, op) :: rest) := by
  intro _ hw
  cases hw
  exact h

theorem complete_of_looser {level : Nat} {pending : Pending} (h : Looser level pending) (e : Expr) :
    complete level e pending = (e, pending) := by
  cases pending with
  | nil => rfl
  | cons waiting rest =>
      have hw : waiting.2.tightness < level := h waiting rfl
      rw [complete, if_neg (by omega)]

theorem complete_cons_of_le {level : Nat} {op : Operator} (h : level ≤ op.tightness)
    (left e : Expr) (rest : Pending) :
    complete level e ((left, op) :: rest) = complete level (.binary op left e) rest := by
  rw [complete, if_pos h]

theorem complete_complete {low high : Nat} (h : low ≤ high) (e : Expr) (pending : Pending) :
    complete low (complete high e pending).1 (complete high e pending).2 =
      complete low e pending := by
  induction pending generalizing e with
  | nil => rfl
  | cons waiting rest ih =>
      by_cases hw : high ≤ waiting.2.tightness
      · rw [complete_cons_of_le hw, ih, complete_cons_of_le (by omega)]
      · rw [complete_of_looser (looser_cons (Nat.lt_of_not_le hw) waiting.1 rest)]

/-! ## Reading the tokens of a tree -/

open State

/-- Wherever an operand is due and what waits binds less tightly than `level`, the tokens are read as
the operand `e`. -/
def ReadsAs (tokens : List Token) (level : Nat) (e : Expr) : Prop :=
  ∀ groups pending, Looser level pending → ∃ last waiting,
    tokens.foldlM step ⟨groups, pending, .operand⟩ =
        some ⟨groups, waiting, .operator last⟩ ∧
      complete level last waiting = (e, pending)

variable {tokens : List Token} {level : Nat} {e : Expr}

theorem ReadsAs.mono {low : Nat} (h : ReadsAs tokens level e) (hle : low ≤ level) :
    ReadsAs tokens low e := by
  intro groups pending hp
  have hp' : Looser level pending := fun waiting hw => Nat.lt_of_lt_of_le (hp waiting hw) hle
  obtain ⟨last, waiting, hrun, hc⟩ := h groups pending hp'
  refine ⟨last, waiting, hrun, ?_⟩
  rw [← complete_complete hle, hc]
  exact complete_of_looser hp e

theorem ReadsAs.of_run (h : ∀ groups pending, tokens.foldlM step ⟨groups, pending, .operand⟩ =
    some ⟨groups, pending, .operator e⟩) (level : Nat) : ReadsAs tokens level e :=
  fun groups pending hp => ⟨e, pending, h groups pending, complete_of_looser hp e⟩

theorem foldlM_group (h : ReadsAs tokens level e) (negated : Bool)
    (groups : List (Bool × Pending)) (pending : Pending) :
    (tokens ++ [Token.mark ')']).foldlM step ⟨(negated, pending) :: groups, [], .operand⟩ =
      some ⟨groups, pending, .operator (if negated then e.not else e)⟩ := by
  obtain ⟨last, waiting, hrun, hc⟩ := h ((negated, pending) :: groups) [] (looser_nil level)
  have whole : (complete 0 last waiting).1 = e := by
    rw [← complete_complete (Nat.zero_le level), hc]
    rfl
  rw [List.foldlM_append, hrun]
  simp only [Option.bind_eq_bind, Option.bind_some, List.foldlM_cons, List.foldlM_nil, step,
    closeGroup?, whole]
  rfl

theorem foldlM_parenthesized (h : ReadsAs tokens level e) (groups : List (Bool × Pending))
    (pending : Pending) : (parenthesized true tokens).foldlM step ⟨groups, pending, .operand⟩ =
      some ⟨groups, pending, .operator e⟩ :=
  foldlM_group h false groups pending

theorem ReadsAs.parenthesized (h : ReadsAs tokens level e) :
    ReadsAs (parenthesized true tokens) 6 e :=
  .of_run (foldlM_parenthesized h) 6

theorem readsAs_integer (n : Int64) :
    ReadsAs (integerTokens n.toInt) 6 (.literal (.long n)) := by
  apply ReadsAs.of_run
  intro groups pending
  have value := n.ofInt_toInt
  cases hn : n.toInt with
  | ofNat k =>
      rw [hn] at value
      simp only [integerTokens, List.foldlM_cons, List.foldlM_nil, step]
      rw [← value]
      rfl
  | negSucc k =>
      rw [hn] at value
      simp only [integerTokens, List.foldlM_cons, List.foldlM_nil, step]
      rw [← value]
      rfl

theorem foldlM_operator {op : Operator} (h : op ∈ Operator.between)
    (groups : List (Bool × Pending)) (pending : Pending) (e : Expr) :
    op.tokens.foldlM step ⟨groups, pending, .operator e⟩ =
      some ⟨groups, ((complete op.tightness e pending).1, op) ::
        (complete op.tightness e pending).2, .operand⟩ := by
  revert h
  cases op <;> intro h <;> first
    | exact absurd h (by decide)
    | rfl

theorem ReadsAs.operand {parens : Bool} (h : ReadsAs tokens level e) {place : Nat}
    (hp : place ≤ 6) (hl : parens = false → place ≤ level) :
    ReadsAs (Kql.parenthesized parens tokens) place e := by
  cases parens with
  | true => exact h.parenthesized.mono hp
  | false => exact h.mono (hl rfl)

theorem ReadsAs.binary {op : Operator} {leftTokens rightTokens : List Token} {left right : Expr}
    (h : op ∈ Operator.between) (hl : ReadsAs leftTokens op.tightness left)
    (hr : ReadsAs rightTokens (op.tightness + 1) right) :
    ReadsAs (leftTokens ++ op.tokens ++ rightTokens) op.tightness (.binary op left right) := by
  intro groups pending hp
  obtain ⟨last, waiting, hrun, hc⟩ := hl groups pending hp
  have tighter := looser_cons (Nat.lt_succ_self op.tightness) left pending
  obtain ⟨last', waiting', hrun', hc'⟩ := hr groups ((left, op) :: pending) tighter
  refine ⟨last', waiting', ?_, ?_⟩
  · rw [List.foldlM_append, List.foldlM_append, hrun]
    simp only [Option.bind_eq_bind, Option.bind_some]
    rw [foldlM_operator h, hc, Option.bind_some, hrun']
  · rw [← complete_complete (Nat.le_succ op.tightness), hc',
      complete_cons_of_le (Nat.le_refl _)]
    exact complete_of_looser hp _

theorem ReadsAs.not (h : ReadsAs tokens level e) :
    ReadsAs (Operator.not.tokens ++ Kql.parenthesized true tokens) 6 e.not := by
  apply ReadsAs.of_run
  intro groups pending
  exact foldlM_group h true groups pending

/-- A well grouped tree is read from its tokens, wherever it binds tightly enough for its place. -/
theorem readsAs_tokens {e : Expr} (h : e.Grouped) : ReadsAs e.tokens e.tightness e.untyped := by
  induction h with
  | column h => exact .of_run (fun groups pending => rfl) _
  | integer n => exact readsAs_integer n
  | string h => exact .of_run (fun groups pending => rfl) _
  | @not e _ ih =>
      have tokens : e.not.tokens = Operator.not.tokens ++ Kql.parenthesized true e.tokens := by
        rw [Expr.not, Expr.call, Expr.tokens, Expr.termTokens_eq_map, List.map_singleton,
          List.intercalate_singleton]
      rw [tokens]
      exact ih.not
  | @binary op left right between hl hlt hr hrt ihl ihr =>
      have bound := op.tightness_le
      exact .binary between (ihl.operand (by omega) hlt) (ihr.operand (by omega) hrt)

end Reading

/-- The expression that a text stands for. -/
def readExpr (text : String) : Option Expr :=
  (scan text.toList).foldlM Reading.State.step .start >>= Reading.State.finish

theorem readExpr_of_readsAs {text : String} {tokens : List Token} {level : Nat} {e : Expr}
    (hs : ScansTo text tokens) (h : Reading.ReadsAs tokens level e) : readExpr text = some e := by
  obtain ⟨last, waiting, hrun, hc⟩ := h [] [] (Reading.looser_nil level)
  have hc' : (Reading.complete 0 last waiting).1 = e := by
    rw [← Reading.complete_complete (Nat.zero_le level), hc]
    rfl
  rw [readExpr, hs.scan_eq, Reading.State.start, hrun]
  simp only [Option.bind_eq_bind, Option.bind_some, Reading.State.finish, hc']

theorem readExpr_render {e : Expr} (h : e.Grouped) : readExpr e.render = some e.untyped :=
  readExpr_of_readsAs (Expr.scansTo_render h.lexical) (Reading.readsAs_tokens h)

end Kql
