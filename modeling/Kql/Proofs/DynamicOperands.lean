import Kql.Proofs.ExprReader

/-!
Which operands of an expression may be dynamic. Only the types of columns are left open by a text, and
the type of an operand follows from its first column or function, so whether it may be dynamic shows at
its first tokens. Hence the text tells if a right operand that stands without parentheses may be.
-/

namespace Kql

open Text

namespace Expr

/-- Columns and fields are identifiers, literals are integers, every operator has as many operands as it
takes, and fields are those of dynamic values. -/
inductive Built : Expr → Prop
  | column {c : Column} : isIdentifier c.name = true → Built (column c)
  | integer (n : Int64) : Built (literal (.long n))
  | binary {op : Operator} {left right : Expr} : op.arity = .binary → Built left → Built right →
      Built (binary op left right)
  | membership {op : Operator} {e : Expr} (values : List Int64) : op.isMembership = true → Built e →
      Built (binary op e (literal (.array (values.map .long))))
  | call {op : Operator} {terms : List Expr} : op.arity ≠ .binary →
      (op.arity = .unary → terms.length = 1) → (∀ t ∈ terms, Built t) → Built (call op terms)
  | field {e : Expr} {name : String} : Built e → isIdentifier name = true → e.type = .dynamic →
      Built (property e name)

/-- The expression is dynamic for some types of its columns. -/
def mayBeDynamic (e : Expr) : Bool := e.untyped.type = .dynamic

/-- A right operand that stands without parentheses may be dynamic. -/
def exposesDynamic : Expr → Bool
  | binary op left right =>
    !op.isConnective &&
      (left.exposesDynamic || !op.isMembership && (right.mayBeDynamic || right.exposesDynamic))
  | property object _ => object.exposesDynamic
  | _ => false

theorem type_untyped {e : Expr} (h : e.type = .dynamic) : e.untyped.type = .dynamic := by
  fun_induction type e with
  | case1 | case2 => rfl
  | case3 => exact h
  | case4 _ left _ ih => exact ih h
  | case5 | case6 | case7 | case8 => cases h
  | case9 => rfl
  | case10 => cases h
  | case11 op _ _ _ _ _ _ _ _ ih => cases op <;> first | exact ih h | contradiction

theorem Built.untyped {e : Expr} (h : e.Built) : e.untyped.Built := by
  induction h with
  | column h => exact .column h
  | integer n => exact .integer n
  | binary arity _ _ ihl ihr => exact .binary arity ihl ihr
  | membership values member _ ih => exact .membership values member ih
  | call notBinary unary _ ih =>
      rw [Expr.call, Expr.untyped, untypedTerms_eq_map]
      exact .call notBinary (by simpa using unary) (List.forall_mem_map.mpr ih)
  | field _ hn dynamic ih => exact .field ih hn (type_untyped dynamic)

theorem scansTo_longs (values : List Int64) :
    ScansTo (Literal.array (values.map .long)).render
      (listTokens (values.map fun n => integerTokens n.toInt)) := by
  rw [Literal.render_array, Literal.renderList, List.map_map]
  exact .listOf fun n _ rest hr => scan_integer n.toInt hr

theorem tokens_longs (values : List Int64) : (literal (.array (values.map .long))).tokens =
    listTokens (values.map fun n => integerTokens n.toInt) := by
  rw [tokens, Literal.tokens, (scansTo_longs values).scan_eq] <;> rintro _ ⟨⟩

theorem Built.scansTo {e : Expr} (h : e.Built) : ScansTo e.render e.tokens := by
  induction h with
  | column h => exact scansTo_word h
  | integer n => exact fun rest hr => scan_integer n.toInt hr
  | @binary op _ _ _ _ _ ihl ihr => exact scansTo_binary ihl ihr op
  | @membership op _ values _ _ ih =>
      refine scansTo_binary ih ?_ op
      rw [tokens_longs]
      exact scansTo_longs values
  | @call op _ _ _ _ ih => exact scansTo_apply ih op _
  | field _ hn _ ih => exact scansTo_property ih hn

end Expr

/-! ## Reading the tokens -/

/-- No name in front of the tokens is that of a function. -/
def NoCall (tokens : List Token) : Prop := tokens.head? ≠ some (.mark '(')

/-- What the function returns may be dynamic, given whether its first operand may be. -/
def returnsDynamic (name : String) (first : Bool) : Bool :=
  name = "bag_unpack" || !(["count", "dcount", "avg", "strcat"].contains name) && first

/-- The operand that starts here may be dynamic. -/
def opensDynamic : List Token → Bool
  | .mark '(' :: rest => opensDynamic rest
  | .word name :: .mark '(' :: rest => returnsDynamic name (opensDynamic rest)
  | .word _ :: _ => true
  | _ => false

/-- Places in the text of an expression. -/
inductive Place where
  | operand
  | operator
  /-- In a parenthesis, with this number of further ones open in it. -/
  | inside (depth : Nat)

/-- From this place on, an operator outside of parentheses that is neither a connective nor a membership
test has an operand behind it that may be dynamic. -/
def laterDynamic : Place → List Token → Bool
  | _, [] => false
  | .operand, .mark '(' :: rest => laterDynamic (.inside 0) rest
  | .operand, .symbol _ :: rest => laterDynamic .operand rest
  | .operand, _ :: rest => laterDynamic .operator rest
  | .operator, .mark '(' :: rest => laterDynamic (.inside 0) rest
  | .operator, .symbol "!" :: rest => laterDynamic .operator rest
  | .operator, .symbol _ :: rest => opensDynamic rest || laterDynamic .operand rest
  | .operator, .word name :: rest =>
    !(["and", "or", "in"].contains name) && opensDynamic rest || laterDynamic .operand rest
  | .operator, _ :: rest => laterDynamic .operand rest
  | .inside depth, .mark '(' :: rest => laterDynamic (.inside (depth + 1)) rest
  | .inside 0, .mark ')' :: rest => laterDynamic .operator rest
  | .inside (depth + 1), .mark ')' :: rest => laterDynamic (.inside depth) rest
  | .inside depth, _ :: rest => laterDynamic (.inside depth) rest

theorem Expr.returnsDynamic_symbol (op : Operator) (terms : List Expr) :
    returnsDynamic op.symbol (terms.head?.any mayBeDynamic) = (call op terms).mayBeDynamic := by
  cases op <;> cases terms <;> rfl

theorem laterDynamic_operator (op : Operator) (rest : List Token) :
    laterDynamic .operator (op.tokens ++ rest) =
      (!op.isConnective && !op.isMembership && opensDynamic rest || laterDynamic .operand rest) := by
  cases op <;> rfl

/-! ## Parentheses -/

/-- Within a parenthesis the tokens are passed over. -/
def Balanced (tokens : List Token) : Prop :=
  ∀ depth rest, laterDynamic (.inside depth) (tokens ++ rest) = laterDynamic (.inside depth) rest

theorem balanced_nil : Balanced [] := fun _ _ => rfl

theorem Balanced.append {tokens more : List Token} (ht : Balanced tokens) (hm : Balanced more) :
    Balanced (tokens ++ more) := by
  intro depth rest
  rw [List.append_assoc, ht, hm]

theorem balanced_singleton {t : Token} (ho : t ≠ .mark '(') (hc : t ≠ .mark ')') : Balanced [t] := by
  intro depth rest
  rw [List.singleton_append, laterDynamic]
  · exact ho
  · exact fun _ => hc
  · exact fun _ _ => hc

theorem Balanced.parenthesized {tokens : List Token} (h : Balanced tokens) (parens : Bool) :
    Balanced (parenthesized parens tokens) := by
  cases parens with
  | false => exact h
  | true =>
      intro depth rest
      simp only [Kql.parenthesized, if_true, List.cons_append, List.append_assoc, List.nil_append]
      rw [laterDynamic, h, laterDynamic]

theorem Balanced.intercalate {separator : List Token} (hs : Balanced separator)
    {items : List (List Token)} (h : ∀ tokens ∈ items, Balanced tokens) :
    Balanced (separator.intercalate items) := by
  induction items with
  | nil => exact balanced_nil
  | cons tokens more ih =>
      obtain ⟨ht, hmore⟩ := List.forall_mem_cons.mp h
      cases more with
      | nil => rwa [List.intercalate_singleton]
      | cons other more =>
          rw [List.intercalate_cons_cons]
          exact (ht.append hs).append (ih hmore)

theorem balanced_comma : Balanced [.mark ','] := balanced_singleton (by decide) (by decide)

theorem balanced_operator (op : Operator) : Balanced op.tokens := by
  cases op <;> exact fun _ _ => rfl

theorem balanced_integer (n : Int) : Balanced (integerTokens n) := by
  cases n <;> exact fun _ _ => rfl

/-! ## What the tokens of an expression show -/

theorem noCall_cons {t : Token} (h : t ≠ .mark '(') (rest : List Token) : NoCall (t :: rest) := by
  simpa [NoCall] using h

theorem noCall_operator (op : Operator) (rest : List Token) : NoCall (op.tokens ++ rest) := by
  cases op <;> exact noCall_cons (by decide) rest

theorem opensDynamic_word (name : String) {rest : List Token} (h : NoCall rest) :
    opensDynamic (.word name :: rest) = true := by
  rw [opensDynamic]
  rintro more rfl
  exact h rfl

/-- The tokens are those of an expression, and show whether it may be dynamic and whether it exposes a
right operand that may be. -/
structure Shows (tokens : List Token) (dynamic exposes : Bool) : Prop where
  balanced : Balanced tokens
  opens : ∀ rest, NoCall rest → opensDynamic (tokens ++ rest) = dynamic
  later : ∀ rest, NoCall rest →
    laterDynamic .operand (tokens ++ rest) = (exposes || laterDynamic .operator rest)

namespace Shows

variable {tokens rightTokens : List Token} {dynamic exposes dynamic' exposes' : Bool}

theorem word (name : String) : Shows [.word name] true false where
  balanced := balanced_singleton (by simp) (by simp)
  opens _ h := opensDynamic_word name h
  later _ _ := rfl

theorem integer (n : Int) : Shows (integerTokens n) false false where
  balanced := balanced_integer n
  opens := by cases n <;> exact fun _ _ => rfl
  later := by cases n <;> exact fun _ _ => rfl

theorem parenthesized (h : Shows tokens dynamic exposes) (parens : Bool) :
    Shows (parenthesized parens tokens) dynamic (!parens && exposes) where
  balanced := h.balanced.parenthesized parens
  opens rest hr := by
    cases parens with
    | false => exact h.opens rest hr
    | true =>
        simp only [Kql.parenthesized, if_true, List.cons_append, List.append_assoc, List.nil_append]
        rw [opensDynamic, h.opens _ (noCall_cons (by decide) rest)]
  later rest hr := by
    cases parens with
    | false => exact h.later rest hr
    | true =>
        simp only [Kql.parenthesized, if_true, List.cons_append, List.append_assoc, List.nil_append]
        rw [laterDynamic, h.balanced, laterDynamic]
        rfl

theorem binary (op : Operator) (hl : Shows tokens dynamic exposes)
    (hr : Shows rightTokens dynamic' exposes') :
    Shows (tokens ++ op.tokens ++ rightTokens) dynamic
      (exposes || !op.isConnective && !op.isMembership && dynamic' || exposes') where
  balanced := (hl.balanced.append (balanced_operator op)).append hr.balanced
  opens rest _ := by
    rw [List.append_assoc, List.append_assoc, hl.opens _ (noCall_operator op _)]
  later rest h := by
    rw [List.append_assoc, List.append_assoc, hl.later _ (noCall_operator op _),
      laterDynamic_operator, hr.opens rest h, hr.later rest h]
    simp only [Bool.or_assoc]

theorem call (name : String) (hb : Balanced tokens)
    (ho : ∀ rest, opensDynamic (tokens ++ .mark ')' :: rest) = dynamic) :
    Shows (.word name :: Kql.parenthesized true tokens) (returnsDynamic name dynamic) false where
  balanced :=
    (balanced_singleton (t := .word name) (by simp) (by simp)).append (hb.parenthesized true)
  opens rest _ := by
    simp only [Kql.parenthesized, if_true, List.cons_append, List.append_assoc, List.nil_append]
    rw [opensDynamic, ho]
  later rest _ := by
    simp only [Kql.parenthesized, if_true, List.cons_append, List.append_assoc, List.nil_append]
    exact hb 0 (.mark ')' :: rest)

theorem list {items : List (List Token)} (h : ∀ tokens ∈ items, Balanced tokens) :
    Shows (listTokens items) false false := by
  have square (c : Char) (hc : c = '[' ∨ c = ']') : Balanced [.mark c] := by
    rcases hc with rfl | rfl <;> exact balanced_singleton (by decide) (by decide)
  have inside := ((square '[' (.inl rfl)).append (balanced_comma.intercalate h)).append
    (square ']' (.inr rfl))
  have shown := call "dynamic" inside fun _ => rfl
  have text : listTokens items = .word "dynamic" ::
      Kql.parenthesized true ([.mark '['] ++ [.mark ','].intercalate items ++ [.mark ']']) := by
    simp [listTokens, Kql.parenthesized]
  rw [text]
  exact shown

theorem field (h : Shows tokens true exposes) (name : String) :
    Shows (tokens ++ [.mark '.', .word name]) true exposes where
  balanced := h.balanced.append fun _ _ => rfl
  opens rest hr := by
    rw [List.append_assoc]
    exact h.opens _ (noCall_cons (by decide) _)
  later rest hr := by
    rw [List.append_assoc]
    exact h.later _ (noCall_cons (by decide) _)

end Shows

namespace Expr

theorem tokens_call {op : Operator} (h : op.arity ≠ .binary) (terms : List Expr) :
    (call op terms).tokens =
      .word op.symbol :: parenthesized true ([.mark ','].intercalate (terms.map tokens)) := by
  have name : op.tokens = [.word op.symbol] := by
    revert h
    cases op <;> intro h <;> first
      | rfl
      | exact absurd rfl h
  rw [call, tokens, name, termTokens_eq_map]
  rfl

theorem opensDynamic_terms {terms : List Expr}
    (h : ∀ t ∈ terms, Shows t.tokens t.mayBeDynamic t.exposesDynamic) (rest : List Token) :
    opensDynamic ([.mark ','].intercalate (terms.map tokens) ++ .mark ')' :: rest) =
      terms.head?.any mayBeDynamic := by
  cases terms with
  | nil => rfl
  | cons first more =>
      have first := (List.forall_mem_cons.mp h).1
      cases more with
      | nil =>
          rw [List.map_singleton, List.intercalate_singleton, first.opens _ (noCall_cons (by decide) _)]
          rfl
      | cons other more =>
          rw [List.map_cons, List.map_cons, List.intercalate_cons_cons, List.append_assoc,
            List.append_assoc]
          exact first.opens _ (noCall_cons (by decide) _)

theorem shows_binary {op : Operator} {left right : Expr} {dynamic : Bool}
    (hl : Shows left.tokens left.mayBeDynamic left.exposesDynamic)
    (hr : Shows right.tokens dynamic right.exposesDynamic)
    (hd : op.isMembership = false → dynamic = right.mayBeDynamic) :
    Shows (binary op left right).tokens (binary op left right).mayBeDynamic
      (binary op left right).exposesDynamic := by
  have shown := Shows.binary op (hl.parenthesized op.isConnective)
    (hr.parenthesized (op.isConnective || op.isMembership))
  have loses : (binary op left right).exposesDynamic =
      (!op.isConnective && left.exposesDynamic ||
        !op.isConnective && !op.isMembership && dynamic ||
          !(op.isConnective || op.isMembership) && right.exposesDynamic) := by
    rw [exposesDynamic]
    cases hm : op.isMembership with
    | true => simp
    | false => cases op.isConnective <;> simp [hd hm, Bool.or_assoc]
  rw [loses]
  exact shown

theorem Built.shows {e : Expr} (h : e.Built) : Shows e.tokens e.mayBeDynamic e.exposesDynamic := by
  induction h with
  | @column c _ => exact .word c.name
  | integer n => exact .integer n.toInt
  | binary _ _ _ ihl ihr => exact shows_binary ihl ihr fun _ => rfl
  | membership values member _ ih =>
      have list : Shows (listTokens (values.map fun n => integerTokens n.toInt)) false false :=
        .list (List.forall_mem_map.mpr fun n _ => balanced_integer n.toInt)
      rw [← tokens_longs] at list
      exact shows_binary ih list fun other => absurd member (by simp [other])
  | @call op terms notBinary _ _ ih =>
      have inside := balanced_comma.intercalate (List.forall_mem_map.mpr fun t ht => (ih t ht).balanced)
      rw [tokens_call notBinary, ← returnsDynamic_symbol]
      exact .call op.symbol inside (opensDynamic_terms ih)
  | @field object name _ _ dynamic ih =>
      have may : object.mayBeDynamic = true := decide_eq_true (type_untyped dynamic)
      rw [may] at ih
      exact ih.field name

/-- The text decides whether an operand is exposed. -/
theorem Built.exposesDynamic_eq {e f : Expr} (he : e.Built) (hf : f.Built) (same : e.render = f.render) :
    e.exposesDynamic = f.exposesDynamic := by
  have tokens : e.tokens = f.tokens := by
    rw [← he.scansTo.scan_eq, ← hf.scansTo.scan_eq, same]
  have whole {g : Expr} (hg : g.Built) : laterDynamic .operand g.tokens = g.exposesDynamic := by
    have later := hg.shows.later [] (by simp [NoCall])
    simpa [laterDynamic] using later
  rw [← whole he, ← whole hf, tokens]

end Expr

end Kql
