import Kql.Expr.Builders
import Kql.Proofs.Tokens

/-!
The tokens of expressions. Where columns and fields are identifiers, and literals are integers or
strings without a quote, the text of an expression falls into tokens as the expression is built.
-/

namespace Kql

open Text

/-- An operator that tests for membership, whose right side stands in parentheses. -/
def Operator.isMembership : Operator → Bool
  | isIn | notIn => true
  | _ => false

def Operator.tokens : Operator → List Token
  | .notContains => [.symbol "!", .word "contains"]
  | .notHas => [.symbol "!", .word "has"]
  | .notIn => [.symbol "!", .word "in"]
  | op => [if isIdentifier op.symbol then .word op.symbol else .symbol op.symbol]

def integerTokens : Int → List Token
  | .ofNat n => [.number n]
  | .negSucc n => [.symbol "-", .number (n + 1)]

def Literal.tokens : Literal → List Token
  | .long n => integerTokens n.toInt
  | .string s => [.quoted s]
  | value => scan value.render.toList

/-- The tokens in parentheses, if asked for. -/
def parenthesized (parens : Bool) (tokens : List Token) : List Token :=
  if parens then .mark '(' :: (tokens ++ [.mark ')']) else tokens

namespace Expr

mutual

def tokens : Expr → List Token
  | column c => [.word c.name]
  | property object field => object.tokens ++ [.mark '.', .word field]
  | literal value => value.tokens
  | binary op left right =>
    parenthesized op.isConnective left.tokens ++ op.tokens ++
      parenthesized (op.isConnective || op.isMembership) right.tokens
  | apply op terms _ =>
    op.tokens ++ parenthesized true ([.mark ','].intercalate (termTokens terms))

def termTokens : List Expr → List (List Token)
  | [] => []
  | term :: rest => term.tokens :: termTokens rest

end

/-- Columns and fields are identifiers, literals are integers or strings without a quote. -/
inductive Lexical : Expr → Prop
  | column {c : Column} : isIdentifier c.name = true → Lexical (column c)
  | property {object : Expr} {field : String} : Lexical object → isIdentifier field = true →
      Lexical (property object field)
  | integer (n : Int64) : Lexical (literal (.long n))
  | string {s : String} : '\'' ∉ s.toList → Lexical (literal (.string s))
  | binary {op : Operator} {left right : Expr} : Lexical left → Lexical right →
      Lexical (binary op left right)
  | apply {op : Operator} {terms : List Expr} {aggregate : Bool} : (∀ t ∈ terms, Lexical t) →
      Lexical (apply op terms aggregate)

theorem termTokens_eq_map (terms : List Expr) : termTokens terms = terms.map tokens := by
  induction terms with
  | nil => rfl
  | cons term rest ih => simp only [termTokens, List.map_cons, ih]

/-- The text in parentheses, if asked for. -/
def inParentheses (parens : Bool) (text : String) : String :=
  if parens then "(" ++ text ++ ")" else text

theorem render_binary (op : Operator) (left right : Expr) :
    (binary op left right).render =
      inParentheses op.isConnective left.render ++ " " ++ op.symbol ++ " " ++
        inParentheses (op.isConnective || op.isMembership) right.render := by
  rw [← String.toList_inj]
  cases op <;>
    simp [render, inParentheses, Operator.isConnective, Operator.isMembership, Operator.symbol]

end Expr

/-! ## Scanning the parts of an expression -/

theorem scan_operator (op : Operator) {rest : List Char} (hn : Ends isNameChar rest)
    (hs : Ends isSymbolChar rest) : scan (op.symbol.toList ++ rest) = op.tokens ++ scan rest := by
  have negated (name : String) (h : isIdentifier name = true) :
      scan (("!" ++ name).toList ++ rest) = [.symbol "!", .word name] ++ scan rest := by
    rw [String.toList_append, List.append_assoc, scan_symbol (by decide) (by decide)
      (ends_isSymbolChar_of_isIdentifier h rest), scan_word h hn]
    rfl
  cases op
  case notContains => exact negated "contains" (by decide)
  case notHas => exact negated "has" (by decide)
  case notIn => exact negated "in" (by decide)
  all_goals first
    | exact scan_word (by decide) hn
    | exact scan_symbol (by decide) (by decide) hs

theorem scan_integer (n : Int) {rest : List Char} (hr : Ends isNameChar rest) :
    scan (n.repr.toList ++ rest) = integerTokens n ++ scan rest := by
  cases n with
  | ofNat n => exact scan_number n hr
  | negSucc n =>
      rw [Int.repr, String.toList_append, List.append_assoc, scan_symbol (by decide) (by decide)
        (ends_isSymbolChar_of_digits (n + 1) rest), scan_number (n + 1) hr]
      rfl

/-- The text falls into these tokens, whatever comes after it. -/
def ScansTo (text : String) (tokens : List Token) : Prop :=
  ∀ rest, Ends isNameChar rest → scan (text.toList ++ rest) = tokens ++ scan rest

theorem ScansTo.scan_eq {text : String} {tokens : List Token} (h : ScansTo text tokens) :
    scan text.toList = tokens := by
  have whole := h [] (ends_nil _)
  rw [List.append_nil, scan, List.append_nil] at whole
  exact whole

theorem ScansTo.append {s t : String} {tokens more : List Token} (hs : ScansTo s tokens)
    (ht : ScansTo t more) (apart : ∀ rest, Ends isNameChar (t.toList ++ rest)) :
    ScansTo (s ++ t) (tokens ++ more) := by
  intro rest hr
  rw [String.toList_append, List.append_assoc, hs _ (apart rest), ht rest hr, List.append_assoc]

theorem scan_parenthesis_open (rest : List Char) : scan ('(' :: rest) = .mark '(' :: scan rest :=
  scan_mark (by decide) (by decide) (by decide) (by decide) rest

theorem scan_parenthesis_close (rest : List Char) : scan (')' :: rest) = .mark ')' :: scan rest :=
  scan_mark (by decide) (by decide) (by decide) (by decide) rest

theorem scan_bracket_open (rest : List Char) : scan ('[' :: rest) = .mark '[' :: scan rest :=
  scan_mark (by decide) (by decide) (by decide) (by decide) rest

theorem scan_bracket_close (rest : List Char) : scan (']' :: rest) = .mark ']' :: scan rest :=
  scan_mark (by decide) (by decide) (by decide) (by decide) rest

theorem ScansTo.inParentheses {text : String} {tokens : List Token} (h : ScansTo text tokens)
    (parens : Bool) : ScansTo (Expr.inParentheses parens text) (parenthesized parens tokens) := by
  cases parens with
  | false => exact h
  | true =>
      intro rest hr
      simp only [Expr.inParentheses, parenthesized, if_true, String.toList_append,
        String.reduceToList, List.cons_append, List.nil_append, List.append_assoc]
      rw [scan_parenthesis_open, h _ (ends_cons (by decide) rest), scan_parenthesis_close]

/-- A list of texts with a separator between them falls into the tokens of its entries with those of
the separator between them. -/
theorem ScansTo.intercalate {α : Type} {text : α → String} {tokens : α → List Token}
    {separator : String} {between : List Token}
    (hs : ∀ rest, scan (separator.toList ++ rest) = between ++ scan rest)
    (he : ∀ rest, Ends isNameChar (separator.toList ++ rest)) {items : List α}
    (h : ∀ a ∈ items, ScansTo (text a) (tokens a)) :
    ScansTo (separator.intercalate (items.map text)) (between.intercalate (items.map tokens)) := by
  induction items with
  | nil => intro rest _; rfl
  | cons a more ih =>
      obtain ⟨ha, hmore⟩ := List.forall_mem_cons.mp h
      cases more with
      | nil => simpa using ha
      | cons b more =>
          intro rest hr
          have tail := ih hmore rest hr
          simp only [List.map_cons] at tail ⊢
          rw [String.intercalate_cons_cons, List.intercalate_cons_cons, String.toList_append,
            String.toList_append, List.append_assoc, List.append_assoc, ha _ (he _), hs, tail]
          simp only [List.append_assoc]

theorem scan_comma (rest : List Char) : scan (',' :: rest) = .mark ',' :: scan rest :=
  scan_mark (by decide) (by decide) (by decide) (by decide) rest

theorem scansTo_word {name : String} (h : isIdentifier name = true) : ScansTo name [.word name] := by
  intro rest hr
  exact scan_word h hr

theorem scansTo_quoted {s : String} (h : '\'' ∉ s.toList) : ScansTo ("'" ++ s ++ "'") [.quoted s] := by
  intro rest _
  simp only [String.toList_append, String.reduceToList, List.append_assoc, List.cons_append,
    List.nil_append]
  exact scan_quoted h rest

/-- The tokens of a list whose items have these tokens. -/
def listTokens (items : List (List Token)) : List Token :=
  [.word "dynamic", .mark '(', .mark '['] ++ ([.mark ','].intercalate items ++ [.mark ']', .mark ')'])

theorem scan_newline (rest : List Char) : scan ('\n' :: rest) = scan rest :=
  scan_blank (by decide) (by decide) (by decide) (by decide) rest

theorem scan_tab (rest : List Char) : scan ('\t' :: rest) = scan rest :=
  scan_blank (by decide) (by decide) (by decide) (by decide) rest

theorem scansTo_list {body : String} {inner : List Token} (h : ScansTo body inner) :
    ScansTo ("dynamic([" ++ body ++ "])")
      ([.word "dynamic", .mark '(', .mark '['] ++ (inner ++ [.mark ']', .mark ')'])) := by
  intro rest hr
  have word := scan_word (by decide : isIdentifier "dynamic" = true)
    (ends_cons (by decide : isNameChar '(' = false) ('[' :: (body.toList ++ ']' :: ')' :: rest)))
  simp only [String.toList_append, String.reduceToList, List.cons_append, List.nil_append,
    List.append_assoc] at word ⊢
  rw [word, scan_parenthesis_open, scan_bracket_open, h _ (ends_cons (by decide) _),
    scan_bracket_close, scan_parenthesis_close]

/-- Line breaks between the items of a list are no part of it. -/
theorem ScansTo.listOf {α : Type} {text : α → String} {tokens : α → List Token} {items : List α}
    (h : ∀ a ∈ items, ScansTo (text a) (tokens a)) :
    ScansTo (Literal.listOf (items.map text)) (listTokens (items.map tokens)) := by
  cases items with
  | nil =>
      have none : ScansTo "" [] := fun rest _ => rfl
      have text : Literal.listOf [] = "dynamic([" ++ "" ++ "])" := by decide +kernel
      rw [List.map_nil, text]
      exact scansTo_list none
  | cons a more =>
      have separated : ScansTo (",\n\t".intercalate ((a :: more).map text))
          ([.mark ','].intercalate ((a :: more).map tokens)) := by
        refine ScansTo.intercalate ?_ ?_ h
        · intro rest
          simp only [String.reduceToList, List.cons_append, List.nil_append]
          rw [scan_comma, scan_newline, scan_tab]
        · intro rest
          exact ends_cons (by decide) _
      have lines : ScansTo ("\n\t" ++ ",\n\t".intercalate ((a :: more).map text) ++ "\n")
          ([.mark ','].intercalate ((a :: more).map tokens)) := by
        intro rest hr
        simp only [String.toList_append, String.reduceToList, List.cons_append, List.nil_append,
          List.append_assoc]
        rw [scan_newline, scan_tab, separated _ (ends_cons (by decide) _), scan_newline]
      have text : Literal.listOf ((a :: more).map text) =
          "dynamic([" ++ ("\n\t" ++ ",\n\t".intercalate ((a :: more).map text) ++ "\n") ++ "])" := by
        simp [← String.toList_inj, Literal.listOf]
      rw [text]
      exact scansTo_list lines

namespace Expr

variable {object left right : Expr} {op : Operator}

theorem scansTo_property {field : String} (h : ScansTo object.render object.tokens)
    (hf : isIdentifier field = true) :
    ScansTo (property object field).render (property object field).tokens := by
  intro rest hr
  simp only [render, tokens, String.toList_append, String.reduceToList, List.append_assoc,
    List.cons_append, List.nil_append]
  rw [h _ (ends_cons (by decide) _), scan_mark (by decide) (by decide) (by decide) (by decide),
    scan_word hf hr]

theorem scansTo_binary (hl : ScansTo left.render left.tokens) (hr : ScansTo right.render right.tokens)
    (op : Operator) : ScansTo (binary op left right).render (binary op left right).tokens := by
  intro rest hrest
  have front := hl.inParentheses op.isConnective
  have back := hr.inParentheses (op.isConnective || op.isMembership) rest hrest
  rw [render_binary, tokens]
  simp only [String.toList_append, String.reduceToList, List.append_assoc, List.cons_append,
    List.nil_append]
  rw [front _ (ends_cons (by decide) _), scan_space, scan_operator op (ends_cons (by decide) _)
    (ends_cons (by decide) _), scan_space, back]

theorem scansTo_apply {terms : List Expr} (h : ∀ t ∈ terms, ScansTo t.render t.tokens) (op : Operator)
    (aggregate : Bool) : ScansTo (apply op terms aggregate).render (apply op terms aggregate).tokens := by
  intro rest hr
  have commas : ScansTo (", ".intercalate (terms.map render))
      ([.mark ','].intercalate (terms.map tokens)) := by
    refine ScansTo.intercalate ?_ ?_ h
    · intro rest
      simp only [String.reduceToList, List.cons_append, List.nil_append]
      rw [scan_comma, scan_space]
    · intro rest
      exact ends_cons (by decide) _
  have inner := commas.inParentheses true rest hr
  simp only [inParentheses, if_true, String.toList_append, String.reduceToList,
    List.append_assoc, List.cons_append, List.nil_append] at inner
  simp only [render, renderTerms_eq_map, tokens, termTokens_eq_map, String.toList_append,
    String.reduceToList, List.append_assoc, List.cons_append, List.nil_append]
  rw [scan_operator op (ends_cons (by decide) _) (ends_cons (by decide) _), inner]

theorem scansTo_render {e : Expr} (h : e.Lexical) : ScansTo e.render e.tokens := by
  induction h with
  | column h => exact scansTo_word h
  | property _ hf ih => exact scansTo_property ih hf
  | integer n => exact fun rest hr => scan_integer n.toInt hr
  | string h => exact scansTo_quoted h
  | @binary op _ _ _ _ ihl ihr => exact scansTo_binary ihl ihr op
  | @apply op _ aggregate _ ih => exact scansTo_apply ih op aggregate

end Expr

end Kql
