import Kql.CommandLine.Basic
import Kql.Proofs.ExprTokens

/-!
How the literal of a JSON value is read. `dynamic(null)`, the empty list and other lists all start with
`dynamic(`, and what follows tells them apart. A list is read item by item, whatever lists stand in it,
and a quoted string is one token, whatever it holds. So JSON values without objects, reals and quotes
are told apart by their literals.
-/

namespace Kql

namespace ListReading

/-- What is due at a place in the text of a literal. -/
inductive Due where
  | value
  /-- The digits behind a sign. -/
  | digits
  | parenthesis
  /-- What stands in the parentheses behind `dynamic`. -/
  | content
  /-- The parenthesis that ends this value. -/
  | closing (value : Json)
  /-- A comma, or the end of a list, behind this value. -/
  | separator (value : Json)

structure State where
  /-- The items of the lists that are open, the last item first, and the innermost list first. -/
  lists : List (List Json)
  due : Due

def step (s : State) (t : Token) : Option State :=
  match s.due, s.lists, t with
  | .value, lists, .word "dynamic" => some ⟨lists, .parenthesis⟩
  | .value, lists, .word "true" => some ⟨lists, .separator (.bool true)⟩
  | .value, lists, .word "false" => some ⟨lists, .separator (.bool false)⟩
  | .value, lists, .number n => some ⟨lists, .separator (.integer n)⟩
  | .value, lists, .symbol "-" => some ⟨lists, .digits⟩
  | .value, lists, .quoted text => some ⟨lists, .separator (.string text)⟩
  | .value, [] :: outer, .mark ']' => some ⟨outer, .closing (.array [])⟩
  | .digits, lists, .number n => some ⟨lists, .separator (.integer (-n))⟩
  | .parenthesis, lists, .mark '(' => some ⟨lists, .content⟩
  | .content, lists, .word "null" => some ⟨lists, .closing .null⟩
  | .content, lists, .mark '[' => some ⟨[] :: lists, .value⟩
  | .closing value, lists, .mark ')' => some ⟨lists, .separator value⟩
  | .separator value, items :: outer, .mark ',' => some ⟨(value :: items) :: outer, .value⟩
  | .separator value, items :: outer, .mark ']' =>
    some ⟨outer, .closing (.array (value :: items).reverse)⟩
  | _, _, _ => none

def finish (s : State) : Option Json :=
  match s.lists, s.due with
  | [], .separator value => some value
  | _, _ => none

/-- Wherever a value is due, the tokens are read as this one. -/
def ReadsAs (tokens : List Token) (value : Json) : Prop :=
  ∀ lists, tokens.foldlM step ⟨lists, .value⟩ = some ⟨lists, .separator value⟩

theorem readsAs_integer (n : Int) : ReadsAs (integerTokens n) (.integer n) := by
  intro lists
  cases n with
  | ofNat n => rfl
  | negSucc n => rfl

/-- The items of a list up to its end, behind those that were read `before`. -/
theorem foldlM_items {α : Type} {tokens : α → List Token} {value : α → Json} {items : List α}
    (nonempty : items ≠ []) (h : ∀ a ∈ items, ReadsAs (tokens a) (value a))
    (before : List Json) (lists : List (List Json)) :
    ([Token.mark ','].intercalate (items.map tokens) ++ [Token.mark ']']).foldlM step
        ⟨before :: lists, .value⟩ =
      some ⟨lists, .closing (.array (before.reverse ++ items.map value))⟩ := by
  induction items generalizing before with
  | nil => exact absurd rfl nonempty
  | cons a more ih =>
      obtain ⟨ha, hmore⟩ := List.forall_mem_cons.mp h
      cases more with
      | nil =>
          rw [List.map_singleton, List.intercalate_singleton, List.foldlM_append, ha]
          simp [step]
      | cons b more =>
          have rest := ih (List.cons_ne_nil b more) hmore (value a :: before)
          simp only [List.map_cons] at rest ⊢
          rw [List.intercalate_cons_cons, List.append_assoc, List.append_assoc, List.foldlM_append, ha]
          simpa [step] using rest

theorem readsAs_list {α : Type} {tokens : α → List Token} {value : α → Json} {items : List α}
    (h : ∀ a ∈ items, ReadsAs (tokens a) (value a)) :
    ReadsAs (listTokens (items.map tokens)) (.array (items.map value)) := by
  intro lists
  cases items with
  | nil => rfl
  | cons a more =>
      have opening : [Token.word "dynamic", .mark '(', .mark '['].foldlM step ⟨lists, .value⟩ =
          some ⟨[] :: lists, .value⟩ := rfl
      have inside := foldlM_items (List.cons_ne_nil a more) h [] lists
      have last : [Token.mark ']', .mark ')'] = [.mark ']'] ++ [.mark ')'] := rfl
      rw [listTokens, List.foldlM_append, opening, last, ← List.append_assoc]
      simp only [Option.bind_eq_bind, Option.bind_some]
      rw [List.foldlM_append, inside]
      rfl

end ListReading

open ListReading

/-- The JSON value that a literal was made from. -/
def readLiteral (text : String) : Option Json :=
  (scan text.toList).foldlM step ⟨[], .value⟩ >>= finish

/-- The text falls into tokens, and these are read as the value. -/
structure LiteralOf (value : Json) (text : String) : Prop where
  scans : ScansTo text (scan text.toList)
  reads : ReadsAs (scan text.toList) value

namespace LiteralOf

theorem of_scansTo {text : String} {tokens : List Token} {value : Json} (hs : ScansTo text tokens)
    (hr : ReadsAs tokens value) : LiteralOf value text where
  scans := by rwa [hs.scan_eq]
  reads := by rwa [hs.scan_eq]

theorem readLiteral_eq {text : String} {value : Json} (h : LiteralOf value text) :
    readLiteral text = some value := by
  rw [readLiteral, h.reads]
  rfl

theorem list {items : List Json} {text : Json → String} (h : ∀ j ∈ items, LiteralOf j (text j)) :
    LiteralOf (.array items) (Literal.listOf (items.map text)) := by
  have reads := readsAs_list fun j hj => (h j hj).reads
  rw [List.map_id'] at reads
  exact of_scansTo (.listOf fun j hj => (h j hj).scans) reads

end LiteralOf

/-- Neither objects nor reals are in the value, integers have 64 bits with a sign, and no string holds a
quote. -/
inductive Json.Plain : Json → Prop
  | null : Plain null
  | bool (b : Bool) : Plain (bool b)
  | integer {n : Int} : Int64.minValue.toInt ≤ n → n ≤ Int64.maxValue.toInt → Plain (integer n)
  | string {s : String} : '\'' ∉ s.toList → Plain (string s)
  | array {items : List Json} : (∀ item ∈ items, Plain item) → Plain (array items)

theorem Literal.render_ofInteger {n : Int} (low : Int64.minValue.toInt ≤ n)
    (high : n ≤ Int64.maxValue.toInt) : (ofInteger n).render = n.repr := by
  rw [ofInteger, if_pos ⟨low, high⟩, render, Int64.toInt_ofInt_of_le]
  · exact low
  · exact Int.lt_add_one_of_le high

theorem Json.Plain.literalOf {j : Json} (h : j.Plain) : LiteralOf j (Literal.ofJson j).render := by
  induction h with
  | null =>
      have word := scansTo_word (by decide : Text.isIdentifier "dynamic" = true)
      have inside := (scansTo_word (by decide : Text.isIdentifier "null" = true)).inParentheses true
      exact .of_scansTo (word.append inside fun rest => ends_cons (by decide) _) fun _ => rfl
  | bool b =>
      cases b with
      | true => exact .of_scansTo (scansTo_word (by decide)) fun _ => rfl
      | false => exact .of_scansTo (scansTo_word (by decide)) fun _ => rfl
  | @integer n low high =>
      rw [Literal.ofJson, Literal.render_ofInteger low high]
      exact .of_scansTo (fun _ hr => scan_integer n hr) (readsAs_integer n)
  | string h => exact .of_scansTo (scansTo_quoted h) fun _ => rfl
  | array _ ih =>
      rw [Literal.ofJson, Literal.render_array, Literal.renderList, Literal.ofItems_eq_map, List.map_map]
      exact .list ih

theorem CommandLine.literal_eq {φ : Type} {explain : String → Json.Fault → φ} {text : String}
    {j : Json} (h : readJson explain text = .ok j) :
    literal explain text = .ok (Literal.ofJson j).render := by
  rw [literal, h]
  rfl

/-- The literal of such a value is read as this value, so no other one has it, and texts of JSON give the
same literal on the command line only if they hold the same value. -/
theorem literal_decodes {j : Json} (h : j.Plain) :
    readLiteral (Literal.ofJson j).render = some j ∧
      ∀ k : Json, k.Plain →
        ((Literal.ofJson k).render = (Literal.ofJson j).render ↔ k = j) ∧
        ∀ (φ : Type) (explain : String → Json.Fault → φ) text other,
          CommandLine.readJson explain text = .ok j → CommandLine.readJson explain other = .ok k →
            (CommandLine.literal explain other = CommandLine.literal explain text ↔ k = j) := by
  have readJ := h.literalOf.readLiteral_eq
  refine ⟨readJ, fun k hk => ?_⟩
  have unique : (Literal.ofJson k).render = (Literal.ofJson j).render ↔ k = j := by
    constructor
    · intro same
      have readK := hk.literalOf.readLiteral_eq
      rw [same, readJ, Option.some_inj] at readK
      exact readK.symm
    · rintro rfl
      rfl
  refine ⟨unique, fun φ explain text other htext hother => ?_⟩
  rw [CommandLine.literal_eq htext, CommandLine.literal_eq hother, Except.ok.injEq, unique]

/-- The string looks like the end of a list and the start of another. The texts hold an empty list, the
same list with a gap in it, and `null`. -/
theorem nested_literal_decodes :
    Json.Plain (.array [.array [.string "]),\n\tdynamic([", .null], .integer (-3)]) ∧
      readLiteral (Literal.ofJson
          (.array [.array [.string "]),\n\tdynamic([", .null], .integer (-3)])).render =
        some (.array [.array [.string "]),\n\tdynamic([", .null], .integer (-3)]) ∧
      (Literal.ofJson (.array [.array [], .array [.null], .integer (-3)])).render ≠
        (Literal.ofJson
          (.array [.array [.string "]),\n\tdynamic([", .null], .integer (-3)])).render ∧
      CommandLine.readJson (fun text _ => text) "[]" = .ok (.array []) ∧
      CommandLine.readJson (fun text _ => text) "[\t]" = .ok (.array []) ∧
      CommandLine.readJson (fun text _ => text) "null" = .ok .null ∧
      CommandLine.literal (fun text _ => text) "[\t]" =
        CommandLine.literal (fun text _ => text) "[]" ∧
      CommandLine.literal (fun text _ => text) "null" ≠
        CommandLine.literal (fun text _ => text) "[]" := by
  have number : (Json.integer (-3)).Plain := .integer (by decide) (by decide)
  have inner : (Json.array [.string "]),\n\tdynamic([", .null]).Plain := by
    refine .array (List.forall_mem_cons.mpr ⟨.string (by decide), ?_⟩)
    exact List.forall_mem_singleton.mpr .null
  have plain : Json.Plain (.array [.array [.string "]),\n\tdynamic([", .null], .integer (-3)]) :=
    .array (List.forall_mem_cons.mpr ⟨inner, List.forall_mem_singleton.mpr number⟩)
  have empty : (Json.array []).Plain := .array (List.forall_mem_nil _)
  have split : Json.Plain (.array [.array [], .array [.null], .integer (-3)]) := by
    refine .array (List.forall_mem_cons.mpr ⟨empty, ?_⟩)
    refine List.forall_mem_cons.mpr ⟨.array (List.forall_mem_singleton.mpr .null), ?_⟩
    exact List.forall_mem_singleton.mpr number
  have closed : CommandLine.readJson (fun text _ => text) "[]" = .ok (.array []) := by
    refine CommandLine.readJson_eq_ok _ ?_
    rw [Json.read]
    rw [Json.value]
    rfl
  have spaced : CommandLine.readJson (fun text _ => text) "[\t]" = .ok (.array []) := by
    refine CommandLine.readJson_eq_ok _ ?_
    rw [Json.read]
    rw [Json.value]
    rfl
  have nothing : CommandLine.readJson (fun text _ => text) "null" = .ok .null := by
    refine CommandLine.readJson_eq_ok _ ?_
    rw [Json.read]
    rw [Json.value]
    rfl
  obtain ⟨read, others⟩ := literal_decodes plain
  obtain ⟨-, texts⟩ := literal_decodes empty
  refine ⟨plain, read, fun same => ?_, closed, spaced, nothing,
    ((texts _ empty).2 _ _ _ _ closed spaced).mpr rfl, fun same => ?_⟩
  · have equal := (others _ split).1.mp same
    injection equal with items
    injection items with first _
    injection first with items
    cases items
  · cases ((texts _ .null).2 _ _ _ _ closed nothing).mp same

end Kql
