import Kql.Proofs.Tokens
import Kql.Template

/-!
Where the placeholders of a template are. A placeholder at the start of a text is found whatever comes
behind it. Opening braces stand nowhere in a placeholder but at its start, so two placeholders of one
text, wherever they start, do not overlap.
-/

namespace Kql.Template

open Text (isBlank)

/-- The text is a placeholder for the name: two pairs of braces with the name between them, and white
space around it. -/
inductive IsPlaceholder : String → List Char → Prop
  | intro {left right more : List Char} {first : Char} : (∀ c ∈ left, isBlank c = true) →
      isNameStart first = true → (∀ c ∈ more, isNameChar c = true) →
      (∀ c ∈ right, isBlank c = true) →
      IsPlaceholder (String.ofList (first :: more))
        ('{' :: '{' :: (left ++ first :: (more ++ (right ++ ['}', '}']))))

theorem isBlank_of_isNameChar {c : Char} (h : isNameChar c = true) : isBlank c = false := by
  have code : c.toNat = 95 ∨ (65 ≤ c.toNat ∧ c.toNat ≤ 90 ∨ 97 ≤ c.toNat ∧ c.toNat ≤ 122) ∨
      48 ≤ c.toNat ∧ c.toNat ≤ 57 := by
    delta isNameChar Char.isAlphanum Char.isAlpha Char.isUpper Char.isLower Char.isDigit at h
    simp only [Bool.or_eq_true, Bool.and_eq_true, decide_eq_true_eq, beq_iff_eq,
      UInt32.le_iff_toNat_le] at h
    rcases h with h | rfl
    · exact .inr h
    · exact .inl rfl
  simp only [isBlank, Text.Ranges.holds, Text.blankRanges, List.any_cons, List.any_nil,
    Bool.or_eq_false_iff, Bool.and_eq_false_iff, decide_eq_false_iff_not, and_true]
  omega

theorem isNameChar_of_isNameStart {c : Char} (h : isNameStart c = true) : isNameChar c = true := by
  simp only [isNameStart, isNameChar, Char.isAlphanum, Bool.or_eq_true] at h ⊢
  rcases h with h | h
  · exact .inl (.inl h)
  · exact .inr h

theorem isNameChar_of_isBlank {c : Char} (h : isBlank c = true) : isNameChar c = false := by
  rw [Bool.eq_false_iff]
  intro hn
  rw [isBlank_of_isNameChar hn] at h
  cases h

theorem placeholder?_append {name : String} {text : List Char} (h : IsPlaceholder name text)
    (rest : List Char) : placeholder? (text ++ rest) = some (name, rest) := by
  cases h with
  | @intro left right more first hl hf hm hr =>
      have close : Ends isBlank ('}' :: '}' :: rest) := ends_cons (by decide) _
      have stop : Ends isNameChar (right ++ '}' :: '}' :: rest) := by
        cases right with
        | nil => exact ends_cons (by decide) _
        | cons c more => exact ends_cons (isNameChar_of_isBlank (hr c List.mem_cons_self)) _
      have start : Ends isBlank (first :: (more ++ (right ++ '}' :: '}' :: rest))) :=
        ends_cons (isBlank_of_isNameChar (isNameChar_of_isNameStart hf)) _
      obtain ⟨take, drop⟩ := takeWhile_append_of_ends hm stop
      simp [placeholder?, (takeWhile_append_of_ends hl start).2, hf, take, drop,
        (takeWhile_append_of_ends hr close).2]

theorem exists_of_placeholder?_eq_some {cs rest : List Char} {name : String}
    (h : placeholder? cs = some (name, rest)) :
    ∃ text, IsPlaceholder name text ∧ cs = text ++ rest := by
  unfold placeholder? at h
  split at h
  · next inner =>
    split at h
    · cases h
    · next first more hinner =>
      split at h
      · next hf =>
        split at h
        · next rest' hrest =>
          cases h
          have left : ∀ c ∈ inner.takeWhile isBlank, isBlank c = true := fun c hc =>
            List.mem_takeWhile_imp hc
          have names : ∀ c ∈ more.takeWhile isNameChar, isNameChar c = true := fun c hc =>
            List.mem_takeWhile_imp hc
          have right : ∀ c ∈ (more.dropWhile isNameChar).takeWhile isBlank, isBlank c = true :=
            fun c hc => List.mem_takeWhile_imp hc
          refine ⟨_, .intro left hf names right, ?_⟩
          have tail : more = more.takeWhile isNameChar ++
              ((more.dropWhile isNameChar).takeWhile isBlank ++ '}' :: '}' :: rest) := by
            rw [← hrest, List.takeWhile_append_dropWhile, List.takeWhile_append_dropWhile]
          have whole : inner = inner.takeWhile isBlank ++ first :: more := by
            rw [← hinner, List.takeWhile_append_dropWhile]
          simp only [List.cons_append, List.append_assoc, List.nil_append, ← tail, ← whole]
        · cases h
      · cases h
  · cases h

/-- Braces open a placeholder and occur nowhere behind that. -/
theorem IsPlaceholder.eq_braces_cons {name : String} {text : List Char} (h : IsPlaceholder name text) :
    ∃ inner, text = '{' :: '{' :: inner ∧ '{' ∉ inner ∧ inner ≠ [] := by
  cases h with
  | @intro left right more first hl hf hm hr =>
      refine ⟨_, rfl, ?_, by simp⟩
      have notName : isNameChar '{' = false := by decide
      have notBlank : isBlank '{' = false := by decide
      simp only [List.mem_append, List.mem_cons, List.not_mem_nil, or_false, not_or]
      refine ⟨fun hc => ?_, ?_, fun hc => ?_, fun hc => ?_, by decide, by decide⟩
      · rw [hl _ hc] at notBlank
        cases notBlank
      · rintro rfl
        rw [isNameChar_of_isNameStart hf] at notName
        cases notName
      · rw [hm _ hc] at notName
        cases notName
      · rw [hr _ hc] at notBlank
        cases notBlank

/-- Behind the start of a placeholder no other one starts before it ends. -/
theorem IsPlaceholder.isPrefix_of_behind {name name' : String}
    {text text' skipped rest rest' : List Char} (h : IsPlaceholder name text)
    (h' : IsPlaceholder name' text') (hs : skipped ≠ [])
    (split : text ++ rest = skipped ++ (text' ++ rest')) : text <+: skipped := by
  obtain ⟨inner, rfl, fresh, nonempty⟩ := h.eq_braces_cons
  obtain ⟨inner', rfl, _, _⟩ := h'.eq_braces_cons
  rcases List.append_eq_append_iff.mp split with ⟨between, rfl, _⟩ | ⟨overlap, htext, hrest⟩
  · exact List.prefix_append _ _
  · match skipped, overlap with
    | skipped, [] =>
      rw [List.append_nil] at htext
      exact htext ▸ List.prefix_rfl
    | [_], c :: overlap =>
      -- the second brace of the one would be the first of the other
      obtain ⟨_, _, rfl⟩ : '{' = _ ∧ '{' = c ∧ inner = overlap := by simpa using htext
      cases inner with
      | nil => exact absurd rfl nonempty
      | cons d more =>
          obtain ⟨_, rfl, _⟩ : '{' = c ∧ '{' = d ∧ inner' ++ rest' = more ++ rest := by
            simpa using hrest
          exact absurd List.mem_cons_self fresh
    | _ :: _ :: skipped, c :: overlap =>
      obtain ⟨_, _, rfl⟩ : '{' = _ ∧ '{' = _ ∧ inner = skipped ++ c :: overlap := by
        simpa using htext
      obtain rfl : '{' = c := (List.cons.inj hrest).1
      exact absurd (List.mem_append_right _ List.mem_cons_self) fresh

/-- A placeholder in a text, with what stands before and behind it. -/
structure Occurrence (text : List Char) where
  name : String
  before : List Char
  placeholder : List Char
  behind : List Char
  spelled : IsPlaceholder name placeholder
  split : before ++ (placeholder ++ behind) = text

namespace Occurrence

variable {text : List Char}

def start (o : Occurrence text) : Nat := o.before.length

def stop (o : Occurrence text) : Nat := o.before.length + o.placeholder.length

theorem eq_of_before_eq {o o' : Occurrence text} (h : o.before = o'.before) : o = o' := by
  obtain ⟨name, before, placeholder, behind, spelled, rfl⟩ := o
  obtain ⟨name', before', placeholder', behind', spelled', split⟩ := o'
  cases h
  have same := List.append_cancel_left split
  have found := placeholder?_append spelled' behind'
  rw [same, placeholder?_append spelled, Option.some_inj, Prod.mk.injEq] at found
  obtain ⟨rfl, rfl⟩ := found
  cases List.append_cancel_right same
  rfl

theorem eq_or_isPrefix {o o' : Occurrence text} (h : o.before <+: o'.before) :
    o = o' ∨ o.before ++ o.placeholder <+: o'.before := by
  obtain ⟨skipped, hskipped⟩ := h
  by_cases hs : skipped = []
  · left
    apply eq_of_before_eq
    rw [← hskipped, hs, List.append_nil]
  · right
    have split : o.placeholder ++ o.behind = skipped ++ (o'.placeholder ++ o'.behind) := by
      have whole := o.split.trans o'.split.symm
      rw [← hskipped, List.append_assoc] at whole
      exact List.append_cancel_left whole
    rw [← hskipped, List.prefix_append_right_inj]
    exact o.spelled.isPrefix_of_behind o'.spelled hs split

theorem stop_le_of_isPrefix {o o' : Occurrence text} (h : o.before ++ o.placeholder <+: o'.before) :
    o.stop ≤ o'.start := by
  have bound := h.length_le
  rw [List.length_append] at bound
  exact bound

theorem eq_or_apart (o o' : Occurrence text) : o = o' ∨ o.stop ≤ o'.start ∨ o'.stop ≤ o.start := by
  have ho : o.before <+: text := ⟨_, o.split⟩
  have ho' : o'.before <+: text := ⟨_, o'.split⟩
  rcases List.prefix_or_prefix_of_prefix ho ho' with h | h
  · exact (eq_or_isPrefix h).imp_right fun later => .inl (stop_le_of_isPrefix later)
  · rcases eq_or_isPrefix h with rfl | later
    · exact .inl rfl
    · exact .inr (.inr (stop_le_of_isPrefix later))

end Occurrence

end Kql.Template
