import Kql.Proofs.Substitution
import Mathlib.Data.List.Infix

/-!
Templates that stand one behind the other. Where no placeholder reaches from the first into the second,
each of them is cut into pieces on its own, so the rendering of both is that of the first followed by
that of the second. A character that occurs in no placeholder keeps the texts at its sides apart.
-/

namespace Kql.Template

open Text (isBlank)

/-! ## Looking for placeholders -/

def StartsWithPlaceholder (text : List Char) : Prop := ∃ o : Occurrence text, o.start = 0

theorem startsWithPlaceholder_iff {text : List Char} :
    StartsWithPlaceholder text ↔ (placeholder? text).isSome = true := by
  constructor
  · rintro ⟨o, hstart⟩
    have split := o.split
    rw [List.length_eq_zero_iff.mp hstart, List.nil_append] at split
    rw [← split, placeholder?_append o.spelled]
    rfl
  · intro found
    obtain ⟨⟨name, rest⟩, h⟩ := Option.isSome_iff_exists.mp found
    obtain ⟨placeholder, spelled, split⟩ := exists_of_placeholder?_eq_some h
    exact ⟨⟨name, [], placeholder, rest, spelled, split.symm⟩, rfl⟩

instance (text : List Char) : Decidable (StartsWithPlaceholder text) :=
  decidable_of_iff _ startsWithPlaceholder_iff.symm

theorem placeholder?_eq_none_iff {text : List Char} :
    placeholder? text = none ↔ ¬ StartsWithPlaceholder text := by
  rw [startsWithPlaceholder_iff, Option.not_isSome_iff_eq_none]

/-- An occurrence in a text is one in every longer text that ends in it. -/
def Occurrence.prepend {rest : List Char} (front : List Char) (o : Occurrence rest) :
    Occurrence (front ++ rest) where
  name := o.name
  before := front ++ o.before
  placeholder := o.placeholder
  behind := o.behind
  spelled := o.spelled
  split := by rw [List.append_assoc, o.split]

theorem isEmpty_occurrence_iff {text : List Char} :
    IsEmpty (Occurrence text) ↔ ∀ rest ∈ text.tails, ¬ StartsWithPlaceholder rest := by
  constructor
  · rintro h rest htail ⟨o, -⟩
    obtain ⟨front, rfl⟩ := (List.mem_tails rest text).mp htail
    exact h.false (o.prepend front)
  · intro h
    refine ⟨fun o => h (o.placeholder ++ o.behind) ?_ ?_⟩
    · rw [List.mem_tails]
      exact ⟨o.before, o.split⟩
    · exact ⟨⟨o.name, [], o.placeholder, o.behind, o.spelled, rfl⟩, rfl⟩

instance (text : List Char) : Decidable (IsEmpty (Occurrence text)) :=
  decidable_of_iff _ isEmpty_occurrence_iff.symm

/-- Where there is no placeholder, every character stands for itself. -/
theorem piecesAfter_of_isEmpty {text : List Char} (h : IsEmpty (Occurrence text)) :
    piecesAfter [] text = text.map Piece.char := by
  induction text with
  | nil => rw [piecesAfter_nil]; rfl
  | cons c rest ih =>
      have none : placeholder? (c :: rest) = none :=
        placeholder?_eq_none_iff.mpr fun ⟨o, _⟩ => h.false o
      have later : IsEmpty (Occurrence rest) := ⟨fun o => h.false (o.prepend [c])⟩
      rw [piecesAfter_of_placeholder?_eq_none none, piecesAfter_eq_append, ih later]
      rfl

theorem mapM_pieceText_char (params : Params) (text : List Char) :
    (text.map Piece.char).mapM (pieceText params) = .ok (text.map Char.toString) := by
  induction text with
  | nil => rfl
  | cons c rest ih =>
      rw [List.map_cons, List.mapM_cons, ih]
      rfl

theorem join_map_toString (text : List Char) :
    String.join (text.map Char.toString) = String.ofList text := by
  rw [← String.toList_inj, String.toList_join, List.flatMap_map]
  simp

/-- A template renders to itself, whatever the parameters, exactly when it has no placeholder. -/
theorem render_eq_self_iff {template : String} :
    (∀ params, render template params = .ok template) ↔ IsEmpty (Occurrence template.toList) := by
  constructor
  · intro same
    refine ⟨fun o => ?_⟩
    obtain ⟨cut, hcut⟩ := exists_cut template.toList
    have missing : o.name ∉ ([] : Params).map Prod.fst := List.not_mem_nil
    obtain ⟨first, -, -, failed⟩ := cut.mapM_pieceText_of_missing missing
    have whole := same []
    rw [render, pieces, ← hcut, failed] at whole
    cases whole
  · intro h params
    rw [render, pieces, piecesAfter_of_isEmpty h, mapM_pieceText_char]
    change Except.ok (String.join _) = _
    rw [join_map_toString, String.ofList_toList]

/-! ## Two texts -/

/-- No placeholder starts in the first text and ends in the second. -/
def NoneAcross (front rest : List Char) : Prop :=
  ∀ o : Occurrence (front ++ rest), o.before ++ o.placeholder <+: front ∨ front <+: o.before

theorem NoneAcross.of_append {first front rest : List Char} (h : NoneAcross (first ++ front) rest) :
    NoneAcross front rest := by
  intro o
  have split : first ++ o.before ++ (o.placeholder ++ o.behind) = first ++ front ++ rest := by
    rw [List.append_assoc, o.split, List.append_assoc]
  rcases h ⟨o.name, first ++ o.before, o.placeholder, o.behind, o.spelled, split⟩ with inside | behind
  · rw [List.append_assoc, List.prefix_append_right_inj] at inside
    exact .inl inside
  · rw [List.prefix_append_right_inj] at behind
    exact .inr behind

theorem piecesAfter_append {front rest : List Char} (h : NoneAcross front rest) :
    piecesAfter [] (front ++ rest) = piecesAfter [] front ++ piecesAfter [] rest := by
  match found : placeholder? front with
  | some (name, later) =>
    have shorter := length_of_placeholder?_eq_some found
    obtain ⟨placeholder, spelled, split⟩ := exists_of_placeholder?_eq_some found
    rw [split] at h ⊢
    rw [List.append_assoc, piecesAfter_of_placeholder?_eq_some (placeholder?_append spelled _),
      piecesAfter_of_placeholder?_eq_some (placeholder?_append spelled _), piecesAfter_eq_append,
      piecesAfter_append h.of_append, piecesAfter_eq_append [_] later, List.append_assoc]
  | none =>
    match front with
    | [] =>
      rw [piecesAfter_nil]
      rfl
    | c :: front =>
      -- what would start here ends in the first text, where it would have been found
      have none : placeholder? (c :: (front ++ rest)) = none := by
        rw [placeholder?_eq_none_iff]
        rintro ⟨o, hstart⟩
        have hbefore := List.length_eq_zero_iff.mp hstart
        rcases h o with ⟨later, inside⟩ | behind
        · rw [hbefore, List.nil_append] at inside
          rw [← inside, placeholder?_append o.spelled] at found
          cases found
        · rw [hbefore, List.prefix_nil] at behind
          cases behind
      have later : NoneAcross front rest := NoneAcross.of_append (List.singleton_append ▸ h)
      rw [List.cons_append, piecesAfter_of_placeholder?_eq_none none,
        piecesAfter_of_placeholder?_eq_none found, piecesAfter_eq_append, piecesAfter_append later,
        piecesAfter_eq_append [_] front, List.append_assoc]
termination_by front.length

theorem render_append {front rest : String} (h : NoneAcross front.toList rest.toList)
    (params : Params) : render (front ++ rest) params = do
      let text ← render front params
      return text ++ (← render rest params) := by
  simp only [render, pieces, String.toList_append, piecesAfter_append h, List.mapM_append, bind_assoc,
    pure_bind, String.join_append]

/-! ## Characters that keep placeholders apart -/

/-- The character may stand in a placeholder. -/
def isPlaceholderChar (c : Char) : Bool := isBlank c || isNameChar c || c == '{' || c == '}'

theorem IsPlaceholder.isPlaceholderChar {name : String} {text : List Char}
    (h : IsPlaceholder name text) {c : Char} (hc : c ∈ text) : isPlaceholderChar c = true := by
  cases h with
  | @intro left right more first hl hf hm hr =>
      simp only [List.mem_cons, List.mem_append, List.not_mem_nil, or_false] at hc
      simp only [Template.isPlaceholderChar, Bool.or_eq_true, beq_iff_eq]
      have names := isNameChar_of_isNameStart hf
      rcases hc with rfl | rfl | hc | rfl | hc | hc | rfl | rfl
      · exact .inl (.inr rfl)
      · exact .inl (.inr rfl)
      · exact .inl (.inl (.inl (hl c hc)))
      · exact .inl (.inl (.inr names))
      · exact .inl (.inl (.inr (hm c hc)))
      · exact .inl (.inl (.inl (hr c hc)))
      · exact .inr rfl
      · exact .inr rfl

/-- Nothing reaches over a character that occurs in no placeholder. Behind it a placeholder can start
only at a brace. -/
theorem noneAcross_of_isPlaceholderChar_eq_false {c : Char} (hc : isPlaceholderChar c = false)
    {gap : List Char} (hgap : '{' ∉ gap) (front rest : List Char) :
    NoneAcross (front ++ c :: gap) rest := by
  rintro ⟨name, before, placeholder, behind, spelled, split⟩
  obtain ⟨inner, hbraces, -⟩ := spelled.eq_braces_cons
  rw [List.append_assoc, List.cons_append] at split
  rcases List.append_eq_append_iff.mp split with ⟨between, rfl, hfront⟩ | ⟨skipped, rfl, hrest⟩
  · left
    rcases List.append_eq_append_iff.mp hfront with ⟨later, rfl, -⟩ | ⟨shared, rfl, hshared⟩
    · exact ⟨later ++ c :: gap, by simp⟩
    · cases shared with
      | nil => exact ⟨c :: gap, by simp⟩
      | cons d more =>
          obtain ⟨rfl, -⟩ := List.cons.inj hshared
          rw [spelled.isPlaceholderChar (List.mem_append_right _ List.mem_cons_self)] at hc
          cases hc
  · right
    rw [List.prefix_append_right_inj]
    cases skipped with
    | nil =>
        rw [hbraces] at hrest
        obtain ⟨rfl, -⟩ := List.cons.inj hrest
        cases hc
    | cons d skipped =>
        obtain ⟨rfl, hgaps⟩ := List.cons.inj hrest
        rw [List.cons_prefix_cons]
        refine ⟨rfl, ?_⟩
        rcases List.append_eq_append_iff.mp hgaps with ⟨later, rfl, -⟩ | ⟨shared, rfl, hshared⟩
        · exact List.prefix_append _ _
        · cases shared with
          | nil => rw [List.append_nil]
          | cons e more =>
              rw [hbraces] at hshared
              obtain ⟨rfl, -⟩ := List.cons.inj hshared
              exact absurd (List.mem_append_right _ List.mem_cons_self) hgap

end Kql.Template
