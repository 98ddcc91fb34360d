import Kql.Proofs.Placeholders

/-!
Rendering a template is simultaneous substitution. The template is cut into pieces from the left, and
since placeholders do not overlap, this finds every placeholder that there is. Each of them is replaced
by the text of its parameter, and nothing that was put in is looked at again.
-/

namespace Kql.Template

/-- The piece is written as these characters. -/
inductive WrittenAs : Piece → List Char → Prop
  | char (c : Char) : WrittenAs (.char c) [c]
  | placeholder {name : String} {text : List Char} : IsPlaceholder name text →
      WrittenAs (.placeholder name) text

/-- A piece of a text with the characters it was cut from. -/
structure Part where
  piece : Piece
  source : List Char
  written : WrittenAs piece source

/-- A text cut into its pieces. Every placeholder in the text is one of them. -/
structure Cut (text : List Char) where
  parts : List Part
  whole : parts.flatMap Part.source = text
  complete : ∀ o : Occurrence text, ∃ before part after, parts = before ++ part :: after ∧
    part.piece = .placeholder o.name ∧ before.flatMap Part.source = o.before

namespace Occurrence

/-- What starts behind the first characters of a text is an occurrence in the rest. -/
theorem exists_behind {front rest : List Char} (o : Occurrence (front ++ rest))
    (h : front <+: o.before) :
    ∃ o' : Occurrence rest, o'.name = o.name ∧ front ++ o'.before = o.before := by
  obtain ⟨before, hbefore⟩ := h
  have split := o.split
  rw [← hbefore, List.append_assoc, List.append_cancel_left_eq] at split
  exact ⟨⟨o.name, before, o.placeholder, o.behind, o.spelled, split⟩, rfl, hbefore⟩

theorem before_ne_nil {text : List Char} (o : Occurrence text) (h : placeholder? text = none) :
    o.before ≠ [] := by
  intro hb
  have split := o.split
  rw [hb, List.nil_append] at split
  have found := placeholder?_append o.spelled o.behind
  rw [split, h] at found
  cases found

theorem isPrefix_of_before_ne_nil {c : Char} {rest : List Char} (o : Occurrence (c :: rest))
    (h : o.before ≠ []) : [c] <+: o.before := by
  have split := o.split
  cases hb : o.before with
  | nil => exact absurd hb h
  | cons d before =>
      rw [hb] at split
      obtain ⟨rfl, _⟩ := List.cons.inj split
      exact List.prefix_append [d] before

end Occurrence

namespace Cut

def nil : Cut [] where
  parts := []
  whole := rfl
  complete o := by
    obtain ⟨inner, h, _⟩ := o.spelled.eq_braces_cons
    have split := o.split
    rw [h] at split
    simp at split

/-- Adds a part in front, if every placeholder is the part itself or starts behind it. -/
def cons {rest : List Char} (first : Part) (cut : Cut rest)
    (h : ∀ o : Occurrence (first.source ++ rest),
      o.before = [] ∧ first.piece = .placeholder o.name ∨ first.source <+: o.before) :
    Cut (first.source ++ rest) where
  parts := first :: cut.parts
  whole := by rw [List.flatMap_cons, cut.whole]
  complete o := by
    rcases h o with ⟨hbefore, hpiece⟩ | hbehind
    · exact ⟨[], first, cut.parts, rfl, hpiece, hbefore.symm⟩
    · obtain ⟨o', hname, hbefore⟩ := o.exists_behind hbehind
      obtain ⟨before, part, after, hparts, hpiece, hsource⟩ := cut.complete o'
      refine ⟨first :: before, part, after, ?_, ?_, ?_⟩
      · rw [hparts, List.cons_append]
      · rw [hpiece, hname]
      · rw [List.flatMap_cons, hsource, hbefore]

end Cut

theorem exists_cut (text : List Char) :
    ∃ cut : Cut text, cut.parts.map Part.piece = piecesAfter [] text := by
  match h : placeholder? text with
  | some (name, rest) =>
    have shorter := length_of_placeholder?_eq_some h
    obtain ⟨cut, hcut⟩ := exists_cut rest
    obtain ⟨placeholder, hp, rfl⟩ := exists_of_placeholder?_eq_some h
    refine ⟨cut.cons ⟨.placeholder name, placeholder, .placeholder hp⟩ fun o => ?_, ?_⟩
    · let first : Occurrence (placeholder ++ rest) := ⟨name, [], placeholder, rest, hp, rfl⟩
      have start : first.before <+: o.before := List.nil_prefix
      rcases Occurrence.eq_or_isPrefix start with rfl | later
      · exact .inl ⟨rfl, rfl⟩
      · exact .inr later
    · rw [piecesAfter_of_placeholder?_eq_some h, piecesAfter_eq_append, ← hcut]
      rfl
  | none =>
    match text with
    | [] => exact ⟨.nil, by rw [piecesAfter_nil]; rfl⟩
    | c :: rest =>
      obtain ⟨cut, hcut⟩ := exists_cut rest
      refine ⟨cut.cons ⟨.char c, [c], .char c⟩ fun o => .inr ?_, ?_⟩
      · exact o.isPrefix_of_before_ne_nil (o.before_ne_nil h)
      · rw [piecesAfter_of_placeholder?_eq_none h, piecesAfter_eq_append, ← hcut]
        rfl
termination_by text.length

/-! ## Filling in the parameters -/

def fillPiece (value : String → String) : Piece → String
  | .char c => c.toString
  | .placeholder name => value name

/-- The text with a value in the place of each placeholder, and all else as it was. -/
def Cut.fill {text : List Char} (cut : Cut text) (value : String → String) : String :=
  String.join (cut.parts.map fun part => fillPiece value part.piece)

/-- What an occurrence in the text is, some part of the text is. -/
theorem Cut.exists_occurrence {text : List Char} (cut : Cut text) {before after : List Part}
    {part : Part} {name : String} (h : cut.parts = before ++ part :: after)
    (hp : part.piece = .placeholder name) :
    ∃ o : Occurrence text, o.name = name ∧ o.before = before.flatMap Part.source := by
  obtain ⟨piece, source, written⟩ := part
  subst hp
  cases written with
  | placeholder spelled =>
      refine ⟨⟨name, before.flatMap Part.source, source, after.flatMap Part.source, spelled, ?_⟩,
        rfl, rfl⟩
      rw [← cut.whole, h, List.flatMap_append, List.flatMap_cons]

/-- The text of a parameter, if there is one. -/
def valueOf (params : Params) (name : String) : String := (params.lookup name).elim "" paramText

/-- The piece is a placeholder without a parameter. -/
def lacks (params : Params) : Piece → Bool
  | .char _ => false
  | .placeholder name => (params.lookup name).isNone

variable {params : Params}

theorem lacks_placeholder {name : String} :
    lacks params (.placeholder name) = true ↔ name ∉ params.map Prod.fst := by
  rw [lacks, Option.isNone_iff_eq_none, List.lookup_eq_none_iff]
  constructor
  · intro absent hm
    obtain ⟨entry, hentry, rfl⟩ := List.mem_map.mp hm
    simpa using absent entry hentry
  · intro absent entry hentry
    rw [bne_iff_ne]
    rintro rfl
    exact absent (List.mem_map_of_mem hentry)

theorem pieceText_of_lacks_eq_false {piece : Piece} (h : lacks params piece = false) :
    pieceText params piece = .ok (fillPiece (valueOf params) piece) := by
  cases piece with
  | char c => rfl
  | placeholder name =>
      cases hl : params.lookup name with
      | none => simp [lacks, hl] at h
      | some value => simp [pieceText, fillPiece, valueOf, hl]

theorem pieceText_of_lacks {name : String} (h : lacks params (.placeholder name) = true) :
    pieceText params (.placeholder name) = .error (.missingParameter name) := by
  cases hl : params.lookup name with
  | none => simp [pieceText, hl]
  | some value => simp [lacks, hl] at h

theorem mapM_pieceText {found : List Piece} (h : ∀ piece ∈ found, lacks params piece = false) :
    found.mapM (pieceText params) = .ok (found.map (fillPiece (valueOf params))) := by
  induction found with
  | nil => rfl
  | cons piece more ih =>
      obtain ⟨hp, hmore⟩ := List.forall_mem_cons.mp h
      rw [List.mapM_cons, pieceText_of_lacks_eq_false hp, ih hmore]
      rfl

theorem mapM_pieceText_of_lacks {before after : List Piece} {name : String}
    (h : ∀ piece ∈ before, lacks params piece = false)
    (hl : lacks params (.placeholder name) = true) :
    (before ++ .placeholder name :: after).mapM (pieceText params) =
      .error (.missingParameter name) := by
  rw [List.mapM_append, mapM_pieceText h, List.mapM_cons, pieceText_of_lacks hl]
  rfl

theorem Cut.mapM_pieceText_of_known {text : List Char} (cut : Cut text)
    (known : ∀ o : Occurrence text, o.name ∈ params.map Prod.fst) :
    (cut.parts.map Part.piece).mapM (pieceText params) =
      .ok (cut.parts.map fun part => fillPiece (valueOf params) part.piece) := by
  have all : ∀ piece ∈ cut.parts.map Part.piece, lacks params piece = false := by
    intro piece hpiece
    obtain ⟨part, hpart, rfl⟩ := List.mem_map.mp hpiece
    obtain ⟨before, after, hparts⟩ := List.append_of_mem hpart
    cases hp : part.piece with
    | char c => rfl
    | placeholder name =>
        obtain ⟨o, rfl, _⟩ := cut.exists_occurrence hparts hp
        rw [Bool.eq_false_iff, ne_eq, lacks_placeholder, not_not]
        exact known o
  rw [mapM_pieceText all, List.map_map]
  rfl

/-- Where `part` is the first that lacks its parameter, no occurrence that lacks one starts before. -/
theorem Cut.start_le_of_lacks {text : List Char} (cut : Cut text) {before after : List Part}
    {part : Part} (h : cut.parts = before ++ part :: after)
    (hbefore : ∀ part ∈ before, lacks params part.piece = false) (o : Occurrence text)
    (ho : o.name ∉ params.map Prod.fst) : (before.flatMap Part.source).length ≤ o.start := by
  obtain ⟨before', part', after', h', hp, hsource⟩ := cut.complete o
  rw [Occurrence.start, ← hsource]
  rcases List.append_eq_append_iff.mp (h.symm.trans h') with ⟨between, rfl, _⟩ | ⟨between, rfl, hb⟩
  · rw [List.flatMap_append, List.length_append]
    exact Nat.le_add_right _ _
  · cases between with
    | nil => rw [List.append_nil]
    | cons first more =>
        obtain ⟨rfl, _⟩ := List.cons.inj hb
        have known := hbefore part' (by simp)
        rw [hp, Bool.eq_false_iff, ne_eq, lacks_placeholder] at known
        exact absurd ho known

theorem Cut.mapM_pieceText_of_missing {text : List Char} (cut : Cut text) {o : Occurrence text}
    (ho : o.name ∉ params.map Prod.fst) :
    ∃ o : Occurrence text, o.name ∉ params.map Prod.fst ∧
      (∀ o' : Occurrence text, o'.name ∉ params.map Prod.fst → o.start ≤ o'.start) ∧
      (cut.parts.map Part.piece).mapM (pieceText params) = .error (.missingParameter o.name) := by
  cases hfind : cut.parts.find? fun part => lacks params part.piece with
  | none =>
      obtain ⟨before, part, after, hparts, hp, _⟩ := cut.complete o
      have hl := List.find?_eq_none.mp hfind part (by simp [hparts])
      rw [hp, lacks_placeholder] at hl
      exact absurd ho hl
  | some part =>
      obtain ⟨hl, before, after, hparts, hbefore⟩ := List.find?_eq_some_iff_append.mp hfind
      have known : ∀ part ∈ before, lacks params part.piece = false := by simpa using hbefore
      cases hp : part.piece with
      | char c =>
          rw [hp] at hl
          cases hl
      | placeholder name =>
          rw [hp] at hl
          obtain ⟨first, rfl, hstart⟩ := cut.exists_occurrence hparts hp
          refine ⟨first, lacks_placeholder.mp hl, fun o' ho' => ?_, ?_⟩
          · rw [Occurrence.start, hstart]
            exact cut.start_le_of_lacks hparts known o' ho'
          · rw [hparts, List.map_append, List.map_cons, hp]
            exact mapM_pieceText_of_lacks (List.forall_mem_map.mpr known) hl

/-- Placeholders do not overlap. If each of them has a parameter, rendering puts the texts of the
parameters in their places and keeps all else; if not, it complains of the leftmost one without. -/
theorem render_substitutes (template : String) (params : Params) :
    (∀ o o' : Occurrence template.toList, o = o' ∨ o.stop ≤ o'.start ∨ o'.stop ≤ o.start) ∧
      ((∀ o : Occurrence template.toList, o.name ∈ params.map Prod.fst) →
        ∃ cut : Cut template.toList, render template params = .ok (cut.fill (valueOf params))) ∧
      ((∃ o : Occurrence template.toList, o.name ∉ params.map Prod.fst) →
        ∃ o : Occurrence template.toList, o.name ∉ params.map Prod.fst ∧
          (∀ o' : Occurrence template.toList, o'.name ∉ params.map Prod.fst → o.start ≤ o'.start) ∧
          render template params = .error (.missingParameter o.name)) := by
  obtain ⟨cut, hcut⟩ := exists_cut template.toList
  refine ⟨Occurrence.eq_or_apart, fun known => ⟨cut, ?_⟩, fun ⟨o, ho⟩ => ?_⟩
  · rw [render, pieces, ← hcut, cut.mapM_pieceText_of_known known]
    rfl
  · obtain ⟨first, missing, leftmost, failed⟩ := cut.mapM_pieceText_of_missing ho
    refine ⟨first, missing, leftmost, ?_⟩
    rw [render, pieces, ← hcut, failed]
    rfl

example : render "{{ a }} {{b}}" [("a", .string "{{b}}"), ("b", .string "x")] = .ok "{{b}} x" := by
  cbv

end Kql.Template
