import Mathlib.Data.List.Basic

/-!
Round and square brackets in a text, and the bars outside of all of them. A text in which brackets pair
up is skipped as a whole when it is cut at these bars, if it holds none of them itself.
-/

namespace Kql.Text

def isOpening (c : Char) : Bool := c == '(' || c == '['

def isClosing (c : Char) : Bool := c == ')' || c == ']'

/-- What a character adds to the depth. -/
def weight (c : Char) : Int := if isOpening c then 1 else if isClosing c then -1 else 0

/-- The brackets that the text opens less those that it closes. -/
def depth : List Char → Int
  | [] => 0
  | c :: cs => weight c + depth cs

/-- The number of bars at depth zero, where the text starts at depth `level`. -/
def barCount (level : Int) : List Char → Nat
  | [] => 0
  | c :: cs => (if c = '|' ∧ level = 0 then 1 else 0) + barCount (level + weight c) cs

/-- The text cut just before each bar at depth zero, where the text starts at depth `level` and `part`
stands before it. -/
def cutAtBars (level : Int) (part : List Char) : List Char → List (List Char)
  | [] => [part]
  | c :: cs =>
    if c = '|' ∧ level = 0 then part :: cutAtBars level [c] cs
    else cutAtBars (level + weight c) (part ++ [c]) cs

/-- The brackets in the text pair up. Bars stand inside of them, or anywhere if `bars`. -/
inductive Paired : Bool → List Char → Prop
  | nil {bars : Bool} : Paired bars []
  | char {bars : Bool} {c : Char} {cs : List Char} : weight c = 0 → (c = '|' → bars = true) →
      Paired bars cs → Paired bars (c :: cs)
  | group {bars : Bool} {opening closing : Char} {inside rest : List Char} :
      weight opening = 1 → weight closing = -1 → Paired true inside → Paired bars rest →
      Paired bars (opening :: (inside ++ closing :: rest))

variable {bars : Bool} {cs ds before : List Char}

/-! ## Depth -/

theorem depth_append (cs ds : List Char) : depth (cs ++ ds) = depth cs + depth ds := by
  induction cs with
  | nil => simp [depth]
  | cons c more ih => rw [List.cons_append, depth, depth, ih, Int.add_assoc]

theorem Paired.depth_eq_zero (h : Paired bars cs) : depth cs = 0 := by
  induction h with
  | nil => rfl
  | char hc _ _ ih => rw [depth, hc, ih, Int.add_zero]
  | group ho hc _ _ ihInside ihRest =>
      rw [depth, depth_append, depth, ho, hc, ihInside, ihRest]
      rfl

theorem isPrefix_append_iff {front : List Char} :
    front <+: cs ++ ds ↔ front <+: cs ∨ ∃ more, front = cs ++ more ∧ more <+: ds := by
  constructor
  · intro h
    rcases List.prefix_or_prefix_of_prefix h (List.prefix_append cs ds) with within | ⟨more, rfl⟩
    · exact .inl within
    · exact .inr ⟨more, rfl, (List.prefix_append_right_inj cs).mp h⟩
  · rintro (within | ⟨more, rfl, h⟩)
    · exact within.trans (List.prefix_append cs ds)
    · exact (List.prefix_append_right_inj cs).mpr h

theorem Paired.depth_nonneg (h : Paired bars cs) (hb : before <+: cs) : 0 ≤ depth before := by
  induction h generalizing before with
  | nil =>
      rw [List.prefix_nil.mp hb]
      exact Int.le_refl 0
  | char hc _ _ ih =>
      rcases List.prefix_cons_iff.mp hb with rfl | ⟨more, rfl, hmore⟩
      · exact Int.le_refl 0
      · rw [depth, hc, Int.zero_add]
        exact ih hmore
  | group ho hc hinside _ ihInside ihRest =>
      rcases List.prefix_cons_iff.mp hb with rfl | ⟨more, rfl, hmore⟩
      · exact Int.le_refl 0
      · rw [depth, ho]
        rcases isPrefix_append_iff.mp hmore with within | ⟨behind, rfl, hbehind⟩
        · have inner := ihInside within
          omega
        · rw [depth_append, hinside.depth_eq_zero]
          rcases List.prefix_cons_iff.mp hbehind with rfl | ⟨last, rfl, hlast⟩
          · decide
          · have outer := ihRest hlast
            rw [depth, hc]
            omega

/-! ## Cutting -/

/-- From depth `level` the text leads to depth `level'`, and no bar in it is counted or cut at. -/
def Skips (level : Int) (cs : List Char) (level' : Int) : Prop :=
  ∀ part rest, barCount level (cs ++ rest) = barCount level' rest ∧
    cutAtBars level part (cs ++ rest) = cutAtBars level' (part ++ cs) rest

variable {level level' level'' : Int}

theorem skips_nil (level : Int) : Skips level [] level := by
  intro part rest
  rw [List.append_nil]
  exact ⟨rfl, rfl⟩

theorem skips_char {c : Char} (h : c = '|' → level ≠ 0) : Skips level [c] (level + weight c) := by
  intro part rest
  have inner : ¬ (c = '|' ∧ level = 0) := fun ⟨isBar, top⟩ => h isBar top
  rw [List.cons_append, List.nil_append, barCount, cutAtBars, if_neg inner, if_neg inner,
    Nat.zero_add]
  exact ⟨rfl, rfl⟩

theorem Skips.append (h : Skips level cs level') (h' : Skips level' ds level'') :
    Skips level (cs ++ ds) level'' := by
  intro part rest
  obtain ⟨count, cut⟩ := h part (ds ++ rest)
  obtain ⟨count', cut'⟩ := h' (part ++ cs) rest
  rw [List.append_assoc, count, cut, count', cut', List.append_assoc]
  exact ⟨rfl, rfl⟩

theorem ne_bar_of_weight_ne_zero {c : Char} (h : weight c ≠ 0) : c ≠ '|' := by
  rintro rfl
  exact h rfl

/-- A text without bars at depth zero is skipped as a whole. -/
theorem Paired.skips (h : Paired bars cs) (hl : 0 ≤ level) (hb : level = 0 → bars = false) :
    Skips level cs level := by
  induction h generalizing level with
  | nil => exact skips_nil level
  | @char bars c cs hc hbar _ ih =>
      have inner : Skips level [c] (level + weight c) := skips_char fun isBar top => by
        rw [hb top] at hbar
        cases hbar isBar
      rw [hc, Int.add_zero] at inner
      exact inner.append (ih hl hb)
  | @group bars opening closing inside rest ho hc _ _ ihInside ihRest =>
      have hopens : Skips level [opening] (level + 1) := by
        rw [← ho]
        exact skips_char fun isBar => absurd isBar (ne_bar_of_weight_ne_zero (by simp [ho]))
      have hcloses : Skips (level + 1) [closing] level := by
        have closed : Skips (level + 1) [closing] (level + 1 + weight closing) :=
          skips_char fun isBar => absurd isBar (ne_bar_of_weight_ne_zero (by simp [hc]))
        rw [hc, Int.add_neg_cancel_right] at closed
        exact closed
      have hinside : Skips (level + 1) inside (level + 1) :=
        ihInside (by omega) (fun top => by omega)
      exact hopens.append (hinside.append (hcloses.append (ihRest hl hb)))

/-- Behind a front without bars at depth zero, a text is cut where its lines start, if these hold no
other bars at depth zero than their first characters. -/
theorem cutAtBars_lines {front : List Char} {bodies : List (List Char)} (hf : Paired false front)
    (h : ∀ body ∈ bodies, Paired false body) (part : List Char) :
    barCount 0 (front ++ bodies.flatMap ('|' :: ·)) = bodies.length ∧
      cutAtBars 0 part (front ++ bodies.flatMap ('|' :: ·)) =
        (part ++ front) :: bodies.map ('|' :: ·) := by
  have top : (0 : Int) ≤ 0 := Int.le_refl 0
  induction bodies generalizing front part with
  | nil => exact hf.skips top (fun _ => rfl) part []
  | cons body more ih =>
      obtain ⟨hbody, hmore⟩ := List.forall_mem_cons.mp h
      obtain ⟨count, cut⟩ := hf.skips top (fun _ => rfl) part ((body :: more).flatMap ('|' :: ·))
      obtain ⟨countMore, cutMore⟩ := ih hbody hmore ['|']
      have weightBar : (0 : Int) + weight '|' = 0 := rfl
      rw [count, cut, List.flatMap_cons, List.cons_append, barCount, cutAtBars, if_pos ⟨rfl, rfl⟩,
        if_pos ⟨rfl, rfl⟩, weightBar, countMore, cutMore]
      exact ⟨Nat.add_comm 1 _, rfl⟩

/-! ## Texts put together -/

theorem Paired.append (h : Paired bars cs) (h' : Paired bars ds) : Paired bars (cs ++ ds) := by
  induction h with
  | nil => exact h'
  | char hc hbar _ ih => exact .char hc hbar (ih h')
  | group ho hc hinside _ _ ih =>
      rw [List.cons_append, List.append_assoc, List.cons_append]
      exact .group ho hc hinside (ih h')

theorem Paired.flatMap {α : Type} {f : α → List Char} {l : List α}
    (h : ∀ a ∈ l, Paired bars (f a)) : Paired bars (l.flatMap f) := by
  induction l with
  | nil => exact .nil
  | cons a more ih =>
      obtain ⟨ha, hmore⟩ := List.forall_mem_cons.mp h
      rw [List.flatMap_cons]
      exact ha.append (ih hmore)

theorem Paired.barred (h : Paired bars cs) : Paired true cs := by
  induction h with
  | nil => exact .nil
  | char hc _ _ ih => exact .char hc (fun _ => rfl) ih
  | group ho hc hinside _ _ ih => exact .group ho hc hinside ih

def isUnmarkedChar (c : Char) : Bool := weight c == 0 && c != '|'

/-- The text holds no brackets and no bars. -/
def isUnmarked (s : String) : Bool := s.toList.all isUnmarkedChar

/-- Brackets in the text pair up, and bars stand inside of them. -/
def Enclosed (s : String) : Prop := Paired false s.toList

variable {s t : String}

theorem enclosed_of_isUnmarked (h : isUnmarked s = true) : Enclosed s := by
  rw [isUnmarked, List.all_eq_true] at h
  rw [Enclosed]
  generalize s.toList = cs at h
  induction cs with
  | nil => exact .nil
  | cons c more ih =>
      obtain ⟨hc, hmore⟩ := List.forall_mem_cons.mp h
      simp only [isUnmarkedChar, Bool.and_eq_true, beq_iff_eq, bne_iff_ne] at hc
      exact .char hc.1 (fun isBar => absurd isBar hc.2) (ih hmore)

namespace Enclosed

theorem append (h : Enclosed s) (h' : Enclosed t) : Enclosed (s ++ t) := by
  rw [Enclosed, String.toList_append]
  exact Paired.append h h'

theorem behind {front : String} (h : Enclosed s) (hf : isUnmarked front = true) :
    Enclosed (front ++ s) :=
  (enclosed_of_isUnmarked hf).append h

/-- Texts without brackets and bars around a text change nothing about its brackets. -/
theorem between {front back : String} (h : Enclosed s) (hf : isUnmarked front = true)
    (hb : isUnmarked back = true) : Enclosed (front ++ s ++ back) :=
  (h.behind hf).append (enclosed_of_isUnmarked hb)

theorem round (h : Paired true s.toList) : Enclosed ("(" ++ s ++ ")") := by
  rw [Enclosed, String.toList_append, String.toList_append]
  exact .group rfl rfl h .nil

theorem square (h : Paired true s.toList) : Enclosed ("[" ++ s ++ "]") := by
  rw [Enclosed, String.toList_append, String.toList_append]
  exact .group rfl rfl h .nil

theorem intercalate {separator : String} (hs : isUnmarked separator = true) {items : List String}
    (h : ∀ item ∈ items, Enclosed item) : Enclosed (separator.intercalate items) := by
  induction items with
  | nil => exact .nil
  | cons item more ih =>
      obtain ⟨hitem, hmore⟩ := List.forall_mem_cons.mp h
      cases more with
      | nil =>
          rw [String.intercalate_singleton]
          exact hitem
      | cons next more =>
          rw [String.intercalate_cons_cons]
          exact (hitem.append (enclosed_of_isUnmarked hs)).append (ih hmore)

theorem intercalate_map {α : Type} {separator : String} (hs : isUnmarked separator = true)
    {text : α → String} {l : List α} (h : ∀ a ∈ l, Enclosed (text a)) :
    Enclosed (separator.intercalate (l.map text)) :=
  .intercalate hs (List.forall_mem_map.mpr h)

end Enclosed

end Kql.Text
