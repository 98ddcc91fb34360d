import Kql.Text.Alphanumeric
import Kql.Text.Blank
import Mathlib.Data.List.TakeWhile

/-!
The tokens of a text: names, numbers, quoted strings, symbols made of operator characters, and single
marks. Each kind of token is found at the start of a text, whatever comes after it, as long as what
comes after does not go on with a character of its class.
-/

namespace Kql

namespace Text

/-- Letters and digits of any script, and the underscore. -/
def isNameChar (c : Char) : Bool := isAlphanumeric c || c == '_'

def isSymbolChar (c : Char) : Bool := "=!<>+-*/%".toList.contains c

/-- The text is a name that does not start with a digit. -/
def isIdentifier (s : String) : Bool :=
  match s.toList with
  | [] => false
  | first :: more => !first.isDigit && (first :: more).all isNameChar

end Text

open Text

inductive Token where
  | word (name : String)
  | number (n : Nat)
  | quoted (s : String)
  | symbol (s : String)
  | mark (c : Char)
deriving DecidableEq

/-- Every token is as long as it can be. White space only separates. -/
def scan : List Char → List Token
  | [] => []
  | c :: cs =>
    if c.isDigit then
      .number (Nat.ofDigitChars 10 (c :: cs.takeWhile Char.isDigit) 0) ::
        scan (cs.dropWhile Char.isDigit)
    else if isNameChar c then
      .word (String.ofList (c :: cs.takeWhile isNameChar)) :: scan (cs.dropWhile isNameChar)
    else if isSymbolChar c then
      .symbol (String.ofList (c :: cs.takeWhile isSymbolChar)) :: scan (cs.dropWhile isSymbolChar)
    else if c = '\'' then
      .quoted (String.ofList (cs.takeWhile (· ≠ '\''))) :: scan ((cs.dropWhile (· ≠ '\'')).drop 1)
    else if isBlank c then scan cs
    else .mark c :: scan cs
termination_by cs => cs.length
decreasing_by
  all_goals
    have digits := List.length_dropWhile_le Char.isDigit cs
    have names := List.length_dropWhile_le isNameChar cs
    have symbols := List.length_dropWhile_le isSymbolChar cs
    have quoted := List.length_dropWhile_le (· ≠ '\'') cs
    simp only [List.length_cons, List.length_drop]
    omega

/-! ## Scanning one token -/

/-- The text does not go on with a character of the class. -/
def Ends (p : Char → Bool) (rest : List Char) : Prop := ∀ c ∈ rest.head?, p c = false

theorem ends_nil (p : Char → Bool) : Ends p [] := by
  intro _ h
  cases h

theorem ends_cons {p : Char → Bool} {c : Char} (h : p c = false) (rest : List Char) :
    Ends p (c :: rest) := by
  intro _ hc
  cases hc
  exact h

theorem ends_of_forall {p : Char → Bool} {cs : List Char} (h : ∀ c ∈ cs, p c = false) : Ends p cs :=
  fun c hc => h c (List.mem_of_mem_head? hc)

theorem takeWhile_append_of_ends {p : Char → Bool} {run rest : List Char} (h : ∀ c ∈ run, p c = true)
    (hr : Ends p rest) :
    (run ++ rest).takeWhile p = run ∧ (run ++ rest).dropWhile p = rest := by
  rw [List.takeWhile_append_of_pos h, List.dropWhile_append_of_pos h]
  cases rest with
  | nil => simp
  | cons c cs => simp [hr c rfl]

theorem isNameChar_of_isDigit {c : Char} (h : c.isDigit = true) : isNameChar c = true := by
  have ascii : c.toNat < 128 := by
    simp only [Char.isDigit, Bool.and_eq_true, decide_eq_true_eq] at h
    exact Nat.lt_of_le_of_lt h.2 (by decide)
  simp [isNameChar, isAlphanumeric_of_ascii c ascii, Char.isAlphanum, h]

theorem Ends.digit {rest : List Char} (h : Ends isNameChar rest) : Ends Char.isDigit rest := by
  intro c hc
  rw [Bool.eq_false_iff]
  intro hd
  simpa [h c hc] using isNameChar_of_isDigit hd

theorem isNameChar_of_isSymbolChar {c : Char} (h : isSymbolChar c = true) :
    isNameChar c = false ∧ c.isDigit = false := by
  have all : ("=!<>+-*/%".toList.all fun c => !isNameChar c && !c.isDigit) = true := by decide
  have hc := List.all_eq_true.mp all c (List.contains_iff_mem.mp h)
  simpa only [Bool.and_eq_true, Bool.not_eq_true'] using hc

theorem ends_isSymbolChar_of_isNameChar {c : Char} (h : isNameChar c = true) (rest : List Char) :
    Ends isSymbolChar (c :: rest) := by
  apply ends_cons
  rw [Bool.eq_false_iff]
  intro hs
  simpa [h] using (isNameChar_of_isSymbolChar hs).1

theorem ends_isSymbolChar_of_isIdentifier {name : String} (h : isIdentifier name = true)
    (rest : List Char) : Ends isSymbolChar (name.toList ++ rest) := by
  unfold isIdentifier at h
  split at h
  · cases h
  · next first more heq =>
    simp only [Bool.and_eq_true, List.all_cons] at h
    rw [heq]
    exact ends_isSymbolChar_of_isNameChar h.2.1 _

theorem ends_isSymbolChar_of_digits (n : Nat) (rest : List Char) :
    Ends isSymbolChar (n.repr.toList ++ rest) := by
  rw [Nat.toList_repr]
  cases hd : Nat.toDigits 10 n with
  | nil => exact absurd hd Nat.toDigits_ne_nil
  | cons c cs =>
      have digit : c.isDigit = true :=
        Nat.isDigit_of_mem_toDigits (by decide) (by decide) (hd ▸ List.mem_cons_self)
      exact ends_isSymbolChar_of_isNameChar (isNameChar_of_isDigit digit) _

theorem scan_word {name : String} (h : isIdentifier name = true) {rest : List Char}
    (hr : Ends isNameChar rest) : scan (name.toList ++ rest) = .word name :: scan rest := by
  unfold isIdentifier at h
  split at h
  · cases h
  · next first more heq =>
    simp only [Bool.and_eq_true, Bool.not_eq_true', List.all_cons, List.all_eq_true] at h
    obtain ⟨notDigit, hfirst, hmore⟩ := h
    obtain ⟨htake, hdrop⟩ := takeWhile_append_of_ends hmore hr
    rw [heq, List.cons_append, scan, if_neg (by simp [notDigit]), if_pos hfirst, htake, hdrop,
      ← heq, String.ofList_toList]

theorem scan_number (n : Nat) {rest : List Char} (hr : Ends isNameChar rest) :
    scan (n.repr.toList ++ rest) = .number n :: scan rest := by
  rw [Nat.toList_repr]
  have digits : ∀ c ∈ Nat.toDigits 10 n, c.isDigit = true := fun c hc =>
    Nat.isDigit_of_mem_toDigits (by decide) (by decide) hc
  have value := Nat.ofDigitChars_ten_toDigits (n := n)
  cases hd : Nat.toDigits 10 n with
  | nil => exact absurd hd Nat.toDigits_ne_nil
  | cons c cs =>
      rw [hd] at digits value
      obtain ⟨hc, hcs⟩ := List.forall_mem_cons.mp digits
      obtain ⟨htake, hdrop⟩ := takeWhile_append_of_ends hcs hr.digit
      rw [List.cons_append, scan, if_pos hc, htake, hdrop, value]

theorem scan_symbol {s : String} (hs : s ≠ "") (h : s.toList.all isSymbolChar = true)
    {rest : List Char} (hr : Ends isSymbolChar rest) :
    scan (s.toList ++ rest) = .symbol s :: scan rest := by
  cases heq : s.toList with
  | nil => exact absurd (String.toList_eq_nil_iff.mp heq) hs
  | cons c cs =>
      rw [heq, List.all_eq_true] at h
      obtain ⟨hc, hcs⟩ := List.forall_mem_cons.mp h
      obtain ⟨notName, notDigit⟩ := isNameChar_of_isSymbolChar hc
      obtain ⟨htake, hdrop⟩ := takeWhile_append_of_ends hcs hr
      rw [List.cons_append, scan, if_neg (by simp [notDigit]), if_neg (by simp [notName]),
        if_pos hc, htake, hdrop, ← heq, String.ofList_toList]

theorem scan_quoted {s : String} (h : '\'' ∉ s.toList) (rest : List Char) :
    scan ('\'' :: (s.toList ++ '\'' :: rest)) = .quoted s :: scan rest := by
  have inside : ∀ c ∈ s.toList, decide (c ≠ '\'') = true := by
    intro c hc
    rw [decide_eq_true_eq]
    rintro rfl
    exact h hc
  have close : Ends (fun c => decide (c ≠ '\'')) ('\'' :: rest) := ends_cons (by decide) rest
  obtain ⟨htake, hdrop⟩ := takeWhile_append_of_ends inside close
  rw [scan, if_neg (by decide), if_neg (by decide), if_neg (by decide), if_pos rfl, htake, hdrop,
    String.ofList_toList]
  rfl

theorem scan_blank {c : Char} (hn : isNameChar c = false) (hs : isSymbolChar c = false)
    (hb : isBlank c = true) (hq : c ≠ '\'') (rest : List Char) : scan (c :: rest) = scan rest := by
  have hd : ¬ c.isDigit = true := fun hd => by simpa [hn] using isNameChar_of_isDigit hd
  rw [scan, if_neg hd, if_neg (by simp [hn]), if_neg (by simp [hs]), if_neg hq, if_pos hb]

theorem scan_mark {c : Char} (hn : isNameChar c = false) (hs : isSymbolChar c = false)
    (hb : isBlank c = false) (hq : c ≠ '\'') (rest : List Char) :
    scan (c :: rest) = .mark c :: scan rest := by
  have hd : ¬ c.isDigit = true := fun hd => by simpa [hn] using isNameChar_of_isDigit hd
  rw [scan, if_neg hd, if_neg (by simp [hn]), if_neg (by simp [hs]), if_neg hq,
    if_neg (by simp [hb])]

theorem scan_space (rest : List Char) : scan (' ' :: rest) = scan rest :=
  scan_blank (by decide) (by decide) (by decide) (by decide) rest

end Kql
