import Kql.Decimal.Layout
import Kql.Decimal.Fixed
import Kql.Proofs.Tokens

/-!
The characters of numbers. However a number is laid out, its text is made of letters and digits, signs
and points, so it holds nothing that has a meaning around it: no quotes, brackets or commas.
-/

namespace Kql

open Text

namespace Text

def isNumeralChar (c : Char) : Bool := isNameChar c || c == '.' || c == '-' || c == '+'

def isNumeral (s : String) : Bool := s.toList.all isNumeralChar

theorem isNumeral_append (s t : String) : isNumeral (s ++ t) = (isNumeral s && isNumeral t) := by
  rw [isNumeral, String.toList_append, List.all_append]
  rfl

theorem isNumeral_of_isDigit {digits : List Char} (h : ∀ c ∈ digits, c.isDigit = true) :
    isNumeral (String.ofList digits) = true := by
  rw [isNumeral, String.toList_ofList, List.all_eq_true]
  intro c hc
  simp [isNumeralChar, isNameChar_of_isDigit (h c hc)]

theorem notMem_of_isNumeral {s : String} (h : isNumeral s = true) {mark : Char}
    (hm : isNumeralChar mark = false) : mark ∉ s.toList := by
  intro found
  rw [List.all_eq_true.mp h mark found] at hm
  cases hm

end Text

theorem isDigit_of_mem_toDigits {n : Nat} : ∀ c ∈ Nat.toDigits 10 n, c.isDigit = true := by
  intro c hc
  exact Nat.isDigit_of_mem_toDigits (by decide) (by decide) hc

theorem isNumeral_natRepr (n : Nat) : isNumeral n.repr = true := by
  rw [← String.ofList_toList (s := n.repr), Nat.toList_repr]
  exact isNumeral_of_isDigit isDigit_of_mem_toDigits

theorem isNumeral_intRepr (n : Int) : isNumeral n.repr = true := by
  cases n with
  | ofNat n => exact isNumeral_natRepr n
  | negSucc n =>
      rw [Int.repr, isNumeral_append, isNumeral_natRepr]
      decide

namespace Decimal

theorem isDigit_of_mem_replicate {n : Nat} : ∀ c ∈ List.replicate n '0', c.isDigit = true := by
  intro c hc
  rw [List.eq_of_mem_replicate hc]
  rfl

theorem Fixed.isNumeral_text (d : Fixed) : isNumeral d.text = true := by
  have padded : ∀ c ∈ List.replicate (d.places + 1 - (Nat.toDigits 10 d.unscaled.natAbs).length) '0'
      ++ Nat.toDigits 10 d.unscaled.natAbs, c.isDigit = true :=
    List.forall_mem_append.mpr ⟨isDigit_of_mem_replicate, isDigit_of_mem_toDigits⟩
  simp only [Fixed.text, isNumeral_append, Bool.and_eq_true]
  refine ⟨⟨?_, ?_⟩, ?_⟩
  · split <;> decide
  · exact isNumeral_of_isDigit fun c hc => padded c (List.mem_of_mem_take hc)
  · split
    · decide
    · rw [isNumeral_append, isNumeral_of_isDigit fun c hc => padded c (List.mem_of_mem_drop hc)]
      decide

theorem isDigit_of_mem_significantDigits {n : Nat} :
    ∀ c ∈ significantDigits n, c.isDigit = true := by
  intro c hc
  rw [significantDigits, List.mem_reverse] at hc
  exact isDigit_of_mem_toDigits c (List.mem_reverse.mp ((List.dropWhile_sublist _).subset hc))

section

variable {digits : List Char} (h : ∀ c ∈ digits, c.isDigit = true) (e : Int)

include h

theorem isNumeral_plain : isNumeral (plain digits e) = true := by
  unfold plain
  split
  · have padded : ∀ c ∈ List.replicate (-e - 1).toNat '0' ++ digits, c.isDigit = true :=
      List.forall_mem_append.mpr ⟨isDigit_of_mem_replicate, h⟩
    rw [isNumeral_append, isNumeral_of_isDigit padded]
    decide
  · simp only [isNumeral_append, Bool.and_eq_true]
    refine ⟨⟨?_, by decide⟩, ?_⟩
    · apply isNumeral_of_isDigit
      exact List.forall_mem_append.mpr
        ⟨fun c hc => h c (List.mem_of_mem_take hc), isDigit_of_mem_replicate⟩
    · split
      · decide
      · exact isNumeral_of_isDigit fun c hc => h c (List.mem_of_mem_drop hc)

theorem Layout.isNumeral_scientific (l : Layout) : isNumeral (l.scientific digits e) = true := by
  simp only [Layout.scientific, isNumeral_append, Bool.and_eq_true]
  refine ⟨⟨⟨?_, ?_⟩, ?_⟩, isNumeral_intRepr e⟩
  · exact isNumeral_of_isDigit fun c hc => h c (List.mem_of_mem_take hc)
  · split
    · decide
    · rw [isNumeral_append, isNumeral_of_isDigit fun c hc => h c (List.mem_of_mem_drop hc)]
      decide
  · split <;> decide

end

theorem Layout.isNumeral_text (l : Layout) (x : Float) : isNumeral (l.text x) = true := by
  have scaled (d : Scaled) : isNumeral (l.scaled d) = true := by
    simp only [Layout.scaled]
    split
    · exact isNumeral_plain isDigit_of_mem_significantDigits _
    · exact l.isNumeral_scientific isDigit_of_mem_significantDigits _
  simp only [Layout.text]
  generalize x.toBits = bits
  have sign : isNumeral (if bits = bits &&& 0x7FFFFFFFFFFFFFFF then "" else "-") = true := by
    split <;> decide
  split
  · decide
  split
  · rw [isNumeral_append, sign]
    decide
  split
  · rw [isNumeral_append, sign]
    decide
  · rw [isNumeral_append, sign, scaled]
    rfl

end Decimal

end Kql
