import Kql.Text.AlphanumericRanges

/-!
Letters and digits of any script.
-/

namespace Kql.Text

/-- The character is alphabetic or a number in the sense of Unicode. -/
def isAlphanumeric (c : Char) : Bool :=
  if c.toNat < 128 then c.isAlphanum else Alphanumeric.blocks.any fun ranges => ranges.holds c

theorem isAlphanumeric_of_ascii (c : Char) (h : c.toNat < 128) :
    isAlphanumeric c = c.isAlphanum := by
  simp [isAlphanumeric, h]

end Kql.Text
