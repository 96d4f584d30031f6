import BoundedPools.Text.Ranges

/-!
# Blank characters

The characters that count as white space in any script: the ASCII ones from tab
to carriage return and the space, next line, the no-break spaces and the spaces
and separators of general punctuation.
-/

namespace BoundedPools.Text

/-- The blank characters beyond ASCII, as inclusive ranges. -/
def blankRanges : List (Nat × Nat) := [
  (0x85, 0x85), (0xA0, 0xA0), (0x1680, 0x1680), (0x2000, 0x200A), (0x2028, 0x2029),
  (0x202F, 0x202F), (0x205F, 0x205F), (0x3000, 0x3000)]

def isBlank (c : Char) : Bool :=
  (9 ≤ c.toNat && c.toNat ≤ 13) || c.toNat == 32
    || inRanges blankRanges c

/-- Every blank of ASCII is blank here. -/
theorem isBlank_of_isWhitespace (c : Char) (hBlank : c.isWhitespace = true) : isBlank c = true := by
  simp only [Char.isWhitespace, Bool.or_eq_true, decide_eq_true_eq] at hBlank
  rcases hBlank with ((h | h) | h) | h <;> subst h <;> decide

/-- A text without the blanks at its end. -/
def trimEnd (text : List Char) : List Char :=
  (text.reverse.dropWhile isBlank).reverse

end BoundedPools.Text
