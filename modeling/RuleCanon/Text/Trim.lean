import RuleCanon.Unicode.Property

/-!
# Blanks at the ends of a text

## Main Definitions

* `trim` — a text without the blanks at its ends
-/

namespace RuleCanon

/-- The text without blank characters at its ends. -/
def trim (text : List Char) : List Char :=
  ((text.dropWhile Unicode.isWhiteSpace).reverse.dropWhile Unicode.isWhiteSpace).reverse

end RuleCanon
