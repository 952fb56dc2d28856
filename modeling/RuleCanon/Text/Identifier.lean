import RuleCanon.Text.Span

/-!
# Identifier characters

Which characters can be part of a name, and when a word stands on its own.

## Main Definitions

* `isIdeograph` — Chinese characters
* `isIdentifierChar` — characters that names are made of
* `standsAlone` — a stretch of text with no identifier character right before or after it
-/

namespace RuleCanon

/-- Chinese characters: the unified ideographs with their extensions, the compatibility
ideographs and the ideographic zero. -/
def isIdeograph (c : Char) : Bool :=
  let n := c.toNat
  (0x4E00 ≤ n && n ≤ 0x9FFF) || (0x3400 ≤ n && n ≤ 0x4DBF) || (0xF900 ≤ n && n ≤ 0xFAFF) ||
    (0x20000 ≤ n && n ≤ 0x323AF) || n == 0x3007

/-- Characters that can be part of a name: ASCII letters and digits, the low line and
ideographs. -/
def isIdentifierChar (c : Char) : Bool :=
  c.isAlphanum || c == '_' || isIdeograph c

/-- A border of a word: the end of the text or a character that is no part of a name. -/
def isWordBorder : Option Char → Bool
  | none => true
  | some c => !isIdentifierChar c

/-- The character right before a position. -/
def charBefore? (text : List Char) (position : Nat) : Option Char :=
  (text.take position).getLast?

/-- The character right after a position. -/
def charAfter? (text : List Char) (position : Nat) : Option Char :=
  text[position]?

/-- Whether nothing that could be part of a name touches the stretch on either side. -/
def standsAlone (text : List Char) (span : Span) : Bool :=
  isWordBorder (charBefore? text span.start) && isWordBorder (charAfter? text span.stop)

end RuleCanon
