import RuleCanon.Unicode.Property

/-!
# Width on a terminal

## Main Definitions

* `charWidth`, `displayWidth` — how many columns a character and a text take

## Design Notes

Ideographs, kana, Hangul and the fullwidth forms take two columns.  Controls, and characters
that are drawn over the one before them, take none.
-/

namespace RuleCanon

/-- Whether a character takes two columns. -/
def isWide (c : Char) : Bool :=
  Unicode.memIntervals c.toNat
    [(0x1100, 0x115F), (0x2E80, 0x303E), (0x3041, 0x33FF), (0x3400, 0x4DBF), (0x4E00, 0xA4CF),
      (0xA960, 0xA97F), (0xAC00, 0xD7A3), (0xF900, 0xFAFF), (0xFE10, 0xFE19), (0xFE30, 0xFE6F),
      (0xFF01, 0xFF60), (0xFFE0, 0xFFE6), (0x16FE0, 0x18CFF), (0x1AFF0, 0x1B2FB),
      (0x1F300, 0x1F64F), (0x1F680, 0x1F6FF), (0x1F900, 0x1F9FF), (0x20000, 0x3FFFD)]

/-- The columns that a character takes. -/
def charWidth (c : Char) : Nat :=
  if Unicode.isGraphemeExtend c || Unicode.Category.cc.mem c || Unicode.Category.cf.mem c then 0
  else if isWide c then 2
  else 1

/-- The columns that a text takes. -/
def displayWidth : List Char → Nat
  | [] => 0
  | c :: rest => charWidth c + displayWidth rest

end RuleCanon
