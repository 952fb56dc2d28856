/-!
# Positions in a text

A text is a list of characters, and a position counts the characters before it.  Answers that
leave the library count bytes of UTF-8 instead; `byteOffset` and `positionOfByte?` go from one
count to the other.

## Main Definitions

* `Span` — a stretch of a text between two positions
* `slice` — the characters of a stretch
* `byteOffset`, `positionOfByte?` — positions as byte counts
-/

namespace RuleCanon

/-- A stretch of a text: from the position `start` up to the position `stop`. -/
structure Span where
  /-- The position of the first character. -/
  start : Nat
  /-- The position just past the last character. -/
  stop : Nat
deriving DecidableEq, Repr

namespace Span

/-- A span is void when it holds no character. -/
def IsVoid (s : Span) : Prop := s.start = s.stop

instance (s : Span) : Decidable s.IsVoid := inferInstanceAs (Decidable (s.start = s.stop))

/-- A span lies within a text, from the position `lower` on. -/
def Within (s : Span) (lower upper : Nat) : Prop :=
  lower ≤ s.start ∧ s.start ≤ s.stop ∧ s.stop ≤ upper

/-- The span moved to the right by `n` characters. -/
def shift (s : Span) (n : Nat) : Span := ⟨s.start + n, s.stop + n⟩

end Span

/-- The characters between two positions. -/
def slice (text : List Char) (start stop : Nat) : List Char :=
  (text.drop start).take (stop - start)

/-- The number of bytes that a text takes in UTF-8. -/
def utf8Length : List Char → Nat
  | [] => 0
  | c :: rest => c.utf8Size + utf8Length rest

/-- The number of bytes before a position. -/
def byteOffset (text : List Char) (position : Nat) : Nat := utf8Length (text.take position)

/-- The position with that many bytes before it, or `none` if there is no such position. -/
def positionOfByte? : List Char → Nat → Option Nat
  | _, 0 => some 0
  | [], _ + 1 => none
  | c :: rest, bytes =>
    if c.utf8Size ≤ bytes then (positionOfByte? rest (bytes - c.utf8Size)).map (· + 1) else none

end RuleCanon
