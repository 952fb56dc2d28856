import RuleCanon.Text.LineBreak

/-!
# Wrapped text

A paragraph is cut into lines that fit a terminal: each line takes as many words as it can, and
only a word that is too long for any line is cut itself.

## Main Definitions

* `Margins` — the width of the lines and what stands to the left of them
* `Margins.wrap` — the lines of a text

## Main Statements

* `Margins.exists_wrap_eq` — the lines are those of the text, cut into pieces that go behind the
  margins; all that is lost are spaces at the ends of the pieces
-/

namespace RuleCanon

/-- The form of a paragraph. -/
structure Margins where
  /-- The columns of a line. -/
  width : Nat
  /-- What stands in front of the first line. -/
  first : List Char
  /-- What stands in front of every other line. -/
  rest : List Char

/-- The text without the spaces at its end. -/
def dropEndSpaces (text : List Char) : List Char :=
  (text.reverse.dropWhile (· == ' ')).reverse

/-- Cuts a word into parts that take at most `limit` columns each, if they have more than one
character.  `used` columns are taken by the part that is being cut. -/
def cutToWidth (limit used : Nat) : List Char → List (List Char)
  | [] => []
  | c :: rest =>
    if 0 < used ∧ limit < used + charWidth c ∧ c ≠ ' ' then
      [] :: consUnit c (cutToWidth limit (charWidth c) rest)
    else consUnit c (cutToWidth limit (used + charWidth c) rest)

/-- The parts of a word that may stand on lines of their own. -/
def cutWord (limit : Nat) (word : List Char) : List (List Char) :=
  if displayWidth (dropEndSpaces word) ≤ limit then [word] else cutToWidth limit 0 word

theorem flatten_cutToWidth (limit used : Nat) (word : List Char) :
    (cutToWidth limit used word).flatten = word := by
  induction word generalizing used with
  | nil => rfl
  | cons c rest ih =>
    rw [cutToWidth]
    split <;> simp [ih]

/-- The parts of a word make up the word. -/
theorem flatten_cutWord (limit : Nat) (word : List Char) :
    (cutWord limit word).flatten = word := by
  rw [cutWord]
  split
  · simp
  · exact flatten_cutToWidth limit 0 word

/-- Fills lines with words: `line` is the line that is being filled, in which there are still
`room` columns, and all lines after it have `width` columns. -/
def fillLines (width room : Nat) (line : List Char) : List (List Char) → List (List Char)
  | [] => [line]
  | word :: rest =>
    if displayWidth (dropEndSpaces word) ≤ room then
      fillLines width (room - displayWidth word) (line ++ word) rest
    else line :: fillLines width (width - displayWidth word) word rest

/-- The lines hold all the words in their order. -/
theorem flatten_fillLines (width room : Nat) (line : List Char) (words : List (List Char)) :
    (fillLines width room line words).flatten = line ++ words.flatten := by
  induction words generalizing room line with
  | nil => simp [fillLines]
  | cons word rest ih =>
    rw [fillLines]
    split <;> simp [ih]

theorem fillLines_ne_nil (width room : Nat) (line : List Char) (words : List (List Char)) :
    fillLines width room line words ≠ [] := by
  induction words generalizing room line with
  | nil => exact List.cons_ne_nil _ _
  | cons word rest ih =>
    rw [fillLines]
    split
    · exact ih _ _
    · exact List.cons_ne_nil _ _

namespace Margins

/-- The lines of a text that has no line break; `indent` is in front of the first. -/
def wrapLine (m : Margins) (indent line : List Char) : List (List Char) :=
  let limit := m.width - displayWidth m.rest
  let words := (breakUnits line).flatMap (cutWord limit)
  match fillLines limit (m.width - displayWidth m.first) [] words with
  | [] => [indent]
  | head :: tail => (indent ++ dropEndSpaces head) ::
      tail.map fun line => m.rest ++ dropEndSpaces line

/-- The lines of a text. -/
def wrap (m : Margins) (text : List Char) : List (List Char) :=
  match text.splitOn '\n' with
  | [] => []
  | head :: tail => m.wrapLine m.first head ++ tail.flatMap (m.wrapLine m.rest)

/-- A line is cut into pieces, of which the first one goes behind the indentation and every other
one behind the margin. -/
theorem exists_wrapLine_eq (m : Margins) (indent line : List Char) :
    ∃ head tail, (head :: tail).flatten = line ∧
      m.wrapLine indent line =
        (indent ++ dropEndSpaces head) :: tail.map (m.rest ++ dropEndSpaces ·) := by
  have hwords (limit : Nat) : ((breakUnits line).flatMap (cutWord limit)).flatten = line := by
    rw [flatten_flatMap_of_flatten (flatten_cutWord limit), flatten_breakUnits]
  have hfilled := flatten_fillLines (m.width - displayWidth m.rest)
    (m.width - displayWidth m.first) []
    ((breakUnits line).flatMap (cutWord (m.width - displayWidth m.rest)))
  rw [hwords, List.nil_append] at hfilled
  simp only [wrapLine]
  split
  · next hnone => exact absurd hnone (fillLines_ne_nil _ _ _ _)
  · next head tail hlines => exact ⟨head, tail, hlines ▸ hfilled, rfl⟩

/-- Lines behind the first one are cut into pieces that all go behind the same margin. -/
theorem exists_flatMap_wrapLine_eq (m : Margins) (lines : List (List Char)) :
    ∃ pieces : List (List (List Char)), pieces.map List.flatten = lines ∧
      lines.flatMap (m.wrapLine m.rest) = pieces.flatten.map (m.rest ++ dropEndSpaces ·) := by
  induction lines with
  | nil => exact ⟨[], rfl, rfl⟩
  | cons line lines ih =>
    obtain ⟨pieces, hpieces, hrest⟩ := ih
    obtain ⟨head, tail, hline, hwrapped⟩ := m.exists_wrapLine_eq m.rest line
    refine ⟨(head :: tail) :: pieces, ?_, ?_⟩
    · rw [List.map_cons, hline, hpieces]
    · rw [List.flatMap_cons, hwrapped, hrest, List.flatten_cons, List.map_append, List.map_cons]

/-- **Wrapping loses nothing but spaces.**  Each line of a text is cut into pieces, and the pieces
of all lines stand one below the other, the first one behind a margin of its own, without the
spaces at their ends. -/
theorem exists_wrap_eq (m : Margins) (text : List Char) :
    ∃ (pieces : List (List (List Char))) (head : List Char) (tail : List (List Char)),
      pieces.map List.flatten = text.splitOn '\n' ∧ pieces.flatten = head :: tail ∧
        m.wrap text =
          (m.first ++ dropEndSpaces head) :: tail.map (m.rest ++ dropEndSpaces ·) := by
  rw [wrap]
  split
  · next hnone => exact absurd hnone (List.splitOn_ne_nil _ _)
  · next line lines hlines =>
    obtain ⟨head, tail, hline, hwrapped⟩ := m.exists_wrapLine_eq m.first line
    obtain ⟨pieces, hpieces, hrest⟩ := m.exists_flatMap_wrapLine_eq lines
    refine ⟨(head :: tail) :: pieces, head, tail ++ pieces.flatten, ?_, rfl, ?_⟩
    · rw [List.map_cons, hline, hpieces, hlines]
    · rw [hwrapped, hrest, List.map_append, List.cons_append]

end Margins

end RuleCanon
