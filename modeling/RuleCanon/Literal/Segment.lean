import RuleCanon.Text.Span

/-!
# Literals and code

A text is cut into segments: string literals, and the code between them.  A literal opens at a
delimiter outside any other literal, closes at the next matching closer, and a backslash in it
protects the character that follows.  A literal that is never closed reaches to the end of the
text.  Cutting never fails.

## Main Definitions

* `Delimiters` — the two marks around a literal
* `Segment` — a piece of a text, code or literal
* `splitBody` — where the body of a literal ends
* `Segmenter` — a list of delimiters to look for, with `Segmenter.segments` as the cut

## Design Notes

A segment holds its own characters, so the segments of a text joined together are the text and
no position can be out of range.  Where two delimiters could open at one place, the one listed
first wins.
-/

namespace RuleCanon

/-- The marks before and after a string literal. -/
structure Delimiters where
  /-- The mark that opens a literal. -/
  opening : List Char
  /-- The mark that closes it. -/
  closing : List Char
deriving DecidableEq, Repr

namespace Delimiters

/-- The straight double quote on both sides, which canonical text uses. -/
def ascii : Delimiters := ⟨['"'], ['"']⟩

/-- Delimiters are proper when neither mark is empty. -/
def Proper (d : Delimiters) : Prop := d.opening ≠ [] ∧ d.closing ≠ []

instance (d : Delimiters) : Decidable d.Proper :=
  inferInstanceAs (Decidable (d.opening ≠ [] ∧ d.closing ≠ []))

end Delimiters

/-- A piece of a text. -/
inductive Segment where
  /-- Text outside literals. -/
  | code (text : List Char)
  /-- A string literal with the text between its marks; it lacks the closing mark if it is not
  terminated. -/
  | literal (delimiters : Delimiters) (body : List Char) (terminated : Bool)
deriving DecidableEq, Repr

namespace Segment

/-- The characters of a segment, marks included. -/
def text : Segment → List Char
  | code t => t
  | literal d body terminated => d.opening ++ body ++ (if terminated then d.closing else [])

/-- Whether a segment is a literal. -/
def isLiteral : Segment → Bool
  | code _ => false
  | literal .. => true

/-- Puts one more character of code in front. -/
def consCode (c : Char) : List Segment → List Segment
  | code t :: rest => code (c :: t) :: rest
  | rest => code [c] :: rest

/-- The text that the segments make up. -/
def textOf (segments : List Segment) : List Char := segments.flatMap text

end Segment

/-- Splits what follows an opening mark into the body of the literal and the text after the
closing mark; there is no such text if the literal is not closed.  A backslash belongs to the
body together with the character after it. -/
def splitBody (closing : List Char) : List Char → List Char × Option (List Char)
  | [] => ([], none)
  | c :: rest =>
    if c = '\\' then
      match rest with
      | [] => ([c], none)
      | e :: rest =>
        let (body, after) := splitBody closing rest
        (c :: e :: body, after)
    else if closing.isPrefixOf (c :: rest) then
      ([], some ((c :: rest).drop closing.length))
    else
      let (body, after) := splitBody closing rest
      (c :: body, after)

/-- What follows a closed literal is no longer than what followed its opening mark. -/
theorem length_le_of_splitBody {closing text body after : List Char}
    (h : splitBody closing text = (body, some after)) : after.length ≤ text.length := by
  fun_induction splitBody closing text generalizing body with
  | case1 => simp at h
  | case2 => simp at h
  | case3 e rest body' after' hsplit ih =>
    simp only [Prod.mk.injEq] at h
    have := ih (hsplit.trans (Prod.ext rfl h.2))
    simp only [List.length_cons]
    omega
  | case4 c rest hc hclose =>
    simp only [Prod.mk.injEq, Option.some.injEq] at h
    rw [← h.2, List.length_drop]
    omega
  | case5 c rest _ _ body' after' hsplit ih =>
    simp only [Prod.mk.injEq] at h
    have := ih (hsplit.trans (Prod.ext rfl h.2))
    simp only [List.length_cons]
    omega

/-- The delimiters that a text is searched for, in order of preference. -/
structure Segmenter where
  /-- The delimiters; an earlier one wins over a later one. -/
  delimiters : List Delimiters
  /-- No mark is empty, so each literal takes up some text. -/
  proper : ∀ d ∈ delimiters, d.Proper

namespace Segmenter

/-- Drops each element that equals the one before it. -/
def dropRepeats : List Delimiters → List Delimiters
  | [] => []
  | [d] => [d]
  | d :: e :: rest => if d = e then dropRepeats (e :: rest) else d :: dropRepeats (e :: rest)

theorem mem_of_mem_dropRepeats {d : Delimiters} {ds : List Delimiters}
    (h : d ∈ dropRepeats ds) : d ∈ ds := by
  fun_induction dropRepeats ds with
  | case1 => exact h
  | case2 => exact h
  | case3 _ _ ih => exact List.mem_cons_of_mem _ (ih h)
  | case4 a b rest _ ih =>
    rcases List.mem_cons.1 h with rfl | h
    · exact List.mem_cons_self
    · exact List.mem_cons_of_mem _ (ih h)

/-- The proper ones of the given delimiters, the straight double quote in front unless it is
among them, and of equal neighbours only one. -/
def ofList (ds : List Delimiters) : Segmenter where
  delimiters :=
    dropRepeats
      (if .ascii ∈ ds.filter (·.Proper) then ds.filter (·.Proper)
        else .ascii :: ds.filter (·.Proper))
  proper := by
    intro d h
    replace h := mem_of_mem_dropRepeats h
    split at h
    · simpa using (List.mem_filter.1 h).2
    · rcases List.mem_cons.1 h with rfl | h
      · decide
      · simpa using (List.mem_filter.1 h).2

/-- The segmenter that knows the straight double quote only. -/
def ascii : Segmenter := ofList []

/-- The delimiters whose opening mark stands at the start of the text. -/
def opening? (s : Segmenter) (text : List Char) : Option Delimiters :=
  s.delimiters.find? (·.opening.isPrefixOf text)

theorem opening_ne_nil {s : Segmenter} {text : List Char} {d : Delimiters}
    (h : s.opening? text = some d) : d.opening ≠ [] :=
  (s.proper d (List.mem_of_find?_eq_some h)).1

/-- Cuts a text into segments. -/
def segments (s : Segmenter) : List Char → List Segment
  | [] => []
  | c :: rest =>
    match _opens : s.opening? (c :: rest) with
    | none => Segment.consCode c (s.segments rest)
    | some d =>
      match _splits : splitBody d.closing ((c :: rest).drop d.opening.length) with
      | (body, none) => [.literal d body false]
      | (body, some after) => .literal d body true :: s.segments after
termination_by text => text.length
decreasing_by
  · simp
  · have h₁ := length_le_of_splitBody _splits
    have h₂ := List.length_pos_iff.2 (opening_ne_nil _opens)
    simp only [List.length_drop, List.length_cons] at h₁ ⊢
    omega

/-- The place of the delimiters in the list. -/
def indexOf (s : Segmenter) (d : Delimiters) : Nat := s.delimiters.idxOf d

end Segmenter

/-- The segments with the stretch of text that each covers, the first starting at `start`. -/
def layout (start : Nat) : List Segment → List (Span × Segment)
  | [] => []
  | g :: rest =>
    (⟨start, start + g.text.length⟩, g) :: layout (start + g.text.length) rest

/-- The stretches of a text that are literals. -/
def Segmenter.literalSpans (s : Segmenter) (text : List Char) : List Span :=
  ((layout 0 (s.segments text)).filter (·.2.isLiteral)).map (·.1)

end RuleCanon
