import RuleCanon.Literal.Segment

/-!
# Replacement outside literals

Two ways to change the code of a text and leave its literals alone: a function on each stretch
of code, and replacement of what a matcher finds in the text as a whole.

The matcher looks at the whole text, so a match can see its neighbours and the line it stands
in.  A match that touches a literal is not used as it is.  If it starts inside the literal, the
search goes on behind the literal.  If it starts in the code before it, the search is repeated
on the text up to the literal's first character, and if that character would be used, on the
text up to the literal.

## Main Definitions

* `Segmenter.mapCode` — a function on each stretch of code
* `Captures`, `Matcher` — what a search finds, and a search that stays in range
* `Segmenter.matchesOutside` — the matches that are replaced
* `splice` — a text with some of its stretches exchanged
* `Segmenter.replaceOutside` — replacement outside literals

## Design Notes

That a match lies behind the place where the search started, and within the text, is a field of
`Matcher`.  It is what makes the search loop end.
-/

namespace RuleCanon

/-- Applies a function to each stretch of code and keeps the literals. -/
def Segmenter.mapCode (s : Segmenter) (f : List Char → List Char) (text : List Char) :
    List Char :=
  (s.segments text).flatMap fun
    | .code t => f t
    | g => g.text

/-- What a search has found: the stretch of the whole match and those of its groups. -/
structure Captures where
  /-- The stretch of the whole match. -/
  span : Span
  /-- The groups that took part in the match, by number. -/
  groups : List (Nat × Span) := []
deriving DecidableEq, Repr

namespace Captures

/-- The stretch of a group; group zero is the whole match. -/
def group? (c : Captures) (number : Nat) : Option Span :=
  if number = 0 then some c.span else c.groups.lookup number

/-- The characters of a group, none if it took no part in the match. -/
def textOf (c : Captures) (text : List Char) (number : Nat) : List Char :=
  match c.group? number with
  | some g => slice text g.start g.stop
  | none => []

end Captures

/-- A way to search a text from a position on. -/
structure Matcher where
  /-- The first match in the text that does not start before the position. -/
  find : List Char → Nat → Option Captures
  /-- A match starts at the position or later and ends within the text. -/
  find_within : ∀ {text : List Char} {position : Nat} {c : Captures},
    find text position = some c → c.span.Within position text.length

namespace Matcher

/-- Searches for a match that ends by `cut`.  The character at `cut` can be seen but not used;
if the match would use it, the text is taken to end at `cut`. -/
def findBefore (m : Matcher) (text : List Char) (position cut : Nat) : Option Captures :=
  match m.find (text.take (cut + 1)) position with
  | none => none
  | some c => if c.span.stop ≤ cut then some c else m.find (text.take cut) position

theorem findBefore_within {m : Matcher} {text : List Char} {position cut : Nat} {c : Captures}
    (h : m.findBefore text position cut = some c) : c.span.Within position text.length := by
  have bound (n : Nat) (h : m.find (text.take n) position = some c) :
      c.span.Within position text.length := by
    obtain ⟨h₁, h₂, h₃⟩ := m.find_within h
    exact ⟨h₁, h₂, Nat.le_trans h₃ (List.length_take_le' n text)⟩
  unfold findBefore at h
  split at h
  · contradiction
  · split at h
    · next hfind _ => exact bound _ (hfind.trans h)
    · exact bound _ h

end Matcher

namespace Span

/-- Whether a match touches a literal: a match with characters shares one with it, a void match
lies strictly inside. -/
def touches (s literal : Span) : Bool :=
  if s.IsVoid then literal.start < s.start && s.start < literal.stop
  else s.start < literal.stop && literal.start < s.stop

/-- Where the search goes on after a match: at its end, or one character further if it is void,
lest it be found again. -/
def resume (s : Span) : Nat := if s.IsVoid then s.stop + 1 else s.stop

theorem lt_resume {s : Span} {lower upper : Nat} (h : s.Within lower upper) :
    lower < s.resume := by
  obtain ⟨h₁, h₂, -⟩ := h
  by_cases hvoid : s.IsVoid
  · simp only [resume, hvoid, if_true]
    omega
  · have hne : s.start ≠ s.stop := hvoid
    simp only [resume, hvoid, if_false]
    omega

end Span

/-- What the search does with its next match. -/
inductive SearchStep where
  /-- There is no further match. -/
  | finished
  /-- No match starts before the end of this literal; the search goes on there. -/
  | skip (next : Nat)
  /-- The match is to be replaced. -/
  | accept (c : Captures)

namespace Segmenter

/-- Takes the next match from a position on and decides what becomes of it. -/
def searchStep (m : Matcher) (literals : List Span) (text : List Char) (position : Nat) :
    SearchStep :=
  match m.find text position with
  | none => .finished
  | some c =>
    if literals.any c.span.touches then
      match literals.find? (c.span.start < ·.stop) with
      | none => .finished
      | some literal =>
        if c.span.start < literal.start then
          match m.findBefore text position literal.start with
          | some confined => .accept confined
          | none => .skip literal.stop
        else .skip literal.stop
    else .accept c

theorem lt_of_searchStep_skip {m : Matcher} {literals : List Span} {text : List Char}
    {position next : Nat} (h : searchStep m literals text position = .skip next) :
    position < next := by
  have skipped {c : Captures} {literal : Span} (hc : m.find text position = some c)
      (hl : literals.find? (c.span.start < ·.stop) = some literal) :
      position < literal.stop := by
    have h₁ := (m.find_within hc).1
    have h₂ : c.span.start < literal.stop := by simpa using List.find?_some hl
    omega
  unfold searchStep at h
  split at h
  · contradiction
  · next c hc =>
    split at h
    · split at h
      · contradiction
      · next literal hl =>
        split at h
        · split at h
          · contradiction
          · cases h
            exact skipped hc hl
        · cases h
          exact skipped hc hl
    · contradiction

theorem within_of_searchStep_accept {m : Matcher} {literals : List Span} {text : List Char}
    {position : Nat} {c : Captures} (h : searchStep m literals text position = .accept c) :
    c.span.Within position text.length := by
  unfold searchStep at h
  split at h
  · contradiction
  · next c' hc =>
    split at h
    · split at h
      · contradiction
      · split at h
        · split at h
          · next hconf =>
            cases h
            exact Matcher.findBefore_within hconf
          · contradiction
        · contradiction
    · cases h
      exact m.find_within hc

/-- The matches from a position on that are replaced, given the literals of the text. -/
def matchesFrom (m : Matcher) (literals : List Span) (text : List Char) (position : Nat) :
    List Captures :=
  if _bound : position ≤ text.length then
    match _step : searchStep m literals text position with
    | .finished => []
    | .skip next => matchesFrom m literals text next
    | .accept c => c :: matchesFrom m literals text c.span.resume
  else []
termination_by text.length + 1 - position
decreasing_by
  · have := lt_of_searchStep_skip _step
    omega
  · have := Span.lt_resume (within_of_searchStep_accept _step)
    omega

/-- The matches in a text that are replaced, in their order. -/
def matchesOutside (s : Segmenter) (m : Matcher) (text : List Char) : List Captures :=
  matchesFrom m (s.literalSpans text) text 0

end Segmenter

/-- Exchanges stretches of a text, which are given in ascending order with what takes their
place; what lies before the position is left out. -/
def splice (text : List Char) (position : Nat) : List (Span × List Char) → List Char
  | [] => text.drop position
  | (s, replacement) :: rest =>
    slice text position s.start ++ replacement ++ splice text s.stop rest

/-- Replaces what the matcher finds outside literals. -/
def Segmenter.replaceOutside (s : Segmenter) (m : Matcher)
    (replacement : List Char → Captures → List Char) (text : List Char) : List Char :=
  splice text 0 ((s.matchesOutside m text).map fun c => (c.span, replacement text c))

end RuleCanon
