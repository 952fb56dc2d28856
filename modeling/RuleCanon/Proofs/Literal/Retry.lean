import RuleCanon.Pattern.Reader
import RuleCanon.Proofs.Literal.Frame
import RuleCanon.Proofs.Literal.Step
import RuleCanon.Proofs.Pattern.Search

/-!
# When replacement rewrites a literal

A match that runs from code into a literal is searched for again in the text up to the literal.
The text that ends there is a different text: conditions such as the end of the text hold at
places where they did not hold before, and the second search can find a match further left than
the first one did, at a place that the search has passed already because it lies in a literal.
Nothing looks at that match again.

`Segmenter.IsRetreat` describes this course of events.  It is the only way in which a literal is
rewritten: every other match that is replaced touches no literal, whatever the pattern.

## Main Definitions

* `Segmenter.IsRetreat`, `Segmenter.Retreats` — a search that goes back into a literal

## Main Statements

* `Segmenter.exists_isRetreat_of_touches` — one step of the search
* `Segmenter.disjoint_iff_not_retreats` — the whole search, and what it means for the text
* `Segmenter.rewrites_literal` — a text with a pattern where it happens
-/

namespace RuleCanon

namespace Segmenter

/-! ## Going back -/

/-- At a position, the search goes back into a literal: the match that was `found` runs into
`literal`; in the text up to and including the first character of `literal` there is a match
that uses this character; and in the text up to `literal` a match is `confined` that ends right
before `literal` and starts before the end of a literal that was passed `earlier`. -/
structure IsRetreat (p : Pattern) (literals : List Span) (text : List Char) (position : Nat)
    (found confined : Captures) (earlier literal : Span) : Prop where
  direct : p.find text position = some found
  first : literals.find? (found.span.start < ·.stop) = some literal
  before : found.span.start < literal.start
  into : literal.start < found.span.stop
  windowed : ∃ c, p.find (text.take (literal.start + 1)) position = some c ∧
    literal.start < c.span.stop
  cut : p.find (text.take literal.start) position = some confined
  ends : confined.span.stop = literal.start
  mem : earlier ∈ literals
  passed : earlier.stop ≤ found.span.start
  back : confined.span.start < earlier.stop

section Retreat

variable {p : Pattern} {literals : List Span} {text : List Char} {position : Nat}
  {c found : Captures} {l earlier literal : Span}

/-- A match that a text cut short at a literal gives, and that lies at or behind the match in
the whole text, touches no literal. -/
theorem touches_eq_false_of_start_le (h : Orderly literals)
    (hfirst : literals.find? (found.span.start < ·.stop) = some literal)
    (hstart : found.span.start ≤ c.span.start) (hle : c.span.start ≤ c.span.stop)
    (hstop : c.span.stop ≤ literal.start) (hl : l ∈ literals) : c.span.touches l = false := by
  by_contra htouches
  rw [Bool.not_eq_false] at htouches
  have hstarts := Span.start_lt_of_touches htouches
  have hends := Span.lt_stop_of_touches hle htouches
  have hbehind : literal.start ≤ l.start := h.start_le_of_find? hfirst hl (by omega)
  omega

/-- **A match that is replaced and touches a literal comes from a search that went back.** -/
theorem exists_isRetreat_of_touches (h : Orderly literals)
    (hstep : searchStep p.matcher literals text position = .accept c) (hl : l ∈ literals)
    (htouches : c.span.touches l = true) :
    ∃ found literal, IsRetreat p literals text position found c l literal := by
  rcases searchStep_accept_cases hstep with ⟨-, hnone⟩ | hcases
  · simp [hnone l hl] at htouches
  · obtain ⟨found, literal, hfound, hany, hfirst, hbefore, hconfined⟩ := hcases
    have hleftmost := Pattern.isLeftmost_of_find hfound
    -- a match at or behind the one that was found would touch nothing
    have hback (hle : c.span.start ≤ c.span.stop) (hstop : c.span.stop ≤ literal.start) :
        c.span.start < found.span.start := by
      by_contra hstart
      simp [touches_eq_false_of_start_le h hfirst (by omega) hle hstop hl] at htouches
    obtain ⟨windowed, hwindowed, ⟨hstop, rfl⟩ | ⟨hlt, hcut⟩⟩ := findBefore_cases hconfined
    · have hstart := hleftmost.start_le_of_take hwindowed (by omega)
      have := hback (p.matcher.find_within hwindowed).2.1 hstop
      omega
    · obtain ⟨-, hle, hstop⟩ := p.matcher.find_within hcut
      have hstop : c.span.stop ≤ literal.start :=
        Nat.le_trans hstop (List.length_take_le literal.start text)
      have hstart := hback hle hstop
      have hends : c.span.stop = literal.start := by
        by_contra hne
        have := hleftmost.start_le_of_take hcut (by omega)
        omega
      obtain ⟨k, hk, hinto⟩ := List.any_eq_true.1 hany
      have hstarts := Span.start_lt_of_touches htouches
      have hinside := Span.lt_stop_of_touches hle htouches
      refine ⟨found, literal, hfound, hfirst, hbefore,
        h.lt_stop_of_touches hfirst hbefore hk hinto, ⟨windowed, hwindowed, hlt⟩, hcut, hends,
        hl, ?_, hstarts⟩
      -- the literal that is touched was passed, since the next one is `literal`
      by_contra hpassed
      have := h.start_le_of_find? hfirst hl (by omega)
      omega

/-- Where the search goes back, it takes the confined match. -/
theorem IsRetreat.searchStep_eq (h : Orderly literals)
    (hr : IsRetreat p literals text position found c earlier literal) :
    searchStep p.matcher literals text position = .accept c := by
  have hliteral : literal ∈ literals := List.mem_of_find?_eq_some hr.first
  have hfilled := h.filled literal hliteral
  have hbefore := hr.before
  have hinto := hr.into
  have hany : literals.any found.span.touches = true := by
    refine List.any_eq_true.2 ⟨literal, hliteral, ?_⟩
    rw [Span.touches_iff (by omega)]
    omega
  obtain ⟨windowed, hwindowed, hlt⟩ := hr.windowed
  have hconfined : p.matcher.findBefore text position literal.start = some c := by
    rw [Matcher.findBefore]
    simp only [Pattern.matcher, hwindowed, hr.cut]
    rw [if_neg (by omega)]
  rw [searchStep]
  simp only [Pattern.matcher] at hconfined ⊢
  rw [hr.direct]
  simp only [hany, hr.first, hbefore, if_true, hconfined]

/-- The confined match touches the literal that was passed earlier. -/
theorem IsRetreat.touches (h : Orderly literals)
    (hr : IsRetreat p literals text position found c earlier literal) :
    c.span.touches earlier = true := by
  obtain ⟨-, -, hbefore, -, -, -, hends, hmem, hpassed, hback⟩ := hr
  have hfilled := h.filled earlier hmem
  rw [Span.touches_iff (by omega)]
  omega

end Retreat

/-! ## The whole search -/

/-- The search for a pattern goes back into a literal of the text at some time. -/
def Retreats (s : Segmenter) (p : Pattern) (text : List Char) : Prop :=
  ∃ position found confined earlier literal,
    Reaches p.matcher (s.literalSpans text) text 0 position ∧
      IsRetreat p (s.literalSpans text) text position found confined earlier literal

/-- All matches that are replaced touch no literal, just if the search never goes back. -/
theorem disjoint_iff (s : Segmenter) (p : Pattern) (text : List Char) :
    (∀ c ∈ s.matchesOutside p.matcher text, ∀ l ∈ s.literalSpans text,
      c.span.touches l = false) ↔ ¬ s.Retreats p text := by
  have h := s.orderly_literalSpans text
  constructor
  · rintro hdisjoint ⟨position, found, confined, earlier, literal, hreaches, hr⟩
    have hmem : confined ∈ s.matchesOutside p.matcher text :=
      mem_matchesFrom_iff.2 ⟨position, hreaches, hr.searchStep_eq h⟩
    simpa [hr.touches h] using hdisjoint confined hmem earlier hr.mem
  · intro hnever c hc l hl
    obtain ⟨position, hreaches, hstep⟩ := mem_matchesFrom_iff.1 hc
    by_contra htouches
    rw [Bool.not_eq_false] at htouches
    obtain ⟨found, literal, hr⟩ := exists_isRetreat_of_touches h hstep hl htouches
    exact hnever ⟨position, found, c, l, literal, hreaches, hr⟩

/-- If no match touches a literal, replacement keeps the literals. -/
theorem exists_segments_replaceOutside {s : Segmenter} {m : Matcher} {text : List Char}
    (h : ∀ c ∈ s.matchesOutside m text, ∀ l ∈ s.literalSpans text, c.span.touches l = false)
    (f : List Char → Captures → List Char) :
    ∃ gs, gs.filter (·.isLiteral) = (s.segments text).filter (·.isLiteral) ∧
      Segment.textOf gs = s.replaceOutside m f text := by
  refine exists_segments_splice (by rw [List.drop_zero, textOf_segments]) (Nat.zero_le _)
    (s.orderly_literalSpans text) ?_ ?_
  · rw [List.map_map]
    exact ascends_matchesFrom m (s.literalSpans text) text 0
  · intro e he l hl
    obtain ⟨c, hc, rfl⟩ := List.mem_map.1 he
    exact h c hc l hl

/-- **Replacement rewrites code only, unless the search goes back.**  Whatever the pattern, the
matches that are replaced touch no literal just if the search never goes back into one, and
then every literal of the text is found in the result, in order, whatever takes the place of the
matches. -/
theorem disjoint_iff_not_retreats (s : Segmenter) (p : Pattern) (text : List Char) :
    ((∀ c ∈ s.matchesOutside p.matcher text, ∀ l ∈ s.literalSpans text,
        c.span.touches l = false) ↔ ¬ s.Retreats p text) ∧
      (¬ s.Retreats p text → ∀ f : List Char → Captures → List Char,
        ∃ gs, gs.filter (·.isLiteral) = (s.segments text).filter (·.isLiteral) ∧
          Segment.textOf gs = s.replaceOutside p.matcher f text) :=
  ⟨s.disjoint_iff p text, fun hnever =>
    exists_segments_replaceOutside ((s.disjoint_iff p text).2 hnever)⟩

/-- A search that goes back.  The match `x"` runs from the code `x` into the second literal; up
to that literal the text ends behind `x`, so that there the other branch matches as well, and it
starts in the first literal, which does not survive. -/
theorem rewrites_literal :
    ∃ r, Regex.read? "b\"x$|x\"".toList = some r ∧
      (∃ c ∈ ascii.matchesOutside r.pattern.matcher "\"b\"x\"c\"".toList,
        ∃ l ∈ ascii.literalSpans "\"b\"x\"c\"".toList, c.span.touches l = true) ∧
      ascii.replaceOutside r.pattern.matcher (fun _ _ => ['R']) "\"b\"x\"c\"".toList =
        "\"R\"c\"".toList :=
  ⟨(Regex.read? "b\"x$|x\"".toList).get (by decide +kernel), (Option.some_get _).symm,
    by decide +kernel, by decide +kernel⟩

end Segmenter

end RuleCanon
