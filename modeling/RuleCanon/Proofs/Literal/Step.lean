import RuleCanon.Literal.Outside

/-!
# The search outside literals, step by step

Replacement looks for one match after the other.  Each step takes a match, skips a literal or
ends the search, and the next step goes on from a later position.  The lemmas here describe one
step by the outcome of the search for a match, and the list of matches by its steps.

## Main Definitions

* `Segmenter.Reaches` — the positions from which the search goes on
* `Ascends` — stretches of a text in order

## Main Statements

* `Segmenter.searchStep_accept_cases` — where a match that is taken comes from
* `Segmenter.mem_matchesFrom_iff` — the matches that are replaced are those that steps take
* `Segmenter.ascends_matchesFrom` — they are in order and apart from each other
-/

namespace RuleCanon

/-- Stretches of a text in order and apart from each other, of which any may be void. -/
def Ascends (upper : Nat) : Nat → List Span → Prop
  | _, [] => True
  | lower, s :: rest => s.Within lower upper ∧ Ascends upper s.stop rest

theorem Ascends.of_le {upper lower lower' : Nat} {spans : List Span}
    (h : Ascends upper lower spans) (hle : lower' ≤ lower) : Ascends upper lower' spans := by
  cases spans with
  | nil => trivial
  | cons s rest =>
      obtain ⟨⟨hstart, hwithin⟩, hrest⟩ := h
      exact ⟨⟨Nat.le_trans hle hstart, hwithin⟩, hrest⟩

/-- The first of several stretches ascend as far as they reach. -/
theorem Ascends.of_append {upper lower b : Nat} {front back : List Span}
    (h : Ascends upper lower (front ++ back)) (hb : ∀ s ∈ front, s.stop ≤ b) :
    Ascends b lower front := by
  induction front generalizing lower with
  | nil => trivial
  | cons s front ih =>
      obtain ⟨⟨hstart, hle, -⟩, hrest⟩ := h
      exact ⟨⟨hstart, hle, hb s List.mem_cons_self⟩,
        ih hrest fun t ht => hb t (List.mem_cons_of_mem s ht)⟩

namespace Span

variable {s l : Span}

theorem stop_le_resume (s : Span) : s.stop ≤ s.resume := by
  rw [resume]
  split <;> omega

/-- A stretch that is not void touches what it overlaps. -/
theorem touches_iff (h : s.start < s.stop) :
    s.touches l = true ↔ s.start < l.stop ∧ l.start < s.stop := by
  have hvoid : ¬ s.IsVoid := Nat.ne_of_lt h
  rw [touches, if_neg hvoid, Bool.and_eq_true, decide_eq_true_eq, decide_eq_true_eq]

/-- A stretch starts before the end of what it touches. -/
theorem start_lt_of_touches (h : s.touches l = true) : s.start < l.stop := by
  rw [touches] at h
  split at h <;> simp only [Bool.and_eq_true, decide_eq_true_eq] at h
  · exact h.2
  · exact h.1

/-- A stretch ends behind the start of what it touches. -/
theorem lt_stop_of_touches (hle : s.start ≤ s.stop) (h : s.touches l = true) :
    l.start < s.stop := by
  rw [touches] at h
  split at h <;> simp only [Bool.and_eq_true, decide_eq_true_eq] at h
  · exact Nat.lt_of_lt_of_le h.1 hle
  · exact h.2

end Span

namespace Segmenter

variable {m : Matcher} {literals : List Span} {text : List Char} {position : Nat}
  {c : Captures}

/-- A match is taken as it was found, if it touches no literal, or from the text before the
literal that it runs into. -/
theorem searchStep_accept_cases (h : searchStep m literals text position = .accept c) :
    (m.find text position = some c ∧ ∀ l ∈ literals, c.span.touches l = false) ∨
      ∃ found literal, m.find text position = some found ∧
        literals.any found.span.touches = true ∧
        literals.find? (found.span.start < ·.stop) = some literal ∧
        found.span.start < literal.start ∧ m.findBefore text position literal.start = some c := by
  unfold searchStep at h
  split at h
  · contradiction
  · next found hfound =>
    split at h
    · next htouches =>
      split at h
      · contradiction
      · next literal hliteral =>
        split at h
        · next hbefore =>
          split at h
          · next confined hconfined =>
            cases h
            exact .inr ⟨found, literal, hfound, htouches, hliteral, hbefore, hconfined⟩
          · contradiction
        · contradiction
    · next htouches =>
      cases h
      exact .inl ⟨hfound, by simpa using htouches⟩

/-- The search before a literal takes a match that leaves the literal's first character alone,
or else one from the text up to the literal. -/
theorem findBefore_cases {cut : Nat} (h : m.findBefore text position cut = some c) :
    ∃ windowed, m.find (text.take (cut + 1)) position = some windowed ∧
      (windowed.span.stop ≤ cut ∧ c = windowed ∨
        cut < windowed.span.stop ∧ m.find (text.take cut) position = some c) := by
  unfold Matcher.findBefore at h
  split at h
  · contradiction
  · next windowed hwindowed =>
    split at h
    · next hle => exact ⟨windowed, hwindowed, .inl ⟨hle, (Option.some.inj h).symm⟩⟩
    · next hlt => exact ⟨windowed, hwindowed, .inr ⟨by omega, h⟩⟩

/-- One position from which the search goes on leads to another. -/
inductive Reaches (m : Matcher) (literals : List Span) (text : List Char) : Nat → Nat → Prop where
  | refl (i : Nat) : Reaches m literals text i i
  | skip {i j k : Nat} (hstep : searchStep m literals text i = .skip j)
      (hrest : Reaches m literals text j k) : Reaches m literals text i k
  | accept {i k : Nat} {c : Captures} (hstep : searchStep m literals text i = .accept c)
      (hrest : Reaches m literals text c.span.resume k) : Reaches m literals text i k

theorem le_length_of_find (h : m.find text position = some c) : position ≤ text.length := by
  obtain ⟨h₁, h₂, h₃⟩ := m.find_within h
  omega

theorem searchStep_of_length_lt (h : text.length < position) :
    searchStep m literals text position = .finished := by
  cases hfind : m.find text position with
  | none => simp [searchStep, hfind]
  | some c =>
      have := le_length_of_find hfind
      omega

theorem matchesFrom_of_finished (h : searchStep m literals text position = .finished) :
    matchesFrom m literals text position = [] := by
  rw [matchesFrom]
  split
  · split
    · rfl
    · next hskip => simp [h] at hskip
    · next haccept => simp [h] at haccept
  · rfl

theorem matchesFrom_of_skip {next : Nat}
    (h : searchStep m literals text position = .skip next) :
    matchesFrom m literals text position = matchesFrom m literals text next := by
  rw [matchesFrom]
  split
  · split
    · next hfinished => simp [h] at hfinished
    · next hskip => rw [SearchStep.skip.inj (h.symm.trans hskip)]
    · next haccept => simp [h] at haccept
  · next hlt =>
    rw [searchStep_of_length_lt (by omega)] at h
    contradiction

theorem matchesFrom_of_accept (h : searchStep m literals text position = .accept c) :
    matchesFrom m literals text position = c :: matchesFrom m literals text c.span.resume := by
  rw [matchesFrom]
  split
  · split
    · next hfinished => simp [h] at hfinished
    · next hskip => simp [h] at hskip
    · next haccept => rw [SearchStep.accept.inj (h.symm.trans haccept)]
  · next hlt =>
    rw [searchStep_of_length_lt (by omega)] at h
    contradiction

/-- The matches that are replaced are those that the steps of the search take. -/
theorem mem_matchesFrom_iff :
    c ∈ matchesFrom m literals text position ↔
      ∃ i, Reaches m literals text position i ∧ searchStep m literals text i = .accept c := by
  constructor
  · intro hmem
    fun_induction matchesFrom m literals text position with
    | case1 => contradiction
    | case2 position _ next hstep ih =>
        obtain ⟨i, hreaches, haccept⟩ := ih hmem
        exact ⟨i, .skip hstep hreaches, haccept⟩
    | case3 position _ d hstep ih =>
        rcases List.mem_cons.1 hmem with rfl | hmem
        · exact ⟨position, .refl position, hstep⟩
        · obtain ⟨i, hreaches, haccept⟩ := ih hmem
          exact ⟨i, .accept hstep hreaches, haccept⟩
    | case4 => contradiction
  · rintro ⟨i, hreaches, haccept⟩
    -- each step on the way to `i` keeps the match among those to come
    induction hreaches with
    | refl i =>
        rw [matchesFrom_of_accept haccept]
        exact List.mem_cons_self
    | skip hstep _ ih =>
        rw [matchesFrom_of_skip hstep]
        exact ih haccept
    | accept hstep _ ih =>
        rw [matchesFrom_of_accept hstep]
        exact List.mem_cons_of_mem _ (ih haccept)

/-- The search does not go back to an earlier position. -/
theorem Reaches.le {i j : Nat} (h : Reaches m literals text i j) : i ≤ j := by
  induction h with
  | refl => exact Nat.le_refl _
  | skip hstep _ ih => exact Nat.le_trans (Nat.le_of_lt (lt_of_searchStep_skip hstep)) ih
  | accept hstep _ ih =>
      have := Span.lt_resume (within_of_searchStep_accept hstep)
      omega

/-- What is replaced lies where the search started or further on. -/
theorem within_of_mem_matchesFrom (h : c ∈ matchesFrom m literals text position) :
    c.span.Within position text.length := by
  obtain ⟨i, hreaches, hstep⟩ := mem_matchesFrom_iff.1 h
  obtain ⟨hstart, hwithin⟩ := within_of_searchStep_accept hstep
  exact ⟨Nat.le_trans hreaches.le hstart, hwithin⟩

/-- In a text without literals each match is taken as it was found. -/
theorem exists_find_of_mem_matchesFrom_nil (h : c ∈ matchesFrom m [] text position) :
    ∃ i, position ≤ i ∧ m.find text i = some c := by
  obtain ⟨i, hreaches, hstep⟩ := mem_matchesFrom_iff.1 h
  rcases searchStep_accept_cases hstep with ⟨hfind, -⟩ | ⟨found, literal, -, hany, -⟩
  · exact ⟨i, hreaches.le, hfind⟩
  · simp at hany

/-- Where the search makes the same step it gives the same matches. -/
theorem matchesFrom_congr {i j : Nat}
    (h : searchStep m literals text i = searchStep m literals text j) :
    matchesFrom m literals text i = matchesFrom m literals text j := by
  cases hstep : searchStep m literals text j with
  | finished => rw [matchesFrom_of_finished hstep, matchesFrom_of_finished (h.trans hstep)]
  | skip next => rw [matchesFrom_of_skip hstep, matchesFrom_of_skip (h.trans hstep)]
  | accept c => rw [matchesFrom_of_accept hstep, matchesFrom_of_accept (h.trans hstep)]

/-! ## Literals that were passed -/

/-- Literals that end before the position play no part. -/
theorem searchStep_append {front back : List Span} (h : ∀ l ∈ front, l.stop ≤ position) :
    searchStep m (front ++ back) text position = searchStep m back text position := by
  rw [searchStep, searchStep]
  cases hfind : m.find text position with
  | none => rfl
  | some c =>
      have hpassed (l : Span) (hl : l ∈ front) : ¬ c.span.start < l.stop := by
        have := (m.find_within hfind).1
        have := h l hl
        omega
      have hany : front.any c.span.touches = false := by
        exact List.any_eq_false.2 fun l hl htouches =>
          hpassed l hl (Span.start_lt_of_touches htouches)
      have hnone : front.find? (c.span.start < ·.stop) = none :=
        List.find?_eq_none.2 fun l hl => by simpa using hpassed l hl
      simp only [List.any_append, hany, Bool.false_or, List.find?_append, hnone, Option.none_or]

theorem matchesFrom_append (front : List Span) {back : List Span}
    (h : ∀ l ∈ front, l.stop ≤ position) :
    matchesFrom m (front ++ back) text position = matchesFrom m back text position := by
  have hstep {i : Nat} (hi : ∀ l ∈ front, l.stop ≤ i) :
      searchStep m (front ++ back) text i = searchStep m back text i := searchStep_append hi
  fun_induction matchesFrom m back text position with
  | case1 position _ hback => rw [matchesFrom_of_finished ((hstep h).trans hback)]
  | case2 position _ next hback ih =>
      have hlt := lt_of_searchStep_skip hback
      rw [matchesFrom_of_skip ((hstep h).trans hback),
        ih fun l hl => Nat.le_trans (h l hl) (Nat.le_of_lt hlt)]
  | case3 position _ c hback ih =>
      have hlt := Span.lt_resume (within_of_searchStep_accept hback)
      rw [matchesFrom_of_accept ((hstep h).trans hback),
        ih fun l hl => Nat.le_trans (h l hl) (Nat.le_of_lt hlt)]
  | case4 position hlength =>
      -- the search is behind the end of the text
      rw [matchesFrom_of_finished (searchStep_of_length_lt (by omega))]

/-- The matches that are replaced are in order and apart from each other. -/
theorem ascends_matchesFrom (m : Matcher) (literals : List Span) (text : List Char)
    (position : Nat) :
    Ascends text.length position ((matchesFrom m literals text position).map (·.span)) := by
  fun_induction matchesFrom m literals text position with
  | case1 => trivial
  | case2 position _ next hstep ih => exact ih.of_le (Nat.le_of_lt (lt_of_searchStep_skip hstep))
  | case3 position _ c hstep ih =>
      exact ⟨within_of_searchStep_accept hstep, ih.of_le c.span.stop_le_resume⟩
  | case4 => trivial

end Segmenter

end RuleCanon
