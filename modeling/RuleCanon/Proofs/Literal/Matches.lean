import RuleCanon.Proofs.Literal.Rewrite

/-!
# Which matches are replaced

A search goes through the text from left to right, and what one match covers is lost for the others.
For a sealed pattern this is the only thing that matters: what is replaced is a match at a place in
code, and a match in code is replaced if no match from an earlier place reaches beyond its start.
No other match then covers any part of it.

## Main Definitions

* `Span.IsApart` — stretches without a common character
* `Segmenter.InCode` — places outside literals

## Main Statements

* `Segmenter.matchAt?_of_mem_matchesOutside` — what is replaced is a match in code
* `Segmenter.mem_matchesOutside_of_matchAt?` — a match in code that no earlier one gets in the way
  of is replaced
* `Segmenter.isApart_of_inCode` — when a stretch reaches into no literal
* `Segmenter.eq_or_isApart_of_mem_matchesOutside` — matches that are replaced have nothing in common
* `splice_filter` — stretches that are exchanged for themselves might as well be left alone
-/

namespace RuleCanon

variable {text w : List Char} {n upper lower : Nat}

/-! ## Stretches that are apart -/

namespace Span

/-- One of the stretches ends before the other one starts. -/
def IsApart (a b : Span) : Prop := a.stop ≤ b.start ∨ b.stop ≤ a.start

instance (a b : Span) : Decidable (a.IsApart b) :=
  inferInstanceAs (Decidable (a.stop ≤ b.start ∨ b.stop ≤ a.start))

instance : Std.Symm IsApart where
  symm _ _ := Or.symm

/-- A stretch with characters is apart from what it does not touch. -/
theorem isApart_of_touches_eq_false {a b : Span} (ha : a.start < a.stop)
    (h : a.touches b = false) : a.IsApart b := by
  by_contra hmeet
  rw [IsApart, not_or, Nat.not_le, Nat.not_le] at hmeet
  rw [(touches_iff ha).2 ⟨hmeet.2, hmeet.1⟩] at h
  contradiction

end Span

/-- Of stretches in order each ends before the later ones start. -/
theorem Ascends.pairwise {spans : List Span} (h : Ascends upper lower spans) :
    spans.Pairwise (fun a b => a.stop ≤ b.start) ∧ ∀ s ∈ spans, lower ≤ s.start := by
  induction spans generalizing lower with
  | nil => exact ⟨.nil, by simp⟩
  | cons s rest ih =>
      obtain ⟨⟨hstart, hle, -⟩, hrest⟩ := h
      obtain ⟨hpairwise, hbehind⟩ := ih hrest
      refine ⟨.cons hbehind hpairwise, List.forall_mem_cons.2 ⟨hstart, fun t ht => ?_⟩⟩
      have hlater := hbehind t ht
      omega

theorem Ascends.filter {spans : List Span} (h : Ascends upper lower spans) (q : Span → Bool) :
    Ascends upper lower (spans.filter q) := by
  induction spans generalizing lower with
  | nil => trivial
  | cons s rest ih =>
      obtain ⟨⟨hstart, hle, hstop⟩, hrest⟩ := h
      cases hs : q s with
      | true =>
          rw [List.filter_cons_of_pos hs]
          exact ⟨⟨hstart, hle, hstop⟩, ih hrest⟩
      | false =>
          rw [List.filter_cons_of_neg (by simp [hs])]
          exact (ih hrest).of_le (Nat.le_trans hstart hle)

/-- **Stretches that are exchanged for themselves** might as well be left alone. -/
theorem splice_filter {spans : List Span} (q : Span → Bool) (w : List Char)
    (h : Ascends text.length n spans) :
    splice text n (spans.map fun s => (s, if q s then w else slice text s.start s.stop)) =
      splice text n ((spans.filter q).map fun s => (s, w)) := by
  induction spans generalizing n with
  | nil => rfl
  | cons s rest ih =>
      obtain ⟨⟨hstart, hle, -⟩, hrest⟩ := h
      rw [List.map_cons, splice, ih hrest]
      cases hs : q s with
      | true => rw [List.filter_cons_of_pos hs, List.map_cons, splice, if_pos rfl]
      | false =>
          have hlater : Ascends text.length s.stop
              (((rest.filter q).map fun s => (s, w)).map (·.1)) := by
            simpa only [List.map_map, Function.comp_def, List.map_id'] using hrest.filter q
          rw [List.filter_cons_of_neg (by simp [hs]), if_neg Bool.false_ne_true,
            splice_of_le hlater (Nat.le_trans hstart hle), slice_append_slice text hstart hle]

/-! ## Matches in code -/

namespace Segmenter

open Pattern

variable {s : Segmenter} {p : Pattern} {marks : List Char} {literals : List Span}
  {position i : Nat} {c d : Captures}

/-- The position is not inside a literal. -/
def InCode (s : Segmenter) (text : List Char) (i : Nat) : Prop :=
  ∀ l ∈ s.literalSpans text, ¬ (l.start ≤ i ∧ i < l.stop)

instance (s : Segmenter) (text : List Char) (i : Nat) : Decidable (s.InCode text i) :=
  inferInstanceAs (Decidable (∀ l ∈ s.literalSpans text, ¬ (l.start ≤ i ∧ i < l.stop)))

/-- The literals of a text start with marks. -/
theorem startWith_literalSpans (s : Segmenter) (text : List Char) :
    StartWith s.marks text (s.literalSpans text) :=
  startWith_spansFrom (isCut_segments s text) (textOf_segments s text).symm

/-- No literal has a part of a stretch just if the stretch starts in code and no literal starts
in it. -/
theorem isApart_iff {a : Span} (ha : a.start < a.stop) :
    (∀ l ∈ s.literalSpans text, a.IsApart l) ↔ s.InCode text a.start ∧
      ∀ l ∈ s.literalSpans text, ¬ (a.start ≤ l.start ∧ l.start < a.stop) := by
  constructor
  · intro hapart
    refine ⟨fun l hl hinside => ?_, fun l hl hstarts => ?_⟩
    · rcases hapart l hl with hbefore | hbehind <;> omega
    · have hfilled := (orderly_literalSpans s text).filled l hl
      rcases hapart l hl with hbefore | hbehind <;> omega
  · rintro ⟨hcode, hstarts⟩ l hl
    have houtside := hcode l hl
    have hlater := hstarts l hl
    rw [Span.IsApart]
    omega

/-- Where a literal ends before the text does there is the end of its closing mark. -/
theorem exists_fence_of_mem_spansFrom {gs : List Segment} {l : Span} (hcut : s.IsCut gs)
    (htext : text.drop n = Segment.textOf gs) (hl : l ∈ Segment.spansFrom n gs)
    (hstop : l.stop < text.length) : ∃ q ∈ s.fences, charBefore? text l.stop = some q := by
  induction hcut generalizing n with
  | nil => contradiction
  | code _ _ ih => exact ih (drop_add_of_drop_eq htext) hl
  | @closed d body gs hopens _ _ ih =>
      rcases List.mem_cons.1 hl with rfl | hl
      · have hd := List.mem_of_find?_eq_some hopens
        have hend := charBefore?_add_of_drop_eq htext
        rw [Segment.getLast?_text_closed (s.proper d hd).2,
          List.getLast?_eq_some_getLast (s.proper d hd).2, Option.some_or] at hend
        exact ⟨_, mem_fences_of_charBefore? hd htext hend, hend⟩
      · exact ih (drop_add_of_drop_eq htext) hl
  | opened =>
      -- a literal that is not closed reaches to the end of the text
      have hlength := congrArg List.length htext
      rw [Segment.textOf_cons, List.length_append, List.length_drop] at hlength
      obtain rfl := List.mem_singleton.1 hl
      simp only [Segment.textOf, List.flatMap_nil, List.length_nil] at hstop hlength
      omega

/-- **A stretch around a place in code reaches into no literal** if there are no fences in it. -/
theorem isApart_of_inCode {a : Span} (hi : s.InCode text i) (hlength : i < text.length)
    (hstart : a.start ≤ i) (hstop : i < a.stop)
    (hclear : ∀ j o, a.start ≤ j → j < a.stop → text[j]? = some o → o ∉ s.fences) :
    ∀ l ∈ s.literalSpans text, a.IsApart l := by
  intro l hl
  have hstarts := startWith_literalSpans s text
  by_contra hmeet
  rw [Span.IsApart, not_or, Nat.not_le, Nat.not_le] at hmeet
  by_cases hbehind : i < l.start
  · obtain ⟨o, ho, hget⟩ := hstarts.marked l hl
    exact hclear l.start o (by omega) hmeet.1 hget (marks_subset_fences s ho)
  · -- the literal lies before the place, and its end in the stretch
    have hbefore : l.stop ≤ i := by
      by_contra hinside
      exact hi l hl ⟨by omega, by omega⟩
    have htext : text.drop 0 = Segment.textOf (s.segments text) := (textOf_segments s text).symm
    obtain ⟨q, hq, hget⟩ := exists_fence_of_mem_spansFrom (isCut_segments s text) htext hl
      (by omega)
    obtain ⟨k, hk⟩ : ∃ k, l.stop = k + 1 := ⟨l.stop - 1, by omega⟩
    rw [hk, charBefore?_succ (by omega)] at hget
    exact hclear k q (by omega) (by omega) hget hq

section Sealed

variable (hsealed : p.IsSealed marks) (hstart : StartWith marks text literals)

include hsealed hstart

/-- The search ends where there is no match any more. -/
theorem find_eq_none_of_finished
    (h : searchStep p.matcher literals text position = .finished) :
    p.find text position = none := by
  rw [searchStep_eq_settle hsealed hstart] at h
  by_contra hsome
  obtain ⟨c, hc⟩ := Option.ne_none_iff_exists'.1 hsome
  rw [hc, settle] at h
  split at h
  · next hany =>
    -- a literal that is touched would be skipped
    obtain ⟨k, hk, htouches⟩ := List.any_eq_true.1 hany
    split at h
    · next hnone =>
      exact List.find?_eq_none.1 hnone k hk (decide_eq_true (Span.start_lt_of_touches htouches))
    · contradiction
  · contradiction

/-- The search skips the first literal that ends behind the start of the next match, if the match
touches any. -/
theorem exists_of_skip {next : Nat}
    (h : searchStep p.matcher literals text position = .skip next) :
    ∃ c l k, p.find text position = some c ∧ k ∈ literals ∧ c.span.touches k = true ∧
      l ∈ literals ∧ l.start ≤ k.start ∧ l.stop = next := by
  rw [searchStep_eq_settle hsealed hstart] at h
  cases hc : p.find text position with
  | none =>
      rw [hc] at h
      contradiction
  | some c =>
      rw [hc, settle] at h
      split at h
      · next hany =>
        obtain ⟨k, hk, htouches⟩ := List.any_eq_true.1 hany
        split at h
        · contradiction
        · next l hl =>
          have hfirst := hstart.orderly.start_le_of_find? hl hk (Span.start_lt_of_touches htouches)
          exact ⟨c, l, k, rfl, hk, htouches, List.mem_of_find?_eq_some hl, hfirst,
            SearchStep.skip.inj h⟩
      · contradiction

/-- The search takes the next match, if that touches no literal. -/
theorem find_of_accept (h : searchStep p.matcher literals text position = .accept c) :
    p.find text position = some c ∧ ∀ l ∈ literals, c.span.touches l = false := by
  rw [searchStep_eq_settle hsealed hstart] at h
  cases hd : p.find text position with
  | none =>
      rw [hd] at h
      contradiction
  | some d =>
      rw [hd, settle] at h
      split at h
      · split at h <;> contradiction
      · next hany =>
        cases h
        exact ⟨rfl, by simpa using hany⟩

/-- **A match in code is replaced** if no match from a place before it reaches beyond its start. -/
theorem mem_matchesFrom_of_matchAt? (hd : p.matchAt? text i = some d) (hle : position ≤ i)
    (hcode : ∀ l ∈ literals, d.span.IsApart l)
    (hfree : ∀ j < i, ∀ e, p.matchAt? text j = some e → e.span.stop ≤ i) :
    d ∈ matchesFrom p.matcher literals text position := by
  obtain rfl := start_of_matchAt? hd
  obtain ⟨hlt, hlength⟩ := hsealed.lt_of_matchAt? hd
  -- the search does not pass the place
  have hreached {position : Nat} {c : Captures} (hle : position ≤ d.span.start)
      (hc : p.find text position = some c) : c = d ∨ c.span.stop ≤ d.span.start := by
    have hleftmost := isLeftmost_of_find hc
    rcases Nat.lt_trichotomy c.span.start d.span.start with hbefore | hsame | hbehind
    · exact .inr (hfree _ hbefore c hleftmost.here)
    · have hhere := hleftmost.here
      rw [hsame, hd] at hhere
      exact .inl (Option.some.inj hhere).symm
    · have hnone := hleftmost.before _ hle hbehind
      rw [hd] at hnone
      contradiction
  fun_induction matchesFrom p.matcher literals text position with
  | case1 position _ hstep =>
      have hnone := find_eq_none_iff.1 (find_eq_none_of_finished hsealed hstart hstep) _ hle
        (by omega)
      rw [hd] at hnone
      contradiction
  | case2 position _ next hstep ih =>
      obtain ⟨c, l, k, hc, hk, htouches, hl, hfirst, rfl⟩ := exists_of_skip hsealed hstart hstep
      have hfilled := (hsealed.lt_of_matchAt? (isLeftmost_of_find hc).here).1
      have hinto := (Span.touches_iff hfilled).1 htouches
      refine ih ?_
      rcases hreached hle hc with rfl | hpassed
      · rcases hcode k hk with hbefore | hbehind <;> omega
      · rcases hcode l hl with hbefore | hbehind <;> omega
  | case3 position _ c hstep ih =>
      have hc := (find_of_accept hsealed hstart hstep).1
      have hfilled := (hsealed.lt_of_matchAt? (isLeftmost_of_find hc).here).1
      rcases hreached hle hc with rfl | hpassed
      · exact List.mem_cons_self
      · refine List.mem_cons_of_mem _ (ih ?_)
        have hresume : c.span.resume = c.span.stop := if_neg (Nat.ne_of_lt hfilled)
        rwa [hresume]
  | case4 position hbound => omega

end Sealed

section Outside

variable (hsealed : p.IsSealed s.marks)

include hsealed

/-- **What is replaced is a match in code.** -/
theorem matchAt?_of_mem_matchesOutside (h : c ∈ s.matchesOutside p.matcher text) :
    p.matchAt? text c.span.start = some c ∧ ∀ l ∈ s.literalSpans text, c.span.IsApart l := by
  obtain ⟨i, -, hstep⟩ := mem_matchesFrom_iff.1 h
  obtain ⟨hfind, hapart⟩ := find_of_accept hsealed (startWith_literalSpans s text) hstep
  have hhere := (isLeftmost_of_find hfind).here
  exact ⟨hhere, fun l hl =>
    Span.isApart_of_touches_eq_false (hsealed.lt_of_matchAt? hhere).1 (hapart l hl)⟩

/-- **A match in code is replaced** if no match from a place before it reaches beyond its start. -/
theorem mem_matchesOutside_of_matchAt? (hd : p.matchAt? text i = some d)
    (hcode : ∀ l ∈ s.literalSpans text, d.span.IsApart l)
    (hfree : ∀ j < i, ∀ e, p.matchAt? text j = some e → e.span.stop ≤ i) :
    d ∈ s.matchesOutside p.matcher text :=
  mem_matchesFrom_of_matchAt? hsealed (startWith_literalSpans s text) hd (Nat.zero_le i) hcode hfree

end Outside

/-- **Matches that are replaced have nothing in common.** -/
theorem eq_or_isApart_of_mem_matchesOutside {m : Matcher} (hc : c ∈ s.matchesOutside m text)
    (hd : d ∈ s.matchesOutside m text) : c.span = d.span ∨ c.span.IsApart d.span := by
  have hordered := (ascends_matchesFrom m (s.literalSpans text) text 0).pairwise.1
  have hapart := hordered.imp (S := Span.IsApart) .inl
  exact or_iff_not_imp_left.2 (hapart.forall (List.mem_map_of_mem hc) (List.mem_map_of_mem hd))

end Segmenter

end RuleCanon
