import Mathlib.Data.List.TakeWhile
import RuleCanon.Proofs.Idiom.Possessive
import RuleCanon.Proofs.Literal.Matches
import RuleCanon.Stage.Builtin

/-!
# Which particles become a dot

The search for the possessive particle reads a text from left to right, and what one match covers
is lost for the next one.  Still it can be said of each particle in code by itself whether it
becomes a dot.  A particle that lacks a blank on a side is matched alone, and no match from an
earlier place covers it.  A particle with blanks on both sides is matched with all of them, unless
a particle stands right before the blanks in front of it: only then could these have been read
before.

## Main Definitions

* `Segmenter.memberAccesses` — the stretches that become a dot
* `HasParticle` — places of particles in code
* `IsSpaced`, `spacedSpan` — particles with blanks on both sides
* `DotsIff` — when a stretch becomes a dot, and that otherwise nothing in it does

## Main Statements

* `exists_of_matchAt?_possessive` — a match is a particle, alone or with blanks next to it
* `dotsIff_single`, `dotsIff_spaced` — when a particle becomes a dot
* `possessive_apply_iff` — that, and nothing else in the text changes
-/

namespace RuleCanon

open Lexicon Pattern Segmenter

variable {s : Segmenter} {text x gap gap' rest : List Char} {i j k : Nat} {m : Captures}

/-! ## Blanks around a place -/

/-- The number of blanks right before a position. -/
def blanksBefore (text : List Char) (position : Nat) : Nat :=
  ((text.take position).reverse.takeWhile CharSet.inlineBlank.mem).length

/-- The number of blanks right after a position. -/
def blanksAfter (text : List Char) (position : Nat) : Nat :=
  ((text.drop position).takeWhile CharSet.inlineBlank.mem).length

/-- The nearest character before a position that is not blank. -/
def nonblankBefore? (text : List Char) (position : Nat) : Option Char :=
  (text.take position).reverse.find? (!CharSet.inlineBlank.mem ·)

/-- The nearest character after a position that is not blank. -/
def nonblankAfter? (text : List Char) (position : Nat) : Option Char :=
  (text.drop position).find? (!CharSet.inlineBlank.mem ·)

/-- There are blanks on both sides of the character at a position. -/
def IsSpaced (text : List Char) (i : Nat) : Prop :=
  0 < blanksBefore text i ∧ 0 < blanksAfter text (i + 1)

instance (text : List Char) (i : Nat) : Decidable (IsSpaced text i) :=
  inferInstanceAs (Decidable (_ ∧ _))

/-- The character at a position with all blanks next to it. -/
def spacedSpan (text : List Char) (i : Nat) : Span :=
  ⟨i - blanksBefore text i, i + 1 + blanksAfter text (i + 1)⟩

/-- A text starts with a run of characters of a set. -/
theorem exists_run (set : CharSet) (t : List Char) :
    ∃ w rest, t = w ++ rest ∧ (∀ c ∈ w, set.mem c = true) ∧ EndsRun set rest :=
  ⟨t.takeWhile set.mem, t.dropWhile set.mem, List.takeWhile_append_dropWhile.symm,
    List.all_eq_true.1 List.all_takeWhile, endsRun_dropWhile set t⟩

/-- A text ends with a run of characters of a set. -/
theorem exists_run_end (set : CharSet) (t : List Char) :
    ∃ x w, t = x ++ w ∧ (∀ c ∈ w, set.mem c = true) ∧ EndsRun set x.reverse := by
  obtain ⟨w, x, hsplit, hw, hx⟩ := exists_run set t.reverse
  refine ⟨x.reverse, w.reverse, ?_, fun c hc => hw c (List.mem_reverse.1 hc), ?_⟩
  · rw [← List.reverse_append, ← hsplit, List.reverse_reverse]
  · rwa [List.reverse_reverse]

theorem takeWhile_append_eq {set : CharSet} (hgap : ∀ c ∈ gap, set.mem c = true)
    (hend : EndsRun set rest) : (gap ++ rest).takeWhile set.mem = gap :=
  congrArg (·.1) (Option.some.inj (readMany_append hgap hend))

theorem find?_append_eq {set : CharSet} (hgap : ∀ c ∈ gap, set.mem c = true)
    (hend : EndsRun set rest) : (gap ++ rest).find? (!set.mem ·) = rest.head? := by
  rw [List.find?_not_eq_head?_dropWhile]
  exact congrArg (·.2.head?) (Option.some.inj (readMany_append hgap hend))

/-- A particle in a text, between all the blanks that are next to it. -/
structure StandsIn (text : List Char) (i : Nat) (x gap gap' rest : List Char) : Prop where
  text_eq : text = x ++ (gap ++ possessiveParticle :: (gap' ++ rest))
  index : i = x.length + gap.length
  before : ∀ c ∈ gap, CharSet.inlineBlank.mem c = true
  after : ∀ c ∈ gap', CharSet.inlineBlank.mem c = true
  front : EndsRun .inlineBlank x.reverse
  back : EndsRun .inlineBlank rest

theorem exists_standsIn (h : text[i]? = some possessiveParticle) :
    ∃ x gap gap' rest, StandsIn text i x gap gap' rest := by
  obtain ⟨hlt, hget⟩ := List.getElem?_eq_some_iff.1 h
  obtain ⟨x, gap, hfront, hgap, hx⟩ := exists_run_end .inlineBlank (text.take i)
  obtain ⟨gap', rest, hback, hgap', hrest⟩ := exists_run .inlineBlank (text.drop (i + 1))
  refine ⟨x, gap, gap', rest, ?_, ?_, hgap, hgap', hx, hrest⟩
  · rw [← hback, ← List.append_assoc, ← hfront, ← hget, ← List.drop_eq_getElem_cons hlt,
      List.take_append_drop]
  · rw [← List.length_append, ← hfront, List.length_take_of_le (Nat.le_of_lt hlt)]

namespace StandsIn

variable (h : StandsIn text i x gap gap' rest)

include h

theorem take_eq : text.take i = x ++ gap := by
  rw [h.text_eq, h.index, ← List.append_assoc, ← List.length_append, List.take_left]

theorem drop_eq : text.drop i = possessiveParticle :: (gap' ++ rest) := by
  rw [h.text_eq, h.index, ← List.append_assoc, ← List.length_append, List.drop_left]

theorem drop_succ_eq : text.drop (i + 1) = gap' ++ rest := by
  rw [← List.tail_drop, h.drop_eq, List.tail_cons]

theorem getElem?_eq : text[i]? = some possessiveParticle := by
  rw [← List.head?_drop, h.drop_eq, List.head?_cons]

theorem blanksBefore_eq : blanksBefore text i = gap.length := by
  have hgap : ∀ c ∈ gap.reverse, CharSet.inlineBlank.mem c = true :=
    fun c hc => h.before c (List.mem_reverse.1 hc)
  rw [blanksBefore, h.take_eq, List.reverse_append, takeWhile_append_eq hgap h.front,
    List.length_reverse]

theorem blanksAfter_eq : blanksAfter text (i + 1) = gap'.length := by
  rw [blanksAfter, h.drop_succ_eq, takeWhile_append_eq h.after h.back]

theorem isSpaced_iff : IsSpaced text i ↔ gap ≠ [] ∧ gap' ≠ [] := by
  rw [IsSpaced, h.blanksBefore_eq, h.blanksAfter_eq, List.length_pos_iff, List.length_pos_iff]

theorem spacedSpan_eq : spacedSpan text i = ⟨x.length, i + 1 + gap'.length⟩ := by
  rw [spacedSpan, h.blanksBefore_eq, h.blanksAfter_eq, h.index, Nat.add_sub_cancel]

/-- Before the blanks stands the nearest character that is not blank. -/
theorem charBefore?_eq : charBefore? text (spacedSpan text i).start = nonblankBefore? text i := by
  have hgap : ∀ c ∈ gap.reverse, CharSet.inlineBlank.mem c = true :=
    fun c hc => h.before c (List.mem_reverse.1 hc)
  have hnearest : nonblankBefore? text i = x.getLast? := by
    rw [nonblankBefore?, h.take_eq, List.reverse_append, find?_append_eq hgap h.front,
      List.head?_reverse]
  rw [h.spacedSpan_eq, hnearest, h.text_eq, charBefore?_length]

theorem charAfter?_eq :
    charAfter? text (spacedSpan text i).stop = nonblankAfter? text (i + 1) := by
  have hnearest : nonblankAfter? text (i + 1) = rest.head? := by
    rw [nonblankAfter?, h.drop_succ_eq, find?_append_eq h.after h.back]
  rw [h.spacedSpan_eq, hnearest, charAfter?, ← List.head?_drop, ← List.drop_drop, h.drop_succ_eq,
    List.drop_left]

/-- There are blanks around the particle. -/
theorem inlineBlank_of_getElem? {c : Char} (hstart : (spacedSpan text i).start ≤ k)
    (hstop : k < (spacedSpan text i).stop) (hne : k ≠ i) (hc : text[k]? = some c) :
    CharSet.inlineBlank.mem c = true := by
  rw [h.spacedSpan_eq] at hstart hstop
  simp only at hstart hstop
  rcases Nat.lt_or_gt_of_ne hne with hlt | hgt
  · rw [← List.getElem?_take_of_lt hlt, h.take_eq, List.getElem?_append_right hstart] at hc
    exact h.before c (List.mem_of_getElem? hc)
  · obtain ⟨n, rfl⟩ := Nat.exists_eq_add_of_lt hgt
    have hget : (text.drop (i + 1))[n]? = text[i + n + 1]? := by
      rw [List.getElem?_drop, Nat.add_right_comm]
    rw [← hget, h.drop_succ_eq, List.getElem?_append_left (by omega)] at hc
    exact h.after c (List.mem_of_getElem? hc)

/-- The particle is matched with all its blanks. -/
theorem matchAt?_spaced (hspaced : IsSpaced text i) :
    possessivePattern.matchAt? text (spacedSpan text i).start = some ⟨spacedSpan text i, []⟩ := by
  obtain ⟨hgap, hgap'⟩ := h.isSpaced_iff.1 hspaced
  have hread := particle?_eq_some_iff.2 ⟨rfl, .spaced ⟨hgap, h.before⟩ ⟨hgap', h.after⟩ h.back⟩
  have hmatch := matchAt?_possessivePattern x
    ((gap ++ possessiveParticle :: gap') ++ rest)
  have hlength : x.length + (gap ++ possessiveParticle :: gap').length = i + 1 + gap'.length := by
    rw [h.index, List.length_append, List.length_cons]
    omega
  rw [hread, Option.map_some, hlength, List.append_assoc, List.cons_append, ← h.text_eq] at hmatch
  rw [h.spacedSpan_eq, hmatch]

/-- Alone the particle can be matched wherever it stands. -/
theorem matchAt?_single :
    possessivePattern.matchAt? text i = some ⟨⟨i, i + 1⟩, []⟩ := by
  have hlength : (text.take i).length = i := by
    rw [h.take_eq, h.index, List.length_append]
  have hread : particle? (possessiveParticle :: (gap' ++ rest)) =
      some ([possessiveParticle], gap' ++ rest) :=
    particle?_eq_some_iff.2 ⟨rfl, .single (gap' ++ rest)⟩
  have hmatch := matchAt?_possessivePattern (text.take i) (text.drop i)
  rwa [List.take_append_drop, hlength, h.drop_eq, hread] at hmatch

end StandsIn

/-! ## Matches -/

/-- **A match is a particle**, alone or with blanks next to it on both sides. -/
theorem exists_of_matchAt?_possessive (h : possessivePattern.matchAt? text j = some m) :
    ∃ i, text[i]? = some possessiveParticle ∧ (m.span = ⟨i, i + 1⟩ ∨
      IsSpaced text i ∧ m.span.start < i ∧ i + 1 < m.span.stop ∧
        m.span.Within (spacedSpan text i).start (spacedSpan text i).stop) := by
  obtain ⟨hlt, hstop⟩ := isSealed_possessivePattern.lt_of_matchAt? h
  have hstart : m.span.start = j := start_of_matchAt? h
  have hlength : (text.take j).length = j := List.length_take_of_le (by omega)
  have hmatch := matchAt?_possessivePattern (text.take j) (text.drop j)
  rw [List.take_append_drop, hlength, h] at hmatch
  obtain ⟨⟨w, rest⟩, hread, rfl⟩ := Option.map_eq_some_iff.1 hmatch.symm
  obtain ⟨hdrop, hw⟩ := particle?_eq_some_iff.1 hread
  cases hw with
  | single =>
      refine ⟨j, ?_, .inl rfl⟩
      rw [← List.head?_drop, hdrop]
      rfl
  | @spaced gap gap' _ hgap hgap' hend =>
      -- there may be more blanks before the match
      obtain ⟨x, more, hfront, hmore, hx⟩ := exists_run_end .inlineBlank (text.take j)
      have hstands : StandsIn text (j + gap.length) x (more ++ gap) gap' rest := by
        refine ⟨?_, ?_, ?_, hgap'.2, hx, hend⟩
        · rw [← List.take_append_drop j text, hfront, hdrop]
          simp
        · rw [← hlength, hfront, List.length_append, List.length_append, Nat.add_assoc]
        · exact List.forall_mem_append.2 ⟨hmore, hgap.2⟩
      have hpos := List.length_pos_iff.2 hgap.1
      have hpos' := List.length_pos_iff.2 hgap'.1
      refine ⟨j + gap.length, hstands.getElem?_eq, .inr ⟨?_, ?_, ?_, ?_, ?_, ?_⟩⟩
      · exact hstands.isSpaced_iff.2 ⟨List.append_ne_nil_of_right_ne_nil _ hgap.1, hgap'.1⟩
      · exact Nat.lt_add_of_pos_right hpos
      · simp only [List.length_append, List.length_cons]
        omega
      · rw [hstands.spacedSpan_eq, ← hlength, hfront, List.length_append]
        exact Nat.le_add_right _ _
      · exact Nat.le_of_lt hlt
      · rw [hstands.spacedSpan_eq]
        simp only [List.length_append, List.length_cons]
        omega

/-- The particle in a match is the only character that is not blank. -/
theorem eq_of_matchAt?_possessive (h : possessivePattern.matchAt? text j = some m)
    (hi : text[i]? = some possessiveParticle) (hstart : m.span.start ≤ i)
    (hstop : i < m.span.stop) :
    m.span = ⟨i, i + 1⟩ ∨ IsSpaced text i ∧ m.span.start < i := by
  obtain ⟨k, hk, hspan⟩ := exists_of_matchAt?_possessive h
  rcases hspan with hspan | ⟨hspaced, hlt, -, hwithin⟩
  · rw [hspan] at hstart hstop ⊢
    simp only at hstart hstop
    obtain rfl : i = k := by omega
    exact .inl rfl
  · obtain ⟨x, gap, gap', rest, hstands⟩ := exists_standsIn hk
    obtain rfl : i = k := by
      by_contra hne
      have hblank := hstands.inlineBlank_of_getElem? (Nat.le_trans hwithin.1 hstart)
        (Nat.lt_of_lt_of_le hstop hwithin.2.2) hne hi
      rw [inlineBlank_possessiveParticle] at hblank
      contradiction
    exact .inr ⟨hspaced, hlt⟩

/-- A match from before the blanks in front of a particle ends before them, unless a particle
stands there. -/
theorem stop_le_of_matchAt?_possessive (h : possessivePattern.matchAt? text j = some m)
    (hi : StandsIn text i x gap gap' rest)
    (hnear : nonblankBefore? text i ≠ some possessiveParticle)
    (hj : j < (spacedSpan text i).start) : m.span.stop ≤ (spacedSpan text i).start := by
  obtain ⟨hlt, hlength⟩ := isSealed_possessivePattern.lt_of_matchAt? h
  have hstart : m.span.start = j := start_of_matchAt? h
  obtain ⟨k, hk, hspan⟩ := exists_of_matchAt?_possessive h
  by_contra hover
  obtain ⟨b, hb⟩ : ∃ b, (spacedSpan text i).start = b + 1 :=
    ⟨(spacedSpan text i).start - 1, by omega⟩
  -- what stands before the blanks lies in the match, so it is the particle of the match
  have hnearest := hi.charBefore?_eq
  rw [hb, charBefore?_succ (by omega)] at hnearest
  rcases hspan with hspan | ⟨-, -, -, hwithin⟩
  · rw [hspan] at hover hstart
    simp only at hover hstart
    omega
  · obtain ⟨y, before, after, behind, hstands⟩ := exists_standsIn hk
    by_cases hsame : b = k
    · rw [hsame, hk] at hnearest
      exact hnear hnearest.symm
    · have hget : text[b]? = some text[b] := List.getElem?_eq_getElem (by omega)
      have hblank := hstands.inlineBlank_of_getElem? (Nat.le_trans hwithin.1 (by omega))
        (Nat.lt_of_lt_of_le (by omega) hwithin.2.2) hsame hget
      have hfilled := List.find?_some (hnearest.symm.trans hget)
      rw [hblank] at hfilled
      contradiction

/-! ## Places of particles -/

/-- There is a particle in code at the position. -/
def HasParticle (s : Segmenter) (text : List Char) (i : Nat) : Prop :=
  text[i]? = some possessiveParticle ∧ s.InCode text i

instance (s : Segmenter) (text : List Char) (i : Nat) : Decidable (HasParticle s text i) :=
  inferInstanceAs (Decidable (_ ∧ _))

/-- The stretches of a text that become a dot. -/
def Segmenter.memberAccesses (s : Segmenter) (text : List Char) : List Span :=
  ((s.matchesOutside possessivePattern.matcher text).map (·.span)).filter (isMemberAccess text)

/-- The stretch becomes a dot just if the condition holds, and no other stretch that becomes one
has a part of it. -/
def DotsIff (dots : List Span) (a : Span) (condition : Prop) : Prop :=
  (a ∈ dots ↔ condition) ∧ ∀ d ∈ dots, d = a ∨ d.IsApart a

theorem canonicalizePossessive_eq_splice (s : Segmenter) (text : List Char) :
    canonicalizePossessive s text =
      splice text 0 ((s.memberAccesses text).map fun d => (d, ['.'])) := by
  have hascends := ascends_matchesFrom possessivePattern.matcher (s.literalSpans text) text 0
  rw [Segmenter.memberAccesses, matchesOutside, ← splice_filter _ _ hascends, List.map_map]
  rfl

theorem ascends_memberAccesses (s : Segmenter) (text : List Char) :
    Ascends text.length 0 (s.memberAccesses text) :=
  (ascends_matchesFrom possessivePattern.matcher (s.literalSpans text) text 0).filter _

/-- No part of a match with its blanks is the end of a mark. -/
theorem isApart_of_hasParticle {a : Span} (h : HasParticle chinese.segmenter text i)
    (hstart : a.start ≤ i) (hstop : i < a.stop)
    (hwithin : a.Within (spacedSpan text i).start (spacedSpan text i).stop) :
    ∀ l ∈ chinese.segmenter.literalSpans text, a.IsApart l := by
  obtain ⟨x, gap, gap', rest, hstands⟩ := exists_standsIn h.1
  have hlength := (List.getElem?_eq_some_iff.1 h.1).1
  refine isApart_of_inCode h.2 hlength hstart hstop fun k o hk hk' ho => ?_
  by_cases hsame : k = i
  · rw [hsame, h.1] at ho
    rw [← Option.some.inj ho]
    decide
  · have hblank := hstands.inlineBlank_of_getElem? (Nat.le_trans hwithin.1 hk)
      (Nat.lt_of_lt_of_le hk' hwithin.2.2) hsame ho
    rcases mem_inlineBlank_iff.1 hblank with rfl | rfl <;> decide

/-- A match that is replaced is a match of a particle in code. -/
theorem exists_of_mem_memberAccesses {d : Span} (h : d ∈ chinese.segmenter.memberAccesses text) :
    (∃ i, HasParticle chinese.segmenter text i ∧ (d = ⟨i, i + 1⟩ ∨
      IsSpaced text i ∧ d.start < i ∧ i + 1 < d.stop ∧
        d.Within (spacedSpan text i).start (spacedSpan text i).stop)) ∧
      ∀ l ∈ chinese.segmenter.literalSpans text, d.IsApart l := by
  obtain ⟨m, hm, rfl⟩ := List.mem_map.1 (List.mem_filter.1 h).1
  obtain ⟨hmatch, hcode⟩ := matchAt?_of_mem_matchesOutside isSealed_possessivePattern hm
  obtain ⟨i, hi, hspan⟩ := exists_of_matchAt?_possessive hmatch
  refine ⟨⟨i, ⟨hi, fun l hl hinside => ?_⟩, hspan⟩, hcode⟩
  have hcovers : m.span.start ≤ i ∧ i < m.span.stop := by
    rcases hspan with hspan | ⟨-, hlt, hstop, -⟩
    · rw [hspan]
      exact ⟨Nat.le_refl _, Nat.lt_succ_self _⟩
    · exact ⟨Nat.le_of_lt hlt, by omega⟩
  rcases hcode l hl with hbefore | hbehind <;> omega

/-- A match in code that no match from an earlier place covers becomes a dot if it stands for
member access. -/
theorem dotsIff_of_matchAt? (hm : possessivePattern.matchAt? text j = some m)
    (hcode : ∀ l ∈ chinese.segmenter.literalSpans text, m.span.IsApart l)
    (hfree : ∀ k < j, ∀ e, possessivePattern.matchAt? text k = some e → e.span.stop ≤ j) :
    DotsIff (chinese.segmenter.memberAccesses text) m.span
      (isMemberAccess text m.span = true) := by
  have hmem := mem_matchesOutside_of_matchAt? isSealed_possessivePattern hm hcode hfree
  refine ⟨?_, fun d hd => ?_⟩
  · rw [Segmenter.memberAccesses, List.mem_filter]
    exact and_iff_right (List.mem_map_of_mem hmem)
  · obtain ⟨e, he, rfl⟩ := List.mem_map.1 (List.mem_filter.1 hd).1
    exact eq_or_isApart_of_mem_matchesOutside he hmem

/-- **A particle that lacks a blank on a side** becomes a dot between words of two ideographs. -/
theorem dotsIff_single (h : HasParticle chinese.segmenter text i) (hspaced : ¬ IsSpaced text i) :
    DotsIff (chinese.segmenter.memberAccesses text) ⟨i, i + 1⟩
      (2 ≤ ideographsBefore text i ∧ 2 ≤ ideographsAfter text (i + 1)) := by
  obtain ⟨x, gap, gap', rest, hstands⟩ := exists_standsIn h.1
  have hspan : Span.Within ⟨i, i + 1⟩ (spacedSpan text i).start (spacedSpan text i).stop :=
    ⟨Nat.sub_le _ _, Nat.le_succ i, Nat.le_add_right _ _⟩
  have hdots := dotsIff_of_matchAt? hstands.matchAt?_single
    (isApart_of_hasParticle h (Nat.le_refl i) (Nat.lt_succ_self i) hspan) fun k hk e he => ?_
  · simpa only [isMemberAccess, Nat.lt_irrefl, if_false, Bool.and_eq_true, decide_eq_true_eq]
      using hdots
  · -- a match that covers the particle has blanks on both sides or starts with it
    have hstart : e.span.start = k := start_of_matchAt? he
    by_contra hover
    rcases eq_of_matchAt?_possessive he h.1 (by omega) (by omega) with hsame | ⟨hblanks, -⟩
    · rw [hsame] at hstart
      simp only at hstart
      omega
    · exact hspaced hblanks

/-- **A particle with blanks on both sides** becomes a dot between names, and takes its blanks with
it, unless another particle stands before these. -/
theorem dotsIff_spaced (h : HasParticle chinese.segmenter text i) (hspaced : IsSpaced text i)
    (hnear : nonblankBefore? text i ≠ some possessiveParticle) :
    DotsIff (chinese.segmenter.memberAccesses text) (spacedSpan text i)
      ((nonblankBefore? text i).any isIdentifierChar = true ∧
        (nonblankAfter? text (i + 1)).any isIdentifierChar = true) := by
  obtain ⟨x, gap, gap', rest, hstands⟩ := exists_standsIn h.1
  have hstop : i < (spacedSpan text i).stop := Nat.lt_of_lt_of_le (Nat.lt_succ_self i)
    (Nat.le_add_right _ _)
  have hspan : (spacedSpan text i).Within (spacedSpan text i).start (spacedSpan text i).stop :=
    ⟨Nat.le_refl _, Nat.le_of_lt (Nat.lt_of_le_of_lt (Nat.sub_le _ _) hstop), Nat.le_refl _⟩
  have hdots := dotsIff_of_matchAt? (hstands.matchAt?_spaced hspaced)
    (isApart_of_hasParticle h (Nat.sub_le _ _) hstop hspan) fun k hk e he =>
      stop_le_of_matchAt?_possessive he hstands hnear hk
  have hlong : (spacedSpan text i).start + 1 < (spacedSpan text i).stop := by
    have := hspaced.2
    simp only [spacedSpan]
    omega
  simpa only [isMemberAccess, hlong, if_true, Bool.and_eq_true, hstands.charBefore?_eq,
    hstands.charAfter?_eq] using hdots

/-- **Exactly the right particles become member access.** -/
theorem possessive_apply_iff (text : List Char) :
    let s := chinese.segmenter
    let dots := s.memberAccesses text
    Stage.possessive.apply s text = splice text 0 (dots.map fun d => (d, ['.'])) ∧
    Ascends text.length 0 dots ∧
    (∀ d ∈ dots,
      (∃ i, HasParticle s text i ∧ (d = ⟨i, i + 1⟩ ∨ IsSpaced text i ∧ d.start < i ∧
        i + 1 < d.stop ∧ d.Within (spacedSpan text i).start (spacedSpan text i).stop)) ∧
      ∀ l ∈ s.literalSpans text, d.IsApart l) ∧
    ∀ i, HasParticle s text i →
      (¬ IsSpaced text i →
        DotsIff dots ⟨i, i + 1⟩
          (2 ≤ ideographsBefore text i ∧ 2 ≤ ideographsAfter text (i + 1))) ∧
      (IsSpaced text i → nonblankBefore? text i ≠ some possessiveParticle →
        DotsIff dots (spacedSpan text i)
          ((nonblankBefore? text i).any isIdentifierChar = true ∧
            (nonblankAfter? text (i + 1)).any isIdentifierChar = true)) := by
  intro s dots
  exact ⟨canonicalizePossessive_eq_splice s text, ascends_memberAccesses s text,
    fun d hd => exists_of_mem_memberAccesses hd,
    fun i hi => ⟨dotsIff_single hi, dotsIff_spaced hi⟩⟩

/-- A particle with blanks, one in a literal, and two in a row of words. -/
theorem possessive_apply_iff_chain :
    let s := chinese.segmenter
    let text := "甲 的 乙「的」 我的订单的价格".toList
    HasParticle s text 2 ∧ IsSpaced text 2 ∧ nonblankBefore? text 2 = some '甲' ∧
      HasParticle s text 13 ∧ ¬ IsSpaced text 13 ∧ ideographsBefore text 13 = 2 ∧
      Stage.possessive.apply s text = "甲.乙「的」 我的订单.价格".toList ∧
      spacedSpan text 2 ∈ s.memberAccesses text ∧ ⟨13, 14⟩ ∈ s.memberAccesses text ∧
      ⟨10, 11⟩ ∉ s.memberAccesses text := by
  intro s text
  obtain ⟨-, -, -, hplaces⟩ := possessive_apply_iff text
  have hspaced : HasParticle s text 2 ∧ IsSpaced text 2 ∧ nonblankBefore? text 2 = some '甲' := by
    decide +kernel
  have hjoined : HasParticle s text 13 ∧ ¬ IsSpaced text 13 ∧ ideographsBefore text 13 = 2 := by
    decide +kernel
  have hshort : HasParticle s text 10 ∧ ¬ IsSpaced text 10 ∧ ideographsBefore text 10 = 1 := by
    decide +kernel
  have hnear : nonblankBefore? text 2 ≠ some possessiveParticle := by
    rw [hspaced.2.2]
    decide
  have hfirst := ((hplaces 2 hspaced.1).2 hspaced.2.1 hnear).1
  have hsecond := ((hplaces 13 hjoined.1).1 hjoined.2.1).1
  have hthird := ((hplaces 10 hshort.1).1 hshort.2.1).1
  refine ⟨hspaced.1, hspaced.2.1, hspaced.2.2, hjoined.1, hjoined.2.1, hjoined.2.2,
    by decide +kernel, hfirst.2 (by decide +kernel), hsecond.2 (by decide +kernel), fun hmem => ?_⟩
  have htwo := (hthird.1 hmem).1
  rw [hshort.2.2] at htwo
  contradiction

end RuleCanon
