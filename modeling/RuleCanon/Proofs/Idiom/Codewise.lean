import RuleCanon.Idiom.LinePrefix
import RuleCanon.Idiom.Operator
import RuleCanon.Idiom.Possessive
import RuleCanon.Idiom.Punctuation
import RuleCanon.Idiom.RuleHeading
import RuleCanon.Lexicon.Builtin
import RuleCanon.Proofs.Literal.Rewrite

/-!
# The idioms of Chinese are rewritten in code alone

Each idiom is found by a pattern of its own and has a replacement text of its own.  The patterns
are sealed against the opening marks of the Chinese lexicon and the replacement texts are tame,
so each rewriting is codewise.  Five patterns cannot read an opening mark at all.  The other two
can: a parameter list may hold anything up to its closing parenthesis, and a bound name anything
up to the word `为`.  What comes before a mark there has no such character yet, and is no match.

## Main Statements

* `isCodewise_canonicalizePunctuation`, `isCodewise_canonicalizePossessive`,
  `isCodewise_canonicalizeHeadings`, `isCodewise_canonicalizeAssignments`,
  `isCodewise_canonicalizeResults` — one idiom each
* `rewritesCode_canonicalizeOperators` — the three idioms of one stage
-/

namespace RuleCanon

open Pattern Segmenter

/-! ## The marks of Chinese -/

namespace Lexicon

theorem delimiters_segmenter_chinese :
    chinese.segmenter.delimiters = [.ascii, ⟨['「'], ['」']⟩] := by
  decide

theorem isSingle_chinese : chinese.segmenter.IsSingle := by
  intro d hd
  rw [delimiters_segmenter_chinese] at hd
  rcases List.mem_cons.1 hd with rfl | hd
  · exact ⟨'"', rfl⟩
  · exact ⟨'「', (List.mem_singleton.1 hd) ▸ rfl⟩

theorem marks_chinese : chinese.segmenter.marks = ['"', '「'] := by decide

/-- No mark around literals of Chinese is a line feed. -/
theorem newline_not_mem_fences : '\n' ∉ chinese.segmenter.fences := by decide

/-- Code of Chinese is plain if it has none of the two opening marks. -/
theorem isPlain_chinese {t : List Char} (h : '"' ∉ t ∧ '「' ∉ t) :
    chinese.segmenter.IsPlain t := by
  rw [isPlain_iff isSingle_chinese, marks_chinese]
  intro c hc hmark
  rcases List.mem_cons.1 hmark with rfl | hmark
  · exact h.1 hc
  · exact h.2 (List.mem_singleton.1 hmark ▸ hc)

end Lexicon

open Lexicon

/-! ## Punctuation -/

/-- No canonical mark opens a literal. -/
theorem isPlain_map_canonicalMark {t : List Char} (ht : chinese.segmenter.IsPlain t) :
    chinese.segmenter.IsPlain (t.map canonicalMark) := by
  rw [isPlain_iff isSingle_chinese, marks_chinese] at ht ⊢
  intro c hc
  obtain ⟨a, ha, rfl⟩ := List.mem_map.1 hc
  rw [canonicalMark]
  split
  · decide
  · split
    · decide
    · split
      · decide
      · split
        · decide
        · exact ht a ha

theorem isCodewise_canonicalizePunctuation :
    chinese.segmenter.IsCodewise (canonicalizePunctuation chinese.segmenter) :=
  isCodewise_mapCode isPlain_map_canonicalMark

/-! ## Member access -/

theorem isSealed_possessivePattern : possessivePattern.IsSealed chinese.segmenter.marks :=
  isSealed_of_avoids (by decide) (by decide)

/-- No fence can be part of a word beside the particle. -/
theorem isPossessiveNeighbour_fence :
    ∀ q ∈ chinese.segmenter.fences, isPossessiveNeighbour q = false := by
  have hall : chinese.segmenter.fences.all (!isPossessiveNeighbour ·) = true := by decide
  intro q hq
  rw [← Bool.not_eq_true']
  exact List.all_eq_true.1 hall q hq

theorem isTame_possessiveReplacement : chinese.segmenter.IsTame possessiveReplacement where
  moves {x w y c} h hgroups := by
    have hbefore : ideographsBefore (x ++ w ++ y) (c.shift x.length).span.start =
        ideographsBefore w c.span.start :=
      congrArg List.length (h.takeWhile_before isPossessiveNeighbour_fence)
    have hafter : ideographsAfter (x ++ w ++ y) (c.shift x.length).span.stop =
        ideographsAfter w c.span.stop :=
      congrArg List.length (h.takeWhile_after isPossessiveNeighbour_fence)
    have haccess : isMemberAccess (x ++ w ++ y) (c.shift x.length).span =
        isMemberAccess w c.span := by
      have hlong : (c.shift x.length).span.start + 1 < (c.shift x.length).span.stop ↔
          c.span.start + 1 < c.span.stop := by
        simp only [Captures.shift, Span.shift]
        omega
      simp only [isMemberAccess, hlong, hbefore, hafter, h.charBefore?_shift,
        h.charAfter?_shift]
    rw [possessiveReplacement, possessiveReplacement, haccess, h.slice_shift]
  plain {w c} _ _ hplain := by
    rw [possessiveReplacement]
    split
    · exact isPlain_chinese (by decide)
    · exact hplain

theorem isCodewise_canonicalizePossessive :
    chinese.segmenter.IsCodewise (canonicalizePossessive chinese.segmenter) :=
  isCodewise_replaceOutside isSingle_chinese isSealed_possessivePattern
    isTame_possessiveReplacement

/-! ## Comparisons, branches and bindings -/

theorem comparisons_plain : ∀ e ∈ comparisons, '"' ∉ e.2 ∧ '「' ∉ e.2 := by decide

theorem isTame_comparisonReplacement : chinese.segmenter.IsTame comparisonReplacement where
  moves h _ := by
    simp only [comparisonReplacement, h.slice_shift, h.charBefore?_shift, h.charAfter?_shift]
  plain {w c} _ _ hplain := by
    have hblank (b : Bool) : chinese.segmenter.IsPlain (if b then [' '] else []) := by
      cases b <;> exact isPlain_chinese (by decide)
    have hoperator : chinese.segmenter.IsPlain
        ((comparisons.lookup (slice w c.span.start c.span.stop)).getD
          (slice w c.span.start c.span.stop)) := by
      -- a word that is not in the table stays
      cases hlookup : comparisons.lookup (slice w c.span.start c.span.stop) with
      | none => exact hplain
      | some operator =>
          obtain ⟨front, back, hsplit, -⟩ := List.lookup_eq_some_iff.1 hlookup
          have hmem : (slice w c.span.start c.span.stop, operator) ∈ comparisons := by
            simp [hsplit]
          exact isPlain_chinese (comparisons_plain _ hmem)
    rw [comparisonReplacement, isPlain_append, isPlain_append]
    exact ⟨⟨hblank _, hoperator⟩, hblank _⟩

theorem isSealed_comparisonPattern : comparisonPattern.IsSealed chinese.segmenter.marks :=
  isSealed_of_avoids (by decide) (by decide)

theorem isCodewise_canonicalizeComparisons :
    chinese.segmenter.IsCodewise (canonicalizeComparisons chinese.segmenter) :=
  isCodewise_replaceOutside isSingle_chinese isSealed_comparisonPattern
    isTame_comparisonReplacement

theorem isSealed_thenPattern : thenPattern.IsSealed chinese.segmenter.marks :=
  isSealed_of_avoids (by decide) (by decide)

theorem isTame_thenReplacement : chinese.segmenter.IsTame fun _ _ => [':'] :=
  ⟨fun _ _ => rfl, fun _ _ _ => isPlain_chinese (by decide)⟩

theorem isCodewise_canonicalizeThen :
    chinese.segmenter.IsCodewise (canonicalizeThen chinese.segmenter) :=
  isCodewise_replaceOutside isSingle_chinese isSealed_thenPattern isTame_thenReplacement

/-- What a binding reads before the name. -/
def bindingOpening : List Pattern :=
  [.group 1 (.alt (.anchor .lineStart) (.one (.compl .nameRest))), .exactly ['设', '置']]

/-- The name in a binding with the blanks around it. -/
def bindingName : List Pattern :=
  [.someBlanks, .someOf (.compl (.oneOf [' ', '\t', '\r', '\n', '为'])), .someBlanks]

/-- What a binding reads behind the name. -/
def bindingClosing : List Pattern := [.one (.oneOf ['为']), .someBlanks]

/-- A binding ends with the word `为` and blanks, and what comes before has no `为`. -/
theorem isSealed_bindingPattern : bindingPattern.IsSealed chinese.segmenter.marks := by
  refine isSealed_of_splits (.seq (seqs bindingOpening) (seqs bindingName))
    (seqs bindingClosing) ['为'] (fun previous w hw => ?_) ?_ ?_ ?_
  · obtain ⟨u, v, rfl, hu, hv⟩ := spells_seqs_append (l := bindingOpening)
      (m := [.group 2 (seqs (bindingName ++ bindingClosing))]) (List.cons_ne_nil _ _) hw
    obtain ⟨u', v', rfl, hu', hv'⟩ := spells_seqs_append (l := bindingName)
      (m := bindingClosing) (List.cons_ne_nil _ _) hv
    exact ⟨u ++ u', v', _, (List.append_assoc u u' v').symm, ⟨u, u', rfl, hu, hu'⟩, hv'⟩
  -- a name has no `为`, and what follows it no mark
  · decide +kernel
  · decide
  · exact fun _ _ => exists_mem_of_spells_seq

theorem isTame_bindingReplacement {word : List Char} (hword : chinese.segmenter.IsPlain word) :
    chinese.segmenter.IsTame (bindingReplacement word) where
  moves h hgroups := by
    simp only [bindingReplacement, h.slice_shift, h.charAfter?_shift, h.textOf_shift hgroups]
  plain {w c} hle hgroups hplain := by
    rw [bindingReplacement]
    split
    · rw [isPlain_append, isPlain_append]
      exact ⟨⟨isPlain_textOf hle hgroups hplain 1, hword⟩, isPlain_textOf hle hgroups hplain 2⟩
    · exact hplain

theorem isCodewise_canonicalizeBindings {word : List Char}
    (hword : chinese.segmenter.IsPlain word) :
    chinese.segmenter.IsCodewise (canonicalizeBindings word chinese.segmenter) :=
  isCodewise_replaceOutside isSingle_chinese isSealed_bindingPattern
    (isTame_bindingReplacement hword)

/-- **Comparisons, branches and bindings are rewritten in code alone**, one after the other. -/
theorem rewritesCode_canonicalizeOperators {word : List Char}
    (hword : chinese.segmenter.IsPlain word) :
    chinese.segmenter.RewritesCode (canonicalizeOperators word chinese.segmenter) :=
  ((isCodewise_canonicalizeBindings hword).rewritesCode isSingle_chinese).comp
    ((isCodewise_canonicalizeThen.rewritesCode isSingle_chinese).comp
      (isCodewise_canonicalizeComparisons.rewritesCode isSingle_chinese))

/-! ## Headings -/

/-- What a heading reads before the closing parenthesis. -/
def headingOpening : List Pattern :=
  [.indentation 1, .alt (.exactly ['规', '则']) (.exactly ['R', 'u', 'l', 'e']), .someBlanks,
    .group 2 .name, .blanks, .one (.oneOf ['(', '（']),
    .group 3 (.many true (.compl (.oneOf [')', '）', '\r', '\n'])))]

/-- What a heading reads from the closing parenthesis on. -/
def headingClosing : List Pattern := [.one (.oneOf [')', '）']), .blanks]

/-- A heading ends with a closing parenthesis and blanks, and what comes before has none. -/
theorem isSealed_headingPattern : headingPattern.IsSealed chinese.segmenter.marks := by
  refine isSealed_of_splits (seqs headingOpening) (seqs headingClosing) [')', '）']
    (fun previous w hw => ?_) ?_ ?_ ?_
  · obtain ⟨u, v, rfl, hu, hv⟩ := spells_seqs_append (l := headingOpening)
      (m := headingClosing) (List.cons_ne_nil _ _) hw
    exact ⟨u, v, _, rfl, hu, hv⟩
  · decide +kernel
  · decide
  · exact fun _ _ => exists_mem_of_spells_seq

/-- Trimming takes characters away. -/
theorem trim_subset (t : List Char) : trim t ⊆ t := by
  intro c hc
  have hdrop := List.mem_reverse.1 ((List.dropWhile_sublist _).subset (List.mem_reverse.1 hc))
  exact (List.dropWhile_sublist _).subset hdrop

theorem isTame_headingReplacement : chinese.segmenter.IsTame headingReplacement where
  moves h hgroups := by
    simp only [headingReplacement, h.charAfter?_shift, h.textOf_shift hgroups]
  plain {w c} hle hgroups hplain := by
    have hgroup (number : Nat) : chinese.segmenter.IsPlain (c.textOf w number) :=
      isPlain_textOf hle hgroups hplain number
    have hspace : chinese.segmenter.IsPlain [' '] := isPlain_chinese (by decide)
    simp only [headingReplacement, isPlain_append]
    refine ⟨⟨⟨⟨hgroup 1, isPlain_chinese (by decide)⟩, hspace.cons (hgroup 2)⟩, ?_⟩, ?_⟩
    · split
      · exact isPlain_chinese (by decide)
      · rw [isPlain_append]
        exact ⟨hspace.cons (isPlain_chinese (by decide)),
          hspace.cons ((hgroup 3).of_subset (trim_subset _))⟩
    · split
      · exact hspace
      · exact isPlain_chinese (by decide)

theorem isCodewise_canonicalizeHeadings :
    chinese.segmenter.IsCodewise (canonicalizeHeadings chinese.segmenter) :=
  isCodewise_replaceOutside isSingle_chinese isSealed_headingPattern isTame_headingReplacement

/-! ## Assignments and results -/

theorem isTame_assignmentReplacement : chinese.segmenter.IsTame assignmentReplacement where
  moves h hgroups := by simp only [assignmentReplacement, h.textOf_shift hgroups]
  plain {w c} hle hgroups hplain := by
    have hspace : chinese.segmenter.IsPlain [' '] := isPlain_chinese (by decide)
    simp only [assignmentReplacement, isPlain_append]
    exact ⟨⟨⟨⟨isPlain_textOf hle hgroups hplain 1, isPlain_chinese (by decide)⟩,
      hspace.cons (isPlain_textOf hle hgroups hplain 2)⟩,
      hspace.cons (isPlain_chinese (by decide))⟩, hspace⟩

theorem isSealed_assignmentPattern : assignmentPattern.IsSealed chinese.segmenter.marks :=
  isSealed_of_avoids (by decide) (by decide +kernel)

theorem isCodewise_canonicalizeAssignments :
    chinese.segmenter.IsCodewise (canonicalizeAssignments chinese.segmenter) :=
  isCodewise_replaceOutside isSingle_chinese isSealed_assignmentPattern
    isTame_assignmentReplacement

theorem isTame_resultReplacement : chinese.segmenter.IsTame resultReplacement where
  moves h hgroups := by simp only [resultReplacement, h.textOf_shift hgroups]
  plain {w c} hle hgroups hplain := by
    rw [resultReplacement, isPlain_append, isPlain_append]
    exact ⟨⟨isPlain_textOf hle hgroups hplain 1, isPlain_chinese (by decide)⟩,
      isPlain_chinese (by decide)⟩

theorem isSealed_resultPattern : resultPattern.IsSealed chinese.segmenter.marks :=
  isSealed_of_avoids (by decide) (by decide)

theorem isCodewise_canonicalizeResults :
    chinese.segmenter.IsCodewise (canonicalizeResults chinese.segmenter) :=
  isCodewise_replaceOutside isSingle_chinese isSealed_resultPattern isTame_resultReplacement

end RuleCanon
