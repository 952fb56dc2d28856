import RuleCanon.Proofs.Idiom.Lines
import RuleCanon.Proofs.Literal.LineEnds

/-!
# The idioms of Chinese keep the line breaks

Six of the seven patterns cannot read a line break, and their replacement texts are made of what
was read, so no break is lost and none is added.  A binding can have a break in front of its
first word, which is then part of the match, and the first group of the match; the group is put
back as it is, and the rest of the match has no break.

## Main Statements

* `keepsLineEnds_canonicalizePunctuation`, `keepsLineEnds_canonicalizePossessive`,
  `keepsLineEnds_canonicalizeHeadings`, `keepsLineEnds_canonicalizeAssignments`,
  `keepsLineEnds_canonicalizeResults` — one idiom each
* `keepsLineEnds_canonicalizeOperators` — the three idioms of one stage
-/

namespace RuleCanon

open Pattern Segmenter Lexicon

theorem breaks_fences_chinese : breaks chinese.segmenter.fences = [] := by decide

/-- A group of a match without line breaks has none. -/
theorem Captures.breaks_textOf {w : List Char} {c : Captures} (hle : c.span.start ≤ c.span.stop)
    (hgroups : ∀ g ∈ c.groups, g.2.Within c.span.start c.span.stop)
    (h : breaks (slice w c.span.start c.span.stop) = []) (number : Nat) :
    breaks (c.textOf w number) = [] := by
  rw [textOf]
  cases hgroup : c.group? number with
  | none => rfl
  | some g =>
      have hwithin := within_of_group? hle hgroups hgroup
      exact breaks_eq_nil_of_subset
        (slice_infix_slice w hwithin.1 hwithin.2.1 hwithin.2.2).subset h

/-! ## Punctuation -/

/-- Line breaks are no punctuation, and no mark becomes one. -/
theorem breaks_map_canonicalMark (t : List Char) : breaks (t.map canonicalMark) = breaks t := by
  have hone (c : Char) : breaks [canonicalMark c] = breaks [c] := by
    by_cases hc : isLineBreak c = true
    · rcases isLineBreak_iff.1 hc with rfl | rfl <;> rfl
    · rw [Bool.not_eq_true] at hc
      rw [breaks_cons_of_not hc, canonicalMark]
      split_ifs
      · rfl
      · rfl
      · rfl
      · rfl
      · exact breaks_cons_of_not hc []
  induction t with
  | nil => rfl
  | cons c t ih => rw [List.map_cons, breaks_cons, hone, ih, ← breaks_cons]

theorem keepsLineEnds_canonicalizePunctuation :
    KeepsLineEnds (canonicalizePunctuation chinese.segmenter) :=
  keepsLineEnds_mapCode breaks_fences_chinese isSingle_chinese rfl (fun _ _ => List.map_append)
    (fun _ => List.map_append) breaks_map_canonicalMark

/-! ## Member access -/

theorem keepsBreaks_possessivePattern : possessivePattern.KeepsBreaks possessiveReplacement :=
  keepsToLine_possessivePattern.keepsBreaks (by decide) (by decide) fun {w c} _ _ hslice => by
    rw [possessiveReplacement]
    split
    · rfl
    · exact hslice

theorem keepsLineEnds_canonicalizePossessive :
    KeepsLineEnds (canonicalizePossessive chinese.segmenter) :=
  keepsLineEnds_replaceOutside breaks_fences_chinese isSingle_chinese isSealed_possessivePattern
    isTame_possessiveReplacement rewritesLines_possessivePattern keepsBreaks_possessivePattern

/-! ## Comparisons, branches and bindings -/

/-- No operator has a line break. -/
theorem breaks_comparisons : ∀ e ∈ comparisons, breaks e.2 = [] := by decide

theorem keepsBreaks_comparisonPattern : comparisonPattern.KeepsBreaks comparisonReplacement :=
  keepsToLine_comparisonPattern.keepsBreaks (by decide) (by decide) fun {w c} _ _ hslice => by
    have hblank (b : Bool) : breaks (if b then [' '] else []) = [] := by cases b <;> rfl
    have hoperator : breaks ((comparisons.lookup (slice w c.span.start c.span.stop)).getD
        (slice w c.span.start c.span.stop)) = [] := by
      cases hlookup : comparisons.lookup (slice w c.span.start c.span.stop) with
      | none => exact hslice
      | some operator =>
          obtain ⟨front, back, hsplit, -⟩ := List.lookup_eq_some_iff.1 hlookup
          exact breaks_comparisons (slice w c.span.start c.span.stop, operator) (by simp [hsplit])
    rw [comparisonReplacement, breaks_append, breaks_append, hblank, hoperator, hblank]
    rfl

theorem keepsLineEnds_canonicalizeComparisons :
    KeepsLineEnds (canonicalizeComparisons chinese.segmenter) :=
  keepsLineEnds_replaceOutside breaks_fences_chinese isSingle_chinese isSealed_comparisonPattern
    isTame_comparisonReplacement rewritesLines_comparisonPattern keepsBreaks_comparisonPattern

theorem keepsBreaks_thenPattern : thenPattern.KeepsBreaks fun _ _ => [':'] :=
  keepsToLine_thenPattern.keepsBreaks (by decide) (by decide) fun _ _ _ => rfl

theorem keepsLineEnds_canonicalizeThen : KeepsLineEnds (canonicalizeThen chinese.segmenter) :=
  keepsLineEnds_replaceOutside breaks_fences_chinese isSingle_chinese isSealed_thenPattern
    isTame_thenReplacement rewritesLines_thenPattern keepsBreaks_thenPattern

/-! ### Bindings -/

/-- The first group is what stands before the first word of a binding. -/
theorem lookup_of_mem_runs_bindingLead {r s : Run} (h : s ∈ bindingLead.runs r) :
    s.groups.lookup 1 = some ⟨r.position, s.position⟩ := by
  rw [runs_bindingLead] at h
  obtain ⟨t, -, rfl⟩ := List.mem_map.1 h
  exact lookup_completeGroup_self ..

/-- A binding is what stands before the first word, which is its first group, and a rest without
line breaks. -/
theorem exists_lead_of_matchAt?_bindingPattern {w : List Char} {i : Nat} {c : Captures}
    (h : bindingPattern.matchAt? w i = some c) :
    ∃ j, c.span.start ≤ j ∧ j ≤ c.span.stop ∧ c.textOf w 1 = slice w c.span.start j ∧
      breaks (slice w j c.span.stop) = [] ∧ breaks (c.textOf w 2) = [] := by
  obtain ⟨u, hu, rfl⟩ := Option.map_eq_some_iff.1 h
  have hmem : u ∈ bindingPattern.runs (.startAt w i) := List.mem_of_mem_head? hu
  rw [runs_bindingPattern] at hmem
  obtain ⟨t, ht, hut⟩ := List.mem_flatMap.1 hmem
  obtain ⟨l, hl, -⟩ := spells_of_mem_runs ht
  obtain ⟨x, hx, hspells⟩ := spells_of_mem_runs hut
  have hstart : i ≤ t.position := hl.position ▸ Nat.le_add_right i l.length
  have hstop : t.position ≤ u.position := hx.position ▸ Nat.le_add_right t.position x.length
  have hrest : breaks (slice w t.position u.position) = [] := by
    have havoids : bindingRest.AvoidsBreaks := by decide
    have hremaining : w.drop t.position = t.rest := drop_of_reads rfl hl
    rw [slice_eq_of_reads hremaining hx, havoids.breaks_eq_nil hspells]
  have hfirst : u.groups.lookup 1 = some ⟨i, t.position⟩ := by
    rw [lookup_of_mem_runs (by decide) hut, lookup_of_mem_runs_bindingLead ht]
    rfl
  refine ⟨t.position, hstart, hstop, ?_, hrest, ?_⟩
  · simp only [Captures.textOf, Captures.group?, hfirst]
    rfl
  · cases hsecond : u.groups.lookup 2 with
    | none => simp [Captures.textOf, Captures.group?, hsecond]
    | some g =>
        -- the second group was completed in the rest
        have hnone : t.groups.lookup 2 = none := lookup_of_mem_runs (by decide) ht
        obtain ⟨hlow, hle, hup⟩ := hx.within_of_lookup hnone hsecond
        simp only [Captures.textOf, Captures.group?, hsecond]
        exact breaks_eq_nil_of_subset (slice_infix_slice w hlow hle hup).subset hrest

theorem keepsBreaks_bindingPattern {word : List Char} (hword : breaks word = []) :
    bindingPattern.KeepsBreaks (bindingReplacement word) where
  breaks_eq {w i c} hc := by
    obtain ⟨j, hstart, hstop, hfirst, hrest, hsecond⟩ := exists_lead_of_matchAt?_bindingPattern hc
    have hslice : breaks (slice w c.span.start c.span.stop) = breaks (slice w c.span.start j) := by
      rw [← slice_append_slice w hstart hstop, breaks_append, hrest, List.append_nil]
    rw [bindingReplacement]
    split
    · rw [breaks_append, breaks_append, hfirst, hword, hsecond, hslice, List.append_nil,
        List.append_nil]
    · rfl
  return_end w := by
    by_contra hne
    obtain ⟨c, hc⟩ := Option.ne_none_iff_exists'.1 hne
    -- all that could be read is the carriage return
    obtain ⟨u, v, hsplit, -, v', v'', rfl, hword, -⟩ := (spells_of_matchAt? hc).1
    obtain ⟨a, ha, hfirst⟩ := exists_mem_of_spells_seq hword
    have hmem : a ∈ slice (w ++ ['\r']) c.span.start c.span.stop := by
      rw [hsplit]
      exact List.mem_append_right u (List.mem_append_left v'' ha)
    rw [slice, start_of_matchAt? hc, List.drop_left] at hmem
    have hreturn := List.mem_singleton.1 (List.mem_of_mem_take hmem)
    rw [hreturn] at hfirst
    contradiction

theorem keepsLineEnds_canonicalizeBindings {word : List Char}
    (hplain : chinese.segmenter.IsPlain word) (hword : breaks word = []) :
    KeepsLineEnds (canonicalizeBindings word chinese.segmenter) :=
  keepsLineEnds_replaceOutside breaks_fences_chinese isSingle_chinese isSealed_bindingPattern
    (isTame_bindingReplacement hplain) (rewritesLines_bindingPattern word)
    (keepsBreaks_bindingPattern hword)

/-- **Comparisons, branches and bindings keep the line breaks**, one after the other. -/
theorem keepsLineEnds_canonicalizeOperators {word : List Char}
    (hplain : chinese.segmenter.IsPlain word) (hword : breaks word = []) :
    KeepsLineEnds (canonicalizeOperators word chinese.segmenter) :=
  (keepsLineEnds_canonicalizeBindings hplain hword).comp
    (keepsLineEnds_canonicalizeThen.comp keepsLineEnds_canonicalizeComparisons)

/-! ## Headings, assignments and results -/

theorem keepsBreaks_headingPattern : headingPattern.KeepsBreaks headingReplacement :=
  keepsToLine_headingPattern.keepsBreaks (by decide) (by decide +kernel)
    fun {w c} hle hgroups hslice => by
      have hgroup := Captures.breaks_textOf hle hgroups hslice
      have hparameters : breaks (trim (c.textOf w 3)) = [] :=
        breaks_eq_nil_of_subset (trim_subset _) (hgroup 3)
      have hspace (t : List Char) : breaks (' ' :: t) = breaks t := breaks_cons_of_not rfl t
      have hruleDef : breaks TokenKind.ruleDef.canonical.toList = [] := by decide
      have hgiven : breaks TokenKind.given.canonical.toList = [] := by decide
      simp only [headingReplacement, breaks_append, hspace, hgroup, hruleDef, List.nil_append]
      split <;> split <;> simp [hspace, hgiven, hparameters]

theorem keepsLineEnds_canonicalizeHeadings :
    KeepsLineEnds (canonicalizeHeadings chinese.segmenter) :=
  keepsLineEnds_replaceOutside breaks_fences_chinese isSingle_chinese isSealed_headingPattern
    isTame_headingReplacement rewritesLines_headingPattern keepsBreaks_headingPattern

theorem keepsBreaks_assignmentPattern : assignmentPattern.KeepsBreaks assignmentReplacement :=
  keepsToLine_assignmentPattern.keepsBreaks (by decide) (by decide +kernel)
    fun {w c} hle hgroups hslice => by
      have hgroup := Captures.breaks_textOf hle hgroups hslice
      have hspace (t : List Char) : breaks (' ' :: t) = breaks t := breaks_cons_of_not rfl t
      have hletName : breaks TokenKind.letName.canonical.toList = [] := by decide
      have hbeValue : breaks TokenKind.beValue.canonical.toList = [] := by decide
      simp only [assignmentReplacement, breaks_append, hspace, hgroup, hletName, hbeValue,
        breaks_nil, List.append_nil]

theorem keepsLineEnds_canonicalizeAssignments :
    KeepsLineEnds (canonicalizeAssignments chinese.segmenter) :=
  keepsLineEnds_replaceOutside breaks_fences_chinese isSingle_chinese isSealed_assignmentPattern
    isTame_assignmentReplacement rewritesLines_assignmentPattern keepsBreaks_assignmentPattern

theorem keepsBreaks_resultPattern : resultPattern.KeepsBreaks resultReplacement :=
  keepsToLine_resultPattern.keepsBreaks (by decide) (by decide) fun {w c} hle hgroups hslice => by
    have hreturnValue : breaks TokenKind.returnValue.canonical.toList = [] := by decide
    rw [resultReplacement, breaks_append, breaks_append,
      Captures.breaks_textOf hle hgroups hslice, hreturnValue]
    rfl

theorem keepsLineEnds_canonicalizeResults :
    KeepsLineEnds (canonicalizeResults chinese.segmenter) :=
  keepsLineEnds_replaceOutside breaks_fences_chinese isSingle_chinese isSealed_resultPattern
    isTame_resultReplacement rewritesLines_resultPattern keepsBreaks_resultPattern

end RuleCanon
