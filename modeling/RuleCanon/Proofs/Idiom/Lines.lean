import RuleCanon.Proofs.Idiom.Codewise
import RuleCanon.Proofs.Literal.Lines

/-!
# The idioms of Chinese go line by line

None of the idioms can tell whether a line ends with a line break or with the text.  Six of the
seven patterns cannot read a line break and have no match at one.  The seventh is that of bindings:
what stands before the first word may be a line feed, which the match then takes along, where in
the second text by itself the match starts at the start of a line.  Both are rewritten to the
same text.

The replacement texts look at the characters next to a match, and take the end of the text and a
line break for the same thing.

## Main Statements

* `rewritesLines_canonicalizePunctuation`, `rewritesLines_canonicalizePossessive`,
  `rewritesLines_canonicalizeHeadings`, `rewritesLines_canonicalizeAssignments`,
  `rewritesLines_canonicalizeResults` — one idiom each
* `rewritesLines_canonicalizeOperators` — the three idioms of one stage
-/

namespace RuleCanon

open Pattern Segmenter Lexicon

theorem isPlain_newline_chinese : chinese.segmenter.IsPlain ['\n'] := isPlain_chinese (by decide)

theorem rewritesLines_canonicalizePunctuation :
    chinese.segmenter.RewritesLines (canonicalizePunctuation chinese.segmenter) :=
  rewritesLines_mapCode isSingle_chinese isPlain_newline_chinese
    isCodewise_canonicalizePunctuation rfl fun _ _ => List.map_append

/-! ## What replacement texts see -/

section Seen

variable {w v : List Char} {b : Char} {c : Captures} {P : Char → Bool}

/-- A group of a match in a text with more text behind it. -/
theorem Captures.textOf_append_of_le (y : List Char) (hle : c.span.start ≤ c.span.stop)
    (hstop : c.span.stop ≤ w.length)
    (hgroups : ∀ g ∈ c.groups, g.2.Within c.span.start c.span.stop) (number : Nat) :
    c.textOf (w ++ y) number = c.textOf w number := by
  rw [textOf, textOf]
  cases hgroup : c.group? number with
  | none => rfl
  | some g =>
      exact slice_append_of_le y
        (Nat.le_trans (within_of_group? hle hgroups hgroup).2.2 hstop)

/-- A group of a match behind the line feed. -/
theorem Captures.textOf_newline_append (w v : List Char) (c : Captures) (number : Nat) :
    (c.shift (w.length + 1)).textOf (w ++ '\n' :: v) number = c.textOf v number := by
  rw [textOf, textOf, group?_shift]
  cases c.group? number with
  | none => rfl
  | some g => exact slice_newline_append w v g.start g.stop

/-- Whether there is a character of a kind behind a place, if what is added first is not of that
kind. -/
theorem any_charAfter?_append_cons {i : Nat} (v : List Char) (hP : P b = false)
    (hi : i ≤ w.length) : (charAfter? (w ++ b :: v) i).any P = (charAfter? w i).any P := by
  rw [charAfter?_append_cons b v hi]
  cases charAfter? w i with
  | none => exact hP
  | some a => rfl

/-- Whether there is a character of a kind before a place, if a line feed is not of that kind. -/
theorem any_charBefore?_newline_append (w v : List Char) (hP : P '\n' = false) (j : Nat) :
    (charBefore? (w ++ '\n' :: v) (j + (w.length + 1))).any P = (charBefore? v j).any P := by
  rw [charBefore?_newline_append]
  cases charBefore? v j with
  | none => exact hP
  | some a => rfl

theorem takeWhile_append_cons (v : List Char) (hP : P b = false) :
    (w ++ b :: v).takeWhile P = w.takeWhile P := by
  induction w with
  | nil => rw [List.nil_append, List.takeWhile_cons_of_neg (by simp [hP]), List.takeWhile_nil]
  | cons a w ih => rw [List.cons_append, List.takeWhile_cons, List.takeWhile_cons, ih]

end Seen

/-! ## Member access -/

theorem isLinewise_possessiveReplacement : IsLinewise possessiveReplacement where
  front {w c b} v hb hle hstop hgroups := by
    have hneighbour : isPossessiveNeighbour b = false := eq_false_of_isLineBreak (by decide) hb
    have hidentifier : isIdentifierChar b = false := eq_false_of_isLineBreak (by decide) hb
    have hbefore : ideographsBefore (w ++ b :: v) c.span.start =
        ideographsBefore w c.span.start := by
      rw [ideographsBefore, ideographsBefore, List.take_append_of_le_length (by omega)]
    have hafter : ideographsAfter (w ++ b :: v) c.span.stop =
        ideographsAfter w c.span.stop := by
      rw [ideographsAfter, ideographsAfter, List.drop_append_of_le_length hstop,
        takeWhile_append_cons v hneighbour]
    rw [possessiveReplacement, possessiveReplacement, isMemberAccess, isMemberAccess, hbefore,
      hafter, charBefore?_append_of_le _ (Nat.le_trans hle hstop),
      any_charAfter?_append_cons v hidentifier hstop, slice_append_of_le _ hstop]
  back {v c} w := by
    have hbefore (j : Nat) : ideographsBefore (w ++ '\n' :: v) (j + (w.length + 1)) =
        ideographsBefore v j := by
      have hreverse : (w ++ '\n' :: v.take j).reverse =
          (v.take j).reverse ++ '\n' :: w.reverse := by simp
      rw [ideographsBefore, ideographsBefore, take_newline_append, hreverse,
        takeWhile_append_cons w.reverse (by decide)]
    have hafter (j : Nat) : ideographsAfter (w ++ '\n' :: v) (j + (w.length + 1)) =
        ideographsAfter v j := by
      rw [ideographsAfter, ideographsAfter, drop_newline_append]
    have hlong : c.span.start + (w.length + 1) + 1 < c.span.stop + (w.length + 1) ↔
        c.span.start + 1 < c.span.stop := by omega
    have haccess : isMemberAccess (w ++ '\n' :: v) (c.shift (w.length + 1)).span =
        isMemberAccess v c.span := by
      simp only [isMemberAccess, Captures.shift, Span.shift, hbefore, hafter, hlong,
        any_charBefore?_newline_append w v (P := isIdentifierChar) (by decide),
        charAfter?_newline_append]
    rw [possessiveReplacement, possessiveReplacement, haccess]
    simp only [Captures.shift, Span.shift, slice_newline_append]

theorem keepsToLine_possessivePattern : possessivePattern.KeepsToLine :=
  keepsToLine_of_avoids (by decide) (by decide)

theorem rewritesLines_possessivePattern : possessivePattern.RewritesLines possessiveReplacement :=
  keepsToLine_possessivePattern.rewritesLines (by decide) isLinewise_possessiveReplacement

theorem rewritesLines_canonicalizePossessive :
    chinese.segmenter.RewritesLines (canonicalizePossessive chinese.segmenter) :=
  rewritesLines_replaceOutside isSingle_chinese isPlain_newline_chinese isSealed_possessivePattern
    isTame_possessiveReplacement rewritesLines_possessivePattern

/-! ## Comparisons and branches -/

theorem isLinewise_comparisonReplacement : IsLinewise comparisonReplacement where
  front {w c b} v hb hle hstop hgroups := by
    have hblank : (!Unicode.isWhiteSpace b) = false :=
      eq_false_of_isLineBreak (P := fun c => !Unicode.isWhiteSpace c) (by decide) hb
    have hafter : isFilled (charAfter? (w ++ b :: v) c.span.stop) =
        isFilled (charAfter? w c.span.stop) := any_charAfter?_append_cons v hblank hstop
    simp only [comparisonReplacement, hafter, slice_append_of_le _ hstop,
      charBefore?_append_of_le _ (Nat.le_trans hle hstop)]
  back {v c} w := by
    have hbefore : isFilled (charBefore? (w ++ '\n' :: v) (c.span.start + (w.length + 1))) =
        isFilled (charBefore? v c.span.start) :=
      any_charBefore?_newline_append w v (by decide) c.span.start
    simp only [comparisonReplacement, Captures.shift, Span.shift, hbefore, slice_newline_append,
      charAfter?_newline_append]

theorem keepsToLine_comparisonPattern : comparisonPattern.KeepsToLine :=
  keepsToLine_of_avoids (by decide) (by decide)

theorem rewritesLines_comparisonPattern : comparisonPattern.RewritesLines comparisonReplacement :=
  keepsToLine_comparisonPattern.rewritesLines (by decide) isLinewise_comparisonReplacement

theorem rewritesLines_canonicalizeComparisons :
    chinese.segmenter.RewritesLines (canonicalizeComparisons chinese.segmenter) :=
  rewritesLines_replaceOutside isSingle_chinese isPlain_newline_chinese isSealed_comparisonPattern
    isTame_comparisonReplacement rewritesLines_comparisonPattern

/-- The word for a branch is followed by the end of its line. -/
theorem keepsToLine_thenPattern : thenPattern.KeepsToLine :=
  keepsToLine_anyLineEnd (l := [.someBlanks, .one (.oneOf ['则']), .blanks]) (by decide)
    (by decide) (by decide)

theorem rewritesLines_thenPattern : thenPattern.RewritesLines fun _ _ => [':'] :=
  keepsToLine_thenPattern.rewritesLines (by decide) ⟨fun _ _ _ _ _ => rfl, fun _ => rfl⟩

theorem rewritesLines_canonicalizeThen :
    chinese.segmenter.RewritesLines (canonicalizeThen chinese.segmenter) :=
  rewritesLines_replaceOutside isSingle_chinese isPlain_newline_chinese isSealed_thenPattern
    isTame_thenReplacement rewritesLines_thenPattern

/-! ## Bindings -/

/-- What stands before the first word of a binding. -/
def bindingLead : Pattern := .group 1 (.alt (.anchor .lineStart) (.one (.compl .nameRest)))

/-- What a binding reads from the first word on. -/
def bindingRest : Pattern :=
  .seqs [.exactly ['设', '置'], .group 2 (.seqs (bindingName ++ bindingClosing))]

theorem runs_bindingLead (r : Run) :
    bindingLead.runs r = ((anchor .lineStart).runs r ++ (one (.compl .nameRest)).runs r).map
      (·.record 1 r.position) := rfl

theorem runs_bindingPattern (r : Run) :
    bindingPattern.runs r = (bindingLead.runs r).flatMap bindingRest.runs := rfl

/-- The runs of a binding correspond, unless one text ends where the other one has more. -/
theorem alikeOnLine_runs_bindingPattern {n : Nat} {more : List Char} {r s : Run}
    (hmore : ∀ c, more.head? = some c → isLineBreak c = true) (hrest : r.rest ≠ [] ∨ more = [])
    (h : r.AlikeOnLine (GroupsShifted n) n more s) :
    List.Forall₂ (Run.AlikeOnLine (GroupsShifted n) n more) (bindingPattern.runs r)
      (bindingPattern.runs s) := by
  have hstart : List.Forall₂ (Run.AlikeOnLine (GroupsShifted n) n more)
      ((anchor .lineStart).runs r) ((anchor .lineStart).runs s) :=
    keepsToLine_of_avoids (by decide) (by decide) hmore h
  have hlead : List.Forall₂ (Run.AlikeOnLine (GroupsShifted n) n more) (bindingLead.runs r)
      (bindingLead.runs s) := by
    rw [runs_bindingLead, runs_bindingLead, List.forall₂_map_left_iff,
      List.forall₂_map_right_iff]
    exact (List.rel_append hstart (alikeOnLine_one _ h hrest)).imp fun t u htu =>
      h.record (keepsGroup_groupsShifted n 1) htu
  have hbinding : bindingRest.KeepsToLine := keepsToLine_of_avoids (by decide) (by decide)
  exact List.rel_flatMap hlead fun t u htu => hbinding hmore htu

theorem isLinewise_bindingReplacement (word : List Char) :
    IsLinewise (bindingReplacement word) where
  front {w c b} v hb hle hstop hgroups := by
    rw [bindingReplacement,
      any_charAfter?_append_cons v (eq_false_of_isLineBreak (by decide) hb) hstop,
      slice_append_of_le _ hstop, Captures.textOf_append_of_le _ hle hstop hgroups,
      Captures.textOf_append_of_le _ hle hstop hgroups, bindingReplacement]
  back {v c} w := by
    have hafter : charAfter? (w ++ '\n' :: v) (c.shift (w.length + 1)).span.stop =
        charAfter? v c.span.stop := charAfter?_newline_append w v c.span.stop
    have hslice : slice (w ++ '\n' :: v) (c.shift (w.length + 1)).span.start
        (c.shift (w.length + 1)).span.stop = slice v c.span.start c.span.stop :=
      slice_newline_append w v c.span.start c.span.stop
    rw [bindingReplacement, hafter, hslice, Captures.textOf_newline_append,
      Captures.textOf_newline_append, bindingReplacement]

/-- The groups of a binding that starts a text, and those of the same binding behind a line feed
that it takes along: the first one has the line feed, and the second one is moved. -/
structure BindingGroups (n : Nat) (gs hs : List (Nat × Span)) : Prop where
  start : gs.lookup 1 = some ⟨0, 0⟩
  newline : hs.lookup 1 = some ⟨n, n + 1⟩
  shifted : hs.lookup 2 = (gs.lookup 2).map (·.shift (n + 1))

theorem keepsGroup_bindingGroups (n : Nat) : KeepsGroup (BindingGroups n) (n + 1) 2 := by
  intro gs hs s h
  constructor
  · rw [lookup_completeGroup_of_ne (by decide), h.start]
  · rw [lookup_completeGroup_of_ne (by decide), h.newline]
  · rw [lookup_completeGroup_self, lookup_completeGroup_self]
    rfl

/-- The run of a binding that has started at the start of a text. -/
def bindingAtStart (v : List Char) : Run where
  position := 0
  previous := none
  rest := v
  groups := [(1, ⟨0, 0⟩)]

/-- The run of a binding that has read a line feed. -/
def bindingBehindNewline (w v : List Char) : Run where
  position := w.length + 1
  previous := some '\n'
  rest := v
  groups := [(1, ⟨w.length, w.length + 1⟩)]

/-- The first word of a binding cannot start with a line feed. -/
theorem runs_bindingRest_newline {r : Run} {v : List Char} (hrest : r.rest = '\n' :: v) :
    bindingRest.runs r = [] := by
  have hone : (one (.oneOf ['设'])).runs r = [] := by
    have hmem : (CharSet.oneOf ['设']).mem '\n' = false := by decide
    simp only [runs, hrest, hmem, Bool.false_eq_true, if_false]
  have hsplit : bindingRest.runs r =
      (((one (.oneOf ['设'])).runs r).flatMap (one (.oneOf ['置'])).runs).flatMap
        (group 2 (.seqs (bindingName ++ bindingClosing))).runs := rfl
  rw [hsplit, hone, List.flatMap_nil, List.flatMap_nil]

/-- So a binding that is found at a line feed takes it along. -/
theorem runs_bindingPattern_newline (w v : List Char) :
    bindingPattern.runs (.startAt (w ++ '\n' :: v) w.length) =
      bindingRest.runs (bindingBehindNewline w v) := by
  have hrest : (Run.startAt (w ++ '\n' :: v) w.length).rest = '\n' :: v := List.drop_left
  have hread : (one (.compl .nameRest)).runs (.startAt (w ++ '\n' :: v) w.length) =
      [(Run.startAt (w ++ '\n' :: v) w.length).advance '\n' v] := by
    have hnewline : (CharSet.compl .nameRest).mem '\n' = true := by decide
    simp only [runs, hrest, hnewline, if_true]
  have hstart : ((anchor .lineStart).runs (.startAt (w ++ '\n' :: v) w.length)).flatMap
      (fun r => bindingRest.runs (r.record 1 w.length)) = [] := by
    refine List.flatMap_eq_nil_iff.2 fun r hr => runs_bindingRest_newline (v := v) ?_
    rw [runs] at hr
    split at hr
    · rw [List.mem_singleton.1 hr]
      exact hrest
    · contradiction
  rw [runs_bindingPattern, runs_bindingLead, hread, List.flatMap_map, List.flatMap_append]
  exact (congrArg (· ++ _) hstart).trans (List.append_nil _)

/-- A binding at the start of a text is preferred to start at the start of a line. -/
theorem runs_bindingPattern_zero (v : List Char) :
    ∃ later, bindingPattern.runs (.startAt v 0) = bindingRest.runs (bindingAtStart v) ++ later :=
  ⟨_, rfl⟩

/-- Both go on alike in the text that follows, and differ in the first group only. -/
theorem alikeOnLine_runs_bindingRest (w v : List Char) :
    List.Forall₂ (Run.AlikeOnLine (BindingGroups w.length) (w.length + 1) [])
      (bindingRest.runs (bindingAtStart v)) (bindingRest.runs (bindingBehindNewline w v)) := by
  have hnumbers : bindingRest.groupNumbers = [2] := by decide
  refine alikeOnLine_runs (by simp) (by decide) (by decide) (fun number hnumber => ?_)
    ⟨(Nat.zero_add _).symm, .inr ⟨rfl, rfl⟩, (List.append_nil v).symm, ⟨rfl, rfl, rfl⟩, rfl⟩
  rw [hnumbers, List.mem_singleton] at hnumber
  exact hnumber ▸ keepsGroup_bindingGroups w.length

/-- What takes the place of a binding has the line feed in front if the binding has. -/
theorem bindingReplacement_newline {gs hs : List (Nat × Span)} {w : List Char}
    (h : BindingGroups w.length gs hs) (word v : List Char) (j : Nat) :
    bindingReplacement word (w ++ '\n' :: v) ⟨⟨w.length, j + (w.length + 1)⟩, hs⟩ =
      '\n' :: bindingReplacement word v ⟨⟨0, j⟩, gs⟩ := by
  have hfirst : Captures.textOf ⟨⟨w.length, j + (w.length + 1)⟩, hs⟩ (w ++ '\n' :: v) 1 =
      '\n' :: Captures.textOf ⟨⟨0, j⟩, gs⟩ v 1 := by
    simp only [Captures.textOf, Captures.group?, h.start, h.newline]
    exact slice_newline w v
  have hsecond : Captures.textOf ⟨⟨w.length, j + (w.length + 1)⟩, hs⟩ (w ++ '\n' :: v) 2 =
      Captures.textOf ⟨⟨0, j⟩, gs⟩ v 2 := by
    simp only [Captures.textOf, Captures.group?, h.shifted]
    cases gs.lookup 2 with
    | none => rfl
    | some g => exact slice_newline_append w v g.start g.stop
  have hslice : slice (w ++ '\n' :: v) w.length (j + (w.length + 1)) = '\n' :: slice v 0 j := by
    rw [← slice_append_slice _ (Nat.le_succ w.length) (by omega), slice_newline,
      ← slice_newline_append w v, Nat.zero_add, List.singleton_append]
  rw [bindingReplacement, bindingReplacement, hfirst, hsecond, hslice, charAfter?_newline_append]
  split <;> rfl

/-- **A binding that takes a line feed along** is one at the start of the text behind it. -/
theorem between_bindingPattern {word w v : List Char} {d : Captures}
    (hd : bindingPattern.matchAt? (w ++ '\n' :: v) w.length = some d) :
    ∃ c, bindingPattern.matchAt? v 0 = some c ∧ d.span.stop = c.span.stop + (w.length + 1) ∧
      bindingReplacement word (w ++ '\n' :: v) d = '\n' :: bindingReplacement word v c := by
  obtain ⟨u, hu, rfl⟩ := Option.map_eq_some_iff.1 hd
  have hhead : (bindingPattern.runs (.startAt (w ++ '\n' :: v) w.length)).head? = some u := hu
  have hmatch : bindingPattern.matchAt? v 0 =
      (bindingPattern.runs (.startAt v 0)).head?.map fun r => ⟨⟨0, r.position⟩, r.groups⟩ := rfl
  obtain ⟨later, hlater⟩ := runs_bindingPattern_zero v
  rw [runs_bindingPattern_newline] at hhead
  rw [hmatch, hlater]
  have hruns := alikeOnLine_runs_bindingRest w v
  generalize bindingRest.runs _ = l, bindingRest.runs _ = m at hruns hhead
  cases hruns with
  | nil => contradiction
  | @cons t u' _ _ htu _ =>
      obtain rfl : u' = u := Option.some.inj hhead
      refine ⟨⟨⟨0, t.position⟩, t.groups⟩, rfl, htu.position, ?_⟩
      simp only [htu.position]
      exact bindingReplacement_newline htu.groups word v t.position

theorem rewritesLines_bindingPattern (word : List Char) :
    bindingPattern.RewritesLines (bindingReplacement word) where
  front {w i b} v hb hi := by
    have hne : (Run.startAt w i).rest ≠ [] := by
      rw [Run.startAt, ← List.length_pos_iff, List.length_drop]
      omega
    have hmore : ∀ c, (b :: v).head? = some c → isLineBreak c = true := by simpa using hb
    exact matchAt?_eq_of_alikeOnLine_zero (alikeOnLine_runs_bindingPattern hmore (.inl hne)
      (alikeOnLine_startAt_append (b :: v) (Nat.le_of_lt hi)))
  back w v j := matchAt?_eq_of_alikeOnLine rfl
    (alikeOnLine_runs_bindingPattern (by simp) (.inr rfl) (alikeOnLine_startAt_newline w v j))
  between := between_bindingPattern
  text := isLinewise_bindingReplacement word

theorem rewritesLines_canonicalizeBindings {word : List Char}
    (hword : chinese.segmenter.IsPlain word) :
    chinese.segmenter.RewritesLines (canonicalizeBindings word chinese.segmenter) :=
  rewritesLines_replaceOutside isSingle_chinese isPlain_newline_chinese isSealed_bindingPattern
    (isTame_bindingReplacement hword) (rewritesLines_bindingPattern word)

/-- **Comparisons, branches and bindings are rewritten line by line**, one after the other. -/
theorem rewritesLines_canonicalizeOperators {word : List Char}
    (hword : chinese.segmenter.IsPlain word) :
    chinese.segmenter.RewritesLines (canonicalizeOperators word chinese.segmenter) :=
  (rewritesLines_canonicalizeBindings hword).comp
    (rewritesLines_canonicalizeThen.comp rewritesLines_canonicalizeComparisons)

/-! ## Headings, assignments and results -/

theorem isLinewise_headingReplacement : IsLinewise headingReplacement where
  front {w c b} v hb hle hstop hgroups := by
    have hseparator : needsSeparator (charAfter? (w ++ b :: v) c.span.stop) =
        needsSeparator (charAfter? w c.span.stop) := by
      rw [charAfter?_append_cons b v hstop]
      cases charAfter? w c.span.stop with
      | none => rcases isLineBreak_iff.1 hb with rfl | rfl <;> rfl
      | some a => rfl
    simp only [headingReplacement, Captures.textOf_append_of_le _ hle hstop hgroups, hseparator]
  back {v c} w := by
    have hseparator : charAfter? (w ++ '\n' :: v) (c.shift (w.length + 1)).span.stop =
        charAfter? v c.span.stop := charAfter?_newline_append w v c.span.stop
    simp only [headingReplacement, Captures.textOf_newline_append, hseparator]

theorem keepsToLine_headingPattern : headingPattern.KeepsToLine :=
  keepsToLine_of_avoids (by decide) (by decide +kernel)

theorem rewritesLines_headingPattern : headingPattern.RewritesLines headingReplacement :=
  keepsToLine_headingPattern.rewritesLines (by decide) isLinewise_headingReplacement

theorem rewritesLines_canonicalizeHeadings :
    chinese.segmenter.RewritesLines (canonicalizeHeadings chinese.segmenter) :=
  rewritesLines_replaceOutside isSingle_chinese isPlain_newline_chinese isSealed_headingPattern
    isTame_headingReplacement rewritesLines_headingPattern

theorem isLinewise_assignmentReplacement : IsLinewise assignmentReplacement where
  front {w c b} v hb hle hstop hgroups := by
    simp only [assignmentReplacement, Captures.textOf_append_of_le _ hle hstop hgroups]
  back {v c} w := by
    simp only [assignmentReplacement, Captures.textOf_newline_append]

theorem keepsToLine_assignmentPattern : assignmentPattern.KeepsToLine :=
  keepsToLine_of_avoids (by decide) (by decide +kernel)

theorem rewritesLines_assignmentPattern : assignmentPattern.RewritesLines assignmentReplacement :=
  keepsToLine_assignmentPattern.rewritesLines (by decide) isLinewise_assignmentReplacement

theorem rewritesLines_canonicalizeAssignments :
    chinese.segmenter.RewritesLines (canonicalizeAssignments chinese.segmenter) :=
  rewritesLines_replaceOutside isSingle_chinese isPlain_newline_chinese isSealed_assignmentPattern
    isTame_assignmentReplacement rewritesLines_assignmentPattern

theorem isLinewise_resultReplacement : IsLinewise resultReplacement where
  front {w c b} v hb hle hstop hgroups := by
    simp only [resultReplacement, Captures.textOf_append_of_le _ hle hstop hgroups]
  back {v c} w := by
    simp only [resultReplacement, Captures.textOf_newline_append]

theorem keepsToLine_resultPattern : resultPattern.KeepsToLine :=
  keepsToLine_of_avoids (by decide) (by decide)

theorem rewritesLines_resultPattern : resultPattern.RewritesLines resultReplacement :=
  keepsToLine_resultPattern.rewritesLines (by decide) isLinewise_resultReplacement

theorem rewritesLines_canonicalizeResults :
    chinese.segmenter.RewritesLines (canonicalizeResults chinese.segmenter) :=
  rewritesLines_replaceOutside isSingle_chinese isPlain_newline_chinese isSealed_resultPattern
    isTame_resultReplacement rewritesLines_resultPattern

end RuleCanon
