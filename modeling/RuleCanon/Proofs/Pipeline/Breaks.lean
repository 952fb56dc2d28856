import RuleCanon.Proofs.Idiom.Breaks
import RuleCanon.Proofs.Pipeline.Lines

/-!
# Pipelines keep the line breaks

A pipeline for Chinese neither adds nor loses a line break, so what is on some line of a text is
on the same line of its canonical form.  Nor does it matter whether lines end with a line feed or
with a carriage return and a line feed: the canonical forms differ in the carriage returns only.
Both hold of each stage, and of the new marks for literals at the end.

## Main Statements

* `Stage.keepsLineEnds_of_create` — the built-in stages for Chinese
* `Pipeline.breaks_canonicalize` — a pipeline of them keeps the line breaks
* `Pipeline.canonicalize_withReturns` — it treats both kinds of line ends alike
-/

namespace RuleCanon

open Lexicon

/-! ## Keywords -/

/-- Keywords without line breaks are replaced by such keywords, which keeps the line breaks. -/
theorem breaks_substituteAfter {rules : List KeywordRule}
    (hrules : ∀ r ∈ rules, r.spelling ≠ [] ∧ breaks r.spelling = [] ∧ breaks r.canonical = [])
    (previous : Option Char) (t : List Char) :
    breaks (substituteAfter rules previous t) = breaks t := by
  fun_induction substituteAfter rules previous t with
  | case1 => rfl
  | case2 previous c rest r hkeyword ih =>
      obtain ⟨hr, tail, htail⟩ := exists_of_keywordAt? hkeyword
      obtain ⟨hne, hspelling, hcanonical⟩ := hrules r hr
      rw [breaks_append, hcanonical, ih, drop_pred_of_eq_append hne htail, htail, breaks_append,
        hspelling]
  | case3 previous c rest hnone ih => rw [breaks_cons, ih, ← breaks_cons]

/-- No Chinese keyword has a line break, and no canonical one does. -/
theorem breaks_keywordRules_chinese : ∀ r ∈ chinese.keywordRules,
    r.spelling ≠ [] ∧ breaks r.spelling = [] ∧ breaks r.canonical = [] := by
  decide

theorem keepsLineEnds_substituteKeywords :
    KeepsLineEnds (chinese.segmenter.mapCode (substituteKeywords chinese.keywordRules)) := by
  have hreturn : ∀ r ∈ chinese.keywordRules, r.Avoids '\r' := by
    intro r hr
    obtain ⟨hne, hspelling, -⟩ := breaks_keywordRules_chinese r hr
    exact ⟨hne, fun hmem => by simpa [isLineBreak] using breaks_eq_nil_iff.1 hspelling _ hmem⟩
  have hnil : substituteKeywords chinese.keywordRules [] = [] := by
    rw [substituteKeywords, substituteAfter]
  refine Segmenter.keepsLineEnds_mapCode breaks_fences_chinese isSingle_chinese hnil
    (substituteKeywords_append_cons avoids_newline_chinese (by decide)) (fun t => ?_)
    (breaks_substituteAfter breaks_keywordRules_chinese none)
  rw [substituteKeywords_append_cons hreturn (by decide), hnil]

/-! ## Stages -/

/-- **Every built-in stage keeps the line ends**, when it was made for Chinese. -/
theorem Stage.keepsLineEnds_of_create {name : String} {stage : Stage}
    (h : LocaleSet.builtin.stages.create name Lexicon.chinese = .ok stage) :
    KeepsLineEnds (stage.apply Lexicon.chinese.segmenter) := by
  have hmem := mem_allChinese_of_create h
  simp only [allChinese, List.mem_cons, List.not_mem_nil, or_false] at hmem
  rcases hmem with rfl | rfl | rfl | rfl | rfl | rfl | rfl
  · exact keepsLineEnds_substituteKeywords
  · exact keepsLineEnds_canonicalizePunctuation
  · exact keepsLineEnds_canonicalizePossessive
  · exact keepsLineEnds_canonicalizeOperators (isPlain_chinese (by decide)) (by decide)
  · exact keepsLineEnds_canonicalizeHeadings
  · exact keepsLineEnds_canonicalizeAssignments
  · exact keepsLineEnds_canonicalizeResults

/-! ## Pipelines -/

namespace Pipeline

variable {config : Config} {order : Option (List String)} {p : Pipeline}

/-- A pipeline for Chinese keeps the line ends. -/
theorem keepsLineEnds_canonicalize
    (h : LocaleSet.builtin.build "zh-CN" config order [] = .ok p) :
    KeepsLineEnds p.canonicalize := by
  obtain ⟨hlexicon, -, hstages⟩ := LocaleSet.of_build_builtin_chinese h
  have hall : KeepsLineEnds fun text =>
      p.stages.foldl (fun text stage => stage.apply p.segmenter text) text := by
    rw [segmenter, hlexicon]
    refine .foldl fun stage hstage => ?_
    obtain ⟨name, hcreate⟩ := hstages stage hstage
    exact Stage.keepsLineEnds_of_create hcreate
  have hfinish : KeepsLineEnds p.finish := by
    have heq : p.finish = fun text =>
        if p.config.normalizeQuotes then chinese.segmenter.canonicalizeQuotes .ascii text
        else text := by
      funext text
      rw [finish, segmenter, hlexicon]
    rw [heq]
    split
    · exact Segmenter.keepsLineEnds_canonicalizeQuotes breaks_fences_chinese isSingle_chinese
        (by decide)
    · exact .id
  exact hfinish.comp hall

/-- **A pipeline for Chinese keeps the lines of a text**: the line feeds and carriage returns of
the canonical form are those of the text, in their order.  It does not matter which stages the
pipeline has, in which order, and whether it keeps the marks of literals. -/
theorem breaks_canonicalize (h : LocaleSet.builtin.build "zh-CN" config order [] = .ok p)
    (text : List Char) : breaks (p.canonicalize text) = breaks text :=
  (keepsLineEnds_canonicalize h).breaks_eq text

/-- The word for a branch stands in front of a carriage return, a binding takes the line feed in
front of it along, and a literal holds a line feed behind a backslash. -/
theorem breaks_canonicalize_binding :
    ∃ p, LocaleSet.builtin.build "zh-CN" {} none [] = .ok p ∧
      breaks (p.canonicalize "若 甲 大于 1 则\r\n设置 乙 为 「二\\\n」\r".toList) =
        ['\r', '\n', '\n', '\r'] := by
  obtain ⟨p, hp⟩ : ∃ p, LocaleSet.builtin.build "zh-CN" {} none [] = .ok p := ⟨_, rfl⟩
  exact ⟨p, hp, (breaks_canonicalize hp _).trans (by decide)⟩

/-- **A pipeline for Chinese treats both kinds of line ends alike**: with a carriage return in
front of each line feed of a text, the canonical form has one in front of each of its line feeds,
and is otherwise the same. -/
theorem canonicalize_withReturns (h : LocaleSet.builtin.build "zh-CN" config order [] = .ok p)
    (text : List Char) : p.canonicalize (withReturns text) = withReturns (p.canonicalize text) :=
  (keepsLineEnds_canonicalize h).apply_withReturns text

/-- A branch and a binding, with a line feed behind a backslash in a literal. -/
theorem canonicalize_withReturns_binding :
    ∃ p, LocaleSet.builtin.build "zh-CN" {} none [] = .ok p ∧
      p.canonicalize "若 甲 大于 1 则\r\n设置 乙 为 「二\\\r\n」".toList =
        withReturns (p.canonicalize "若 甲 大于 1 则\n设置 乙 为 「二\\\n」".toList) := by
  obtain ⟨p, hp⟩ : ∃ p, LocaleSet.builtin.build "zh-CN" {} none [] = .ok p := ⟨_, rfl⟩
  have hreturns : withReturns "若 甲 大于 1 则\n设置 乙 为 「二\\\n」".toList =
      "若 甲 大于 1 则\r\n设置 乙 为 「二\\\r\n」".toList := by decide
  refine ⟨p, hp, ?_⟩
  rw [← hreturns]
  exact canonicalize_withReturns hp _

end Pipeline

end RuleCanon
