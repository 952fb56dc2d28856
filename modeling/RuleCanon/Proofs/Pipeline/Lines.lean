import RuleCanon.Proofs.Idiom.Lines
import RuleCanon.Proofs.Keyword.Border
import RuleCanon.Proofs.Pipeline.Literals

/-!
# Pipelines go line by line

A pipeline for Chinese treats two texts that a line feed joins like each of them by itself, if no
literal of the first one is open.  Each stage does, and it leaves the literals closed for the
next one.

## Main Statements

* `Stage.rewritesLines_of_create` — the built-in stages for Chinese
* `Pipeline.canonicalize_append_newline` — a pipeline of them
-/

namespace RuleCanon

open Lexicon

/-- No Chinese keyword is spelled with a line feed. -/
theorem avoids_newline_chinese : ∀ r ∈ chinese.keywordRules, r.Avoids '\n' := by
  have hall : ∀ r ∈ chinese.keywordRules, r.spelling ≠ [] ∧ '\n' ∉ r.spelling := by decide
  exact hall

theorem rewritesLines_substituteKeywords :
    chinese.segmenter.RewritesLines
      (chinese.segmenter.mapCode (substituteKeywords chinese.keywordRules)) :=
  Segmenter.rewritesLines_mapCode isSingle_chinese isPlain_newline_chinese
    isCodewise_substituteKeywords (by rw [substituteKeywords, substituteAfter])
    (substituteKeywords_append_cons avoids_newline_chinese (by decide))

/-- **Every built-in stage goes line by line**, when it was made for Chinese. -/
theorem Stage.rewritesLines_of_create {name : String} {stage : Stage}
    (h : LocaleSet.builtin.stages.create name Lexicon.chinese = .ok stage) :
    Lexicon.chinese.segmenter.RewritesLines (stage.apply Lexicon.chinese.segmenter) := by
  have hmem := mem_allChinese_of_create h
  simp only [allChinese, List.mem_cons, List.not_mem_nil, or_false] at hmem
  rcases hmem with rfl | rfl | rfl | rfl | rfl | rfl | rfl
  · exact rewritesLines_substituteKeywords
  · exact rewritesLines_canonicalizePunctuation
  · exact rewritesLines_canonicalizePossessive
  · exact rewritesLines_canonicalizeOperators (isPlain_chinese (by decide))
  · exact rewritesLines_canonicalizeHeadings
  · exact rewritesLines_canonicalizeAssignments
  · exact rewritesLines_canonicalizeResults

namespace Pipeline

variable {config : Config} {order : Option (List String)} {p : Pipeline}

/-- The stages of a pipeline for Chinese, one after the other, go line by line. -/
theorem rewritesLines_stages (h : LocaleSet.builtin.build "zh-CN" config order [] = .ok p) :
    Lexicon.chinese.segmenter.RewritesLines fun text =>
      p.stages.foldl (fun text stage => stage.apply p.segmenter text) text := by
  obtain ⟨hlexicon, -, hstages⟩ := LocaleSet.of_build_builtin_chinese h
  rw [segmenter, hlexicon]
  refine .foldl fun stage hstage => ?_
  obtain ⟨name, hcreate⟩ := hstages stage hstage
  exact Stage.rewritesLines_of_create hcreate

/-- **A pipeline for Chinese goes line by line**, whatever stages it has, in whatever order, and
whether or not it keeps the marks of literals: two texts that a line feed joins become what each
of them becomes by itself, joined by a line feed, if no literal of the first text is open. -/
theorem canonicalize_append_newline
    (h : LocaleSet.builtin.build "zh-CN" config order [] = .ok p) {a : List Char}
    (ha : Lexicon.chinese.segmenter.IsClosed a) (b : List Char) :
    p.canonicalize (a ++ '\n' :: b) = p.canonicalize a ++ '\n' :: p.canonicalize b := by
  have hlines := rewritesLines_stages h
  have hclosed := ha.of_literals_eq (hlines.literals a)
  rw [canonicalize, canonicalize, canonicalize, hlines.append ha]
  rw [segmenter, (LocaleSet.of_build_builtin_chinese h).1] at hclosed ⊢
  simp only [finish, segmenter, (LocaleSet.of_build_builtin_chinese h).1]
  split
  · exact Segmenter.canonicalizeQuotes_append_newline Lexicon.isSingle_chinese
      isPlain_newline_chinese .ascii hclosed _
  · rfl

/-- The first text ends with a literal that holds a line feed of its own, and the second one
starts with a binding, which takes the line feed along. -/
theorem canonicalize_append_newline_brackets :
    ∃ p, LocaleSet.builtin.build "zh-CN" {} none [] = .ok p ∧
      Lexicon.chinese.segmenter.IsClosed "令 甲 为 「大于\n则」".toList ∧
      p.canonicalize ("令 甲 为 「大于\n则」".toList ++ '\n' :: "设置 乙 为 甲".toList) =
        p.canonicalize "令 甲 为 「大于\n则」".toList ++
          '\n' :: p.canonicalize "设置 乙 为 甲".toList := by
  obtain ⟨p, hp⟩ : ∃ p, LocaleSet.builtin.build "zh-CN" {} none [] = .ok p := ⟨_, rfl⟩
  have hclosed : Lexicon.chinese.segmenter.IsClosed "令 甲 为 「大于\n则」".toList := by
    rw [Segmenter.IsClosed]
    decide +kernel
  exact ⟨p, hp, hclosed, canonicalize_append_newline hp hclosed _⟩

end Pipeline

end RuleCanon
