import RuleCanon.Proofs.Idiom.LinePrefix
import RuleCanon.Proofs.Idiom.Possessive
import RuleCanon.Proofs.Stage.Builtin

/-!
# Stages that are done after one run

For five of the stages it can be said stretch by stretch of the code which texts they leave alone:
those without full-width punctuation, without member access, without assignments or results at the
start of a line, and without keywords.  Each of these stages gives such a text, so a second run of
the stage changes nothing.

## Main Definitions

* `Stretch.IsPunctuated`, `Stretch.IsUnjoined`, `Stretch.HasNoAssignment`, `Stretch.HasNoResult`,
  `Stretch.HasNoKeyword` — code that one of the stages leaves alone
* `Stage.settled` — the stages with what they leave alone

## Main Statements

* `Stage.apply_apply_of_mem` — these stages are done after one run
-/

namespace RuleCanon

open Lexicon Pattern Segmenter

/-! ## Punctuation -/

/-- The full-width marks that have a canonical mark. -/
def fullWidthMarks : List Char := ['。', '，', '：', '、']

/-- Code without full-width punctuation. -/
def Stretch.IsPunctuated (r : Stretch) : Prop := ∀ c ∈ r.code, c ∉ fullWidthMarks

theorem canonicalMark_eq_self_iff {c : Char} : canonicalMark c = c ↔ c ∉ fullWidthMarks := by
  by_cases hmark : c ∈ fullWidthMarks
  · have hall : fullWidthMarks.all (fun c => canonicalMark c ≠ c) = true := by decide
    have hne : canonicalMark c ≠ c := of_decide_eq_true (List.all_eq_true.1 hall c hmark)
    simp [hne, hmark]
  · have hself : canonicalMark c = c := by
      simp only [fullWidthMarks, List.mem_cons, List.not_mem_nil, or_false, not_or] at hmark
      obtain ⟨h₁, h₂, h₃, h₄⟩ := hmark
      rw [canonicalMark, if_neg h₁, if_neg h₂, if_neg h₃, if_neg h₄]
    simp [hself, hmark]

/-- A canonical mark is not full-width. -/
theorem canonicalMark_not_mem (c : Char) : canonicalMark c ∉ fullWidthMarks := by
  by_cases hmark : c ∈ fullWidthMarks
  · have hall : fullWidthMarks.all (fun c => canonicalMark c ∉ fullWidthMarks) = true := by decide
    exact of_decide_eq_true (List.all_eq_true.1 hall c hmark)
  · rwa [canonicalMark_eq_self_iff.2 hmark]

theorem map_canonicalMark_eq_self_iff {t : List Char} :
    t.map canonicalMark = t ↔ ∀ c ∈ t, c ∉ fullWidthMarks := by
  have hsame : t.map canonicalMark = t ↔ t.map canonicalMark = t.map fun c => c := by
    rw [List.map_id']
  rw [hsame, List.map_inj_left]
  exact forall₂_congr fun c _ => canonicalMark_eq_self_iff

theorem rewritesBy_canonicalizePunctuation :
    chinese.segmenter.RewritesBy (fun _ t _ => t.map canonicalMark)
      (canonicalizePunctuation chinese.segmenter) :=
  .mapCode isPlain_map_canonicalMark (by simp)

theorem canonicalizePunctuation_eq_self_iff (text : List Char) :
    canonicalizePunctuation chinese.segmenter text = text ↔
      ∀ r ∈ chinese.segmenter.stretches text, r.IsPunctuated :=
  (rewritesBy_canonicalizePunctuation.apply_eq_self_iff isSingle_chinese text).trans
    (forall₂_congr fun _ _ => map_canonicalMark_eq_self_iff)

theorem canonicalizePunctuation_twice (text : List Char) :
    canonicalizePunctuation chinese.segmenter (canonicalizePunctuation chinese.segmenter text) =
      canonicalizePunctuation chinese.segmenter text :=
  rewritesBy_canonicalizePunctuation.apply_apply isSingle_chinese
    (fun _ => map_canonicalMark_eq_self_iff.2
      (List.forall_mem_map.2 fun c _ => canonicalMark_not_mem c)) text

/-! ## Member access -/

/-- Code in which no particle stands for member access. -/
def Stretch.IsUnjoined (r : Stretch) : Prop := Unjoined r.after.toList r.before.toList r.code

/-- What takes the place of a particle is not empty. -/
theorem possessiveReplacement_ne_nil {text : List Char} {i : Nat} {m : Captures}
    (h : possessivePattern.matchAt? text i = some m) : possessiveReplacement text m ≠ [] := by
  obtain ⟨hlt, hstop⟩ := isSealed_possessivePattern.lt_of_matchAt? h
  rw [possessiveReplacement]
  split
  · exact List.cons_ne_nil _ _
  · rw [← List.length_pos_iff, length_slice hstop]
    omega

theorem rewritesBy_canonicalizePossessive :
    chinese.segmenter.RewritesBy (possessivePattern.rewriteIn possessiveReplacement)
      (canonicalizePossessive chinese.segmenter) :=
  rewritesBy_replaceOutside isSingle_chinese isSealed_possessivePattern
    isTame_possessiveReplacement possessiveReplacement_ne_nil

theorem canonicalizePossessive_eq_self_iff (text : List Char) :
    canonicalizePossessive chinese.segmenter text = text ↔
      ∀ r ∈ chinese.segmenter.stretches text, r.IsUnjoined :=
  (rewritesBy_canonicalizePossessive.apply_eq_self_iff isSingle_chinese text).trans
    (forall₂_congr fun _ hr =>
      rewriteIn_possessive_eq_self_iff (isStretch_of_mem_stretches hr).after)

theorem canonicalizePossessive_twice (text : List Char) :
    canonicalizePossessive chinese.segmenter (canonicalizePossessive chinese.segmenter text) =
      canonicalizePossessive chinese.segmenter text :=
  rewritesBy_canonicalizePossessive.apply_apply isSingle_chinese
    (fun hr => rewriteIn_possessive_twice hr.after) text

/-! ## Assignments and results -/

/-- Code with no assignment at the start of a line outside literals. -/
def Stretch.HasNoAssignment (r : Stretch) : Prop :=
  ∀ l ∈ r.lines, l.before = none → assignmentAt? l.ahead = none

/-- Code with no result at the start of a line outside literals. -/
def Stretch.HasNoResult (r : Stretch) : Prop :=
  ∀ l ∈ r.lines, l.before = none → resultAt? l.ahead = none

theorem assignmentReplacement_ne_nil (text : List Char) (m : Captures) :
    assignmentReplacement text m ≠ [] := by
  simp [assignmentReplacement]

theorem resultReplacement_ne_nil (text : List Char) (m : Captures) :
    resultReplacement text m ≠ [] := by
  simp [resultReplacement]

theorem canonicalizeAssignments_eq_self_iff (text : List Char) :
    canonicalizeAssignments chinese.segmenter text = text ↔
      ∀ r ∈ chinese.segmenter.stretches text, r.HasNoAssignment := by
  refine (replaceOutside_eq_self_iff isSingle_chinese isSealed_assignmentPattern
    isTame_assignmentReplacement assignmentReplacement_ne_nil rewritesLines_assignmentPattern
    opens_assignmentPattern newline_not_mem_fences text).trans ?_
  refine forall₂_congr fun r _ => forall₂_congr fun l _ => forall_congr' fun _ => ?_
  exact openLine_openAssignment?_eq_self_iff l.ahead

theorem canonicalizeAssignments_twice (text : List Char) :
    canonicalizeAssignments chinese.segmenter (canonicalizeAssignments chinese.segmenter text) =
      canonicalizeAssignments chinese.segmenter text :=
  (replaceOutside_twice_eq_iff isSingle_chinese isSealed_assignmentPattern
    isTame_assignmentReplacement assignmentReplacement_ne_nil rewritesLines_assignmentPattern
    opens_assignmentPattern newline_not_mem_fences text).2
      fun _ _ l _ _ => openLine_openAssignment? l.ahead

theorem canonicalizeResults_eq_self_iff (text : List Char) :
    canonicalizeResults chinese.segmenter text = text ↔
      ∀ r ∈ chinese.segmenter.stretches text, r.HasNoResult := by
  refine (replaceOutside_eq_self_iff isSingle_chinese isSealed_resultPattern
    isTame_resultReplacement resultReplacement_ne_nil rewritesLines_resultPattern
    opens_resultPattern newline_not_mem_fences text).trans ?_
  refine forall₂_congr fun r _ => forall₂_congr fun l _ => forall_congr' fun _ => ?_
  exact openLine_openResult?_eq_self_iff l.ahead

theorem canonicalizeResults_twice (text : List Char) :
    canonicalizeResults chinese.segmenter (canonicalizeResults chinese.segmenter text) =
      canonicalizeResults chinese.segmenter text :=
  (replaceOutside_twice_eq_iff isSingle_chinese isSealed_resultPattern isTame_resultReplacement
    resultReplacement_ne_nil rewritesLines_resultPattern opens_resultPattern newline_not_mem_fences
    text).2 fun _ _ l _ _ => openLine_openResult? l.ahead

/-! ## Keywords -/

/-- Code in which no run of identifier characters is a keyword. -/
def Stretch.HasNoKeyword (r : Stretch) : Prop :=
  ∀ w ∈ identifierRuns r.code, chinese.kindOf? w = none

/-- Replacing keywords leaves something of each text if no canonical spelling is empty. -/
theorem substituteAfter_ne_nil {rules : List KeywordRule} (hrules : ∀ r ∈ rules, r.canonical ≠ [])
    (previous : Option Char) {t : List Char} (ht : t ≠ []) :
    substituteAfter rules previous t ≠ [] := by
  obtain ⟨c, rest, rfl⟩ := List.exists_cons_of_ne_nil ht
  rw [substituteAfter]
  split
  · next r hkeyword =>
    exact List.append_ne_nil_of_left_ne_nil (hrules r (List.mem_of_find?_eq_some hkeyword)) _
  · exact List.cons_ne_nil _ _

theorem rewritesBy_substituteKeywords :
    chinese.segmenter.RewritesBy (fun _ t _ => substituteKeywords chinese.keywordRules t)
      (chinese.segmenter.mapCode (substituteKeywords chinese.keywordRules)) := by
  have hrules : ∀ r ∈ chinese.keywordRules, r.canonical ≠ [] := by decide
  exact .mapCode isPlain_substituteKeywords_chinese (substituteAfter_ne_nil hrules none)

theorem mapCode_substituteKeywords_eq_self_iff (text : List Char) :
    chinese.segmenter.mapCode (substituteKeywords chinese.keywordRules) text = text ↔
      ∀ r ∈ chinese.segmenter.stretches text, r.HasNoKeyword :=
  (rewritesBy_substituteKeywords.apply_eq_self_iff isSingle_chinese text).trans
    (forall₂_congr fun r _ =>
      substituteKeywords_eq_self_iff (ofResource_toResource isChecked_chinese)
        isIdentifierChar_of_mem_chinese kindOf?_canonical_chinese r.code)

theorem mapCode_substituteKeywords_twice (text : List Char) :
    chinese.segmenter.mapCode (substituteKeywords chinese.keywordRules)
        (chinese.segmenter.mapCode (substituteKeywords chinese.keywordRules) text) =
      chinese.segmenter.mapCode (substituteKeywords chinese.keywordRules) text :=
  rewritesBy_substituteKeywords.apply_apply isSingle_chinese
    (fun {r} _ => substituteKeywords_twice (ofResource_toResource isChecked_chinese)
      isIdentifierChar_of_mem_chinese kindOf?_canonical_chinese r.code) text

/-! ## The stages -/

namespace Stage

/-- The stages that are done after one run, with the code that they leave alone. -/
def settled : List (String × (Stretch → Prop)) :=
  [(StageName.punctuation, Stretch.IsPunctuated),
    (StageName.possessive, Stretch.IsUnjoined),
    (StageName.setTo, Stretch.HasNoAssignment),
    (StageName.resultIs, Stretch.HasNoResult),
    (StageName.keywords, Stretch.HasNoKeyword)]

/-- **Five built-in stages are done after one run.**  When they are made for Chinese, a second run
of the stage gives what the first one gave, and a run changes nothing just if no stretch of code
has what the stage is there for. -/
theorem apply_apply_of_mem {name : String} {isSettled : Stretch → Prop}
    (h : (name, isSettled) ∈ settled) :
    ∃ stage, LocaleSet.builtin.stages.create name Lexicon.chinese = .ok stage ∧
      stage.name = name ∧
      ∀ text,
        stage.apply Lexicon.chinese.segmenter (stage.apply Lexicon.chinese.segmenter text) =
          stage.apply Lexicon.chinese.segmenter text ∧
        (stage.apply Lexicon.chinese.segmenter text = text ↔
          ∀ r ∈ Lexicon.chinese.segmenter.stretches text, isSettled r) := by
  simp only [settled, List.mem_cons, Prod.mk.injEq, List.not_mem_nil, or_false] at h
  rcases h with ⟨rfl, rfl⟩ | ⟨rfl, rfl⟩ | ⟨rfl, rfl⟩ | ⟨rfl, rfl⟩ | ⟨rfl, rfl⟩
  · exact ⟨punctuation, rfl, rfl, fun text =>
      ⟨canonicalizePunctuation_twice text, canonicalizePunctuation_eq_self_iff text⟩⟩
  · exact ⟨possessive, rfl, rfl, fun text =>
      ⟨canonicalizePossessive_twice text, canonicalizePossessive_eq_self_iff text⟩⟩
  · exact ⟨setTo, rfl, rfl, fun text =>
      ⟨canonicalizeAssignments_twice text, canonicalizeAssignments_eq_self_iff text⟩⟩
  · exact ⟨resultIs, rfl, rfl, fun text =>
      ⟨canonicalizeResults_twice text, canonicalizeResults_eq_self_iff text⟩⟩
  · exact ⟨_, isChecked_chinese.stage_keywords, rfl, fun text =>
      ⟨mapCode_substituteKeywords_twice text, mapCode_substituteKeywords_eq_self_iff text⟩⟩

/-- Particles that share their blanks, and particles between words of which one gets a dot. -/
theorem apply_apply_of_mem_possessive :
    let run := possessive.apply Lexicon.chinese.segmenter
    (StageName.possessive, Stretch.IsUnjoined) ∈ settled ∧
      LocaleSet.builtin.stages.create StageName.possessive Lexicon.chinese = .ok possessive ∧
      run "a 的 的 b 我的订单的价格「的」".toList = "a.的 b 我的订单.价格「的」".toList ∧
      run "a.的 b 我的订单.价格「的」".toList = "a.的 b 我的订单.价格「的」".toList ∧
      ∀ r ∈ Lexicon.chinese.segmenter.stretches "a.的 b 我的订单.价格「的」".toList,
        r.IsUnjoined := by
  intro run
  have hname : (StageName.possessive, Stretch.IsUnjoined) ∈ settled := .tail _ (.head _)
  have hmade : LocaleSet.builtin.stages.create StageName.possessive Lexicon.chinese =
      .ok possessive := rfl
  have hfirst : run "a 的 的 b 我的订单的价格「的」".toList =
      "a.的 b 我的订单.价格「的」".toList := by
    decide +kernel
  obtain ⟨stage, hstage, -, hruns⟩ := apply_apply_of_mem hname
  obtain rfl : possessive = stage := Except.ok.inj (hmade.symm.trans hstage)
  have hsecond : run (run "a 的 的 b 我的订单的价格「的」".toList) = run _ := (hruns _).1
  rw [hfirst] at hsecond
  exact ⟨hname, hmade, hfirst, hsecond,
    (hruns "a.的 b 我的订单.价格「的」".toList).2.1 hsecond⟩

end Stage

end RuleCanon
