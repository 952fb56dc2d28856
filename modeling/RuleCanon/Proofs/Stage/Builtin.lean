import RuleCanon.Pipeline.Locale
import RuleCanon.Proofs.Idiom.Codewise
import RuleCanon.Proofs.Keyword.Runs

/-!
# The built-in stages for Chinese

Every stage that the built-in set of locales can make for the Chinese lexicon rewrites code
alone.  Stages come out of a registry that holds functions, so the proof first says where a
factory of the registry can come from, and then goes through the seven of them.

## Main Statements

* `LocaleSet.factory_of_find?_builtin` — the factories of the built-in set
* `Stage.mem_allChinese_of_create` — the stages that they make for Chinese
* `Stage.rewritesCode_of_create` — each of these stages rewrites code alone
-/

namespace RuleCanon

open Lexicon

/-! ## Keywords -/

/-- Replacing keywords brings no mark along if no canonical spelling has one. -/
theorem isPlain_substituteAfter {s : Segmenter} {rules : List KeywordRule}
    (hrules : ∀ r ∈ rules, s.IsPlain r.canonical) {previous : Option Char} {t : List Char}
    (ht : s.IsPlain t) : s.IsPlain (substituteAfter rules previous t) := by
  fun_induction substituteAfter rules previous t with
  | case1 => exact ht
  | case2 previous c rest r hkeyword ih =>
      have hr : r ∈ rules := List.mem_of_find?_eq_some hkeyword
      refine Segmenter.isPlain_append.2 ⟨hrules r hr, ih (ht.of_subset fun a ha => ?_)⟩
      exact List.mem_cons_of_mem c (List.mem_of_mem_drop ha)
  | case3 previous c rest hnone ih =>
      have hplain := Segmenter.isPlain_append (t := [c]).1 ht
      exact hplain.1.cons (ih hplain.2)

theorem isPlain_substituteKeywords_chinese {t : List Char} (ht : chinese.segmenter.IsPlain t) :
    chinese.segmenter.IsPlain (substituteKeywords chinese.keywordRules t) := by
  have hrules : ∀ r ∈ chinese.keywordRules, '"' ∉ r.canonical ∧ '「' ∉ r.canonical := by
    decide
  exact isPlain_substituteAfter (fun r hr => isPlain_chinese (hrules r hr)) ht

theorem isCodewise_substituteKeywords :
    chinese.segmenter.IsCodewise
      (chinese.segmenter.mapCode (substituteKeywords chinese.keywordRules)) :=
  Segmenter.isCodewise_mapCode isPlain_substituteKeywords_chinese

/-! ## The registry -/

namespace LocaleSet

/-- What is registered was there before or is one of the stages that are registered. -/
theorem mem_of_find?_registerStages {r : StageRegistry} {l : List (String × StageFactory)}
    {name : String} {factory : StageFactory}
    (h : (registerStages r l).1.find? name = some factory) :
    r.find? name = some factory ∨ (name, factory) ∈ l := by
  induction l generalizing r with
  | nil => exact .inl h
  | cons e l ih =>
      obtain ⟨key, value⟩ := e
      rw [registerStages, StageRegistry.register] at h
      by_cases hcontains : r.contains key = true
      · -- the name is taken, and nothing more is registered
        rw [if_pos hcontains] at h
        exact .inl h
      · rw [if_neg hcontains] at h
        rcases ih h with h | h
        · by_cases hname : name = key
          · subst hname
            rw [Table.find?_insert_self] at h
            exact .inr (Option.some.inj h ▸ List.mem_cons_self)
          · exact .inl ((Table.find?_insert_of_ne r hname value).symm.trans h)
        · exact .inr (List.mem_cons_of_mem _ h)

theorem stages_install (s : LocaleSet) (p : LocalePlugin) :
    (s.install p).1.stages = (registerStages s.stages p.stages).1 := by
  rw [install]
  split
  · next hregister => rw [hregister]
  · next hregister =>
    rw [hregister]
    split
    · rfl
    · rw [registerLexicon]
      split <;> rfl

/-- **The factories of the built-in set** are the one for keywords and those for Chinese. -/
theorem factory_of_find?_builtin {name : String} {factory : StageFactory}
    (h : builtin.stages.find? name = some factory) :
    factory = Stage.keywords ∨ (name, factory) ∈ Stage.chinese := by
  rw [builtin, stages_install] at h
  rcases mem_of_find?_registerStages h with h | h
  · -- it was there before English
    rw [stages_install] at h
    rcases mem_of_find?_registerStages h with h | h
    · -- it was there before Chinese
      by_cases hname : name = StageName.keywords
      · subst hname
        exact .inl (Option.some.inj ((Table.find?_insert_self ..).symm.trans h)).symm
      · have hempty : (∅ : StageRegistry).find? name = some factory :=
          (Table.find?_insert_of_ne ∅ hname _).symm.trans h
        contradiction
    · exact .inr h
  · exact absurd h List.not_mem_nil

end LocaleSet

/-! ## The stages -/

/-- The stages that the built-in set makes for Chinese. -/
def Stage.allChinese : List Stage :=
  [⟨StageName.keywords, fun s => s.mapCode (substituteKeywords Lexicon.chinese.keywordRules)⟩,
    punctuation, possessive, operator Lexicon.chinese, functionSyntax, setTo, resultIs]

/-- **There are seven built-in stages for Chinese.** -/
theorem Stage.mem_allChinese_of_create {name : String} {stage : Stage}
    (h : LocaleSet.builtin.stages.create name Lexicon.chinese = .ok stage) :
    stage ∈ allChinese := by
  rw [StageRegistry.create] at h
  split at h
  · next factory hfactory =>
    rcases LocaleSet.factory_of_find?_builtin hfactory with rfl | hmem
    · rw [Lexicon.isChecked_chinese.stage_keywords] at h
      cases h
      exact List.mem_cons_self
    · simp only [chinese, List.mem_cons, Prod.mk.injEq, List.not_mem_nil, or_false] at hmem
      rcases hmem with ⟨-, rfl⟩ | ⟨-, rfl⟩ | ⟨-, rfl⟩ | ⟨-, rfl⟩ | ⟨-, rfl⟩ | ⟨-, rfl⟩ <;>
        cases h <;> simp [allChinese]
  · contradiction

/-- **Every built-in stage rewrites code alone**, when it was made for Chinese. -/
theorem Stage.rewritesCode_of_create {name : String} {stage : Stage}
    (h : LocaleSet.builtin.stages.create name Lexicon.chinese = .ok stage) :
    Lexicon.chinese.segmenter.RewritesCode (stage.apply Lexicon.chinese.segmenter) := by
  have hmem := mem_allChinese_of_create h
  simp only [allChinese, List.mem_cons, List.not_mem_nil, or_false] at hmem
  rcases hmem with rfl | rfl | rfl | rfl | rfl | rfl | rfl
  · exact isCodewise_substituteKeywords.rewritesCode isSingle_chinese
  · exact isCodewise_canonicalizePunctuation.rewritesCode isSingle_chinese
  · exact isCodewise_canonicalizePossessive.rewritesCode isSingle_chinese
  · exact rewritesCode_canonicalizeOperators (isPlain_chinese (by decide))
  · exact isCodewise_canonicalizeHeadings.rewritesCode isSingle_chinese
  · exact isCodewise_canonicalizeAssignments.rewritesCode isSingle_chinese
  · exact isCodewise_canonicalizeResults.rewritesCode isSingle_chinese

end RuleCanon
