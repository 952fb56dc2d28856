import RuleCanon.Proofs.Stage.Builtin
import RuleCanon.Proofs.Literal.Requote

/-!
# Literals in a pipeline

A pipeline for Chinese keeps the literals of a text and rewrites the code by nothing but the
code, whatever stages it has and in whatever order they run.  Both follow from the laws that
each stage obeys; the step for quotes at the end changes the marks, and with them what must be
escaped, but not what a literal stands for.

## Main Definitions

* `Segment.Straightens` — a literal with straight double quotes that stands for the same text

## Main Statements

* `Pipeline.literals_canonicalize` — the literals after a pipeline are those before it
* `Pipeline.code_canonicalize` — the code after a pipeline does not depend on what the literals
  say
-/

namespace RuleCanon

open Segment

/-! ## What a plan makes -/

namespace PipelinePlan

/-- A stage of a plan comes out of the registry. -/
theorem exists_create_of_mem_createAll {r : StageRegistry} {l : Lexicon} {seen names : List String}
    {stages : List Stage} (h : createAll r l seen names = .ok stages) {stage : Stage}
    (hstage : stage ∈ stages) : ∃ name ∈ names, r.create name l = .ok stage := by
  induction names generalizing seen stages with
  | nil =>
      cases h
      exact absurd hstage List.not_mem_nil
  | cons name names ih =>
      rw [createAll] at h
      split at h
      · contradiction
      · split at h
        · contradiction
        · next first hfirst =>
          split at h
          · contradiction
          · next rest hrest =>
            cases h
            rcases List.mem_cons.1 hstage with rfl | hstage
            · exact ⟨name, List.mem_cons_self, hfirst⟩
            · obtain ⟨other, hother, hcreate⟩ := ih hrest hstage
              exact ⟨other, List.mem_cons_of_mem name hother, hcreate⟩

theorem insertExtra_nil (stages : List Stage) : insertExtra stages [] = stages := by
  rw [insertExtra, List.append_nil, List.takeWhile_append_dropWhile]

/-- **A pipeline without extra stages** has the lexicon and the options of its plan, and the stages
of the registry that the plan needs. -/
theorem of_build {plan : PipelinePlan} (hextra : plan.extra = []) {r : StageRegistry}
    {p : Pipeline} (h : plan.build r = .ok p) :
    p.lexicon = plan.lexicon ∧ p.config = plan.config ∧
      ∀ stage ∈ p.stages, ∃ name ∈ plan.stageNames, r.create name plan.lexicon = .ok stage := by
  have hnone : plan.enabledExtra = [] := by rw [enabledExtra, hextra, List.filter_nil]
  rw [build] at h
  split at h
  · contradiction
  · split at h
    · contradiction
    · next stages hstages =>
      split at h
      · contradiction
      · cases h
        refine ⟨rfl, rfl, fun stage hstage => ?_⟩
        rw [hnone, insertExtra_nil] at hstage
        exact exists_create_of_mem_createAll hstages hstage

end PipelinePlan

/-- A pipeline of the built-in set for Chinese has the lexicon for Chinese, the options it was
built with, and built-in stages only. -/
theorem LocaleSet.of_build_builtin_chinese {config : Config} {order : Option (List String)}
    {p : Pipeline} (h : builtin.build "zh-CN" config order [] = .ok p) :
    p.lexicon = .chinese ∧ p.config = config ∧
      ∀ stage ∈ p.stages, ∃ name, builtin.stages.create name .chinese = .ok stage := by
  have hlookup : builtin.lexicons.lookup "zh-CN" = .ok .chinese := rfl
  rw [LocaleSet.build, hlookup] at h
  obtain ⟨hlexicon, hconfig, hstages⟩ := PipelinePlan.of_build rfl h
  refine ⟨hlexicon, hconfig, fun stage hstage => ?_⟩
  obtain ⟨name, -, hcreate⟩ := hstages stage hstage
  exact ⟨name, hcreate⟩

/-! ## The marks at the end -/

/-- A literal with straight double quotes stands for the same text as another literal, and is
closed if that one is. -/
inductive Segment.Straightens : Segment → Segment → Prop where
  | literal {d : Delimiters} {body other : List Char} (terminated : Bool)
      (hbody : unescape other = unescape body) :
      Straightens (.literal d body terminated) (.literal .ascii other terminated)

/-- New marks straighten every literal. -/
theorem Segment.straightens_requote {g : Segment} (h : g.isLiteral = true) :
    g.Straightens (g.requote .ascii) := by
  cases g with
  | code => contradiction
  | literal d body terminated =>
      rw [requote]
      split
      · next hd => exact hd ▸ .literal terminated rfl
      · exact .literal terminated unescape_escapeBody

theorem Segment.isLiteral_requote (marks : Delimiters) (g : Segment) :
    (g.requote marks).isLiteral = g.isLiteral := by
  cases g with
  | code => rfl
  | literal d body terminated =>
      obtain ⟨other, hother⟩ := exists_requote_eq marks d body terminated
      rw [hother]
      rfl

/-- New marks change neither the code nor the number of literals. -/
theorem Segment.filter_isLiteral_map_requote (marks : Delimiters) (gs : List Segment) :
    (gs.map (·.requote marks)).filter (·.isLiteral) =
      (gs.filter (·.isLiteral)).map (·.requote marks) := by
  rw [List.filter_map]
  congr 2
  exact funext (isLiteral_requote marks)

namespace Segmenter

/-- The segmenter for Chinese knows the straight double quote, and finds literals in a text with
such quotes where they were before. -/
theorem segments_canonicalizeQuotes_chinese (text : List Char) :
    Lexicon.chinese.segmenter.segments
        (Lexicon.chinese.segmenter.canonicalizeQuotes .ascii text) =
      (Lexicon.chinese.segmenter.segments text).map (·.requote .ascii) :=
  segments_canonicalizeQuotes Lexicon.isSingle_chinese (fun h => h) (by decide) text

/-- Straight double quotes straighten the literals of a Chinese text. -/
theorem straightens_canonicalizeQuotes_chinese (text : List Char) :
    List.Forall₂ Straightens
      ((Lexicon.chinese.segmenter.segments text).filter (·.isLiteral))
      ((Lexicon.chinese.segmenter.segments
        (Lexicon.chinese.segmenter.canonicalizeQuotes .ascii text)).filter (·.isLiteral)) := by
  rw [segments_canonicalizeQuotes_chinese, filter_isLiteral_map_requote,
    List.forall₂_map_right_iff]
  exact List.forall₂_same.2 fun g hg => straightens_requote (List.mem_filter.1 hg).2

/-- Straight double quotes keep texts alike that differ in the bodies of literals only. -/
theorem SameSkeleton.canonicalizeQuotes_chinese {a b : List Char}
    (h : Lexicon.chinese.segmenter.SameSkeleton a b) :
    Lexicon.chinese.segmenter.SameSkeleton
      (Lexicon.chinese.segmenter.canonicalizeQuotes .ascii a)
      (Lexicon.chinese.segmenter.canonicalizeQuotes .ascii b) := by
  have hskeleton (text : List Char) :
      (Lexicon.chinese.segmenter.segments
        (Lexicon.chinese.segmenter.canonicalizeQuotes .ascii text)).map skeleton =
        ((Lexicon.chinese.segmenter.segments text).map skeleton).map fun g =>
          (g.requote .ascii).skeleton := by
    rw [segments_canonicalizeQuotes_chinese, List.map_map, List.map_map]
    exact List.map_congr_left fun g _ => skeleton_requote .ascii g
  rw [SameSkeleton, hskeleton, hskeleton, h]

end Segmenter

/-! ## Pipelines for Chinese -/

namespace Pipeline

variable {config : Config} {order : Option (List String)} {p : Pipeline}

/-- The stages of a pipeline for Chinese, one after the other, rewrite code alone. -/
theorem rewritesCode_stages (h : LocaleSet.builtin.build "zh-CN" config order [] = .ok p) :
    Lexicon.chinese.segmenter.RewritesCode fun text =>
      p.stages.foldl (fun text stage => stage.apply p.segmenter text) text := by
  obtain ⟨hlexicon, -, hstages⟩ := LocaleSet.of_build_builtin_chinese h
  rw [segmenter, hlexicon]
  refine .foldl fun stage hstage => ?_
  obtain ⟨name, hcreate⟩ := hstages stage hstage
  exact Stage.rewritesCode_of_create hcreate

/-- Texts that differ in the bodies of literals only still do so after a pipeline. -/
theorem sameSkeleton_canonicalize
    (h : LocaleSet.builtin.build "zh-CN" config order [] = .ok p) {a b : List Char}
    (hab : Lexicon.chinese.segmenter.SameSkeleton a b) :
    Lexicon.chinese.segmenter.SameSkeleton (p.canonicalize a) (p.canonicalize b) := by
  have hstages := (rewritesCode_stages h).skeleton hab
  rw [canonicalize, canonicalize, finish, finish]
  split
  · rw [segmenter, (LocaleSet.of_build_builtin_chinese h).1] at hstages ⊢
    exact hstages.canonicalizeQuotes_chinese
  · exact hstages

/-- **Literals survive a pipeline for Chinese**, whatever stages it has and in whatever order.
If it keeps the marks, the literals after it are those before it; otherwise each of them has
straight double quotes and stands for the same text. -/
theorem literals_canonicalize (h : LocaleSet.builtin.build "zh-CN" config order [] = .ok p)
    (text : List Char) :
    (config.normalizeQuotes = false →
      (p.segmenter.segments (p.canonicalize text)).filter (·.isLiteral) =
        (p.segmenter.segments text).filter (·.isLiteral)) ∧
    (config.normalizeQuotes = true →
      List.Forall₂ Straightens ((p.segmenter.segments text).filter (·.isLiteral))
        ((p.segmenter.segments (p.canonicalize text)).filter (·.isLiteral))) := by
  obtain ⟨hlexicon, hconfig, -⟩ := LocaleSet.of_build_builtin_chinese h
  have hstages := (rewritesCode_stages h).literals text
  rw [segmenter, hlexicon] at hstages ⊢
  constructor <;> intro hquotes
  · rw [canonicalize, finish, hconfig, hquotes, segmenter, hlexicon]
    exact hstages
  · rw [canonicalize, finish, hconfig, hquotes, if_pos rfl, segmenter, hlexicon, ← hstages]
    exact Segmenter.straightens_canonicalizeQuotes_chinese _

/-- A literal in brackets holds the word for a comparison, a full stop and a straight double
quote.  With its marks kept it stays as it is, and with other marks it stands for the same
text. -/
theorem literals_canonicalize_brackets :
    ∃ kept straight : Pipeline,
      LocaleSet.builtin.build "zh-CN" { normalizeQuotes := false } none [] = .ok kept ∧
      LocaleSet.builtin.build "zh-CN" {} none [] = .ok straight ∧
      (kept.segmenter.segments (kept.canonicalize "返回 「大于。\"」。".toList)).filter
          (·.isLiteral) = [.literal ⟨['「'], ['」']⟩ "大于。\"".toList true] ∧
      List.Forall₂ Straightens [.literal ⟨['「'], ['」']⟩ "大于。\"".toList true]
        ((straight.segmenter.segments
          (straight.canonicalize "返回 「大于。\"」。".toList)).filter (·.isLiteral)) := by
  obtain ⟨kept, hkept⟩ : ∃ p,
      LocaleSet.builtin.build "zh-CN" { normalizeQuotes := false } none [] = .ok p := ⟨_, rfl⟩
  obtain ⟨straight, hstraight⟩ : ∃ p,
      LocaleSet.builtin.build "zh-CN" {} none [] = .ok p := ⟨_, rfl⟩
  have hliterals {config : Config} {p : Pipeline}
      (h : LocaleSet.builtin.build "zh-CN" config none [] = .ok p) :
      (p.segmenter.segments "返回 「大于。\"」。".toList).filter (·.isLiteral) =
        [.literal ⟨['「'], ['」']⟩ "大于。\"".toList true] := by
    rw [segmenter, (LocaleSet.of_build_builtin_chinese h).1]
    decide +kernel
  refine ⟨kept, straight, hkept, hstraight, ?_, ?_⟩
  · rw [(literals_canonicalize hkept _).1 rfl, hliterals hkept]
  · rw [← hliterals hstraight]
    exact (literals_canonicalize hstraight _).2 rfl

/-- **The code after a pipeline for Chinese does not depend on what literals say**: texts that
differ in the bodies of literals only have the same code after it. -/
theorem code_canonicalize (h : LocaleSet.builtin.build "zh-CN" config order [] = .ok p)
    {a b : List Char} (hab : Lexicon.chinese.segmenter.SameSkeleton a b) :
    (Lexicon.chinese.segmenter.segments (p.canonicalize a)).filter (!·.isLiteral) =
      (Lexicon.chinese.segmenter.segments (p.canonicalize b)).filter (!·.isLiteral) := by
  rw [← filter_code_map_skeleton, sameSkeleton_canonicalize h hab, filter_code_map_skeleton]

/-- Whether a literal holds a name or the words of a comparison with a line break, the code around
it is rewritten alike. -/
theorem code_canonicalize_brackets :
    ∃ p, LocaleSet.builtin.build "zh-CN" {} none [] = .ok p ∧
      Lexicon.chinese.segmenter.SameSkeleton "令 甲 为「乙」大于 1。".toList
        "令 甲 为「大于\n令。」大于 1。".toList ∧
      (Lexicon.chinese.segmenter.segments (p.canonicalize "令 甲 为「乙」大于 1。".toList)).filter
          (!·.isLiteral) =
        (Lexicon.chinese.segmenter.segments
          (p.canonicalize "令 甲 为「大于\n令。」大于 1。".toList)).filter (!·.isLiteral) := by
  obtain ⟨p, hp⟩ : ∃ p, LocaleSet.builtin.build "zh-CN" {} none [] = .ok p := ⟨_, rfl⟩
  have hsame : Lexicon.chinese.segmenter.SameSkeleton "令 甲 为「乙」大于 1。".toList
      "令 甲 为「大于\n令。」大于 1。".toList := by
    rw [Segmenter.SameSkeleton]
    decide +kernel
  exact ⟨p, hp, hsame, code_canonicalize hp hsame⟩

end Pipeline

end RuleCanon
