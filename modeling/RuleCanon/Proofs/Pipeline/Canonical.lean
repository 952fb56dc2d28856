import RuleCanon.Proofs.Idiom.Ascii
import RuleCanon.Proofs.Keyword.Runs
import RuleCanon.Proofs.Pipeline.Assembly
import RuleCanon.Proofs.Pipeline.Literals

/-!
# Canonical text in a pipeline

Canonical text comes out of a pipeline as it went in.  English is spelled in the canonical way
throughout, so its pipeline changes nothing at all.  That for Chinese changes nothing in code of
ASCII characters, since its keywords and idioms are not spelled with these alone, but for the
headings of rules; so it leaves all but the marks of literals alone.

## Main Statements

* `substituteAfter_eq_self` — keywords that are canonical already are replaced by themselves
* `Pipeline.canonicalize_english` — a pipeline for English changes nothing
* `Pipeline.canonicalize_ascii` — a pipeline for Chinese changes only the marks of literals in a
  text with ASCII code and without headings
-/

namespace RuleCanon

open Lexicon Segmenter

variable {text : List Char}

/-! ## Keywords -/

/-- **Keywords that are canonical already are replaced by themselves**, and others do not stand in
the text. -/
theorem substituteAfter_eq_self {rules : List KeywordRule}
    (hrules : ∀ r ∈ rules, r.spelling <:+: text → r.spelling ≠ [] ∧ r.canonical = r.spelling)
    (previous : Option Char) : substituteAfter rules previous text = text := by
  fun_induction substituteAfter rules previous text with
  | case1 => rfl
  | case2 previous c rest r hkeyword ih =>
      obtain ⟨hr, tail, htail⟩ := exists_of_keywordAt? hkeyword
      obtain ⟨hne, hcanonical⟩ := hrules r hr (htail ▸ (List.prefix_append _ _).isInfix)
      have hdrop := drop_pred_of_eq_append hne htail
      rw [hdrop] at ih ⊢
      rw [hcanonical, ih, htail]
      intro q hq hpart
      exact hrules q hq (hpart.trans (htail ▸ (List.suffix_append _ _).isInfix))
  | case3 previous c rest hnone ih =>
      rw [ih fun q hq hpart => hrules q hq (hpart.trans (List.suffix_cons c rest).isInfix)]

/-- Every spelling of English is canonical. -/
theorem keywordRules_english :
    ∀ r ∈ english.keywordRules, r.spelling ≠ [] ∧ r.canonical = r.spelling := by
  intro r hr
  obtain ⟨k, s, hs, rfl⟩ := mem_keywordRules.1 hr
  obtain rfl : s = k.canonical := List.mem_singleton.1 hs
  refine ⟨?_, rfl⟩
  cases k <;> decide

/-- No spelling of Chinese is of ASCII characters. -/
theorem keywordRules_chinese_beyondAscii :
    ∀ r ∈ chinese.keywordRules, ∃ c ∈ r.spelling, isBeyondAscii c = true := by
  have hany : ∀ r ∈ chinese.keywordRules, r.spelling.any isBeyondAscii = true := by decide
  exact fun r hr => List.any_eq_true.1 (hany r hr)

theorem substituteKeywords_english (text : List Char) :
    english.segmenter.mapCode (substituteKeywords english.keywordRules) text = text :=
  mapCode_eq_self fun _ _ => substituteAfter_eq_self (fun r hr _ => keywordRules_english r hr) none

theorem substituteKeywords_ascii (h : HasAsciiCode text) :
    chinese.segmenter.mapCode (substituteKeywords chinese.keywordRules) text = text := by
  refine mapCode_eq_self fun t ht => substituteAfter_eq_self (fun r hr hpart => ?_) none
  obtain ⟨c, hc, hbeyond⟩ := keywordRules_chinese_beyondAscii r hr
  rw [isBeyondAscii_eq_false (h t ht) (hpart.subset hc)] at hbeyond
  contradiction

/-! ## Marks -/

namespace Segmenter

variable {s : Segmenter} {marks : Delimiters}

theorem IsCut.mem_delimiters {gs : List Segment} (h : s.IsCut gs) {d : Delimiters}
    {body : List Char} {terminated : Bool} (hmem : .literal d body terminated ∈ gs) :
    d ∈ s.delimiters := by
  induction h with
  | nil => contradiction
  | code _ _ ih => exact ih ((List.mem_cons.1 hmem).resolve_left (by simp))
  | closed hopens _ _ ih =>
      rcases List.mem_cons.1 hmem with heq | hmem
      · cases heq
        exact List.mem_of_find?_eq_some hopens
      · exact ih hmem
  | opened hopens _ =>
      cases List.mem_singleton.1 hmem
      exact List.mem_of_find?_eq_some hopens

/-- The marks of each literal are known to the segmenter. -/
theorem mem_delimiters_of_mem_segments {d : Delimiters} {body : List Char} {terminated : Bool}
    (h : .literal d body terminated ∈ s.segments text) : d ∈ s.delimiters :=
  (isCut_segments s text).mem_delimiters h

/-- Literals that have the marks already keep theirs. -/
theorem canonicalizeQuotes_eq_self
    (h : ∀ d body terminated, .literal d body terminated ∈ s.segments text → d = marks) :
    s.canonicalizeQuotes marks text = text := by
  have hsame : (s.segments text).map (·.requote marks) = s.segments text := by
    refine (List.map_congr_left fun g hg => ?_).trans (List.map_id _)
    cases g with
    | code => rfl
    | literal d body terminated =>
        obtain rfl := h d body terminated hg
        exact if_pos rfl
  rw [canonicalizeQuotes, hsame, textOf_segments]

end Segmenter

/-! ## Pipelines of the built-in languages -/

namespace PipelinePlan

variable {r : StageRegistry} {l : Lexicon} {config : Config}

/-- A plan that leaves the order to the lexicon needs the stages that the lexicon names and that are
not disabled. -/
theorem stageNames_lexicon (hkeywords : StageName.keywords ∈ l.stages) (config : Config) :
    PipelinePlan.stageNames { lexicon := l, config := config } =
      l.stages.filter (· ∉ config.disabled) := by
  rw [stageNames_eq, if_neg fun hnone => hnone.2 hkeywords, List.append_nil]
  rfl

/-- **A pipeline can be built** for a lexicon whose stages can be made, with any of the registered
stages left out. -/
theorem exists_build (hnodup : l.stages.Nodup) (hkeywords : StageName.keywords ∈ l.stages)
    (hmade : ∀ name ∈ l.stages, r.Makes l name)
    (hdisabled : ∀ name ∈ config.disabled, r.contains name = true) :
    ∃ p, PipelinePlan.build { lexicon := l, config := config } r = .ok p := by
  have hnames := stageNames_lexicon hkeywords config
  have hmade' : ∀ name ∈ l.stages.filter (· ∉ config.disabled), r.Makes l name :=
    fun name hname => hmade name (List.mem_filter.1 hname).1
  rw [← hnames] at hmade'
  obtain ⟨stages, hstages⟩ := exists_forall₂_create_iff.2 hmade'
  refine ⟨_, build_eq_ok_iff.2 ⟨⟨fun name hname => ?_, ?_, hmade', isFresh_nil_right _⟩, stages,
    hstages, rfl⟩⟩
  · exact .inl (Option.isSome_iff_exists.1 (hdisabled name hname))
  · rw [hnames]
    exact hnodup.filter _

end PipelinePlan

namespace Pipeline

variable {config : Config}

/-- Stages that change nothing change nothing one after the other. -/
theorem foldl_eq_self {s : Segmenter} {stages : List Stage}
    (h : ∀ stage ∈ stages, stage.apply s text = text) :
    stages.foldl (fun text stage => stage.apply s text) text = text := by
  induction stages with
  | nil => rfl
  | cons stage stages ih =>
      obtain ⟨hfirst, hrest⟩ := List.forall_mem_cons.1 h
      rw [List.foldl_cons, hfirst, ih hrest]

/-- The stage for keywords, made for English. -/
theorem create_keywords_english :
    LocaleSet.builtin.stages.create StageName.keywords english =
      .ok ⟨StageName.keywords, fun s => s.mapCode (substituteKeywords english.keywordRules)⟩ :=
  isChecked_english.stage_keywords

/-- Straight double quotes are the only marks of English. -/
theorem delimiters_english : english.segmenter.delimiters = [.ascii] := by decide +kernel

/-- **A pipeline for English changes nothing**, with marks normalized or kept, and with the stage
for keywords or without it. -/
theorem canonicalize_english
    (hdisabled : ∀ name ∈ config.disabled, LocaleSet.builtin.stages.contains name = true) :
    ∃ p, LocaleSet.builtin.build "en-US" config none [] = .ok p ∧
      ∀ text, p.canonicalize text = text := by
  have hmade : ∀ name ∈ english.stages, LocaleSet.builtin.stages.Makes english name := by
    intro name hname
    obtain rfl := List.mem_singleton.1 hname
    exact StageRegistry.makes_iff.2 ⟨_, create_keywords_english⟩
  obtain ⟨p, hp⟩ := PipelinePlan.exists_build (by decide) (by decide) hmade hdisabled
  refine ⟨p, hp, fun text => ?_⟩
  obtain ⟨hlexicon, -, hstages⟩ := PipelinePlan.of_build rfl hp
  have hall : ∀ stage ∈ p.stages, stage.apply english.segmenter text = text := by
    intro stage hstage
    obtain ⟨name, hname, hcreate⟩ := hstages stage hstage
    rw [PipelinePlan.stageNames_lexicon (by decide)] at hname
    obtain rfl := List.mem_singleton.1 (List.mem_filter.1 hname).1
    rw [create_keywords_english] at hcreate
    cases hcreate
    exact substituteKeywords_english text
  have hquotes : english.segmenter.canonicalizeQuotes .ascii text = text :=
    canonicalizeQuotes_eq_self fun d _ _ hmem =>
      List.mem_singleton.1 (delimiters_english ▸ mem_delimiters_of_mem_segments hmem)
  rw [canonicalize, finish, segmenter, hlexicon, foldl_eq_self hall, hquotes, ite_self]

/-- A text full of keywords, in an unclosed literal and in code, without and with the stage for
them. -/
theorem canonicalize_english_keywords :
    ∃ plain full : Pipeline,
      LocaleSet.builtin.build "en-US"
        { normalizeQuotes := false, disabled := [StageName.keywords] } none [] = .ok plain ∧
      LocaleSet.builtin.build "en-US" {} none [] = .ok full ∧
      plain.canonicalize "For each 项 in 「令」 Wait for \"\\".toList =
        "For each 项 in 「令」 Wait for \"\\".toList ∧
      full.canonicalize "For each 项 in 「令」 Wait for \"\\".toList =
        "For each 项 in 「令」 Wait for \"\\".toList := by
  have hkeywords :
      ∀ name ∈ [StageName.keywords], LocaleSet.builtin.stages.contains name = true := by
    decide
  obtain ⟨plain, hplain, heq⟩ : ∃ p, LocaleSet.builtin.build "en-US"
      { normalizeQuotes := false, disabled := [StageName.keywords] } none [] = .ok p ∧
        ∀ text, p.canonicalize text = text := canonicalize_english hkeywords
  obtain ⟨full, hfull, heq'⟩ : ∃ p, LocaleSet.builtin.build "en-US" {} none [] = .ok p ∧
      ∀ text, p.canonicalize text = text := canonicalize_english (by simp)
  exact ⟨plain, full, hplain, hfull, heq _, heq' _⟩

/-- The built-in stages for Chinese leave a text with ASCII code and without headings alone. -/
theorem apply_eq_self_of_create {name : String} {stage : Stage}
    (hcreate : LocaleSet.builtin.stages.create name chinese = .ok stage)
    (hascii : HasAsciiCode text) (hlines : ∀ line ∈ text.splitOn '\n', ¬ OpensHeading line) :
    stage.apply chinese.segmenter text = text := by
  have hmem := Stage.mem_allChinese_of_create hcreate
  simp only [Stage.allChinese, List.mem_cons, List.not_mem_nil, or_false] at hmem
  rcases hmem with rfl | rfl | rfl | rfl | rfl | rfl | rfl
  · exact substituteKeywords_ascii hascii
  · exact canonicalizePunctuation_eq_self hascii
  · exact canonicalizePossessive_eq_self hascii
  · exact canonicalizeOperators_eq_self hascii (isPlain_chinese (by decide))
  · exact canonicalizeHeadings_eq_self hascii hlines
  · exact canonicalizeAssignments_eq_self hascii
  · exact canonicalizeResults_eq_self hascii

/-- **A pipeline for Chinese changes only the marks of literals** in a text with ASCII code and
without headings, whatever its literals hold and whichever stages are left out: nothing at all if
marks are kept or if all literals have straight double quotes already, and otherwise just the
marks. -/
theorem canonicalize_ascii
    (hdisabled : ∀ name ∈ config.disabled, LocaleSet.builtin.stages.contains name = true)
    (hascii : HasAsciiCode text) (hlines : ∀ line ∈ text.splitOn '\n', ¬ OpensHeading line) :
    ∃ p, LocaleSet.builtin.build "zh-CN" config none [] = .ok p ∧
      (config.normalizeQuotes = false → p.canonicalize text = text) ∧
      (config.normalizeQuotes = true →
        p.canonicalize text = chinese.segmenter.canonicalizeQuotes .ascii text) ∧
      ((∀ d body terminated, .literal d body terminated ∈ chinese.segmenter.segments text →
        d = .ascii) → p.canonicalize text = text) := by
  have hmade : ∀ name ∈ chinese.stages, LocaleSet.builtin.stages.Makes chinese name := by
    intro name hname
    simp only [chinese, List.mem_cons, List.not_mem_nil, or_false] at hname
    rcases hname with rfl | rfl | rfl | rfl | rfl | rfl | rfl <;> exact ⟨_, _, rfl, rfl⟩
  obtain ⟨p, hp⟩ := PipelinePlan.exists_build (by decide) (by decide) hmade hdisabled
  have hbuild : LocaleSet.builtin.build "zh-CN" config none [] = .ok p := hp
  obtain ⟨hlexicon, hconfig, hstages⟩ := LocaleSet.of_build_builtin_chinese hbuild
  have hall : ∀ stage ∈ p.stages, stage.apply chinese.segmenter text = text := by
    intro stage hstage
    obtain ⟨name, hcreate⟩ := hstages stage hstage
    exact apply_eq_self_of_create hcreate hascii hlines
  have hcanonicalize : p.canonicalize text =
      if config.normalizeQuotes then chinese.segmenter.canonicalizeQuotes .ascii text
      else text := by
    rw [canonicalize, finish, segmenter, hlexicon, hconfig, foldl_eq_self hall]
  refine ⟨p, hbuild, fun hkept => ?_, fun hnormalized => ?_, fun hliterals => ?_⟩
  · rw [hcanonicalize, hkept]
    rfl
  · rw [hcanonicalize, hnormalized]
    rfl
  · rw [hcanonicalize, canonicalizeQuotes_eq_self hliterals, ite_self]

/-- Idioms, keywords and line feeds in literals of both kinds, around code of ASCII characters: with
marks kept nothing changes, and otherwise just the marks; and nothing changes either way where all
literals have straight double quotes. -/
theorem canonicalize_ascii_literals :
    let text := "Let y be f(x).\nReturn 「设置 甲 为 乙\n规则 f（x）则\n」 + \"若\".".toList
    let straight := "Let y be f(x).\nReturn \"设置 甲 为 乙\n规则 f（x）则\n\" + \"若\".".toList
    HasAsciiCode text ∧ (∀ line ∈ text.splitOn '\n', ¬ OpensHeading line) ∧
      ∃ kept normalized : Pipeline,
        LocaleSet.builtin.build "zh-CN"
          { normalizeQuotes := false, disabled := [StageName.possessive] } none [] = .ok kept ∧
        LocaleSet.builtin.build "zh-CN" {} none [] = .ok normalized ∧
        kept.canonicalize text = text ∧ normalized.canonicalize text = straight ∧
        normalized.canonicalize straight = straight := by
  intro text straight
  have hcode : ∀ t ∈ [text, straight], ∀ g ∈ chinese.segmenter.segments t,
      g.isLiteral = true ∨ g.text.all (·.toNat < 128) = true := by decide +kernel
  have hopens : ∀ t ∈ [text, straight], ∀ line ∈ t.splitOn '\n',
      ¬ ['R', 'u', 'l', 'e'] <+: line.dropWhile CharSet.inlineBlank.mem := by decide +kernel
  have hliterals : (chinese.segmenter.segments straight).filter (·.isLiteral) =
      [.literal .ascii "设置 甲 为 乙\n规则 f（x）则\n".toList true, .literal .ascii ['若'] true] := by
    decide +kernel
  have hascii (t : List Char) (ht : t ∈ [text, straight]) : HasAsciiCode t := by
    intro code hmem c hc
    have hall := (hcode t ht _ hmem).resolve_left Bool.false_ne_true
    exact of_decide_eq_true (List.all_eq_true.1 hall c hc)
  have hlines (t : List Char) (ht : t ∈ [text, straight]) :
      ∀ line ∈ t.splitOn '\n', ¬ OpensHeading line :=
    fun line hline hopen => hopens t ht line hline hopen.isPrefix
  have htext : text ∈ [text, straight] := List.mem_cons_self
  have hstraight : straight ∈ [text, straight] := List.mem_cons_of_mem _ List.mem_cons_self
  have hpossessive : ∀ name ∈ [StageName.possessive],
      LocaleSet.builtin.stages.contains name = true := by decide
  obtain ⟨kept, hkept, hsame, -⟩ := @canonicalize_ascii text
    { normalizeQuotes := false, disabled := [StageName.possessive] } hpossessive
    (hascii text htext) (hlines text htext)
  obtain ⟨normalized, hnormalized, -, hmarks, -⟩ := @canonicalize_ascii text {} (by simp)
    (hascii text htext) (hlines text htext)
  obtain ⟨other, hother, -, -, hnothing⟩ := @canonicalize_ascii straight {} (by simp)
    (hascii straight hstraight) (hlines straight hstraight)
  obtain rfl : normalized = other := Except.ok.inj (hnormalized.symm.trans hother)
  refine ⟨hascii text htext, hlines text htext, kept, normalized, hkept, hnormalized, hsame rfl, ?_,
    hnothing fun d body terminated hmem => ?_⟩
  · rw [hmarks rfl]
    decide +kernel
  · have hfilter : .literal d body terminated ∈
        (chinese.segmenter.segments straight).filter (·.isLiteral) := List.mem_filter.2 ⟨hmem, rfl⟩
    rw [hliterals] at hfilter
    simp only [List.mem_cons, Segment.literal.injEq, List.not_mem_nil, or_false] at hfilter
    rcases hfilter with ⟨hd, -⟩ | ⟨hd, -⟩ <;> exact hd

end Pipeline

end RuleCanon
