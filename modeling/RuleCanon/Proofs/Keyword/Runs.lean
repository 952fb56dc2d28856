import Mathlib.Data.List.SplitBy
import RuleCanon.Proofs.Keyword.Index
import RuleCanon.Proofs.Lexicon.Checked
import RuleCanon.Proofs.Text.Slice

/-!
# Keywords as whole words

If keywords are spelled with identifier characters only, replacing them needs no search.  The
text is cut into runs of identifier characters and the characters between them; each run is
looked up as it is, and the first kind of keyword that is spelled like it says what takes its
place.  So a keyword in a longer name is never touched, and no keyword that stands alone is left,
unless the canonical spellings bring one along.

## Main Definitions

* `identifierRuns` — a text, cut into runs and single characters
* `IsRun` — a run that is maximal where it stands
* `Lexicon.kindOf?`, `Lexicon.canonicalRun` — the kind of keyword that a run is, and what takes
  its place

## Main Statements

* `Lexicon.find?_keywordRules` — sorting the rules by length does not change what is looked up
* `Lexicon.substituteKeywords_eq_self_iff`, `Lexicon.substituteKeywords_twice` — a text without
  keywords stays, and so does the outcome
* `Lexicon.substituteKeywords_closed` — keyword substitution in closed form
-/

namespace RuleCanon

variable {b : Char} {t u w x y : List Char}

/-! ## Runs -/

/-- The maximal runs of identifier characters in a text, and all other characters one by one. -/
def identifierRuns (text : List Char) : List (List Char) :=
  text.splitBy fun a b => isIdentifierChar a && isIdentifierChar b

/-- Identifier characters between two texts that no identifier character of theirs touches. -/
structure IsRun (x w y : List Char) : Prop where
  ne_nil : w ≠ []
  filled : ∀ c ∈ w, isIdentifierChar c = true
  left : isWordBorder x.getLast? = true
  right : isWordBorder y.head? = true

theorem identifierRuns_nil : identifierRuns [] = [] := rfl

/-- A run by itself is not cut. -/
theorem identifierRuns_of_run (hne : w ≠ []) (hw : ∀ c ∈ w, isIdentifierChar c = true) :
    identifierRuns w = [w] := by
  refine List.splitBy_of_isChain hne (List.Pairwise.isChain ?_)
  exact List.pairwise_of_forall_mem_list fun a ha b hb => by rw [hw a ha, hw b hb]; rfl

/-- The characters of a text are those of its runs. -/
theorem flatten_identifierRuns (text : List Char) : (identifierRuns text).flatten = text :=
  List.flatten_splitBy _ text

theorem identifierRuns_append (h : isWordBorder t.getLast? = true ∨ isWordBorder u.head? = true) :
    identifierRuns (t ++ u) = identifierRuns t ++ identifierRuns u := by
  refine List.splitBy_append fun a ha b hb => ?_
  rw [Option.mem_def] at ha hb
  rw [ha, hb] at h
  simpa [isWordBorder, imp_iff_not_or] using h

/-- A character that is no part of a name cuts a text. -/
theorem identifierRuns_append_cons (hb : isIdentifierChar b = false) (t u : List Char) :
    identifierRuns (t ++ b :: u) = identifierRuns t ++ [b] :: identifierRuns u := by
  have hborder : isWordBorder (some b) = true := by simp [isWordBorder, hb]
  have hfront : identifierRuns (t ++ b :: u) = identifierRuns t ++ identifierRuns (b :: u) :=
    identifierRuns_append (.inr hborder)
  have hback : identifierRuns ([b] ++ u) = identifierRuns [b] ++ identifierRuns u :=
    identifierRuns_append (.inl hborder)
  rw [hfront]
  exact congrArg (identifierRuns t ++ ·) hback

/-- A maximal run is one of the runs of the text. -/
theorem IsRun.identifierRuns_eq (h : IsRun x w y) :
    identifierRuns (x ++ w ++ y) = identifierRuns x ++ w :: identifierRuns y := by
  rw [identifierRuns_append (.inr h.right), identifierRuns_append (.inl h.left),
    identifierRuns_of_run h.ne_nil h.filled, List.append_assoc, List.singleton_append]

/-- What holds of runs, and of two texts with a character between them that is no part of a name
if it holds of both, holds of every text. -/
theorem identifierRuns_induction {P : List Char → Prop}
    (run : ∀ w, (∀ c ∈ w, isIdentifierChar c = true) → P w)
    (cut : ∀ t b u, isIdentifierChar b = false → P t → P u → P (t ++ b :: u)) (text : List Char) :
    P text := by
  induction hlength : text.length using Nat.strongRecOn generalizing text with
  | ind n ih =>
      by_cases hall : ∀ c ∈ text, isIdentifierChar c = true
      · exact run text hall
      · obtain ⟨b, hmem, hb⟩ : ∃ b ∈ text, isIdentifierChar b = false := by simpa using hall
        obtain ⟨t, u, rfl⟩ := List.append_of_mem hmem
        rw [List.length_append, List.length_cons] at hlength
        exact cut t b u hb (ih t.length (by omega) t rfl) (ih u.length (by omega) u rfl)

/-! ## Substitution by look-up -/

section Rules

variable {rules : List KeywordRule}

/-- What takes the place of a run: what the first rule says that is spelled like it. -/
def exchangeRun (rules : List KeywordRule) (w : List Char) : List Char :=
  ((rules.find? (·.spelling = w)).map (·.canonical)).getD w

/-- All spellings are runs of identifier characters. -/
def AreRuns (rules : List KeywordRule) : Prop :=
  ∀ r ∈ rules, r.spelling ≠ [] ∧ ∀ c ∈ r.spelling, isIdentifierChar c = true

theorem AreRuns.avoids (h : AreRuns rules) (hb : isIdentifierChar b = false) :
    ∀ r ∈ rules, r.Avoids b := fun r hr =>
  ⟨(h r hr).1, fun hmem => by simp [(h r hr).2 b hmem] at hb⟩

/-- A character that is no part of a name is no keyword. -/
theorem AreRuns.exchangeRun_singleton (h : AreRuns rules) (hb : isIdentifierChar b = false) :
    exchangeRun rules [b] = [b] := by
  have hnone : rules.find? (·.spelling = [b]) = none :=
    List.find?_eq_none.2 fun r hr heq => by
      have hspelling : r.spelling = [b] := by simpa using heq
      exact (h.avoids hb r hr).2 (by simp [hspelling])
  rw [exchangeRun, hnone]
  rfl

/-- **Replacing keywords is looking up runs.** -/
theorem AreRuns.substituteKeywords_eq (h : AreRuns rules) (text : List Char) :
    substituteKeywords rules text = (identifierRuns text).flatMap (exchangeRun rules) := by
  induction text using identifierRuns_induction with
  | run w hw =>
      by_cases hne : w = []
      · rw [hne, identifierRuns_nil, substituteKeywords, substituteAfter, List.flatMap_nil]
      · rw [identifierRuns_of_run hne hw, List.flatMap_singleton, exchangeRun,
          substituteKeywords_of_run hw fun r hr => (h r hr).1]
  | cut t b u hb iht ihu =>
      rw [substituteKeywords_append_cons (h.avoids hb) hb, iht, ihu,
        identifierRuns_append_cons hb, List.flatMap_append, List.flatMap_cons,
        h.exchangeRun_singleton hb, List.singleton_append]

/-- The runs of the outcome are those of what took the place of runs. -/
theorem AreRuns.identifierRuns_substituteKeywords (h : AreRuns rules) (text : List Char) :
    identifierRuns (substituteKeywords rules text) =
      (identifierRuns text).flatMap fun w => identifierRuns (exchangeRun rules w) := by
  induction text using identifierRuns_induction with
  | run w hw =>
      by_cases hne : w = []
      · rw [hne, identifierRuns_nil, substituteKeywords, substituteAfter, List.flatMap_nil,
          identifierRuns_nil]
      · rw [h.substituteKeywords_eq, identifierRuns_of_run hne hw, List.flatMap_singleton,
          List.flatMap_singleton]
  | cut t b u hb iht ihu =>
      rw [substituteKeywords_append_cons (h.avoids hb) hb, identifierRuns_append_cons hb, iht, ihu,
        identifierRuns_append_cons hb, List.flatMap_append, List.flatMap_cons,
        h.exchangeRun_singleton hb]
      rfl

end Rules

/-! ## The rules of a lexicon -/

namespace Lexicon

variable {r : LexiconResource} {l : Lexicon}

/-- The first kind of keyword, in the order of the kinds, that is spelled like that. -/
def kindOf? (l : Lexicon) (w : List Char) : Option TokenKind :=
  TokenKind.all.find? fun k => (l.keyword k).all.any (·.toList = w)

/-- What takes the place of a run: its kind in canonical text, or the run itself if it is no
keyword. -/
def canonicalRun (l : Lexicon) (w : List Char) : List Char :=
  ((l.kindOf? w).map (·.canonical.toList)).getD w

theorem exists_of_kindOf? {k : TokenKind} (h : l.kindOf? w = some k) :
    ∃ s ∈ (l.keyword k).all, s.toList = w := by
  have hany : (l.keyword k).all.any (·.toList = w) = true := by
    simpa using List.find?_some h
  simpa using hany

theorem mem_keywordRules {q : KeywordRule} :
    q ∈ l.keywordRules ↔ ∃ k, ∃ s ∈ (l.keyword k).all, q = ⟨s.toList, k.canonical.toList⟩ := by
  rw [keywordRules, KeywordRule.mem_sort, spellingRules, List.mem_flatMap]
  constructor
  · rintro ⟨⟨k, s⟩, hk, hq⟩
    obtain ⟨k', -, heq⟩ := List.mem_map.1 hk
    cases heq
    obtain ⟨t, ht, rfl⟩ := List.mem_map.1 hq
    exact ⟨k, t, ht, rfl⟩
  · rintro ⟨k, s, hs, rfl⟩
    exact ⟨(k, l.keyword k), List.mem_map.2 ⟨k, TokenKind.mem_all k, rfl⟩,
      List.mem_map.2 ⟨s, hs, rfl⟩⟩

/-- Of the rules for one kind, the one for a spelling is found if there is one. -/
theorem find?_rules_of_kind (spellings : List String) (canonical w : List Char) :
    (spellings.map fun t => (⟨t.toList, canonical⟩ : KeywordRule)).find? (·.spelling = w) =
      if spellings.any (·.toList = w) then some ⟨w, canonical⟩ else none := by
  induction spellings with
  | nil => rfl
  | cons t spellings ih =>
      rw [List.map_cons, List.any_cons]
      by_cases ht : t.toList = w
      · simp [ht]
      · rw [List.find?_cons_of_neg (by simpa using ht), ih]
        simp [ht]

/-- The rules for some kinds, in the order of the kinds. -/
theorem find?_rules_of_kinds (l : Lexicon) (kinds : List TokenKind) (w : List Char) :
    (kinds.flatMap fun k => (l.keyword k).all.map fun t =>
        (⟨t.toList, k.canonical.toList⟩ : KeywordRule)).find? (·.spelling = w) =
      (kinds.find? fun k => (l.keyword k).all.any (·.toList = w)).map
        fun k => ⟨w, k.canonical.toList⟩ := by
  induction kinds with
  | nil => rfl
  | cons k kinds ih =>
      rw [List.flatMap_cons, List.find?_append, find?_rules_of_kind, ih, List.find?_cons]
      cases (l.keyword k).all.any (·.toList = w) <;> rfl

/-- **Sorting the rules by length does not change what is looked up**: of the rules with a
spelling, the first one is for the first kind with that spelling. -/
theorem find?_keywordRules (l : Lexicon) (w : List Char) :
    l.keywordRules.find? (·.spelling = w) =
      (l.kindOf? w).map fun k => ⟨w, k.canonical.toList⟩ := by
  rw [keywordRules, KeywordRule.find?_sort, spellingRules, keywords, List.flatMap_map]
  exact find?_rules_of_kinds l TokenKind.all w

theorem exchangeRun_keywordRules (l : Lexicon) (w : List Char) :
    exchangeRun l.keywordRules w = l.canonicalRun w := by
  rw [exchangeRun, canonicalRun, find?_keywordRules, Option.map_map]
  rfl

/-- A spelling that is not blank has a character. -/
theorem toList_ne_nil_of_isBlank {s : String} (h : isBlank s = false) : s.toList ≠ [] := by
  rintro hnil
  simp [isBlank, hnil] at h

/-- The spellings of a checked lexicon are not empty. -/
theorem IsChecked.spelling_ne_nil (h : l.IsChecked) {q : KeywordRule} (hq : q ∈ l.keywordRules) :
    q.spelling ≠ [] := by
  obtain ⟨k, s, hs, rfl⟩ := mem_keywordRules.1 hq
  exact toList_ne_nil_of_isBlank (h.spellings k s hs)

/-- A checked lexicon has an index. -/
theorem IsChecked.keywordIndex_eq (h : l.IsChecked) :
    l.keywordIndex = .ok (.ofRules l.spellingRules) := by
  have hnone : l.keywords.find? (·.2.all.contains "") = none := by
    refine List.find?_eq_none.2 fun e he hempty => ?_
    obtain ⟨k, -, rfl⟩ := List.mem_map.1 he
    exact toList_ne_nil_of_isBlank (h.spellings k "" (List.contains_iff_mem.1 hempty)) rfl
  rw [keywordIndex, hnone]

/-- With the index, keywords are replaced as with all rules in one list. -/
theorem IsChecked.substitute_ofRules (h : l.IsChecked) :
    (KeywordIndex.ofRules l.spellingRules).substitute = substituteKeywords l.keywordRules :=
  KeywordIndex.substitute_ofRules fun _ hq => h.spelling_ne_nil (KeywordRule.mem_sort.2 hq)

/-- The stage for keywords can be made for a checked lexicon. -/
theorem IsChecked.stage_keywords (h : l.IsChecked) :
    Stage.keywords l =
      .ok ⟨StageName.keywords, fun s => s.mapCode (substituteKeywords l.keywordRules)⟩ := by
  rw [Stage.keywords, h.keywordIndex_eq, ← h.substitute_ofRules]
  rfl

section Closed

variable (h : ofResource r = .ok l)
  (hspellings : ∀ k, ∀ s ∈ (l.keyword k).all, ∀ c ∈ s.toList, isIdentifierChar c = true)

include h hspellings

theorem areRuns_keywordRules : AreRuns l.keywordRules := by
  intro q hq
  refine ⟨(isChecked_of_ofResource h).spelling_ne_nil hq, ?_⟩
  obtain ⟨k, s, hs, rfl⟩ := mem_keywordRules.1 hq
  exact hspellings k s hs

section Canonical

variable (hcanonical : ∀ k : TokenKind, ∀ w ∈ identifierRuns k.canonical.toList, l.kindOf? w = none)

include hcanonical

/-- No run of the outcome is a spelling, unless it comes with a canonical keyword. -/
theorem kindOf?_eq_none_of_mem_identifierRuns {text w : List Char}
    (hmem : w ∈ identifierRuns (substituteKeywords l.keywordRules text)) : l.kindOf? w = none := by
  rw [(areRuns_keywordRules h hspellings).identifierRuns_substituteKeywords] at hmem
  obtain ⟨v, hv, hw⟩ := List.mem_flatMap.1 hmem
  rw [exchangeRun_keywordRules, canonicalRun] at hw
  cases hkind : l.kindOf? v with
  | some k =>
      rw [hkind] at hw
      exact hcanonical k w hw
  | none =>
      rw [hkind, Option.map_none, Option.getD_none] at hw
      have hsingle : identifierRuns v = [v] :=
        List.splitBy_of_isChain (List.ne_nil_of_mem_splitBy hv) (List.isChain_of_mem_splitBy hv)
      rw [hsingle, List.mem_singleton] at hw
      exact hw ▸ hkind

/-- What stands alone in the outcome is no spelling. -/
theorem kindOf?_eq_none_of_isRun {text x w y : List Char} (hrun : IsRun x w y)
    (htext : substituteKeywords l.keywordRules text = x ++ w ++ y) : l.kindOf? w = none := by
  have hmem : w ∈ identifierRuns (substituteKeywords l.keywordRules text) := by
    rw [htext, hrun.identifierRuns_eq]
    exact List.mem_append_right _ List.mem_cons_self
  exact kindOf?_eq_none_of_mem_identifierRuns h hspellings hcanonical hmem

/-- **Without keywords a text stays as it is**, and only then. -/
theorem substituteKeywords_eq_self_iff (text : List Char) :
    substituteKeywords l.keywordRules text = text ↔
      ∀ w ∈ identifierRuns text, l.kindOf? w = none := by
  constructor
  · intro hsame w hw
    rw [← hsame] at hw
    exact kindOf?_eq_none_of_mem_identifierRuns h hspellings hcanonical hw
  · intro hnone
    have hkept : ∀ w ∈ identifierRuns text, exchangeRun l.keywordRules w = w := by
      intro w hw
      rw [exchangeRun_keywordRules, canonicalRun, hnone w hw]
      rfl
    calc substituteKeywords l.keywordRules text
        = (identifierRuns text).flatMap (exchangeRun l.keywordRules) :=
          (areRuns_keywordRules h hspellings).substituteKeywords_eq text
      _ = (identifierRuns text).flatten := by
          rw [List.flatMap_def, List.map_congr_left hkept, List.map_id']
      _ = text := flatten_identifierRuns text

/-- **Keywords are replaced once**: there are none in the outcome. -/
theorem substituteKeywords_twice (text : List Char) :
    substituteKeywords l.keywordRules (substituteKeywords l.keywordRules text) =
      substituteKeywords l.keywordRules text :=
  (substituteKeywords_eq_self_iff h hspellings hcanonical _).2 fun _ hw =>
    kindOf?_eq_none_of_mem_identifierRuns h hspellings hcanonical hw

end Canonical

/-- A spelling that stands alone in a text is a run. -/
theorem isRun_of_standsAlone {text : List Char} {s : Span} (halone : standsAlone text s = true)
    (hkind : l.kindOf? (slice text s.start s.stop) ≠ none) :
    IsRun (text.take s.start) (slice text s.start s.stop) (text.drop s.stop) := by
  obtain ⟨k, hk⟩ := Option.ne_none_iff_exists'.1 hkind
  obtain ⟨t, ht, hslice⟩ := exists_of_kindOf? hk
  obtain ⟨hleft, hright⟩ := Bool.and_eq_true_iff.1 halone
  refine ⟨?_, ?_, hleft, ?_⟩
  · rw [← hslice]
    exact toList_ne_nil_of_isBlank ((isChecked_of_ofResource h).spellings k t ht)
  · rw [← hslice]
    exact hspellings k t ht
  · rwa [List.head?_drop]

/-- **Keyword substitution in closed form.**  For a lexicon that spells keywords with identifier
characters only, the stage for keywords looks up each run of a text and puts canonical keywords in
the place of those that are spellings.  A run that is no spelling stays, whatever spellings it has
in it.  If canonical keywords bring no spelling along, none that stands alone is left. -/
theorem substituteKeywords_closed :
    Stage.keywords l =
      .ok ⟨StageName.keywords, fun s => s.mapCode (substituteKeywords l.keywordRules)⟩ ∧
    (∀ text, substituteKeywords l.keywordRules text =
      (identifierRuns text).flatMap l.canonicalRun) ∧
    (∀ x w y, IsRun x w y → l.kindOf? w = none →
      substituteKeywords l.keywordRules (x ++ w ++ y) =
        substituteKeywords l.keywordRules x ++ w ++ substituteKeywords l.keywordRules y) ∧
    ((∀ k : TokenKind, ∀ w ∈ identifierRuns k.canonical.toList, l.kindOf? w = none) →
      ∀ text, ∀ s : Span, s.Within 0 (substituteKeywords l.keywordRules text).length →
        standsAlone (substituteKeywords l.keywordRules text) s = true →
          l.kindOf? (slice (substituteKeywords l.keywordRules text) s.start s.stop) = none) := by
  have hclosed (text : List Char) : substituteKeywords l.keywordRules text =
      (identifierRuns text).flatMap l.canonicalRun := by
    rw [(areRuns_keywordRules h hspellings).substituteKeywords_eq,
      funext (exchangeRun_keywordRules l)]
  refine ⟨(isChecked_of_ofResource h).stage_keywords, hclosed, fun x w y hrun hkind => ?_,
    fun hcanonical text s hs halone => ?_⟩
  · have hkept : l.canonicalRun w = w := by rw [canonicalRun, hkind]; rfl
    rw [hclosed, hrun.identifierRuns_eq, List.flatMap_append, List.flatMap_cons, hkept, ← hclosed,
      ← hclosed, List.append_assoc]
  · by_contra hkind
    exact hkind (kindOf?_eq_none_of_isRun h hspellings hcanonical
      (isRun_of_standsAlone h hspellings halone hkind)
      (take_append_slice_append_drop _ hs.2.1).symm)

end Closed

/-- Chinese keywords are spelled with identifier characters. -/
theorem isIdentifierChar_of_mem_chinese :
    ∀ k, ∀ s ∈ (chinese.keyword k).all, ∀ c ∈ s.toList, isIdentifierChar c = true := by
  have hcheck : ∀ k, ((chinese.keyword k).all.all (·.toList.all isIdentifierChar)) = true := by
    intro k
    cases k <;> decide
  simpa only [List.all_eq_true] using hcheck

/-- No canonical keyword brings a Chinese one along. -/
theorem kindOf?_canonical_chinese :
    ∀ k : TokenKind, ∀ w ∈ identifierRuns k.canonical.toList, chinese.kindOf? w = none := by
  intro k
  cases k <;> decide

/-- In Chinese, `若` and `如果` are spellings of one kind, and `或` and `或者` of another one.  Where
they are part of a longer run they stay. -/
theorem substituteKeywords_closed_chinese :
    ofResource chinese.toResource = .ok chinese ∧
      (∀ k, ∀ s ∈ (chinese.keyword k).all, ∀ c ∈ s.toList, isIdentifierChar c = true) ∧
      (∀ k : TokenKind, ∀ w ∈ identifierRuns k.canonical.toList, chinese.kindOf? w = none) ∧
      substituteKeywords chinese.keywordRules "若何或者 如果,若 或者".toList =
        "若何或者 If,If or".toList ∧
      ∀ s : Span, s.Within 0 "若何或者 If,If or".toList.length →
        standsAlone "若何或者 If,If or".toList s = true →
          chinese.kindOf? (slice "若何或者 If,If or".toList s.start s.stop) = none := by
  have hresource := ofResource_toResource isChecked_chinese
  have hspellings := isIdentifierChar_of_mem_chinese
  have hcanonical := kindOf?_canonical_chinese
  obtain ⟨-, hclosed, -, hnone⟩ := substituteKeywords_closed hresource hspellings
  have htext : substituteKeywords chinese.keywordRules "若何或者 如果,若 或者".toList =
      "若何或者 If,If or".toList := by
    rw [hclosed]
    decide
  have hleft := hnone hcanonical "若何或者 如果,若 或者".toList
  rw [htext] at hleft
  exact ⟨hresource, hspellings, hcanonical, htext, hleft⟩

end Lexicon

end RuleCanon
