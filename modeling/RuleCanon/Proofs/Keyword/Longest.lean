import Mathlib.Data.List.MinMax
import RuleCanon.Proofs.Keyword.Runs

/-!
# The longest keyword at a place

Of the spellings that start at a place of a text and stand alone there the longest is replaced, and
of the kinds that are spelled like that the first one says what takes its place.  The index has no
need to try all spellings of all kinds, and it tries them in an order of its own.  But spellings
that start at one place are told apart by their length, so the longest one is what any search finds
that goes from longer spellings to shorter ones.

## Main Definitions

* `standsAt` — a word at a place of a text that nothing touches which is part of a name
* `Lexicon.longestAt?` — the longest of all spellings that stand at a place
* `Lexicon.replaceLongest` — the replacement that tries all spellings at each place

## Main Statements

* `Lexicon.keywordAt?_keywordRules` — the first rule that fits is for the longest spelling
* `Lexicon.substitute_eq_replaceLongest` — the index replaces the longest keywords
-/

namespace RuleCanon

variable {c : Char} {v w passed text : List Char}

/-! ## Words at a place -/

/-- Whether the word starts the text and stands alone there; `passed` is what lies before. -/
def standsAt (passed text w : List Char) : Bool :=
  w.isPrefixOf text && standsAlone (passed ++ text) ⟨passed.length, passed.length + w.length⟩

theorem standsAt_eq (passed text w : List Char) :
    standsAt passed text w = (w.isPrefixOf text && isWordBorder passed.getLast? &&
      isWordBorder (text.drop w.length).head?) := by
  have hbefore : charBefore? (passed ++ text) passed.length = passed.getLast? := by
    rw [charBefore?, List.take_left]
  have hafter : charAfter? (passed ++ text) (passed.length + w.length) =
      (text.drop w.length).head? := by
    rw [charAfter?, ← List.head?_drop, List.drop_length_add_append]
  rw [standsAt, standsAlone, hbefore, hafter, Bool.and_assoc]

theorem keywordAt?_eq_find? (rules : List KeywordRule) (passed text : List Char) :
    keywordAt? rules passed.getLast? text =
      rules.find? fun r => standsAt passed text r.spelling := by
  simp only [keywordAt?, standsAt_eq]

theorem isPrefix_of_standsAt (h : standsAt passed text w = true) : w <+: text :=
  List.isPrefixOf_iff_prefix.1 (Bool.and_eq_true_iff.1 h).1

/-- Spellings at one place are told apart by their length. -/
theorem eq_of_standsAt (hv : standsAt passed text v = true) (hw : standsAt passed text w = true)
    (hlength : v.length = w.length) : v = w :=
  (List.prefix_of_prefix_length_le (isPrefix_of_standsAt hv) (isPrefix_of_standsAt hw)
    (Nat.le_of_eq hlength)).eq_of_length hlength

namespace Lexicon

variable {l : Lexicon} {r : LexiconResource}

/-- The spellings of all kinds. -/
def spellings (l : Lexicon) : List (List Char) :=
  l.keywords.flatMap fun e => e.2.all.map (·.toList)

/-- The longest of all spellings that stand alone at a place. -/
def longestAt? (l : Lexicon) (passed text : List Char) : Option (List Char) :=
  (l.spellings.filter (standsAt passed text)).argmax List.length

/-- Replaces keywords in a text behind `passed`, where all spellings of all kinds are tried at each
place.  What takes the place of the longest one that stands there is the first kind that is spelled
like that. -/
def replaceLongest (l : Lexicon) (passed : List Char) : List Char → List Char
  | [] => []
  | c :: rest =>
    match l.longestAt? passed (c :: rest) with
    | some w => l.canonicalRun w ++ l.replaceLongest (passed ++ w) (rest.drop (w.length - 1))
    | none => c :: l.replaceLongest (passed ++ [c]) rest
termination_by text => text.length
decreasing_by
  · simp only [List.length_drop, List.length_cons]
    omega
  · simp

/-- The spellings are those of the kinds. -/
theorem mem_spellings_iff : w ∈ l.spellings ↔ l.kindOf? w ≠ none := by
  have hkind : l.kindOf? w ≠ none ↔ ∃ k, ∃ s ∈ (l.keyword k).all, s.toList = w := by
    rw [kindOf?, ne_eq, List.find?_eq_none, not_forall]
    simp [TokenKind.mem_all]
  rw [hkind, spellings, keywords, List.flatMap_map, List.mem_flatMap]
  simp [TokenKind.mem_all]

/-- **The longest spelling at a place** is the one that no other one there exceeds. -/
theorem longestAt?_eq_some_iff :
    l.longestAt? passed text = some w ↔ w ∈ l.spellings ∧ standsAt passed text w = true ∧
      ∀ v ∈ l.spellings, standsAt passed text v = true → v.length ≤ w.length := by
  constructor
  · intro h
    obtain ⟨hmem, hstands⟩ := List.mem_filter.1 (List.argmax_mem h)
    exact ⟨hmem, hstands, fun v hv hstands' =>
      List.le_of_mem_argmax (List.mem_filter.2 ⟨hv, hstands'⟩) h⟩
  · rintro ⟨hmem, hstands, hlongest⟩
    have hfound : w ∈ l.spellings.filter (standsAt passed text) :=
      List.mem_filter.2 ⟨hmem, hstands⟩
    have hne : l.longestAt? passed text ≠ none := fun hnone =>
      List.ne_nil_of_mem hfound (List.argmax_eq_none.1 hnone)
    obtain ⟨m, hm⟩ := Option.ne_none_iff_exists'.1 hne
    obtain ⟨hmem', hstands'⟩ := List.mem_filter.1 (List.argmax_mem hm)
    have hlength : m.length = w.length :=
      Nat.le_antisymm (hlongest m hmem' hstands') (List.le_of_mem_argmax hfound hm)
    rw [hm, eq_of_standsAt hstands' hstands hlength]

theorem longestAt?_eq_none_iff :
    l.longestAt? passed text = none ↔ ∀ v ∈ l.spellings, standsAt passed text v = false := by
  rw [longestAt?, List.argmax_eq_none, List.filter_eq_nil_iff]
  simp

/-! ## The replacement -/

open KeywordRule

/-- **The first rule that fits is for the longest spelling** at the place. -/
theorem keywordAt?_keywordRules (l : Lexicon) (passed text : List Char) :
    keywordAt? l.keywordRules passed.getLast? text =
      (l.longestAt? passed text).map fun w => ⟨w, l.canonicalRun w⟩ := by
  -- a spelling of the lexicon has a rule
  have hrule {v : List Char} (hv : v ∈ l.spellings) : ∃ q ∈ l.keywordRules, q.spelling = v := by
    obtain ⟨k, hk⟩ := Option.ne_none_iff_exists'.1 (mem_spellings_iff.1 hv)
    have hq := l.find?_keywordRules v
    rw [hk] at hq
    exact ⟨_, List.mem_of_find?_eq_some hq, rfl⟩
  cases hfound : keywordAt? l.keywordRules passed.getLast? text with
  | none =>
      have hnone : l.longestAt? passed text = none := by
        refine longestAt?_eq_none_iff.2 fun v hv => ?_
        obtain ⟨q, hq, rfl⟩ := hrule hv
        rw [keywordAt?_eq_find?] at hfound
        simpa using List.find?_eq_none.1 hfound q hq
      rw [hnone, Option.map_none]
  | some q =>
      have hfirst := (l.find?_keywordRules _).symm.trans (find?_of_keywordAt? hfound)
      obtain ⟨k, hk, hq⟩ := Option.map_eq_some_iff.1 hfirst
      rw [keywordAt?_eq_find?] at hfound
      have hstands : standsAt passed text q.spelling = true := by
        simpa using List.find?_some hfound
      have hlongest : l.longestAt? passed text = some q.spelling := by
        refine longestAt?_eq_some_iff.2 ⟨mem_spellings_iff.2 ?_, hstands, fun v hv hv' => ?_⟩
        · rw [hk]
          exact Option.some_ne_none k
        · obtain ⟨p, hp, rfl⟩ := hrule hv
          exact (sorted_sort l.spellingRules).length_le_of_find? hfound hp hv'
      have hcanonical : l.canonicalRun q.spelling = k.canonical.toList := by
        rw [canonicalRun, hk]
        rfl
      rw [hlongest, Option.map_some, hcanonical, hq]

/-- All rules in one list replace the longest keywords, place by place. -/
theorem substituteAfter_keywordRules (l : Lexicon) (passed text : List Char) :
    substituteAfter l.keywordRules passed.getLast? text = l.replaceLongest passed text := by
  fun_induction replaceLongest l passed text with
  | case1 => rw [substituteAfter]
  | case2 passed c rest w hlongest ih =>
      rw [substituteAfter, keywordAt?_keywordRules, hlongest, Option.map_some]
      rw [List.getLast?_append] at ih
      simp only [ih]
  | case3 passed c rest hnone ih =>
      rw [substituteAfter, keywordAt?_keywordRules, hnone, Option.map_none]
      rw [List.getLast?_concat] at ih
      simp only [ih]

/-- **The index replaces the longest keywords.**  For a lexicon that is made from a resource the
stage for keywords can be made.  With the index it goes through a text once, and at each place it
replaces the longest of all spellings of all kinds that stand alone there. -/
theorem substitute_eq_replaceLongest (h : ofResource r = .ok l) :
    ∃ index, l.keywordIndex = .ok index ∧
      Stage.keywords l = .ok ⟨StageName.keywords, fun s => s.mapCode index.substitute⟩ ∧
      ∀ text, index.substitute text = l.replaceLongest [] text := by
  have hchecked := isChecked_of_ofResource h
  refine ⟨_, hchecked.keywordIndex_eq, ?_, fun text => ?_⟩
  · rw [hchecked.stage_keywords, hchecked.substitute_ofRules]
  · rw [hchecked.substitute_ofRules]
    exact l.substituteAfter_keywordRules [] text

/-- Chinese, but with spellings of which one starts another one and one is shared. -/
def overlapping : Lexicon :=
  { chinese with
    keyword := fun
      | .ifBranch => ⟨"if so", ["if"]⟩
      | .otherwise => ⟨"if so, ", ["if"]⟩
      | k => chinese.keyword k }

/-- `if so, ` is longest, but a letter touches it; a letter touches the second `if so` as well. -/
theorem substitute_eq_replaceLongest_overlapping :
    ofResource overlapping.toResource = .ok overlapping ∧
      ∃ index, overlapping.keywordIndex = .ok index ∧
        index.substitute "if so, if sox if".toList = "If, If sox If".toList := by
  have hchecked : overlapping.IsChecked :=
    ⟨by decide, fun k => by cases k <;> decide, fun role => by cases role <;> decide⟩
  have hresource := ofResource_toResource hchecked
  obtain ⟨index, hindex, -, hsubstitute⟩ := substitute_eq_replaceLongest hresource
  refine ⟨hresource, index, hindex, ?_⟩
  rw [hsubstitute]
  decide +kernel

end Lexicon

end RuleCanon
