import RuleCanon.Proofs.Keyword.Border

/-!
# The index of keywords

The index files the rules by the first character of their spelling, each spelling once.  At a
place of a text the rules of one file are tried, and they are all that could fit.  Sorted rules are
tried from the longest spelling down, and spellings that start at one place are told apart by their
length.  So two sorted lists find the same rule if for each spelling they have the same first rule,
and it makes no difference that the rules are split up and that some are left out.

## Main Definitions

* `KeywordRule.Sorted` — rules in the order in which they are tried

## Main Statements

* `KeywordRule.Sorted.keywordAt?_eq` — what is found at a place depends on the first rule for
  each spelling
* `KeywordIndex.substitute_ofRules` — the index replaces what all rules in one list replace
-/

namespace RuleCanon

variable {c : Char} {w text : List Char} {previous : Option Char}

/-! ## Sorted rules -/

namespace KeywordRule

/-- Longer spellings come first. -/
def Sorted (rules : List KeywordRule) : Prop :=
  rules.Pairwise fun q r => r.spelling.length ≤ q.spelling.length

variable {q r : KeywordRule} {rules : List KeywordRule}

theorem mem_insert : q ∈ r.insert rules ↔ q = r ∨ q ∈ rules := by
  induction rules with
  | nil => simp [insert]
  | cons p rules ih =>
      rw [insert]
      split
      · rw [List.mem_cons]
      · rw [List.mem_cons, ih, List.mem_cons, or_left_comm]

theorem sorted_insert (h : Sorted rules) : Sorted (r.insert rules) := by
  induction rules with
  | nil => exact List.pairwise_singleton _ r
  | cons p rules ih =>
      obtain ⟨hp, hrules⟩ := List.pairwise_cons.1 h
      rw [insert]
      split
      · next hlt =>
        refine List.pairwise_cons.2 ⟨fun q hq => ?_, h⟩
        rcases List.mem_cons.1 hq with rfl | hq
        · omega
        · have := hp q hq
          omega
      · next hle =>
        refine List.pairwise_cons.2 ⟨fun q hq => ?_, ih hrules⟩
        rcases mem_insert.1 hq with rfl | hq
        · omega
        · exact hp q hq

/-- A rule comes behind all rules with its spelling. -/
theorem find?_insert (h : Sorted rules) (w : List Char) :
    (r.insert rules).find? (·.spelling = w) =
      (rules.find? (·.spelling = w)).or ([r].find? (·.spelling = w)) := by
  induction rules with
  | nil => rfl
  | cons p rules ih =>
      obtain ⟨hp, hrules⟩ := List.pairwise_cons.1 h
      rw [insert]
      split
      · next hlt =>
        by_cases hr : r.spelling = w
        · -- all other rules have shorter spellings
          have hnone : (p :: rules).find? (·.spelling = w) = none := by
            refine List.find?_eq_none.2 fun q hq => ?_
            have hle : q.spelling.length ≤ p.spelling.length := by
              rcases List.mem_cons.1 hq with rfl | hq
              · exact Nat.le_refl _
              · exact hp q hq
            rw [decide_eq_true_eq, ← hr]
            rintro heq
            rw [heq] at hle
            omega
          rw [hnone, Option.none_or, List.find?_cons_of_pos (by simpa using hr),
            List.find?_cons_of_pos (by simpa using hr)]
        · have hnone : [r].find? (·.spelling = w) = none := by simpa using hr
          rw [hnone, Option.or_none, List.find?_cons_of_neg (by simpa using hr)]
      · by_cases hq : p.spelling = w
        · rw [List.find?_cons_of_pos (by simpa using hq),
            List.find?_cons_of_pos (by simpa using hq), Option.some_or]
        · rw [List.find?_cons_of_neg (by simpa using hq),
            List.find?_cons_of_neg (by simpa using hq), ih hrules]

/-- Sorting rules into others keeps both in their order, spelling by spelling. -/
theorem find?_foldl_insert (h : Sorted rules) (more : List KeywordRule) (w : List Char) :
    (more.foldl (fun rules r => r.insert rules) rules).find? (·.spelling = w) =
      (rules.find? (·.spelling = w)).or (more.find? (·.spelling = w)) := by
  induction more generalizing rules with
  | nil => rw [List.foldl_nil, List.find?_nil, Option.or_none]
  | cons r more ih =>
      rw [List.foldl_cons, ih (sorted_insert h), find?_insert h, Option.or_assoc,
        ← List.find?_append, List.singleton_append]

theorem mem_foldl_insert {more : List KeywordRule} :
    q ∈ more.foldl (fun rules r => r.insert rules) rules ↔ q ∈ rules ∨ q ∈ more := by
  induction more generalizing rules with
  | nil => simp
  | cons r more ih =>
      rw [List.foldl_cons, ih, mem_insert, List.mem_cons, or_assoc, or_left_comm]

theorem sorted_foldl_insert (h : Sorted rules) (more : List KeywordRule) :
    Sorted (more.foldl (fun rules r => r.insert rules) rules) := by
  induction more generalizing rules with
  | nil => exact h
  | cons r more ih => exact ih (sorted_insert h)

theorem sorted_sort (rules : List KeywordRule) : Sorted (sort rules) :=
  sorted_foldl_insert List.Pairwise.nil rules

theorem find?_sort (rules : List KeywordRule) (w : List Char) :
    (sort rules).find? (·.spelling = w) = rules.find? (·.spelling = w) := by
  rw [sort, find?_foldl_insert List.Pairwise.nil, List.find?_nil, Option.none_or]

theorem mem_sort : q ∈ sort rules ↔ q ∈ rules := by
  rw [sort, mem_foldl_insert]
  simp

/-! ## The first rule that fits -/

/-- What is found first among sorted rules is longest. -/
theorem Sorted.length_le_of_find? {P : KeywordRule → Bool} (h : Sorted rules)
    (hr : rules.find? P = some r) (hq : q ∈ rules) (hP : P q = true) :
    q.spelling.length ≤ r.spelling.length := by
  obtain ⟨-, front, back, rfl, hfront⟩ := List.find?_eq_some_iff_append.1 hr
  rcases List.mem_append.1 hq with hq | hq
  · exact absurd hP (by simpa using hfront q hq)
  · rcases List.mem_cons.1 hq with rfl | hq
    · exact Nat.le_refl _
    · exact (List.pairwise_cons.1 (List.pairwise_append.1 h).2.1).1 q hq

/-- What is found at a place is the first rule that is spelled like that. -/
theorem find?_of_keywordAt? (hr : keywordAt? rules previous text = some r) :
    rules.find? (·.spelling = r.spelling) = some r := by
  obtain ⟨hfits, front, back, rfl, hfront⟩ := List.find?_eq_some_iff_append.1 hr
  refine List.find?_eq_some_iff_append.2 ⟨by simp, front, back, rfl, fun q hq => ?_⟩
  have hother := hfront q hq
  rw [Bool.not_eq_true', decide_eq_false_iff_not]
  intro heq
  rw [heq, hfits] at hother
  contradiction

/-- A list with the same first rule for a spelling has a rule with that spelling. -/
theorem exists_of_find?_eq {more : List KeywordRule}
    (h : rules.find? (·.spelling = r.spelling) = more.find? (·.spelling = r.spelling))
    (hr : r ∈ rules) : ∃ q ∈ more, q.spelling = r.spelling := by
  have hne : rules.find? (·.spelling = r.spelling) ≠ none := fun hnone =>
    List.find?_eq_none.1 hnone r hr (by simp)
  obtain ⟨q, hq⟩ := Option.ne_none_iff_exists'.1 (h ▸ hne)
  exact ⟨q, List.mem_of_find?_eq_some hq, by simpa using List.find?_some hq⟩

/-- A rule found at a place is found in other sorted rules too, if for each spelling that starts
there they have the same first rule. -/
theorem Sorted.keywordAt?_eq_some {more : List KeywordRule} (hrules : Sorted rules)
    (hmore : Sorted more) (hfirst : ∀ w, w <+: text →
      rules.find? (·.spelling = w) = more.find? (·.spelling = w))
    (hr : keywordAt? rules previous text = some r) : keywordAt? more previous text = some r := by
  obtain ⟨hmem, tail, htail⟩ := exists_of_keywordAt? hr
  have hstarts : r.spelling <+: text := ⟨tail, htail.symm⟩
  -- something is found, and it is no shorter
  obtain ⟨p, hp, hspelling⟩ := exists_of_find?_eq (hfirst _ hstarts) hmem
  have hfits := List.find?_some hr
  rw [← hspelling] at hfits
  have hne : keywordAt? more previous text ≠ none := fun hnone =>
    List.find?_eq_none.1 hnone p hp hfits
  obtain ⟨q, hq⟩ := Option.ne_none_iff_exists'.1 hne
  have hle : r.spelling.length ≤ q.spelling.length :=
    hspelling ▸ hmore.length_le_of_find? hq hp hfits
  -- nor is it longer
  obtain ⟨hmem', tail', htail'⟩ := exists_of_keywordAt? hq
  have hstarts' : q.spelling <+: text := ⟨tail', htail'.symm⟩
  obtain ⟨p', hp', hspelling'⟩ := exists_of_find?_eq (hfirst _ hstarts').symm hmem'
  have hfits' := List.find?_some hq
  rw [← hspelling'] at hfits'
  have hge : q.spelling.length ≤ r.spelling.length :=
    hspelling' ▸ hrules.length_le_of_find? hr hp' hfits'
  -- so both are the first rules for one spelling
  have heq : q.spelling = r.spelling :=
    (List.prefix_of_prefix_length_le hstarts' hstarts hge).eq_of_length
      (Nat.le_antisymm hge hle)
  have hfound := find?_of_keywordAt? hq
  rw [heq, ← hfirst _ hstarts, find?_of_keywordAt? hr] at hfound
  rw [hq, hfound]

/-- **What is found at a place** in sorted rules depends on the first rule for each spelling that
starts there. -/
theorem Sorted.keywordAt?_eq {more : List KeywordRule} (hrules : Sorted rules)
    (hmore : Sorted more) (hfirst : ∀ w, w <+: text →
      rules.find? (·.spelling = w) = more.find? (·.spelling = w)) (previous : Option Char) :
    keywordAt? rules previous text = keywordAt? more previous text :=
  Option.ext fun _ => ⟨hrules.keywordAt?_eq_some hmore hfirst,
    hmore.keywordAt?_eq_some hrules fun w hw => (hfirst w hw).symm⟩

/-- Leaving out spellings that came before does not change which rule is the first for one. -/
theorem find?_firstToEach {seen : List (List Char)} (hw : w ∉ seen) :
    (firstToEach (·.spelling) seen rules).find? (·.spelling = w) =
      rules.find? (·.spelling = w) := by
  induction rules generalizing seen with
  | nil => rfl
  | cons r rules ih =>
      rw [firstToEach]
      split
      · next hseen =>
        have hne : r.spelling ≠ w := fun heq =>
          hw (heq ▸ List.contains_iff_mem.1 hseen)
        rw [ih hw, List.find?_cons_of_neg (by simpa using hne)]
      · by_cases heq : r.spelling = w
        · rw [List.find?_cons_of_pos (by simpa using heq),
            List.find?_cons_of_pos (by simpa using heq)]
        · have hw' : w ∉ r.spelling :: seen := by
            rw [List.mem_cons, not_or]
            exact ⟨fun h => heq h.symm, hw⟩
          rw [List.find?_cons_of_neg (by simpa using heq),
            List.find?_cons_of_neg (by simpa using heq), ih hw']

end KeywordRule

/-! ## The files of an index -/

namespace KeywordIndex

open KeywordRule

variable {q : KeywordRule} {rules : List KeywordRule}

theorem sorted_rulesFor (rules : List KeywordRule) (c : Char) :
    Sorted ((ofRules rules).rulesFor c) :=
  sorted_sort _

theorem mem_of_mem_rulesFor (h : q ∈ (ofRules rules).rulesFor c) : q ∈ rules :=
  mem_of_mem_firstToEach (List.mem_filter.1 (mem_sort.1 h)).1

/-- The first rule for a spelling is in the file for its first character. -/
theorem find?_rulesFor (rules : List KeywordRule) (hw : w.head? = some c) :
    ((ofRules rules).rulesFor c).find? (·.spelling = w) = rules.find? (·.spelling = w) := by
  have hfilter (rules : List KeywordRule) :
      (rules.filter (·.spelling.head? = some c)).find? (·.spelling = w) =
        rules.find? (·.spelling = w) := by
    rw [List.find?_filter]
    refine List.find?_congr fun r _ => ?_
    by_cases heq : r.spelling = w <;> simp [heq, hw]
  rw [ofRules, find?_sort, hfilter, find?_firstToEach List.not_mem_nil]

/-- At a place the rules of one file find what all rules find. -/
theorem keywordAt?_rulesFor (hrules : ∀ r ∈ rules, r.spelling ≠ []) (previous : Option Char)
    (c : Char) (text : List Char) :
    keywordAt? ((ofRules rules).rulesFor c) previous (c :: text) =
      keywordAt? (sort rules) previous (c :: text) := by
  refine (sorted_rulesFor rules c).keywordAt?_eq (sorted_sort rules) (fun w hw => ?_) previous
  rw [find?_sort]
  cases w with
  | nil =>
      have hnone {rules : List KeywordRule} (h : ∀ r ∈ rules, r.spelling ≠ []) :
          rules.find? (·.spelling = []) = none :=
        List.find?_eq_none.2 fun r hr => by simpa using h r hr
      rw [hnone hrules, hnone fun r hr => hrules r (mem_of_mem_rulesFor hr)]
  | cons a w =>
      obtain ⟨rfl, -⟩ := List.cons_prefix_cons.1 hw
      exact find?_rulesFor rules rfl

theorem substituteAfter_ofRules (hrules : ∀ r ∈ rules, r.spelling ≠ [])
    (previous : Option Char) (text : List Char) :
    (ofRules rules).substituteAfter previous text =
      RuleCanon.substituteAfter (sort rules) previous text := by
  fun_induction substituteAfter (ofRules rules) previous text with
  | case1 => rw [RuleCanon.substituteAfter]
  | case2 previous c rest r hkeyword ih =>
      rw [keywordAt?_rulesFor hrules] at hkeyword
      rw [RuleCanon.substituteAfter, hkeyword, ih]
  | case3 previous c rest hnone ih =>
      rw [keywordAt?_rulesFor hrules] at hnone
      rw [RuleCanon.substituteAfter, hnone, ih]

/-- **The index replaces what all rules in one list replace.** -/
theorem substitute_ofRules (hrules : ∀ r ∈ rules, r.spelling ≠ []) :
    (ofRules rules).substitute = substituteKeywords (sort rules) :=
  funext fun text => substituteAfter_ofRules hrules none text

end KeywordIndex

end RuleCanon
