import Mathlib.Data.List.Find
import RuleCanon.Keyword.Substitution

/-!
# Keywords and the borders of words

The search for keywords goes through a text character by character, with rules sorted by length
and a look at the characters on both sides.  None of that matters at a character that no name can
have: the text may be cut there and each part searched by itself.  What is left are runs of
identifier characters, and in such a run a keyword stands alone only if it is the whole run.

## Main Definitions

* `KeywordRule.Avoids` — rules whose spellings do not have a character

## Main Statements

* `substituteAfter_append_cons` — a text is searched in parts
* `substituteKeywords_of_run` — in a run the whole run is looked up
-/

namespace RuleCanon

variable {rules : List KeywordRule} {previous other : Option Char} {b c : Char} {t u w : List Char}

/-- The spelling of the rule is not empty and does not have the character. -/
def KeywordRule.Avoids (b : Char) (r : KeywordRule) : Prop := r.spelling ≠ [] ∧ b ∉ r.spelling

/-! ## Where a spelling stands -/

/-- A rule that is found is one of the rules, and its spelling starts the text. -/
theorem exists_of_keywordAt? {r : KeywordRule} (h : keywordAt? rules previous t = some r) :
    r ∈ rules ∧ ∃ tail, t = r.spelling ++ tail := by
  have hfound := List.find?_some h
  simp only [Bool.and_eq_true] at hfound
  obtain ⟨tail, htail⟩ := List.isPrefixOf_iff_prefix.1 hfound.1.1
  exact ⟨List.mem_of_find?_eq_some h, tail, htail.symm⟩

/-- What is left behind a spelling that starts a text. -/
theorem drop_pred_of_eq_append (hw : w ≠ []) (h : c :: t = w ++ u) : t.drop (w.length - 1) = u := by
  obtain ⟨a, w, rfl⟩ := List.exists_cons_of_ne_nil hw
  rw [List.cons_append] at h
  rw [(List.cons.inj h).2, List.length_cons, Nat.add_sub_cancel, List.drop_left]

/-! ## Cutting a text -/

/-- All that matters of the character before a place is whether it is part of a name. -/
theorem keywordAt?_congr (h : isWordBorder previous = isWordBorder other) (t : List Char) :
    keywordAt? rules previous t = keywordAt? rules other t := by
  rw [keywordAt?, keywordAt?, h]

theorem substituteAfter_congr (h : isWordBorder previous = isWordBorder other) (t : List Char) :
    substituteAfter rules previous t = substituteAfter rules other t := by
  fun_induction substituteAfter rules previous t generalizing other with
  | case1 => rw [substituteAfter]
  | case2 previous c rest r hkeyword ih =>
      have hother : keywordAt? rules other (c :: rest) = some r := keywordAt?_congr h _ ▸ hkeyword
      have hborder : isWordBorder (r.spelling.getLast?.or previous) =
          isWordBorder (r.spelling.getLast?.or other) := by
        cases r.spelling.getLast? with
        | none => exact h
        | some a => rfl
      rw [substituteAfter, hother]
      simp only [ih hborder]
  | case3 previous c rest hnone ih =>
      have hother : keywordAt? rules other (c :: rest) = none := keywordAt?_congr h _ ▸ hnone
      rw [substituteAfter, hother]

/-- A spelling without the character starts a text that goes on with it if it starts the text. -/
theorem isPrefixOf_append_cons {s : List Char} (hb : b ∉ s) (t u : List Char) :
    s.isPrefixOf (t ++ b :: u) = s.isPrefixOf t := by
  induction s generalizing t with
  | nil => simp
  | cons a s ih =>
      rw [List.mem_cons, not_or] at hb
      cases t with
      | nil =>
          rw [List.nil_append, List.isPrefixOf_cons_cons, beq_false_of_ne (Ne.symm hb.1)]
          rfl
      | cons d t =>
          rw [List.cons_append, List.isPrefixOf_cons_cons, List.isPrefixOf_cons_cons, ih hb.2]

/-- A keyword is found in front of a character that is no part of a name, as at the end. -/
theorem keywordAt?_append_cons (hrules : ∀ r ∈ rules, r.Avoids b)
    (hb : isIdentifierChar b = false) (previous : Option Char) (t u : List Char) :
    keywordAt? rules previous (t ++ b :: u) = keywordAt? rules previous t := by
  refine List.find?_congr fun r hr => ?_
  rw [isPrefixOf_append_cons (hrules r hr).2]
  by_cases hstarts : r.spelling.isPrefixOf t = true
  · have hle := (List.isPrefixOf_iff_prefix.1 hstarts).length_le
    rw [List.drop_append_of_le_length hle]
    cases t.drop r.spelling.length with
    | nil => simp [isWordBorder, hb]
    | cons a t => rfl
  · simp [hstarts]

/-- **A text is searched in parts**, which a character cuts that is no part of a name. -/
theorem substituteAfter_append_cons (hrules : ∀ r ∈ rules, r.Avoids b)
    (hb : isIdentifierChar b = false) (previous : Option Char) (t u : List Char) :
    substituteAfter rules previous (t ++ b :: u) =
      substituteAfter rules previous t ++ b :: substituteKeywords rules u := by
  have hborder : isWordBorder (some b) = isWordBorder none := by simp [isWordBorder, hb]
  have hfirst : substituteAfter rules (some b) u = substituteAfter rules none u :=
    substituteAfter_congr hborder u
  fun_induction substituteAfter rules previous t with
  | case1 previous =>
      have hnone : keywordAt? rules previous (b :: u) = none := by
        have hcut := keywordAt?_append_cons hrules hb previous [] u
        rw [List.nil_append] at hcut
        rw [hcut]
        exact List.find?_eq_none.2 fun r hr => by simp [(hrules r hr).1]
      rw [List.nil_append, List.nil_append, substituteAfter, hnone, substituteKeywords]
      simp only [hfirst]
  | case2 previous c rest r hkeyword ih =>
      have hlong : keywordAt? rules previous (c :: rest ++ b :: u) = some r :=
        (keywordAt?_append_cons hrules hb previous _ u).trans hkeyword
      have hstarts : r.spelling <+: c :: rest := by
        have hfound := List.find?_some hkeyword
        simp only [Bool.and_eq_true] at hfound
        exact List.isPrefixOf_iff_prefix.1 hfound.1.1
      have hle : r.spelling.length - 1 ≤ rest.length := by
        have hlength := hstarts.length_le
        rw [List.length_cons] at hlength
        omega
      rw [List.cons_append] at hlong ⊢
      rw [substituteAfter, hlong]
      simp only [List.drop_append_of_le_length hle, ih, List.append_assoc]
  | case3 previous c rest hnone ih =>
      have hlong : keywordAt? rules previous (c :: rest ++ b :: u) = none :=
        (keywordAt?_append_cons hrules hb previous _ u).trans hnone
      rw [List.cons_append] at hlong ⊢
      rw [substituteAfter, hlong]
      simp only [ih, List.cons_append]

/-- **Two texts joined by such a character** are searched one by one. -/
theorem substituteKeywords_append_cons (hrules : ∀ r ∈ rules, r.Avoids b)
    (hb : isIdentifierChar b = false) (t u : List Char) :
    substituteKeywords rules (t ++ b :: u) =
      substituteKeywords rules t ++ b :: substituteKeywords rules u :=
  substituteAfter_append_cons hrules hb none t u

/-! ## Runs of identifier characters -/

/-- Nothing is found behind a character that is part of a name. -/
theorem keywordAt?_of_identifierChar (hc : isIdentifierChar c = true) (t : List Char) :
    keywordAt? rules (some c) t = none := by
  refine List.find?_eq_none.2 fun r _ => ?_
  simp [isWordBorder, hc]

/-- So the rest of a run stays. -/
theorem substituteAfter_of_run (hc : isIdentifierChar c = true)
    (hw : ∀ a ∈ w, isIdentifierChar a = true) : substituteAfter rules (some c) w = w := by
  induction w generalizing c with
  | nil => rw [substituteAfter]
  | cons a w ih =>
      rw [substituteAfter, keywordAt?_of_identifierChar hc]
      simp only [ih (hw a List.mem_cons_self) fun d hd => hw d (List.mem_cons_of_mem a hd)]

/-- In a run a keyword stands alone only if it is the whole run. -/
theorem keywordAt?_of_run (hw : ∀ a ∈ w, isIdentifierChar a = true) :
    keywordAt? rules none w = rules.find? (·.spelling = w) := by
  refine List.find?_congr fun r _ => ?_
  have hborder : isWordBorder none = true := rfl
  rw [Bool.eq_iff_iff, decide_eq_true_eq, hborder, Bool.and_true, Bool.and_eq_true,
    List.isPrefixOf_iff_prefix]
  constructor
  · rintro ⟨⟨rest, rfl⟩, hend⟩
    rw [List.drop_left] at hend
    cases rest with
    | nil => rw [List.append_nil]
    | cons a rest =>
        -- a run goes on with a character that is part of a name
        simp [isWordBorder, hw a (by simp)] at hend
  · rintro rfl
    simp [isWordBorder]

/-- **In a run the whole run is looked up.** -/
theorem substituteKeywords_of_run (hw : ∀ a ∈ w, isIdentifierChar a = true)
    (hrules : ∀ r ∈ rules, r.spelling ≠ []) :
    substituteKeywords rules w = ((rules.find? (·.spelling = w)).map (·.canonical)).getD w := by
  cases w with
  | nil =>
      have hnone : rules.find? (·.spelling = []) = none :=
        List.find?_eq_none.2 fun r hr => by simp [hrules r hr]
      rw [hnone, substituteKeywords, substituteAfter]
      rfl
  | cons c w =>
      rw [substituteKeywords, substituteAfter, keywordAt?_of_run hw]
      cases hfind : rules.find? (·.spelling = c :: w) with
      | none =>
          simp only [substituteAfter_of_run (hw c List.mem_cons_self) fun a ha =>
            hw a (List.mem_cons_of_mem c ha)]
          rfl
      | some r =>
          have hspelling : r.spelling = c :: w := by simpa using List.find?_some hfind
          simp [hspelling, substituteAfter]

end RuleCanon
