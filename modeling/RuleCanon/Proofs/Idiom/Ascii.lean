import RuleCanon.Proofs.Idiom.Binding

/-!
# Idioms in code of ASCII characters

Each idiom has a character that is not ASCII, the heading of a rule apart: its word can also be
the canonical one, and its parentheses can be those of other code.  So code of ASCII characters
stays as it is, if no line opens with such a heading.  What literals hold does not matter, since
a match that touches one is not used.

## Main Definitions

* `IsAscii` — texts of ASCII characters
* `Pattern.needs` — a certificate that each word of a pattern has a character of some kind
* `OpensHeading` — lines that open with a canonical heading of a rule and its parameters

## Main Statements

* `replaceOutside_eq_self_of_needs` — where a pattern needs another character
* `canonicalizeHeadings_eq_self` — where no line opens with a heading
-/

namespace RuleCanon

open Lexicon Pattern Segmenter

variable {t u v w x y line text : List Char} {c : Char} {P : Char → Bool}

/-! ## Characters that a pattern needs -/

namespace Pattern

/-- Whether each word of the pattern has a character with a property, as far as this can be told
from the characters that the pattern lists. -/
def needs (P : Char → Bool) : Pattern → Bool
  | one (.oneOf chars) => chars.all P
  | seq p q => p.needs P || q.needs P
  | alt p q => p.needs P && q.needs P
  | group _ p => p.needs P
  | distinct p => p.needs P
  | _ => false

/-- **Each word has a character that its pattern needs.** -/
theorem exists_mem_of_needs {p : Pattern} (hneeds : p.needs P = true) {previous : Option Char}
    (h : p.Spells previous w) : ∃ c ∈ w, P c = true := by
  induction p generalizing previous w with
  | one set =>
      obtain ⟨c, hc, rfl⟩ := h
      cases set with
      | oneOf chars =>
          have hmem : c ∈ chars := by simpa [CharSet.mem] using hc
          exact ⟨c, List.mem_singleton_self c, List.all_eq_true.1 hneeds c hmem⟩
      | _ => simp [needs] at hneeds
  | seq p q ihp ihq =>
      obtain ⟨u, v, rfl, hu, hv⟩ := h
      rcases Bool.or_eq_true_iff.1 hneeds with hneeds | hneeds
      · obtain ⟨c, hc, hP⟩ := ihp hneeds hu
        exact ⟨c, List.mem_append_left v hc, hP⟩
      · obtain ⟨c, hc, hP⟩ := ihq hneeds hv
        exact ⟨c, List.mem_append_right u hc, hP⟩
  | alt p q ihp ihq =>
      obtain ⟨hp, hq⟩ := Bool.and_eq_true_iff.1 hneeds
      rcases h with h | h
      · exact ihp hp h
      · exact ihq hq h
  | group number p ih => exact ih hneeds h
  | distinct p ih => exact ih hneeds h
  | _ => simp [needs] at hneeds

end Pattern

/-! ## Code of ASCII characters -/

/-- Texts of ASCII characters. -/
def IsAscii (t : List Char) : Prop := ∀ c ∈ t, c.toNat < 128

/-- Texts whose code is of ASCII characters, with the literals that Chinese has. -/
def HasAsciiCode (text : List Char) : Prop :=
  ∀ t, .code t ∈ chinese.segmenter.segments text → IsAscii t

/-- Whether a character is not ASCII. -/
def isBeyondAscii (c : Char) : Bool := 128 ≤ c.toNat

theorem isBeyondAscii_eq_false (ht : IsAscii t) (hc : c ∈ t) : isBeyondAscii c = false := by
  simpa [isBeyondAscii] using ht c hc

/-- So is any part of a stretch of such code. -/
theorem HasAsciiCode.isAscii_of_code_eq (h : HasAsciiCode text) {r : Stretch}
    (hr : r ∈ chinese.segmenter.stretches text) (hsplit : r.code = u ++ (w ++ v)) : IsAscii w := by
  intro c hc
  refine h r.code (code_mem_of_mem_stretchesIn hr) c ?_
  rw [hsplit]
  exact List.mem_append_right u (List.mem_append_left v hc)

section Code

variable (h : HasAsciiCode text)

include h

/-- **Code of ASCII characters stays as it is** if a pattern needs another character. -/
theorem replaceOutside_eq_self_of_needs {p : Pattern} {f : List Char → Captures → List Char}
    (hneeds : p.needs isBeyondAscii = true) (hsealed : p.IsSealed chinese.segmenter.marks)
    (hf : chinese.segmenter.IsTame f) :
    chinese.segmenter.replaceOutside p.matcher f text = text := by
  refine replaceOutside_eq_self hsealed hf fun r hr u w v hsplit _ hspells => ?_
  obtain ⟨c, hc, hbeyond⟩ := Pattern.exists_mem_of_needs hneeds hspells
  have hascii := h.isAscii_of_code_eq hr hsplit
  rw [isBeyondAscii_eq_false hascii hc] at hbeyond
  contradiction

theorem canonicalizePossessive_eq_self : canonicalizePossessive chinese.segmenter text = text :=
  replaceOutside_eq_self_of_needs h (by decide) isSealed_possessivePattern
    isTame_possessiveReplacement

theorem canonicalizeComparisons_eq_self : canonicalizeComparisons chinese.segmenter text = text :=
  replaceOutside_eq_self_of_needs h (by decide) isSealed_comparisonPattern
    isTame_comparisonReplacement

theorem canonicalizeThen_eq_self : canonicalizeThen chinese.segmenter text = text :=
  replaceOutside_eq_self_of_needs h (by decide) isSealed_thenPattern isTame_thenReplacement

theorem canonicalizeBindings_eq_self (hword : chinese.segmenter.IsPlain t) :
    canonicalizeBindings t chinese.segmenter text = text :=
  replaceOutside_eq_self_of_needs h (by decide) isSealed_bindingPattern
    (isTame_bindingReplacement hword)

theorem canonicalizeOperators_eq_self (hword : chinese.segmenter.IsPlain t) :
    canonicalizeOperators t chinese.segmenter text = text := by
  rw [canonicalizeOperators, canonicalizeComparisons_eq_self h, canonicalizeThen_eq_self h,
    canonicalizeBindings_eq_self h hword]

theorem canonicalizeAssignments_eq_self : canonicalizeAssignments chinese.segmenter text = text :=
  replaceOutside_eq_self_of_needs h (by decide) isSealed_assignmentPattern
    isTame_assignmentReplacement

theorem canonicalizeResults_eq_self : canonicalizeResults chinese.segmenter text = text :=
  replaceOutside_eq_self_of_needs h (by decide) isSealed_resultPattern isTame_resultReplacement

theorem canonicalizePunctuation_eq_self :
    canonicalizePunctuation chinese.segmenter text = text := by
  refine mapCode_eq_self fun t ht => ?_
  refine (List.map_congr_left fun c hc => ?_).trans t.map_id
  have hne {a : Char} (ha : isBeyondAscii a = true) : c ≠ a := by
    rintro rfl
    rw [isBeyondAscii_eq_false (h t ht) hc] at ha
    contradiction
  rw [canonicalMark, if_neg (hne (by decide)), if_neg (hne (by decide)), if_neg (hne (by decide)),
    if_neg (hne (by decide)), id_eq]

end Code

/-! ## Headings -/

/-- Lines that open with the canonical word for a rule, a name and a parenthesis. -/
inductive OpensHeading : List Char → Prop where
  | intro {indent gap name gap' : List Char} {c : Char}
      (hindent : ∀ c ∈ indent, CharSet.inlineBlank.mem c = true)
      (hgap : Fills .inlineBlank gap) (hc : CharSet.nameStart.mem c = true)
      (hname : ∀ c ∈ name, CharSet.nameRest.mem c = true)
      (hgap' : ∀ c ∈ gap', CharSet.inlineBlank.mem c = true) (rest : List Char) :
      OpensHeading
        (indent ++ (['R', 'u', 'l', 'e'] ++ (gap ++ (c :: name ++ (gap' ++ '(' :: rest)))))

/-- A heading opens with the word for a rule behind the indentation of its line. -/
theorem OpensHeading.isPrefix (h : OpensHeading line) :
    ['R', 'u', 'l', 'e'] <+: line.dropWhile CharSet.inlineBlank.mem := by
  obtain ⟨hindent, -, -, -, -, -⟩ := h
  rw [List.dropWhile_append_of_pos hindent]
  exact List.prefix_append _ _

/-- A text of characters of a set without the line feed stands on one line. -/
theorem newline_not_mem_of_mem {set : CharSet} (hset : set.mem '\n' = false)
    (ht : ∀ c ∈ t, set.mem c = true) : '\n' ∉ t := by
  intro hmem
  rw [ht _ hmem] at hset
  contradiction

/-- A word of the pattern that is of ASCII characters opens a line with a heading. -/
theorem opensHeading_of_spells {previous : Option Char} (h : headingPattern.Spells previous w)
    (hw : IsAscii w) :
    (previous = none ∨ previous = some '\n') ∧
      ∃ front back, w = front ++ back ∧ '\n' ∉ front ∧ ∀ rest, OpensHeading (front ++ rest) := by
  obtain ⟨-, -, rfl, ⟨-, indent, rfl, ⟨rfl, later, hstart⟩, hindent⟩, word, -, rfl, hword, gap, -,
    rfl, hgap, -, -, rfl, ⟨-, name, rfl, ⟨c, hc, rfl⟩, hname⟩, gap', -, rfl, hgap', -, back, rfl,
    ⟨d, hd, rfl⟩, -⟩ := h
  have hascii {a : Char} (ha : isBeyondAscii a = true) :
      a ∉ word ∧ a ≠ d := by
    by_contra hnot
    have hmem :
        a ∈ [] ++ indent ++ (word ++ (gap ++ ([c] ++ name ++ (gap' ++ ([d] ++ back))))) := by
      simp only [List.mem_append, List.mem_singleton]
      tauto
    rw [isBeyondAscii_eq_false hw hmem] at ha
    contradiction
  obtain rfl : word = ['R', 'u', 'l', 'e'] := by
    rcases hword with hother | hword
    · rw [spells_exactly_iff.1 hother] at hascii
      exact absurd List.mem_cons_self (hascii (a := '规') (by decide)).1
    · exact spells_exactly_iff.1 hword
  obtain rfl : d = '(' := by
    have hparen : d = '(' ∨ d = '（' := by simpa [CharSet.mem] using hd
    exact hparen.resolve_right (hascii (by decide)).2.symm
  have hgap := spells_someOf_iff.1 hgap
  refine ⟨by simpa [Anchor.holds] using hstart,
    indent ++ (['R', 'u', 'l', 'e'] ++ (gap ++ (c :: name ++ (gap' ++ ['('])))), back, by simp, ?_,
    fun rest => ?_⟩
  · have hblank {t : List Char} (ht : ∀ c ∈ t, CharSet.inlineBlank.mem c = true) : '\n' ∉ t :=
      newline_not_mem_of_mem (by decide) ht
    have hc' : '\n' ≠ c := by
      rintro rfl
      exact absurd hc (by decide +kernel)
    have hname' : '\n' ∉ name := newline_not_mem_of_mem (by decide +kernel) hname
    simp only [List.mem_append, List.mem_cons, not_or]
    exact ⟨hblank hindent, by decide, hblank hgap.2, ⟨hc', hname'⟩, hblank hgap', by decide⟩
  · simpa using OpensHeading.intro hindent hgap hc hname hgap' rest

/-- What comes first on a line opens a line of the text. -/
theorem exists_mem_splitOn (hfront : x = [] ∨ x.getLast? = some '\n') (hw : '\n' ∉ w)
    (y : List Char) : ∃ rest, w ++ rest ∈ (x ++ (w ++ y)).splitOn '\n' := by
  have hfirst : ∃ rest, w ++ rest ∈ (w ++ y).splitOn '\n' := by
    by_cases hy : '\n' ∈ y
    · obtain ⟨rest, later, rfl, hrest⟩ := List.eq_append_cons_of_mem hy
      refine ⟨rest, ?_⟩
      rw [← List.append_assoc, List.splitOn_append_cons_self,
        List.splitOn_eq_singleton (by simp [hw, hrest])]
      exact List.mem_append_left _ (List.mem_singleton_self _)
    · refine ⟨y, ?_⟩
      rw [List.splitOn_eq_singleton (by simp [hw, hy])]
      exact List.mem_singleton_self _
  rcases hfront with rfl | hlast
  · exact hfirst
  · obtain ⟨x, rfl⟩ := List.getLast?_eq_some_iff.1 hlast
    obtain ⟨rest, hmem⟩ := hfirst
    refine ⟨rest, ?_⟩
    rw [List.append_assoc, List.singleton_append, List.splitOn_append_cons_self]
    exact List.mem_append_right _ hmem

/-- **Code of ASCII characters has no heading to replace** if no line opens with one. -/
theorem canonicalizeHeadings_eq_self (h : HasAsciiCode text)
    (hlines : ∀ line ∈ text.splitOn '\n', ¬ OpensHeading line) :
    canonicalizeHeadings chinese.segmenter text = text := by
  refine replaceOutside_eq_self isSealed_headingPattern isTame_headingReplacement
    fun r hr u w v hsplit _ hspells => ?_
  have hascii := h.isAscii_of_code_eq hr hsplit
  obtain ⟨hstart, front, back, rfl, hfront, hopens⟩ := opensHeading_of_spells hspells hascii
  obtain ⟨x, y, htext, hbefore⟩ := exists_of_mem_stretches hr
  have hsplit' : text = (x ++ u) ++ (front ++ (back ++ (v ++ y))) := by
    rw [htext, hsplit]
    simp
  have hline : x ++ u = [] ∨ (x ++ u).getLast? = some '\n' := by
    rw [← List.getLast?_eq_none_iff, List.getLast?_append, ← hbefore]
    exact hstart
  obtain ⟨rest, hmem⟩ := exists_mem_splitOn hline hfront (back ++ (v ++ y))
  rw [← hsplit'] at hmem
  exact hlines _ hmem (hopens rest)

end RuleCanon
