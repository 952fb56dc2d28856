import Mathlib.Data.List.Chain
import RuleCanon.Proofs.Idiom.Codewise
import RuleCanon.Proofs.Literal.Scan
import RuleCanon.Proofs.Pattern.Greedy

/-!
# Code without comparison words

Each comparison word ends with the same character, and there are three characters that stand in
front of it.  So a text has a comparison word in it just if two neighbours of it are of that kind,
which makes the absence of comparison words a property of neighbours: it can be shown for a text
that is put together from others by looking at the seams.

## Main Definitions

* `IsComparing` — neighbours that are the end of a comparison word
* `IsCompared` — texts without comparison words

## Main Statements

* `matchAt?_comparisonPattern_eq_none` — in such texts there is nothing to replace
* `isCompared_of_rewrites` — replacement of comparison words leaves such a text
-/

namespace RuleCanon

open Pattern

variable {c d : Char} {t u v w x y z out text : List Char} {i : Nat} {m : Captures}

namespace Pattern

/-- The first of several patterns has a run if one of them has. -/
theorem runs_alts_ne_nil {ps : List Pattern} {p : Pattern} {r : Run} (hp : p ∈ ps)
    (h : p.runs r ≠ []) : (alts ps).runs r ≠ [] := by
  induction ps with
  | nil => contradiction
  | cons q ps ih =>
      cases ps with
      | nil => exact List.mem_singleton.1 hp ▸ h
      | cons q' ps =>
          show q.runs r ++ (alts (q' :: ps)).runs r ≠ []
          rcases List.mem_cons.1 hp with rfl | hp
          · exact List.append_ne_nil_of_left_ne_nil h _
          · exact List.append_ne_nil_of_right_ne_nil _ (ih hp)

/-- The words of several patterns are those of each. -/
theorem exists_of_spells_alts {ps : List Pattern} (hps : ps ≠ []) {previous : Option Char}
    (h : (alts ps).Spells previous w) : ∃ p ∈ ps, p.Spells previous w := by
  induction ps with
  | nil => contradiction
  | cons q ps ih =>
      cases ps with
      | nil => exact ⟨q, List.mem_cons_self, h⟩
      | cons q' ps =>
          rcases h with h | h
          · exact ⟨q, List.mem_cons_self, h⟩
          · obtain ⟨p, hp, hspells⟩ := ih (List.cons_ne_nil q' ps) h
            exact ⟨p, List.mem_cons_of_mem q hp, hspells⟩

end Pattern

/-! ## Comparison words -/

/-- Neighbours that a comparison word ends with. -/
def IsComparing (c d : Char) : Prop := c ∈ ['大', '小', '等'] ∧ d = '于'

/-- Texts without comparison words. -/
def IsCompared (text : List Char) : Prop := text.IsChain fun c d => ¬ IsComparing c d

/-- A match is a comparison word. -/
theorem mem_comparisons_of_matchAt? (h : comparisonPattern.matchAt? text i = some m) :
    slice text m.span.start m.span.stop ∈ comparisons.map (·.1) := by
  obtain ⟨p, hp, hspells⟩ := exists_of_spells_alts (by decide) (spells_of_matchAt? h).1
  obtain ⟨e, he, rfl⟩ := List.mem_map.1 hp
  rw [spells_exactly_iff.1 hspells]
  exact List.mem_map.2 ⟨e, he, rfl⟩

/-- Where a comparison word starts there is a match. -/
theorem matchAt?_comparisonPattern_ne_none (hw : w ∈ comparisons.map (·.1)) (x y : List Char) :
    comparisonPattern.matchAt? (x ++ (w ++ y)) x.length ≠ none := by
  obtain ⟨e, he, rfl⟩ := List.mem_map.1 hw
  intro hnone
  rw [matchAt?, matchHere?, Option.map_eq_none_iff, List.head?_eq_none_iff, List.drop_left] at hnone
  refine runs_alts_ne_nil (p := exactly e.1) (List.mem_map.2 ⟨e, he, rfl⟩) ?_ hnone
  rw [runs_exactly rfl]
  exact List.cons_ne_nil _ _

/-- No comparison word starts where no match does. -/
theorem not_isComparing_of_matchAt? (h : comparisonPattern.matchAt? (x ++ c :: y) x.length = none) :
    ∀ d, y.head? = some d → ¬ IsComparing c d := by
  rintro d hd ⟨hc, rfl⟩
  obtain ⟨y, rfl⟩ := List.head?_eq_some_iff.1 hd
  refine matchAt?_comparisonPattern_ne_none (w := [c, '于']) ?_ x y h
  simp only [List.mem_cons, List.not_mem_nil, or_false] at hc
  rcases hc with rfl | rfl | rfl <;> decide

/-- Each comparison word ends with such neighbours. -/
theorem not_isCompared_of_mem_comparisons (hw : w ∈ comparisons.map (·.1)) : ¬ IsCompared w := by
  have hall : ∀ e ∈ comparisons, ∃ c ∈ ['大', '小', '等'], ∃ front, e.1 = front ++ [c, '于'] := by
    intro e he
    simp only [comparisons, List.mem_cons, List.not_mem_nil, or_false] at he
    rcases he with rfl | rfl | rfl | rfl | rfl | rfl
    · exact ⟨'等', by decide, ['大', '于'], rfl⟩
    · exact ⟨'等', by decide, ['小', '于'], rfl⟩
    · exact ⟨'等', by decide, ['不'], rfl⟩
    · exact ⟨'等', by decide, [], rfl⟩
    · exact ⟨'大', by decide, [], rfl⟩
    · exact ⟨'小', by decide, [], rfl⟩
  obtain ⟨e, he, rfl⟩ := List.mem_map.1 hw
  obtain ⟨c, hc, front, hfront⟩ := hall e he
  intro hcompared
  rw [hfront, IsCompared, List.isChain_append] at hcompared
  exact (List.isChain_cons_cons.1 hcompared.2.1).1 ⟨hc, rfl⟩

/-- What a slice of a text holds stands in the text. -/
theorem slice_isInfix (text : List Char) (i j : Nat) : slice text i j <:+: text :=
  (List.take_prefix _ _).isInfix.trans (List.drop_suffix _ _).isInfix

/-- **In a text without comparison words there is nothing to replace.** -/
theorem matchAt?_comparisonPattern_eq_none (h : IsCompared text) (i : Nat) :
    comparisonPattern.matchAt? text i = none := by
  by_contra hsome
  obtain ⟨m, hm⟩ := Option.ne_none_iff_exists'.1 hsome
  exact not_isCompared_of_mem_comparisons (mem_comparisons_of_matchAt? hm) <|
    List.IsChain.infix h (slice_isInfix text _ _)

/-! ## Replacement -/

/-- What takes the place of a comparison word is an operator with spaces around it. -/
theorem exists_of_comparisonReplacement (h : comparisonPattern.matchAt? text i = some m) :
    ∃ e ∈ comparisons, ∃ lead trail, comparisonReplacement text m = lead ++ e.2 ++ trail ∧
      lead ⊆ [' '] ∧ trail ⊆ [' '] := by
  have hspace (b : Bool) : (if b then [' '] else []) ⊆ [' '] := by cases b <;> simp
  obtain ⟨e, he, heq⟩ := List.mem_map.1 (mem_comparisons_of_matchAt? h)
  have hlookup : ∀ e ∈ comparisons, comparisons.lookup e.1 = some e.2 := by decide
  refine ⟨e, he, if isFilled (charBefore? text m.span.start) then [' '] else [],
    if isFilled (charAfter? text m.span.stop) then [' '] else [], ?_, hspace _, hspace _⟩
  rw [comparisonReplacement, ← heq, hlookup e he, Option.getD_some]

theorem comparisonReplacement_ne_nil (h : comparisonPattern.matchAt? text i = some m) :
    comparisonReplacement text m ≠ [] := by
  obtain ⟨e, he, lead, trail, heq, -, -⟩ := exists_of_comparisonReplacement h
  have hoperator : ∀ e ∈ comparisons, e.2 ≠ [] := by decide
  rw [heq]
  simp [hoperator e he]

/-- No operator has a character that comparison words end with. -/
theorem not_mem_comparisonReplacement (h : comparisonPattern.matchAt? text i = some m)
    (hc : c ∈ comparisonReplacement text m) : c ∉ ['大', '小', '等', '于'] := by
  obtain ⟨e, he, lead, trail, heq, hlead, htrail⟩ := exists_of_comparisonReplacement h
  have hoperator : ∀ e ∈ comparisons, ['大', '小', '等', '于'].all (· ∉ e.2) = true := by decide
  have hspace : ∀ c ∈ [' '], c ∉ ['大', '小', '等', '于'] := by simp
  rw [heq, List.mem_append, List.mem_append] at hc
  rcases hc with (hc | hc) | hc
  · exact hspace c (hlead hc)
  · intro hend
    exact of_decide_eq_true (List.all_eq_true.1 (hoperator e he) c hend) hc
  · exact hspace c (htrail hc)

/-- Characters that comparison words do not end with can stand in front of any text. -/
theorem isCompared_append_of_not_mem (hu : ∀ c ∈ u, c ∉ ['大', '小', '等', '于'])
    (hv : IsCompared v) : IsCompared (u ++ v) := by
  induction u with
  | nil => exact hv
  | cons c u ih =>
      obtain ⟨hc, hu⟩ := List.forall_mem_cons.1 hu
      refine List.isChain_cons.2 ⟨fun d _ hcomparing => hc ?_, ih hu⟩
      exact List.mem_append_left ['于'] hcomparing.1

section Rewrites

variable {p : Pattern} {f : List Char → Captures → List Char}
  (hf : ∀ {text i m}, p.matchAt? text i = some m → f text m ≠ [])
  (hplain : ∀ {text i m c}, p.matchAt? text i = some m → c ∈ f text m →
    c ∉ ['大', '小', '等', '于'])

include hf hplain

/-- A walk puts no end of a comparison word behind the characters that it leaves. -/
theorem Pattern.Rewrites.head?_eq_of_isComparing (h : p.Rewrites f z x y out)
    (hd : (out ++ z).head? = some d) (hcomparing : IsComparing c d) : (y ++ z).head? = some d := by
  cases h with
  | nil => exact hd
  | copy => exact hd
  | @exchange x w y out m hmatch =>
      obtain ⟨a, u, hau⟩ := List.exists_cons_of_ne_nil (hf hmatch)
      have had : a = d := by
        rw [hau] at hd
        exact Option.some.inj hd
      have hmem := hplain hmatch (c := a) (by rw [hau]; exact List.mem_cons_self)
      rw [had, hcomparing.2] at hmem
      exact absurd hmem (by decide)

/-- A walk leaves no comparison word if it passes none over and puts none in. -/
theorem Pattern.Rewrites.isCompared (h : p.Rewrites f z x y out) (hz : IsCompared z)
    (hseam : ∀ u c v, x ++ y = u ++ c :: v → p.matchAt? (u ++ c :: (v ++ z)) u.length = none →
      ∀ d, (v ++ z).head? = some d → ¬ IsComparing c d) : IsCompared (out ++ z) := by
  induction h with
  | nil => exact hz
  | @copy x y out c hnone hrest ih =>
      refine List.isChain_cons.2 ⟨fun d hd hcomparing => ?_, ih fun u a v hsplit =>
        hseam u a v (by rw [← hsplit]; simp)⟩
      refine hseam x c y rfl (by simpa using hnone) d ?_ hcomparing
      exact hrest.head?_eq_of_isComparing hf hplain hd hcomparing
  | @exchange x w y out m hmatch hspan _ hrest ih =>
      rw [List.append_assoc]
      refine isCompared_append_of_not_mem (fun c => hplain hmatch) (ih fun u a v hsplit => ?_)
      exact hseam u a v (by rw [← hsplit]; simp)

/-- A walk through a text without comparison words leaves such a text if it puts none in. -/
theorem Pattern.Rewrites.isCompared_of_isCompared (h : p.Rewrites f z x y out)
    (hall : IsCompared (x ++ y ++ z)) : IsCompared (out ++ z) := by
  refine h.isCompared hf hplain (hall.suffix (List.suffix_append _ _)) ?_
  intro u c v hsplit _ d hd
  rw [hsplit, List.append_assoc, IsCompared, List.isChain_append] at hall
  exact (List.isChain_cons.1 hall.2.1).1 d hd

end Rewrites

/-- **Replacement of comparison words leaves none.** -/
theorem isCompared_of_rewrites (h : comparisonPattern.Rewrites comparisonReplacement z x y out)
    (hz : IsCompared z) : IsCompared (out ++ z) :=
  h.isCompared comparisonReplacement_ne_nil not_mem_comparisonReplacement hz
    fun _ _ _ _ => not_isComparing_of_matchAt?

end RuleCanon
