import RuleCanon.Proofs.Literal.Lines

/-!
# Stretches of code that keep the line breaks

A change of a stretch of code keeps its lines if the breaks stay what they are.  It does not
depend on how lines end if a stretch with a carriage return in front of each line feed becomes
what the stretch becomes by itself, with the carriage returns added afterwards.  The second law
follows line by line: a carriage return at the end of a stretch must stay there and make no
difference.

Replacement of a pattern has both properties if what takes the place of a match has the breaks
of the match, and no match starts at a carriage return that ends the text.

## Main Definitions

* `KeepsBreaks` — functions of a stretch of code that keep its line breaks
* `Pattern.KeepsBreaks` — patterns and replacement texts that do

## Main Statements

* `KeepsBreaks.withReturns` — a stretch of code with the other line ends
* `Pattern.KeepsToLine.keepsBreaks` — patterns that cannot read a line break
* `Pattern.keepsBreaks_rewriteIn` — replacement in a stretch of code
-/

namespace RuleCanon

open Segment Pattern

/-! ## A stretch of code -/

/-- A function of a stretch of code and the characters next to it that goes line by line and
keeps the line breaks, and to which a carriage return at the end makes no difference. -/
structure KeepsBreaks (marks : List Char)
    (g : Option Char → List Char → Option Char → List Char) : Prop
    extends CutsAtNewline marks g where
  breaks_eq : ∀ {before t after}, (∀ o, after = some o → o ∈ marks) →
    breaks (g before t after) = breaks t
  return_end : ∀ before t, g before (t ++ ['\r']) none = g before t none ++ ['\r']

/-- **A stretch of code with a carriage return in front of each line feed** becomes what the
stretch becomes, with the carriage returns added afterwards. -/
theorem KeepsBreaks.withReturns {marks : List Char}
    {g : Option Char → List Char → Option Char → List Char} (hg : KeepsBreaks marks g)
    {before after : Option Char} (hafter : ∀ o, after = some o → o ∈ marks) (t : List Char) :
    g before (withReturns t) after = RuleCanon.withReturns (g before t after) := by
  have hline {before after : Option Char} {t : List Char} (ht : '\n' ∉ t)
      (hafter : ∀ o, after = some o → o ∈ marks) :
      RuleCanon.withReturns (g before t after) = g before t after := by
    refine withReturns_of_not_mem fun hmem => ht ?_
    rwa [← newline_mem_breaks, hg.breaks_eq hafter, newline_mem_breaks] at hmem
  induction t using lines_induction generalizing before with
  | last t ht => rw [withReturns_of_not_mem ht, hline ht hafter]
  | line t u ht ih =>
      have hsplit : RuleCanon.withReturns (t ++ '\n' :: u) =
          (t ++ ['\r']) ++ '\n' :: RuleCanon.withReturns u := by
        simp [withReturns_of_not_mem ht]
      rw [hsplit, hg.append, hg.return_end, ih, hg.append, withReturns_append,
        hline ht (by simp), withReturns_cons_newline, List.append_assoc, List.singleton_append]

/-! ## Replacement in a stretch of code -/

/-- Exchanges in a text leave alone what stands behind it. -/
theorem splice_append_right {w : List Char} {n : Nat} {exchanges : List (Span × List Char)}
    (h : Ascends w.length n (exchanges.map (·.1))) (hn : n ≤ w.length) (y : List Char) :
    splice (w ++ y) n exchanges = splice w n exchanges ++ y := by
  have hnone : Ascends 0 w.length (([] : List (Span × List Char)).map (·.1)) := trivial
  have hsplit : splice (w ++ y) n (exchanges ++ []) = _ := splice_append h hnone hn
  rwa [List.append_nil, List.take_left, splice, List.drop_left] at hsplit

/-- Exchanges that keep the breaks of what they replace keep all breaks. -/
theorem breaks_splice {text : List Char} {n upper : Nat} {exchanges : List (Span × List Char)}
    (h : Ascends upper n (exchanges.map (·.1)))
    (hkeep : ∀ e ∈ exchanges, breaks e.2 = breaks (slice text e.1.start e.1.stop)) :
    breaks (splice text n exchanges) = breaks (text.drop n) := by
  induction exchanges generalizing n with
  | nil => rfl
  | cons e rest ih =>
      obtain ⟨⟨hstart, hle, -⟩, hrest⟩ := h
      have hdrop : text.drop n =
          slice text n e.1.start ++ slice text e.1.start e.1.stop ++ text.drop e.1.stop := by
        rw [List.append_assoc, slice_append_drop text hle, slice_append_drop text hstart]
      rw [splice, hdrop, breaks_append, breaks_append, breaks_append, breaks_append,
        hkeep e List.mem_cons_self, ih hrest fun f hf => hkeep f (List.mem_cons_of_mem _ hf)]

namespace Pattern

open Segmenter

/-- A pattern and replacement texts for it that keep the line breaks of each match.  A carriage
return at the end of the text starts no match. -/
structure KeepsBreaks (p : Pattern) (f : List Char → Captures → List Char) : Prop where
  breaks_eq : ∀ {w i c}, p.matchAt? w i = some c →
    breaks (f w c) = breaks (slice w c.span.start c.span.stop)
  return_end : ∀ w, p.matchAt? (w ++ ['\r']) w.length = none

/-- No word of a pattern that cannot read a line break has one. -/
theorem AvoidsBreaks.breaks_eq_nil {p : Pattern} (h : p.AvoidsBreaks) {previous : Option Char}
    {w : List Char} (hw : p.Spells previous w) : breaks w = [] := by
  refine breaks_eq_nil_iff.2 fun c hc => ?_
  by_contra hbreak
  exact ne_of_avoids (h c (by simpa using hbreak)) hw c hc rfl

/-- A pattern that cannot read a line break keeps the breaks if what takes the place of a match
has none either. -/
theorem KeepsToLine.keepsBreaks {p : Pattern} {f : List Char → Captures → List Char}
    (h : p.KeepsToLine) (hvoid : p.canBeVoid = false) (havoids : p.AvoidsBreaks)
    (hf : ∀ {w c}, c.span.start ≤ c.span.stop →
      (∀ g ∈ c.groups, g.2.Within c.span.start c.span.stop) →
        breaks (slice w c.span.start c.span.stop) = [] → breaks (f w c) = []) :
    p.KeepsBreaks f where
  breaks_eq hc := by
    obtain ⟨hspells, hgroups⟩ := spells_of_matchAt? hc
    have hslice := havoids.breaks_eq_nil hspells
    rw [hslice, hf (within_of_matchHere? hc).2.1 hgroups hslice]
  return_end w := by rw [h.matchAt?_append [] rfl (Nat.le_refl _), matchAt?_length_eq_none hvoid]

section Exchanges

variable {p : Pattern} {f : List Char → Captures → List Char} {marks w : List Char}
  (hsealed : p.IsSealed marks) (hbreaks : p.KeepsBreaks f)

include hsealed hbreaks

/-- Replacement in a stretch of code keeps its line breaks. -/
theorem breaks_rewriteIn {before after : Option Char} (hafter : ∀ o, after = some o → o ∈ marks)
    (t : List Char) : breaks (p.rewriteIn f before t after) = breaks t := by
  have hascends := ascends_exchangesFrom p f [] (before.toList ++ t ++ after.toList)
    before.toList.length
  rw [rewriteIn_eq, breaks_splice hascends, List.drop_left]
  intro e he
  obtain ⟨c, hc, rfl⟩ := List.mem_map.1 he
  obtain ⟨i, -, hfind⟩ := exists_find_of_mem_matchesFrom_nil hc
  have hhere := (isLeftmost_of_find hfind).here
  have hstop := stop_le_of_matchAt?_mark hsealed hafter hhere
  rw [hbreaks.breaks_eq hhere, slice_append_of_le _ hstop]

variable (hlines : p.RewritesLines f)

include hlines

/-- A carriage return at the end of a text does not change what is exchanged. -/
theorem exchangesFrom_return {i : Nat} (hi : i ≤ w.length) :
    exchangesFrom p f [] (w ++ ['\r']) i = exchangesFrom p f [] w i := by
  have hnone : p.find (w ++ ['\r']) w.length = none := by
    refine find_eq_none_iff.2 fun k hk hlength => ?_
    rcases Nat.eq_or_lt_of_le hk with rfl | hlt
    · exact hbreaks.return_end w
    · by_contra hne
      obtain ⟨c, hc⟩ := Option.ne_none_iff_exists'.1 hne
      have hfilled := hsealed.lt_of_matchAt? hc
      have hstart := start_of_matchAt? hc
      rw [List.length_append, List.length_singleton] at hfilled
      omega
  rw [exchangesFrom_front hsealed hlines (b := '\r') rfl [] hi,
    exchangesFrom_nil_of_find_none hnone, List.append_nil]

/-- **Replacement in a stretch of code keeps the line breaks.** -/
theorem keepsBreaks_rewriteIn : RuleCanon.KeepsBreaks marks (p.rewriteIn f) where
  toCutsAtNewline := cutsAtNewline_rewriteIn hsealed hlines
  breaks_eq hafter := breaks_rewriteIn hsealed hbreaks hafter _
  return_end before t := by
    have hle : before.toList.length ≤ (before.toList ++ t).length := by simp
    have hascends := ascends_exchangesFrom p f [] (before.toList ++ t) before.toList.length
    have hexchanges := exchangesFrom_return hsealed hbreaks hlines hle
    rw [rewriteIn_eq, rewriteIn_eq, Option.toList_none, List.append_nil, List.append_nil,
      ← List.append_assoc, hexchanges, splice_append_right hascends hle]

end Exchanges

end Pattern

end RuleCanon
