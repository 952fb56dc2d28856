import Mathlib.Data.List.MinMax
import RuleCanon.Proofs.Keyword.Border
import RuleCanon.Proofs.Stage.Operator

/-!
# Comparison words, the longest first

The pattern for comparison words tries one word after the other and takes the first that fits.
Words come in the order of their length, so this is the longest of those that start at the place.
Replacement of comparison words is then a scan through the code, which takes the longest word at
each place and looks at the neighbours of the word in the text as it was.  It needs no search and
no pattern.

## Main Definitions

* `longestComparison?` — the longest comparison word that a text starts with
* `scanComparisons` — the scan through a stretch of code

## Main Statements

* `canonicalizeComparisons_eq` — replacement of comparison words is the scan of each stretch
* `operator_reads_longest` — that, and the stage leaves no comparison word in code
-/

namespace RuleCanon

open Lexicon Pattern Segment Segmenter

variable {c : Char} {t w x y z out : List Char}

/-! ## The longest word -/

/-- The longest comparison word that the text starts with, and its operator. -/
def longestComparison? (text : List Char) : Option (List Char × List Char) :=
  (comparisons.filter (·.1.isPrefixOf text)).argmax (·.1.length)

/-- The first of the largest members is the first of all where members only get smaller. -/
theorem argmax_eq_head? {α : Type} {size : α → Nat} {l : List α}
    (h : l.Pairwise fun a b => size b ≤ size a) : l.argmax size = l.head? := by
  induction l with
  | nil => rfl
  | cons a l ih =>
      obtain ⟨ha, hl⟩ := List.pairwise_cons.1 h
      rw [List.argmax_cons, ih hl, List.head?_cons]
      cases l with
      | nil => rfl
      | cons b l => simp [Nat.not_lt.2 (ha b List.mem_cons_self)]

/-- **The longest word is the first one that fits.** -/
theorem longestComparison?_eq_find? (text : List Char) :
    longestComparison? text = comparisons.find? (·.1.isPrefixOf text) := by
  have hsorted : comparisons.Pairwise fun e e' => e'.1.length ≤ e.1.length := by decide
  rw [longestComparison?, argmax_eq_head? (hsorted.filter _), List.head?_filter]

theorem exists_of_longestComparison? {e : List Char × List Char}
    (h : longestComparison? t = some e) : e ∈ comparisons ∧ e.1 <+: t := by
  rw [longestComparison?_eq_find?] at h
  exact ⟨List.mem_of_find?_eq_some h, by simpa using List.find?_some h⟩

/-- No comparison word goes on into what starts with a character of another kind. -/
theorem longestComparison?_append (hz : ∀ o, z.head? = some o → ∀ e ∈ comparisons, o ∉ e.1)
    (y : List Char) : longestComparison? (y ++ z) = longestComparison? y := by
  cases z with
  | nil => rw [List.append_nil]
  | cons o z =>
      rw [longestComparison?_eq_find?, longestComparison?_eq_find?]
      exact List.find?_congr fun e he => isPrefixOf_append_cons (hz o rfl e he) y z

/-! ## What the pattern finds -/

namespace Pattern

/-- Of several words the first one that stands at a place is read. -/
theorem head?_runs_alts_exactly {α : Type} (l : List (List Char × α)) (r : Run) :
    ((alts (l.map fun e => exactly e.1)).runs r).head? =
      (l.find? (·.1.isPrefixOf r.rest)).map fun e => r.read e.1 (r.rest.drop e.1.length) := by
  rw [runs_alts, List.flatMap_map]
  induction l with
  | nil => rfl
  | cons e l ih =>
      rw [List.flatMap_cons]
      by_cases he : e.1 <+: r.rest
      · have hrest : r.rest = e.1 ++ r.rest.drop e.1.length :=
          (List.prefix_iff_eq_append.1 he).symm
        rw [runs_exactly hrest]
        simp [he]
      · rw [runs_exactly_eq_nil he, List.nil_append, ih]
        simp [he]

end Pattern

/-- A match at a place covers the longest comparison word there. -/
theorem span_matchAt?_comparisonPattern (x t : List Char) :
    (comparisonPattern.matchAt? (x ++ t) x.length).map (·.span) =
      (longestComparison? t).map fun e => ⟨x.length, x.length + e.1.length⟩ := by
  rw [matchAt?, matchHere?, comparisonPattern, List.drop_left, head?_runs_alts_exactly,
    longestComparison?_eq_find?, Option.map_map, Option.map_map]
  rfl

/-! ## The scan -/

/-- A space, if there is a character next to it that is not blank. -/
def padding (neighbour : Option Char) : List Char := if isFilled neighbour then [' '] else []

/-- Goes through code from left to right, with the characters in front of it and behind it.  The
longest comparison word at a place becomes its operator, with a space towards each neighbour that
is not blank; other characters stay. -/
def scanComparisons (before : Option Char) (code : List Char) (after : Option Char) :
    List Char :=
  match code with
  | [] => []
  | c :: rest =>
    match longestComparison? (c :: rest) with
    | some (word, operator) =>
      let behind := rest.drop (word.length - 1)
      padding before ++ operator ++ padding (behind.head?.or after) ++
        scanComparisons (word.getLast?.or before) behind after
    | none => c :: scanComparisons (some c) rest after
termination_by code.length
decreasing_by
  · simp only [List.length_drop, List.length_cons]
    omega
  · simp

/-- What takes the place of a word: its operator with spaces around it. -/
theorem comparisonReplacement_eq {e : List Char × List Char} {m : Captures}
    (he : e ∈ comparisons) (hspan : m.span = ⟨x.length, x.length + e.1.length⟩) :
    comparisonReplacement (x ++ (e.1 ++ y) ++ z) m =
      padding x.getLast? ++ e.2 ++ padding (y.head?.or z.head?) := by
  have hlookup : ∀ e ∈ comparisons, comparisons.lookup e.1 = some e.2 := by decide
  have hbefore : charBefore? (x ++ (e.1 ++ y) ++ z) m.span.start = x.getLast? := by
    rw [hspan, List.append_assoc, charBefore?_length]
  have hafter : charAfter? (x ++ (e.1 ++ y) ++ z) m.span.stop = y.head?.or z.head? := by
    have hsplit : x ++ (e.1 ++ y) ++ z = (x ++ e.1) ++ (y ++ z) := by simp
    rw [hspan, charAfter?, ← List.head?_drop, hsplit, ← List.length_append, List.drop_left,
      List.head?_append]
  rw [comparisonReplacement, hbefore, hafter, slice_of_span hspan, hlookup e he]
  rfl

/-- **A walk that replaces comparison words is a scan.** -/
theorem eq_scanComparisons_of_rewrites
    (h : comparisonPattern.Rewrites comparisonReplacement z x y out)
    (hz : ∀ o, z.head? = some o → ∀ e ∈ comparisons, o ∉ e.1) :
    out = scanComparisons x.getLast? y z.head? := by
  induction h with
  | nil => rw [scanComparisons]
  | @copy x y out c hnone hrest ih =>
      have hlongest : longestComparison? (c :: y) = none := by
        have hspan := span_matchAt?_comparisonPattern x (c :: y ++ z)
        rw [← List.append_assoc, hnone, longestComparison?_append hz] at hspan
        exact Option.map_eq_none_iff.1 hspan.symm
      rw [List.getLast?_concat] at ih
      rw [scanComparisons, hlongest]
      simp only [ih]
  | @exchange x w y out m hmatch hspan hne hrest ih =>
      obtain ⟨e, hlongest, hlength⟩ : ∃ e, longestComparison? (w ++ y) = some e ∧
          e.1.length = w.length := by
        have hlongest := span_matchAt?_comparisonPattern x (w ++ y ++ z)
        rw [← List.append_assoc, hmatch, longestComparison?_append hz] at hlongest
        obtain ⟨e, he, heq⟩ := Option.map_eq_some_iff.1 hlongest.symm
        refine ⟨e, he, ?_⟩
        have hstop := congrArg Span.stop (heq.trans hspan)
        exact Nat.add_left_cancel hstop
      obtain ⟨he, hstarts⟩ := exists_of_longestComparison? hlongest
      obtain rfl : e.1 = w := by
        have hprefix := List.prefix_of_prefix_length_le hstarts (List.prefix_append w y)
          (Nat.le_of_eq hlength)
        exact hprefix.eq_of_length hlength
      obtain ⟨c, w, hw⟩ := List.exists_cons_of_ne_nil hne
      have hbehind : (w ++ y).drop (e.1.length - 1) = y :=
        drop_pred_of_eq_append hne (by rw [hw]; rfl)
      rw [comparisonReplacement_eq he hspan]
      rw [List.getLast?_append] at ih
      rw [hw, List.cons_append] at hlongest ⊢
      rw [scanComparisons, hlongest]
      simp only [hbehind, ih]

/-! ## The stage -/

/-- The marks around literals are in no comparison word. -/
theorem not_mem_comparisons_of_mem_marks (hc : c ∈ chinese.segmenter.marks) :
    ∀ e ∈ comparisons, c ∉ e.1 := by
  have hall : chinese.segmenter.marks.all (fun c => ∀ e ∈ comparisons, c ∉ e.1) = true := by
    decide
  exact of_decide_eq_true (List.all_eq_true.1 hall c hc)

/-- **Replacement of comparison words is the scan of each stretch of code.** -/
theorem canonicalizeComparisons_eq (text : List Char) :
    canonicalizeComparisons chinese.segmenter text =
      textOf (mapCodeIn scanComparisons none (chinese.segmenter.segments text)) := by
  rw [rewritesBy_canonicalizeComparisons.apply_eq]
  refine congrArg textOf ((mapCodeIn_eq_iff _).2 fun r hr => ?_)
  have hafter := (isStretch_of_mem_stretches hr).after
  have hwalk := rewrites_rewriteIn isSealed_comparisonPattern comparisonReplacement r.before
    hafter r.code
  have hlast : r.before.toList.getLast? = r.before := by cases r.before <;> rfl
  have hhead : r.after.toList.head? = r.after := by cases r.after <;> rfl
  have hscan := eq_scanComparisons_of_rewrites hwalk fun o ho =>
    not_mem_comparisons_of_mem_marks (hafter o (hhead ▸ ho))
  rw [hscan, hlast, hhead]

/-- Code that the stage leaves has no comparison word. -/
theorem isCompared_operator (text : List Char) :
    ∀ t, .code t ∈ chinese.segmenter.segments
      ((Stage.operator .chinese).apply chinese.segmenter text) → IsCompared t := by
  intro t ht
  rw [operator_apply_eq] at ht
  obtain ⟨r, hr, rfl⟩ := exists_mem_stretchesIn_of_code_mem none ht
  have hsettled := isSettled_canonicalizeBindings (isSettled_canonicalizeThen text) r hr
  exact hsettled.compared.left_of_append

/-- **Comparison words are read longest first, in code and nowhere else.**  Replacement of
comparison words is the scan of each stretch of code, and the whole stage leaves no comparison word
in code. -/
theorem operator_reads_longest (text : List Char) :
    canonicalizeComparisons chinese.segmenter text =
      textOf (mapCodeIn scanComparisons none (chinese.segmenter.segments text)) ∧
    ∀ t, .code t ∈ chinese.segmenter.segments
      ((Stage.operator .chinese).apply chinese.segmenter text) →
        ∀ e ∈ comparisons, ¬ e.1 <:+: t := by
  refine ⟨canonicalizeComparisons_eq text, fun t ht e he hpart => ?_⟩
  have hword : IsCompared e.1 := List.IsChain.infix (isCompared_operator text t ht) hpart
  exact not_isCompared_of_mem_comparisons (List.mem_map.2 ⟨e, he, rfl⟩) hword

/-- Neighbours are seen across the marks of literals, and words in literals stay. -/
theorem operator_reads_longest_literal :
    let text := "若 x大于等于「等于」不等于 y".toList
    canonicalizeComparisons chinese.segmenter text = "若 x >= 「等于」 != y".toList ∧
      .code "若 x >= ".toList ∈ chinese.segmenter.segments
        ((Stage.operator .chinese).apply chinese.segmenter text) ∧
      ¬ "等于".toList <:+: "若 x >= ".toList := by
  intro text
  obtain ⟨hscan, hnone⟩ := operator_reads_longest text
  have hcode : .code "若 x >= ".toList ∈ chinese.segmenter.segments
      ((Stage.operator .chinese).apply chinese.segmenter text) := by
    decide +kernel
  refine ⟨?_, hcode, hnone _ hcode (_, ['=', '=']) (by decide)⟩
  rw [hscan]
  decide +kernel

end RuleCanon
